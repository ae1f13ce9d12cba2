import FederatedQuery.Proofs.Planning.Conversions
import FederatedQuery.Proofs.Planning.ValueSources
import FederatedQuery.Proofs.Pushdown.Validation

/-!
# The names of value sources

Names are numbered from a counter that knows nothing of the plan.  A run uses every
number that it takes for one join, so the names of the joins stay distinct exactly if
none that was there before is taken again.  The counter is enough if all names with
numbers come from it.
-/

namespace FederatedQuery

/-! ## Names in a plan -/

/-- What a subquery says, also what it has been planned to send. -/
def Subquery.objects (subquery : Subquery) : List LanguageObject :=
  .command subquery.command :: subquery.correlatedReferences.map (.expr ·.expr) ++
    match subquery.plan with
    | some (.access (some command) _) => [.command command]
    | _ => []

/-- The first object is written somewhere in the second one. -/
inductive LanguageObject.Within : LanguageObject → LanguageObject → Prop
  | self (object : LanguageObject) : Within object object
  | child {part child object : LanguageObject} (member : child ∈ object.children)
      (deeper : Within part child) : Within part object
  | value {part : LanguageObject} {expr valueExpr : Expr} {source : String}
      (deeper : Within part (.expr valueExpr)) :
      Within part (.criteria (.dependentSet expr source valueExpr))
  | subquery {part inner object : LanguageObject} {subquery : Subquery}
      (found : object.subquery? = some subquery) (member : inner ∈ subquery.objects)
      (deeper : Within part inner) : Within part object

def NodeKind.objects : NodeKind → List LanguageObject
  | .join payload => payload.criteria.map .criteria ++ payload.leftExprs.map .expr ++
      payload.rightExprs.map .expr
  | .access payload => payload.pushedCriteria.map .criteria
  | .select payload => [.criteria payload.criteria]
  | .project exprs | .sort exprs | .group exprs => exprs.map .expr
  | .setOp _ _ | .dupRemove | .source _ | .null => []

def Plan.AwaitsSource (plan : Plan) (source : String) : Prop :=
  ∃ node ∈ plan.nodes, ∃ object ∈ node.kind.objects, ∃ expr valueExpr,
    LanguageObject.Within (.criteria (.dependentSet expr source valueExpr)) object

namespace PlanTree

def valueSource? (tree : PlanTree) : Option String := tree.kind.join?.bind (·.valueSource)

def sources (tree : PlanTree) : List String := tree.subtrees.filterMap valueSource?

def HasSource (tree : PlanTree) (id : NodeId) (source : String) : Prop :=
  ∃ join inputs, PlanTree.node id (.join join) inputs ∈ tree.subtrees ∧
    join.valueSource = some source

variable {tree sub : PlanTree} {id : NodeId} {source : String}

theorem hasSource_of_valueSource? (member : sub ∈ tree.subtrees)
    (hsource : sub.valueSource? = some source) : tree.HasSource sub.id source := by
  obtain ⟨id, kind, inputs⟩ := sub
  cases kind <;> simp only [valueSource?, kind_node, NodeKind.join?, Option.bind_some,
    Option.bind_none, reduceCtorEq] at hsource
  exact ⟨_, inputs, member, hsource⟩

theorem mem_sources_iff : source ∈ tree.sources ↔ ∃ id, tree.HasSource id source := by
  rw [sources, List.mem_filterMap]
  constructor
  · rintro ⟨sub, member, hsource⟩
    exact ⟨sub.id, hasSource_of_valueSource? member hsource⟩
  · rintro ⟨id, join, inputs, member, hsource⟩
    exact ⟨_, member, hsource⟩

theorem nodup_sources_iff (nodup : tree.ids.Nodup) :
    tree.sources.Nodup ↔ ∀ {id other source}, tree.HasSource id source →
      tree.HasSource other source → id = other := by
  rw [sources, List.Nodup, List.pairwise_filterMap]
  constructor
  · rintro pairwise id other source ⟨join, inputs, member, hsource⟩
      ⟨join', inputs', member', hsource'⟩
    have symm : Std.Symm fun sub other : PlanTree => ∀ first, sub.valueSource? = some first →
        ∀ second, other.valueSource? = some second → first ≠ second :=
      ⟨fun _ _ distinct _ h _ h' => (distinct _ h' _ h).symm⟩
    by_contra apart
    have different : PlanTree.node id (.join join) inputs ≠ .node other (.join join') inputs' :=
      fun same => apart (congrArg PlanTree.id same)
    exact pairwise.forall member member' different source hsource source hsource' rfl
  · intro distinct
    refine (List.Nodup.of_map _ nodup).pairwise_of_forall_ne ?_
    rintro sub member other member' different source hsource _ hsource' rfl
    exact different (eq_of_id_eq nodup member member' (distinct
      (hasSource_of_valueSource? member hsource) (hasSource_of_valueSource? member' hsource')))

/-! ## Names after conversions -/

variable {outcomes : NodeId → Outcome} {first last : Nat}

theorem hasSource_rebuild_kept (sound : tree.Sound outcomes first last) (nodup : tree.ids.Nodup)
    (shaped : tree.WellShaped) (has : tree.HasSource id source) :
    (tree.rebuild outcomes).HasSource id source := by
  obtain ⟨join, inputs, member, hsource⟩ := has
  obtain ⟨_, _, left, right, ⟨⟩, -⟩ := (shaped.of_mem member).exists_inputs rfl
  have unsettled : outcomes id = .none := by
    by_contra settled
    obtain ⟨side, allows⟩ := sound.exists_allows nodup shaped member settled
    cases hsource.symm.trans (JoinNode.ordinary_of_allows allows)
  have rebuilt := @rebuild_mem_subtrees outcomes _ _ member
  rw [rebuild_join, unsettled, Outcome.apply_none] at rebuilt
  exact ⟨join, _, rebuilt, hsource⟩

theorem hasSource_rebuild_converted (sound : tree.Sound outcomes first last)
    (shaped : tree.WellShaped) {conversion : Conversion}
    (converted : (outcomes id).conversion = some conversion) :
    (∃ join inputs, PlanTree.node id (.join join) inputs ∈ tree.subtrees ∧
        join.valueSource = none) ∧
      (tree.rebuild outcomes).HasSource id (ChooseDependent.valueSourceName conversion.number) := by
  obtain ⟨candidate, hcandidate, rfl⟩ := sound.exists_candidate (by rw [converted]; simp)
  obtain ⟨join, left, right, hjoins, hleft, hright, eligible, -⟩ :=
    exists_of_mem_candidates shaped hcandidate
  have member := joins_subset_subtrees tree hjoins
  obtain ⟨side, hadmits⟩ := CandidateJoin.exists_admits hleft hright eligible
  refine ⟨⟨join, _, member, JoinNode.ordinary_of_allows (JoinNode.allows_of_admits hadmits)⟩, ?_⟩
  cases houtcome : outcomes candidate.join with
  | mk costs taken =>
      rw [houtcome] at converted
      obtain rfl : taken = some conversion := converted
      obtain ⟨payload, input, happly, hsource⟩ := conversion.exists_apply_eq costs candidate.join
        join (left.rebuild outcomes) (right.rebuild outcomes)
      have rebuilt := @rebuild_mem_subtrees outcomes _ _ member
      rw [rebuild_join, houtcome, happly] at rebuilt
      exact ⟨payload, _, rebuilt, hsource⟩

theorem hasSource_rebuild_iff (sound : tree.Sound outcomes first last) (nodup : tree.ids.Nodup)
    (shaped : tree.WellShaped) :
    (tree.rebuild outcomes).HasSource id source ↔ tree.HasSource id source ∨
      ∃ conversion, (outcomes id).conversion = some conversion ∧
        source = ChooseDependent.valueSourceName conversion.number := by
  constructor
  · rintro ⟨payload, inputs, member, hsource⟩
    obtain ⟨join, olds, hold, same | ⟨conversion, converted, hnew⟩⟩ :=
      exists_join_of_mem_rebuild member
    · exact .inl ⟨join, olds, hold, same.symm.trans hsource⟩
    · exact .inr ⟨conversion, converted, Option.some.inj (hsource.symm.trans hnew)⟩
  · rintro (has | ⟨conversion, converted, rfl⟩)
    · exact hasSource_rebuild_kept sound nodup shaped has
    · exact (hasSource_rebuild_converted sound shaped converted).2

theorem nodup_sources_rebuild_iff (sound : tree.Sound outcomes first last)
    (nodup : tree.ids.Nodup) (shaped : tree.WellShaped)
    (nodup' : (tree.rebuild outcomes).ids.Nodup) (distinct : tree.sources.Nodup) :
    (tree.rebuild outcomes).sources.Nodup ↔
      ∀ {id conversion}, (outcomes id).conversion = some conversion →
        ChooseDependent.valueSourceName conversion.number ∉ tree.sources := by
  rw [nodup_sources_iff nodup']
  constructor
  · intro distinct' id conversion converted there
    obtain ⟨other, has⟩ := mem_sources_iff.mp there
    obtain ⟨⟨join, inputs, member, ordinary⟩, new⟩ :=
      hasSource_rebuild_converted sound shaped converted
    obtain rfl := distinct' new (hasSource_rebuild_kept sound nodup shaped has)
    obtain ⟨join', inputs', member', hsource⟩ := has
    cases eq_of_id_eq nodup member member' rfl
    cases ordinary.symm.trans hsource
  · intro apart id other source has has'
    rw [hasSource_rebuild_iff sound nodup shaped] at has has'
    rcases has with old | ⟨conversion, converted, h⟩ <;>
      rcases has' with old' | ⟨conversion', converted', h'⟩
    · exact (nodup_sources_iff nodup).mp distinct old old'
    · exact (apart converted' (h' ▸ mem_sources_iff.mpr ⟨id, old⟩)).elim
    · exact (apart converted (h ▸ mem_sources_iff.mpr ⟨other, old'⟩)).elim
    · exact sound.distinct converted converted'
        (ChooseDependent.valueSourceName_injective (h.symm.trans h'))

end PlanTree

/-! ## Names that a run takes -/

/-- The name has a number that has been taken between two sessions. -/
def Session.Allocates (start final : Session) (source : String) : Prop :=
  ∃ number, start.nextValueSource ≤ number ∧ number < final.nextValueSource ∧
    source = "$dsc/id" ++ toString number

theorem ChooseDependent.valueSourceName_eq (number : Nat) :
    valueSourceName number = "$dsc/id" ++ toString number := by
  simp [valueSourceName, toString]

namespace ChooseDependent

variable {tree : PlanTree} {outcomes : NodeId → Outcome} {first : Nat}
  {context : PlanningContext} {start final : Session}

/-- Every number that has been taken belongs to a conversion. -/
def Covers (outcomes : NodeId → Outcome) (first last : Nat) : Prop :=
  ∀ number, first ≤ number → number < last →
    ∃ id conversion, (outcomes id).conversion = some conversion ∧ conversion.number = number

theorem Covers.update {candidate : CandidateJoin} {decision : Decision}
    {conversion : Option Conversion} (covers : Covers outcomes first start.nextValueSource)
    (settled : Settled candidate decision conversion start final)
    (fresh : outcomes candidate.join = .none) (costs : Option (Float × Float)) :
    Covers (Function.update outcomes candidate.join ⟨costs, conversion⟩) first
      final.nextValueSource := by
  intro number later earlier
  by_cases old : number < start.nextValueSource
  · obtain ⟨id, taken, converted, hnumber⟩ := covers number later old
    refine ⟨id, taken, ?_, hnumber⟩
    rw [Function.update_of_ne, converted]
    rintro rfl
    rw [fresh] at converted
    cases converted
  · have converts : decision.converts = true := by
      by_contra leaves
      rw [settled.next, if_neg leaves] at earlier
      exact old earlier
    obtain ⟨taken, rfl⟩ := Option.isSome_iff_exists.mp (settled.converts.trans converts)
    refine ⟨candidate.join, taken, by rw [Function.update_self], ?_⟩
    rw [settled.number taken rfl]
    rw [settled.next, if_pos converts] at earlier
    omega

theorem Standing.run_covers {waiting : List CandidateJoin} {result : Except PlanError Bool}
    (standing : Standing tree first outcomes waiting start)
    (covers : Covers outcomes first start.nextValueSource) (nodup : tree.ids.Nodup)
    (shaped : tree.WellShaped) (h : (settleAll context waiting).EndsWith start result final) :
    ∃ after, final.plan.Holds (tree.rebuild after) ∧
      tree.Sound after first final.nextValueSource ∧
      Covers after first final.nextValueSource ∧
      final.nextValueSource ≤ start.nextValueSource + waiting.length := by
  induction waiting generalizing start outcomes result with
  | nil =>
      obtain ⟨-, rfl⟩ := Planning.endsWith_pure_iff.mp h
      exact ⟨outcomes, standing.holds, standing.sound, covers, Nat.le_refl _⟩
  | cons candidate rest ih =>
      rcases Planning.endsWith_bind_iff.mp h with ⟨_, rfl, failed⟩ | ⟨converted, middle, hsettle, h⟩
      · obtain ⟨join, left, right, rebuilt, -, -, -, eligible, paired, equalities, holds, -⟩ :=
          standing.exists_join nodup shaped
        obtain ⟨_, ⟨⟩, -, hplan, hnumber⟩ | ⟨_, _, -, ⟨⟩, -⟩ :=
          settle_ends holds paired equalities eligible failed
        rw [hplan, hnumber]
        exact ⟨outcomes, standing.holds, standing.sound, covers, Nat.le_add_right _ _⟩
      · obtain ⟨decision, conversion, -, -, settled, next⟩ := standing.step nodup shaped hsettle
        have others : ∃ last, (settleAll context rest).EndsWith middle last final := by
          rcases Planning.endsWith_bind_iff.mp h with ⟨error, -, failed⟩ | ⟨last, _, done, h⟩
          · exact ⟨.error error, failed⟩
          · obtain ⟨-, rfl⟩ := Planning.endsWith_pure_iff.mp h
            exact ⟨.ok last, done⟩
        obtain ⟨last, others⟩ := others
        have taken := covers.update settled (standing.fresh candidate List.mem_cons_self)
          decision.costs?
        obtain ⟨after, holds, sound, covers, few⟩ := ih next taken others
        refine ⟨after, holds, sound, covers, few.trans ?_⟩
        rw [settled.next, List.length_cons]
        split <;> omega

theorem exists_covers {result : Except PlanError Bool} (holds : start.plan.Holds tree)
    (shaped : tree.WellShaped) (h : (execute context).EndsWith start result final) :
    ∃ outcomes, final.plan.Holds (tree.rebuild outcomes) ∧
      tree.Sound outcomes start.nextValueSource final.nextValueSource ∧
      Covers outcomes start.nextValueSource final.nextValueSource ∧
      final.nextValueSource ≤ start.nextValueSource + tree.subtrees.countP PlanTree.isJoin := by
  obtain ⟨middle, hsettle, hplan, hnumber⟩ := execute_endsWith holds shaped h
  have surveyed : (surveyed start).plan.Holds tree := holds
  have untaken : Covers (fun _ => .none) start.nextValueSource start.nextValueSource :=
    fun _ later earlier => absurd earlier (Nat.not_lt.mpr later)
  obtain ⟨after, holds', sound, covers, few⟩ :=
    (Standing.initial surveyed).run_covers untaken holds.nodup shaped hsettle
  rw [hplan, hnumber]
  exact ⟨after, holds', sound, covers,
    few.trans (Nat.add_le_add_left tree.length_candidates_le _)⟩

/-- However a run ends, the names that it takes are those of the joins it converts.  All names
are distinct afterwards exactly if none of them was there before, as where no name of the plan
has a number that is still to be taken.  The counter is one of 64 bits: with a number left for
each join it does not come round. -/
theorem sources_nodup_of_execute {result : Except PlanError Bool} (accepted : start.plan.Accepted)
    (distinct : start.plan.tree.sources.Nodup)
    (room : start.nextValueSource + start.plan.tree.subtrees.countP PlanTree.isJoin ≤ 2 ^ 64)
    (h : (execute context).EndsWith start result final) :
    final.nextValueSource ≤ 2 ^ 64 ∧
      (∀ source, start.Allocates final source ↔
        ∃ id, start.plan.ConvertedAt final.plan id ∧ final.plan.tree.HasSource id source) ∧
      (final.plan.tree.sources.Nodup ↔
        ∀ source ∈ start.plan.tree.sources, ¬ start.Allocates final source) ∧
      ((∀ number, start.nextValueSource ≤ number → number < 2 ^ 64 →
          "$dsc/id" ++ toString number ∉ start.plan.tree.sources ∧
            ¬ start.plan.AwaitsSource ("$dsc/id" ++ toString number)) →
        final.plan.tree.sources.Nodup ∧
          ∀ source, start.plan.AwaitsSource source → ¬ start.Allocates final source) := by
  obtain ⟨holds, shaped⟩ := accepted.holds
  obtain ⟨outcomes, holds', sound, covers, few⟩ := exists_covers holds shaped h
  rw [holds.tree_eq] at room
  have within : final.nextValueSource ≤ 2 ^ 64 := few.trans room
  have exact_iff : final.plan.tree.sources.Nodup ↔
      ∀ source ∈ start.plan.tree.sources, ¬ start.Allocates final source := by
    rw [holds'.tree_eq, PlanTree.nodup_sources_rebuild_iff sound holds.nodup shaped holds'.nodup
      distinct]
    constructor
    · rintro apart _ there ⟨number, later, earlier, rfl⟩
      obtain ⟨id, conversion, converted, rfl⟩ := covers number later earlier
      exact apart converted (valueSourceName_eq _ ▸ there)
    · intro apart id conversion converted there
      obtain ⟨later, earlier⟩ := sound.numbered converted
      exact apart _ there ⟨_, later, earlier, valueSourceName_eq _⟩
  refine ⟨within, fun source => ?_, exact_iff, fun fresh => ⟨exact_iff.mpr ?_, ?_⟩⟩
  · rw [holds'.tree_eq]
    constructor
    · rintro ⟨number, later, earlier, rfl⟩
      obtain ⟨id, conversion, converted, rfl⟩ := covers number later earlier
      obtain ⟨⟨join, inputs, member, ordinary⟩, payload, inputs', member', hsource⟩ :=
        PlanTree.hasSource_rebuild_converted sound shaped converted
      rw [← valueSourceName_eq]
      exact ⟨id, ⟨join, payload, _, holds.join?_eq member, ordinary, holds'.join?_eq member',
        hsource⟩, payload, inputs', member', hsource⟩
    · rintro ⟨id, ⟨join, _, _, hjoin, ordinary, -⟩, has⟩
      rcases (PlanTree.hasSource_rebuild_iff sound holds.nodup shaped).mp has with
        ⟨join', inputs, member, hsource⟩ | ⟨conversion, converted, rfl⟩
      · cases hjoin.symm.trans (holds.join?_eq member)
        cases ordinary.symm.trans hsource
      · obtain ⟨later, earlier⟩ := sound.numbered converted
        exact ⟨_, later, earlier, valueSourceName_eq _⟩
  · rintro _ there ⟨number, later, earlier, rfl⟩
    exact (fresh number later (earlier.trans_le within)).1 there
  · rintro _ awaits ⟨number, later, earlier, rfl⟩
    exact (fresh number later (earlier.trans_le within)).2 awaits

def namedElsewhere : Plan :=
  let idOf (group : String) : Expr := .column ⟨.named group, "id", .int64⟩
  let equal (left right : String) (source : Option String) : JoinNode :=
    ⟨.inner, .nestedLoop, [.eq (idOf left) (idOf right)], [idOf left], [idOf right],
      source, none, none⟩
  ⟨[⟨.join (equal "pm1.g1" "pm3.g3" (some (valueSourceName 0))), none, [1, 4]⟩,
    ⟨.join (equal "pm1.g1" "pm2.g2" none), some 0, [2, 3]⟩,
    ⟨.access { group := .named "pm1.g1", model := some ⟨"pm1"⟩ }, some 1, []⟩,
    ⟨.access { group := .named "pm2.g2", model := some ⟨"pm2"⟩, makeDependent := true }, some 1,
      []⟩,
    ⟨.select ⟨.dependentSet (idOf "pm3.g3") (valueSourceName 0) (idOf "pm1.g1"), true⟩, some 0,
      [5]⟩,
    ⟨.access { group := .named "pm3.g3", model := some ⟨"pm3"⟩ }, some 4, []⟩], 0⟩

theorem accepted_namedElsewhere : namedElsewhere.Accepted :=
  .of_links (by decide) (by decide) (by decide)

theorem sources_namedElsewhere : namedElsewhere.tree.sources = [valueSourceName 0] := by
  decide +kernel

theorem nodup_sources_namedElsewhere : namedElsewhere.tree.sources.Nodup :=
  sources_namedElsewhere ▸ List.nodup_singleton _

inductive OfColumns (source : String) : LanguageObject → Prop
  | column (element : ElementSymbol) : OfColumns source (.expr (.column element))
  | equality (left right : ElementSymbol) :
      OfColumns source (.criteria (.eq (.column left) (.column right)))
  | dependentSet (element value : ElementSymbol) :
      OfColumns source (.criteria (.dependentSet (.column element) source (.column value)))

theorem OfColumns.source_eq {source other : String} {object : LanguageObject}
    {expr valueExpr : Expr} (columns : OfColumns source object)
    (within : LanguageObject.Within (.criteria (.dependentSet expr other valueExpr)) object) :
    other = source := by
  induction within with
  | self =>
      cases columns
      rfl
  | child member _ ih =>
      refine ih ?_
      cases columns with
      | column element => cases member
      | equality left right =>
          rcases List.mem_cons.mp member with rfl | member
          · exact .column left
          · exact List.mem_singleton.mp member ▸ .column right
      | dependentSet element value => exact List.mem_singleton.mp member ▸ .column element
  | value _ ih =>
      cases columns with
      | dependentSet element value => exact ih (.column value)
  | subquery found => cases columns <;> cases found

theorem namedElsewhere_awaits_iff {source : String} :
    namedElsewhere.AwaitsSource source ↔ source = valueSourceName 0 := by
  constructor
  · rintro ⟨node, hnode, object, hobject, expr, valueExpr, within⟩
    refine OfColumns.source_eq ?_ within
    simp only [namedElsewhere, List.mem_cons, List.not_mem_nil, or_false] at hnode
    rcases hnode with rfl | rfl | rfl | rfl | rfl | rfl <;>
      simp only [NodeKind.objects, List.map_cons, List.map_nil, List.cons_append, List.nil_append,
        List.mem_cons, List.not_mem_nil, or_false] at hobject
    · rcases hobject with rfl | rfl | rfl <;> constructor
    · rcases hobject with rfl | rfl | rfl <;> constructor
    · subst hobject
      constructor
  · rintro rfl
    exact ⟨namedElsewhere.nodes[4], List.getElem_mem _, _, List.mem_singleton.mpr rfl, _, _,
      .self _⟩

theorem namedElsewhere_named_again :
    namedElsewhere.Accepted ∧ namedElsewhere.tree.sources.Nodup ∧
      ∃ final, execute .permissive (.start namedElsewhere .empty 0) = .ok true final ∧
        ¬ final.plan.tree.sources.Nodup ∧
        ∃ source, namedElsewhere.AwaitsSource source ∧
          (Session.start namedElsewhere .empty 0).Allocates final source := by
  obtain ⟨_, final, h, hcheck⟩ := Planning.exists_of_succeeds (show Planning.succeeds
    (execute .permissive) (.start namedElsewhere .empty 0)
    (fun changed final => changed && final.nextValueSource == 1 &&
      final.plan.tree.sources == [valueSourceName 0, valueSourceName 0]) = true by decide +kernel)
  simp only [Bool.and_eq_true, beq_iff_eq] at hcheck
  obtain ⟨⟨rfl, hnext⟩, hsources⟩ := hcheck
  refine ⟨accepted_namedElsewhere, nodup_sources_namedElsewhere, final, h, ?_,
    valueSourceName 0, namedElsewhere_awaits_iff.mpr rfl, 0, Nat.le_refl _, by simp [hnext],
    valueSourceName_eq 0⟩
  simp [hsources]

theorem namedElsewhere_nodup_sources :
    ∃ final, execute .permissive (.start namedElsewhere .empty 1) = .ok true final ∧
      final.plan.tree.sources = [valueSourceName 0, valueSourceName 1] ∧
      final.plan.tree.sources.Nodup ∧
      ∀ source, namedElsewhere.AwaitsSource source →
        ¬ (Session.start namedElsewhere .empty 1).Allocates final source := by
  obtain ⟨_, final, h, hcheck⟩ := Planning.exists_of_succeeds (show Planning.succeeds
    (execute .permissive) (.start namedElsewhere .empty 1)
    (fun changed final => changed &&
      final.plan.tree.sources == [valueSourceName 0, valueSourceName 1]) = true by decide +kernel)
  simp only [Bool.and_eq_true, beq_iff_eq] at hcheck
  obtain ⟨rfl, hsources⟩ := hcheck
  have ends : (execute .permissive).EndsWith (.start namedElsewhere .empty 1) (.ok true) final := h
  refine ⟨final, h, hsources, (sources_nodup_of_execute accepted_namedElsewhere
    nodup_sources_namedElsewhere (by decide +kernel) ends).2.2.2 fun number later _ => ?_⟩
  rw [← valueSourceName_eq]
  have other : valueSourceName number ≠ valueSourceName 0 := fun same =>
    Nat.ne_of_gt later (valueSourceName_injective same)
  have unused : valueSourceName number ∉ namedElsewhere.tree.sources := by
    rwa [sources_namedElsewhere, List.mem_singleton]
  exact ⟨unused, fun awaits => other (namedElsewhere_awaits_iff.mp awaits)⟩

end ChooseDependent

end FederatedQuery
