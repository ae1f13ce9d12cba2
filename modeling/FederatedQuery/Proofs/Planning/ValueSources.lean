import FederatedQuery.Proofs.Meaning.Rows
import FederatedQuery.Proofs.Planning.Feeds

/-!
# The value sources of dependent joins

Executing the rules again and again, in any order, links every dependent join with
its filters: each of its pairs of expressions is compared on the way to the access
that it feeds, and no filter waits for values elsewhere.
-/

namespace FederatedQuery

open Relation

theorem ChooseDependent.valueSourceName_injective : Function.Injective valueSourceName := by
  intro first second h
  have same : first.repr = second.repr := by simpa [valueSourceName, toString] using h
  exact Nat.repr_injective same

namespace PlanTree

variable {tree new : PlanTree}

/-- Value sources have numbers below `next`, and each of them belongs to one join. -/
structure Named (tree : PlanTree) (next : Nat) : Prop where
  number : ∀ {id join inputs source}, PlanTree.node id (.join join) inputs ∈ tree.subtrees →
    join.valueSource = some source →
      ∃ number < next, source = ChooseDependent.valueSourceName number
  distinct : ∀ {id join inputs id' join' inputs' source},
    PlanTree.node id (.join join) inputs ∈ tree.subtrees →
      PlanTree.node id' (.join join') inputs' ∈ tree.subtrees →
        join.valueSource = some source → join'.valueSource = some source → id = id'

theorem Named.mono {next later : Nat} (named : tree.Named next) (h : next ≤ later) :
    tree.Named later := by
  refine ⟨fun member hsource => ?_, named.distinct⟩
  obtain ⟨number, below, hnumber⟩ := named.number member hsource
  exact ⟨number, by omega, hnumber⟩

theorem Thinned.exists_join_origin (h : tree.Thinned new) {id : NodeId} {join : JoinNode}
    {inputs : List PlanTree} (member : PlanTree.node id (.join join) inputs ∈ new.subtrees) :
    ∃ olds, PlanTree.node id (.join join) olds ∈ tree.subtrees := by
  obtain ⟨sub, hsub, thinned, standing⟩ := h.exists_origin member rfl
  cases thinned with
  | drop => cases standing
  | node => exact ⟨_, hsub⟩

theorem Named.of_thinned {next : Nat} (named : tree.Named next) (h : tree.Thinned new) :
    new.Named next := by
  constructor
  · intro id join inputs source member hsource
    obtain ⟨olds, hold⟩ := h.exists_join_origin member
    exact named.number hold hsource
  · intro id join inputs id' join' inputs' source member member' hsource hsource'
    obtain ⟨olds, hold⟩ := h.exists_join_origin member
    obtain ⟨olds', hold'⟩ := h.exists_join_origin member'
    exact named.distinct hold hold' hsource hsource'

variable {outcomes : NodeId → Outcome}

theorem exists_join_of_mem_rebuild {id : NodeId} {payload : JoinNode} {inputs : List PlanTree}
    (member : PlanTree.node id (.join payload) inputs ∈ (tree.rebuild outcomes).subtrees) :
    ∃ join olds, PlanTree.node id (.join join) olds ∈ tree.subtrees ∧
      (payload.valueSource = join.valueSource ∨
        ∃ conversion, (outcomes id).conversion = some conversion ∧
          payload.valueSource = some (ChooseDependent.valueSourceName conversion.number)) := by
  obtain ⟨⟨position, kind, children⟩, hold, h⟩ := exists_of_mem_rebuild member rfl
  obtain rfl : id = position := by simpa using congrArg PlanTree.id h
  rw [rebuild_node] at h
  rcases rebuildNode_cases outcomes id kind (children.map (rebuild outcomes)) with
    ⟨join, left, right, rfl, hchildren⟩ | same
  · refine ⟨join, children, hold, ?_⟩
    rw [hchildren, rebuildNode] at h
    cases houtcome : outcomes id with
    | mk costs conversion =>
        rw [houtcome] at h
        cases conversion with
        | none =>
            obtain ⟨-, ⟨⟩, -⟩ := node.inj h
            exact .inl (join.valueSource_priced costs)
        | some conversion =>
            obtain ⟨other, last, happly, hsource⟩ :=
              conversion.exists_apply_eq costs id join left right
            rw [happly] at h
            obtain ⟨-, ⟨⟩, -⟩ := node.inj h
            exact .inr ⟨conversion, rfl, hsource⟩
  · rw [same] at h
    obtain ⟨-, rfl, -⟩ := node.inj h
    exact ⟨payload, children, hold, .inl rfl⟩

theorem Named.rebuild {first last : Nat} (named : tree.Named first)
    (sound : tree.Sound outcomes first last) (started : first ≤ last) :
    (tree.rebuild outcomes).Named last := by
  constructor
  · intro id payload inputs source member hsource
    obtain ⟨join, olds, hold, same | ⟨conversion, hconversion, hnew⟩⟩ :=
      exists_join_of_mem_rebuild member
    · exact (named.mono started).number hold (same.symm.trans hsource)
    · refine ⟨conversion.number, (sound.numbered hconversion).2, ?_⟩
      exact Option.some.inj (hsource.symm.trans hnew)
  · intro id payload inputs id' payload' inputs' source member member' hsource hsource'
    obtain ⟨join, olds, hold, origin⟩ := exists_join_of_mem_rebuild member
    obtain ⟨join', olds', hold', origin'⟩ := exists_join_of_mem_rebuild member'
    rw [hsource] at origin
    rw [hsource'] at origin'
    have apart {id : NodeId} {join : JoinNode} {olds : List PlanTree} {other : NodeId}
        {conversion : Conversion} (hold : PlanTree.node id (.join join) olds ∈ tree.subtrees)
        (same : some source = join.valueSource)
        (hconversion : (outcomes other).conversion = some conversion)
        (hnew : some source = some (ChooseDependent.valueSourceName conversion.number)) :
        False := by
      obtain ⟨number, below, hnumber⟩ := named.number hold same.symm
      have hnumbers := ChooseDependent.valueSourceName_injective
        (hnumber.symm.trans (Option.some.inj hnew))
      have := (sound.numbered hconversion).1
      omega
    rcases origin with same | ⟨conversion, hconversion, hnew⟩ <;>
      rcases origin' with same' | ⟨conversion', hconversion', hnew'⟩
    · exact named.distinct hold hold' same.symm same'.symm
    · exact (apart hold same hconversion' hnew').elim
    · exact (apart hold' same' hconversion hnew).elim
    · refine sound.distinct hconversion hconversion' ?_
      exact ChooseDependent.valueSourceName_injective (Option.some.inj (hnew.symm.trans hnew'))

/-- No join is dependent, and no filter waits for values. -/
structure Unfed (tree : PlanTree) : Prop where
  joins : ∀ {id join inputs}, PlanTree.node id (.join join) inputs ∈ tree.subtrees →
    join.valueSource = none
  filters : ∀ {sub expr source valueExpr}, sub ∈ tree.subtrees →
    .dependentSet expr source valueExpr ∉ sub.kind.applied

/-- Every dependent join is linked with its filters by a value source of its own. -/
structure Linked (tree : PlanTree) : Prop where
  distinct : ∀ {id join inputs id' join' inputs' source},
    PlanTree.node id (.join join) inputs ∈ tree.subtrees →
      PlanTree.node id' (.join join') inputs' ∈ tree.subtrees →
        join.valueSource = some source → join'.valueSource = some source → id = id'
  carried : ∀ {id join inputs source}, PlanTree.node id (.join join) inputs ∈ tree.subtrees →
    join.valueSource = some source →
      ∃ last strand, inputs.getLast? = some last ∧ last.strand? = some strand ∧
        ∀ {left right}, (left, right) ∈ join.leftExprs.zip join.rightExprs →
          ∃ sub ∈ strand, ∃ criteria ∈ sub.kind.applied,
            criteria.StandsFor (.dependentSet right source left)
  placed : ∀ {sub expr source valueExpr}, sub ∈ tree.subtrees →
    .dependentSet expr source valueExpr ∈ sub.kind.applied →
      ∃ id join inputs last strand, PlanTree.node id (.join join) inputs ∈ tree.subtrees ∧
        join.valueSource = some source ∧ inputs.getLast? = some last ∧
        last.strand? = some strand ∧ sub ∈ strand ∧
        (valueExpr, expr) ∈ join.leftExprs.zip join.rightExprs

/-! ## What fits is linked -/

variable {feed : Option Feed}

theorem Unfed.fits (unfed : tree.Unfed) (shaped : tree.WellShaped) : tree.Fits none := by
  induction tree with
  | node id kind children ih =>
      obtain ⟨hkind, hchildren⟩ := wellShaped_node.mp shaped
      have fed : ∀ criteria ∈ kind.applied, criteria.FedBy none := by
        rintro _ member expr source valueExpr rfl
        exact absurd member (unfed.filters (self_mem_subtrees (.node id kind children)))
      have below : ∀ child ∈ children, child.Fits none := fun child hchild =>
        ih child hchild ⟨fun member => unfed.joins (mem_subtrees_of_child hchild member),
          fun member => unfed.filters (mem_subtrees_of_child hchild member)⟩
          (hchildren child hchild)
      cases hjoin : kind.join? with
      | some join =>
          obtain rfl : kind = .join join := by
            cases kind <;> simp_all [NodeKind.join?]
          obtain ⟨left, right, rfl⟩ := List.length_eq_two.mp (hkind.arity 2 rfl)
          have feeds : join.feed? = none := by
            rw [JoinNode.feed?, unfed.joins (self_mem_subtrees _)]
            rfl
          refine .join (below left (by simp)) (feeds ▸ below right (by simp)) fun feed h => ?_
          rw [feeds] at h
          cases h
      | none =>
          cases haccess : isAccess kind with
          | true =>
              cases kind <;> try cases haccess
              exact .access fed below
          | false =>
              cases htransparent : kind.isTransparent with
              | false => exact .other htransparent hjoin haccess below
              | true =>
                  have one : kind.nodeType.arity? = some 1 := by
                    cases kind <;> first | rfl | cases htransparent
                  obtain ⟨child, rfl⟩ := List.length_eq_one_iff.mp (hkind.arity 1 one)
                  exact .pass htransparent fed (below child List.mem_cons_self)

theorem Fits.child {id : NodeId} {kind : NodeKind} {children : List PlanTree} {child : PlanTree}
    (fits : (PlanTree.node id kind children).Fits feed) (hchild : child ∈ children) :
    ∃ given, child.Fits given := by
  cases fits with
  | access _ below => exact ⟨_, below child hchild⟩
  | pass _ _ below => exact ⟨_, List.mem_singleton.mp hchild ▸ below⟩
  | other _ _ _ below => exact ⟨_, below child hchild⟩
  | join hleft hright =>
      rcases List.mem_cons.mp hchild with rfl | hchild
      · exact ⟨_, hleft⟩
      · exact ⟨_, List.mem_singleton.mp hchild ▸ hright⟩

theorem Fits.of_mem {sub : PlanTree} (fits : tree.Fits feed) (member : sub ∈ tree.subtrees) :
    ∃ given, sub.Fits given := by
  induction tree generalizing feed with
  | node id kind children ih =>
      rw [subtrees_node, List.mem_cons, List.mem_flatMap] at member
      rcases member with rfl | ⟨child, hchild, member⟩
      · exact ⟨feed, fits⟩
      · obtain ⟨given, below⟩ := fits.child hchild
        exact ih child hchild below member

def FeedsAt (tree : PlanTree) (feed : Option Feed) (sub : PlanTree) (set : Criteria) : Prop :=
  ∃ given strand, feed = some given ∧ set ∈ given.sets ∧ tree.strand? = some strand ∧ sub ∈ strand

theorem not_feedsAt_none {sub : PlanTree} {set : Criteria} : ¬ tree.FeedsAt none sub set := by
  rintro ⟨_, _, ⟨⟩, -⟩

theorem FeedsAt.pass {kind : NodeKind} (transparent : kind.isTransparent = true) (id : NodeId)
    {child sub : PlanTree} {set : Criteria} (h : child.FeedsAt feed sub set) :
    (PlanTree.node id kind [child]).FeedsAt feed sub set := by
  obtain ⟨given, strand, hfeed, hset, hstrand, hsub⟩ := h
  refine ⟨given, .node id kind [child] :: strand, hfeed, hset, ?_, List.mem_cons_of_mem _ hsub⟩
  rw [strand?_single (isAccess_of_isTransparent transparent), hstrand]
  rfl

theorem Fits.feedsAt_self (fits : tree.Fits feed) {set : Criteria}
    (member : set ∈ tree.kind.applied) {expr valueExpr : Expr} {source : String}
    (waits : set = .dependentSet expr source valueExpr) : tree.FeedsAt feed tree set := by
  cases fits with
  | access fed =>
      obtain ⟨given, hfeed, hset⟩ := fed set member _ _ _ waits
      exact ⟨given, _, hfeed, hset, strand?_access _ _ _, List.mem_singleton.mpr rfl⟩
  | pass transparent fed below =>
      rename_i id kind child
      obtain ⟨given, rfl, hset⟩ := fed set member _ _ _ waits
      obtain ⟨strand, hstrand⟩ := below.exists_strand
      refine ⟨given, .node id kind [child] :: strand, rfl, hset, ?_, List.mem_cons_self⟩
      rw [strand?_single (isAccess_of_isTransparent transparent), hstrand]
      rfl
  | join => cases member
  | other solid notJoin notAccess below =>
      rename_i id kind children
      have none : kind.applied = [] := by
        cases kind <;> first | cases solid; done | cases notAccess; done | rfl
      rw [kind_node, none] at member
      cases member

theorem Fits.exists_feed {sub : PlanTree} (fits : tree.Fits feed) (inside : sub ∈ tree.subtrees)
    {set : Criteria} (member : set ∈ sub.kind.applied) {expr valueExpr : Expr} {source : String}
    (waits : set = .dependentSet expr source valueExpr) :
    tree.FeedsAt feed sub set ∨
      ∃ id join left right, PlanTree.node id (.join join) [left, right] ∈ tree.subtrees ∧
        right.FeedsAt join.feed? sub set := by
  have deeper {id : NodeId} {kind : NodeKind} {children : List PlanTree} {child : PlanTree}
      (hchild : child ∈ children)
      (h : ∃ id join left right, PlanTree.node id (.join join) [left, right] ∈ child.subtrees ∧
        right.FeedsAt join.feed? sub set) :
      ∃ id' join left right, PlanTree.node id' (.join join) [left, right] ∈
        (PlanTree.node id kind children).subtrees ∧ right.FeedsAt join.feed? sub set := by
    obtain ⟨id, join, left, right, hjoin, feeds⟩ := h
    exact ⟨id, join, left, right, mem_subtrees_of_child hchild hjoin, feeds⟩
  induction tree generalizing feed with
  | node id kind children ih =>
      rw [subtrees_node, List.mem_cons, List.mem_flatMap] at inside
      rcases inside with rfl | ⟨child, hchild, inside⟩
      · exact .inl (fits.feedsAt_self member waits)
      have below (unfed : child.Fits none) : ∃ id' join left right,
          PlanTree.node id' (.join join) [left, right] ∈
            (PlanTree.node id kind children).subtrees ∧ right.FeedsAt join.feed? sub set :=
        deeper hchild ((ih child hchild unfed inside).resolve_left not_feedsAt_none)
      cases fits with
      | access _ inner => exact .inr (below (inner child hchild))
      | other _ _ _ inner => exact .inr (below (inner child hchild))
      | pass transparent _ inner =>
          obtain rfl := List.mem_singleton.mp hchild
          exact (ih child hchild inner inside).imp (.pass transparent id) (deeper hchild)
      | join hleft hright =>
          rcases List.mem_cons.mp hchild with rfl | hright'
          · exact .inr (below hleft)
          · obtain rfl := List.mem_singleton.mp hright'
            rcases ih child hchild hright inside with feeds | found
            · exact .inr ⟨_, _, _, _, self_mem_subtrees _, feeds⟩
            · exact .inr (deeper hchild found)

theorem exists_mem_strand {criteria : Criteria} {strand : List PlanTree}
    (hstrand : tree.strand? = some strand) (carries : tree.Carries criteria) :
    ∃ sub ∈ strand, ∃ other ∈ sub.kind.applied, other.StandsFor criteria := by
  obtain ⟨carried, hcarried, other, hother, stands⟩ := carries
  rw [carried?, hstrand, Option.map_some, Option.some.injEq] at hcarried
  subst hcarried
  obtain ⟨sub, hsub, hother⟩ := List.mem_flatMap.mp hother
  exact ⟨sub, hsub, other, hother, stands⟩

theorem Fits.linked_of_named {next : Nat} (fits : tree.Fits none) (named : tree.Named next) :
    tree.Linked := by
  refine ⟨named.distinct, fun {id join inputs source} member hsource => ?_,
    fun {sub expr source valueExpr} inside member => ?_⟩
  · obtain ⟨given, hnode⟩ := fits.of_mem member
    have feeds : join.feed? = some ⟨source, join.leftExprs.zip join.rightExprs⟩ := by
      rw [JoinNode.feed?, hsource]
      rfl
    cases hnode with
    | join hleft hright carries =>
        obtain ⟨strand, hstrand⟩ := (feeds ▸ hright).exists_strand
        refine ⟨_, strand, rfl, hstrand, fun pair => ?_⟩
        exact exists_mem_strand hstrand (carries _ feeds _ (List.mem_map_of_mem pair))
    | other _ notJoin => cases notJoin
    | pass transparent => cases transparent
  · obtain ⟨id, join, left, right, hjoin, given, strand, hfeed, hset, hstrand, hsub⟩ :=
      (fits.exists_feed inside member rfl).resolve_left not_feedsAt_none
    obtain ⟨other, hother, rfl⟩ := Option.map_eq_some_iff.mp hfeed
    obtain ⟨⟨first, second⟩, hpair, same⟩ := List.mem_map.mp hset
    obtain ⟨rfl, rfl, rfl⟩ := Criteria.dependentSet.inj same
    exact ⟨id, join, _, right, strand, hjoin, hother, rfl, hstrand, hsub, hpair⟩

end PlanTree

/-! ## Executions -/

/-- The sessions that executions of the rules lead to, however they end and whatever they
consult; in between, other sessions may take value sources. -/
inductive Session.Leads (start : Session) : Session → Prop
  | refl : start.Leads start
  | execute {session final : Session} {rule : Rule} {context : PlanningContext}
      {result : Except PlanError Bool} (before : start.Leads session)
      (bundled : rule = chooseDependent ∨ rule = cleanCriteria ∨ rule = pushSelectCriteria)
      (ends : (rule.execute context).EndsWith session result final) : start.Leads final
  | elsewhere {session : Session} {number : Nat} (before : start.Leads session)
      (later : session.nextValueSource ≤ number) :
      start.Leads { session with nextValueSource := number }

namespace PlanTree

/-- The filters of a tree are where they are fed, and value sources have been named so far. -/
def Provided (tree : PlanTree) (next : Nat) : Prop := tree.Fits none ∧ tree.Named next

theorem provided_of_planningMove {state next : PlanTree × Nat} (move : PlanningMove state next)
    (provided : state.1.Provided state.2) : next.1.Provided next.2 := by
  refine ⟨fits_of_planningMove move provided.1, ?_⟩
  cases move with
  | filter move => exact provided.2.of_thinned (thinned_of_move move)
  | settle nodup shaped sound started => exact provided.2.rebuild sound started

theorem provided_of_moves {state next : PlanTree × Nat}
    (moves : ReflTransGen PlanningMove state next) (provided : state.1.Provided state.2) :
    next.1.Provided next.2 := by
  induction moves with
  | refl => exact provided
  | tail _ move ih => exact provided_of_planningMove move ih

end PlanTree

namespace Session

variable {start session final : Session}

def Fed (session : Session) : Prop :=
  ∃ tree, session.plan.Holds tree ∧ tree.WellShaped ∧ tree.Provided session.nextValueSource

theorem Fed.of_moves {step : Planning Bool} {blames : Plan → PlanError → Prop}
    {result : Except PlanError Bool} (fed : session.Fed) (moves : step.Moves blames)
    (ends : step.EndsWith session result final) : final.Fed := by
  obtain ⟨tree, holds, shaped, provided⟩ := fed
  obtain ⟨new, hnew, hshaped, steps, -⟩ := moves holds shaped ends
  exact ⟨new, hnew, hshaped, PlanTree.provided_of_moves steps provided⟩

theorem Leads.fed (leads : start.Leads final) (fed : start.Fed) : final.Fed := by
  induction leads with
  | refl => exact fed
  | execute before bundled ends ih =>
      rename_i context result
      rcases bundled with rfl | rfl | rfl
      · exact ih.of_moves (ChooseDependent.execute_moves context) ends
      · exact ih.of_moves (CleanCriteria.execute_moves context fun _ _ => True) ends
      · exact ih.of_moves (PushSelect.execute_moves context) ends
  | elsewhere _ later ih =>
      obtain ⟨tree, holds, shaped, fits, named⟩ := ih
      exact ⟨tree, holds, shaped, fits, named.mono later⟩

/-- In every session that executions lead to, value sources link joins and filters. -/
theorem Leads.linked (accepted : start.plan.Accepted) (unfed : start.plan.tree.Unfed)
    (leads : start.Leads final) : final.plan.Accepted ∧ final.plan.tree.Linked := by
  obtain ⟨holds, shaped⟩ := accepted.holds
  have named : start.plan.tree.Named start.nextValueSource := by
    constructor
    · intro id join inputs source member hsource
      rw [unfed.joins member] at hsource
      cases hsource
    · intro id join inputs id' join' inputs' source member _ hsource
      rw [unfed.joins member] at hsource
      cases hsource
  obtain ⟨tree, hfinal, hshaped, fits, named⟩ :=
    leads.fed ⟨_, holds, shaped, unfed.fits shaped, named⟩
  rw [hfinal.tree_eq]
  exact ⟨hfinal.accepted hshaped, fits.linked_of_named named⟩

theorem Leads.executeAll {steps : List (Rule × PlanningContext)}
    (bundled : ∀ step ∈ steps, step.1 = chooseDependent ∨ step.1 = cleanCriteria ∨
      step.1 = pushSelectCriteria) {changed : List Bool} (before : start.Leads session)
    (h : Rule.executeAll steps session = .ok changed final) : start.Leads final := by
  induction steps generalizing session changed with
  | nil =>
      obtain ⟨-, rfl⟩ := pure_eq_ok_iff.mp h
      exact before
  | cons step rest ih =>
      rw [List.forall_mem_cons] at bundled
      simp only [Rule.executeAll, bind_eq_ok_iff] at h
      obtain ⟨first, middle, hfirst, others, last, hrest, hdone⟩ := h
      obtain ⟨-, rfl⟩ := pure_eq_ok_iff.mp hdone
      exact ih bundled.2 (.execute before bundled.1
        (show Planning.EndsWith _ _ (.ok first) _ from hfirst)) hrest

def doubledPair : Plan :=
  let first : Expr := .column ⟨.named "pm1.g1", "id", .int64⟩
  let second : Expr := .column ⟨.named "pm2.g2", "id", .int64⟩
  let join : JoinNode := ⟨.inner, .nestedLoop, [.eq first second, .eq first second],
    [first, first], [second, second], none, none, none⟩
  ⟨[⟨.join join, none, [1, 2]⟩,
    ⟨.access { group := .named "pm1.g1", model := some ⟨"pm1"⟩, makeDependent := true }, some 0,
      []⟩,
    ⟨.access { group := .named "pm2.g2", model := some ⟨"pm2"⟩ }, some 0, []⟩], 0⟩

theorem doubledPair_unfed : doubledPair.tree.Unfed := by
  have all : doubledPair.tree.subtrees.map PlanTree.kind =
      doubledPair.nodes.map PlanNode.kind := rfl
  constructor
  · intro id join inputs member
    have kinds := all ▸ List.mem_map_of_mem (f := PlanTree.kind) member
    simp [doubledPair] at kinds
    simp [kinds]
  · intro sub expr source valueExpr member waits
    have kinds := all ▸ List.mem_map_of_mem (f := PlanTree.kind) member
    simp only [doubledPair, List.map_cons, List.map_nil, List.mem_cons, List.not_mem_nil,
      or_false] at kinds
    rcases kinds with h | h | h <;> simp [h, NodeKind.applied] at waits

theorem doubledPair_linked :
    ∃ final, Rule.executeAll [(chooseDependent, .permissive), (cleanCriteria, .permissive),
        (pushSelectCriteria, .permissive)] (.start doubledPair .empty 0) =
          .ok [true, true, true] final ∧
      (final.plan.access? 1).map (·.pushedCriteria.length) = some 1 ∧
      final.plan.Accepted ∧ final.plan.tree.Linked := by
  obtain ⟨changed, final, h, hcheck⟩ := Planning.exists_of_succeeds (show Planning.succeeds
    (Rule.executeAll [(chooseDependent, .permissive), (cleanCriteria, .permissive),
      (pushSelectCriteria, .permissive)]) (.start doubledPair .empty 0)
    (fun changed final => changed == [true, true, true] &&
      (final.plan.access? 1).map (·.pushedCriteria.length) == some 1) = true by decide +kernel)
  rw [Bool.and_eq_true, beq_iff_eq, beq_iff_eq] at hcheck
  obtain ⟨rfl, hpushed⟩ := hcheck
  refine ⟨final, h, hpushed, Leads.linked ?_ doubledPair_unfed (.executeAll ?_ .refl h)⟩
  · exact .of_links (by decide) (by decide) (by decide)
  · simp

end Session

end FederatedQuery
