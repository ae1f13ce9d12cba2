import FederatedQuery.Proofs.Plan.Touches
import FederatedQuery.Proofs.Planning.Settling

/-!
# What the rule for dependent joins leaves of an arena

A run of the rule is known by the joins that it converts.  They have a value source
that they had not, every new node is a filter for one of them, and of the old nodes
only their inputs are linked anew.  Without a conversion only costs are recorded.
-/

namespace FederatedQuery

namespace Plan

def ConvertedAt (old new : Plan) (id : NodeId) : Prop :=
  ∃ join payload source, old.join? id = some join ∧ join.valueSource = none ∧
    new.join? id = some payload ∧ payload.valueSource = some source

/-- The filter waits for the values of a join that has been converted. -/
def FiltersConverted (old new : Plan) (select : SelectNode) : Prop :=
  ∃ id payload source expr valueExpr, old.ConvertedAt new id ∧ new.join? id = some payload ∧
    payload.valueSource = some source ∧ select = ⟨.dependentSet expr source valueExpr, true⟩

/-- Joins have been converted, and nothing else has happened but what follows from it. -/
def Converts (old new : Plan) : Prop :=
  old.Touches new (old.ConvertedAt new) (old.FiltersConverted new)

variable {old middle new : Plan} {id : NodeId}

theorem ConvertedAt.lt_size (converted : old.ConvertedAt new id) : id < old.size := by
  obtain ⟨_, _, _, hjoin, -⟩ := converted
  exact join?_lt_size hjoin

/-- Every join of either plan is one of the other, and has kept its value source unless it
has been converted. -/
structure KeepsSources (old new : Plan) : Prop where
  after : ∀ {id join}, old.join? id = some join → old.ConvertedAt new id ∨
    ∃ payload, new.join? id = some payload ∧ payload.valueSource = join.valueSource
  origin : ∀ {id payload}, new.join? id = some payload → old.ConvertedAt new id ∨
    ∃ join, old.join? id = some join ∧ payload.valueSource = join.valueSource

namespace KeepsSources

theorem of_join?_eq (same : ∀ id, new.join? id = old.join? id) : old.KeepsSources new :=
  ⟨fun found => .inr ⟨_, (same _).trans found, rfl⟩,
    fun found => .inr ⟨_, (same _).symm.trans found, rfl⟩⟩

theorem not_convertedAt_of_join?_eq (same : new.join? id = old.join? id) :
    ¬ old.ConvertedAt new id := by
  rintro ⟨join, payload, source, hjoin, ordinary, hpayload, hsource⟩
  cases hjoin.symm.trans (same.symm.trans hpayload)
  cases ordinary.symm.trans hsource

theorem valueSource_kept {join : JoinNode} {source : String} (keeps : old.KeepsSources new)
    (found : old.join? id = some join) (hsource : join.valueSource = some source) :
    ∃ payload, new.join? id = some payload ∧ payload.valueSource = some source := by
  rcases keeps.after found with ⟨_, _, _, hjoin, ordinary, -⟩ | ⟨payload, h, same⟩
  · cases found.symm.trans hjoin
    cases hsource.symm.trans ordinary
  · exact ⟨payload, h, same.trans hsource⟩

theorem convertedAt_iff (first : old.KeepsSources middle) (second : middle.KeepsSources new) :
    old.ConvertedAt new id ↔ old.ConvertedAt middle id ∨ middle.ConvertedAt new id := by
  constructor
  · rintro ⟨join, payload, source, hjoin, ordinary, hpayload, hsource⟩
    rcases first.after hjoin with converted | ⟨between, hbetween, same⟩
    · exact .inl converted
    · exact .inr ⟨between, payload, source, hbetween, same.trans ordinary, hpayload, hsource⟩
  · rintro (⟨join, between, source, hjoin, ordinary, hbetween, hsource⟩ |
      ⟨between, payload, source, hbetween, ordinary, hpayload, hsource⟩)
    · obtain ⟨payload, hpayload, hsource'⟩ := second.valueSource_kept hbetween hsource
      exact ⟨join, payload, source, hjoin, ordinary, hpayload, hsource'⟩
    · rcases first.origin hbetween with
        ⟨_, other, source', -, -, hother, hsource'⟩ | ⟨join, hjoin, same⟩
      · cases hbetween.symm.trans hother
        cases ordinary.symm.trans hsource'
      · exact ⟨join, payload, source, hjoin, same.symm.trans ordinary, hpayload, hsource⟩

theorem trans (first : old.KeepsSources middle) (second : middle.KeepsSources new) :
    old.KeepsSources new := by
  constructor
  · intro id join found
    rw [convertedAt_iff first second]
    rcases first.after found with converted | ⟨between, hbetween, same⟩
    · exact .inl (.inl converted)
    · rcases second.after hbetween with converted | ⟨payload, hpayload, same'⟩
      · exact .inl (.inr converted)
      · exact .inr ⟨payload, hpayload, same'.trans same⟩
  · intro id payload found
    rw [convertedAt_iff first second]
    rcases second.origin found with converted | ⟨between, hbetween, same⟩
    · exact .inl (.inr converted)
    · rcases first.origin hbetween with converted | ⟨join, hjoin, same'⟩
      · exact .inl (.inl converted)
      · exact .inr ⟨join, hjoin, same.trans same'⟩

end KeepsSources

namespace Converts

theorem of_unpriced_eq (same : new.unpriced = old.unpriced) : old.Converts new :=
  Touches.of_unpriced_eq same

theorem keepsSources (converts : old.Converts new) : old.KeepsSources new := by
  constructor
  · intro id join found
    by_cases converted : old.ConvertedAt new id
    · exact .inl converted
    · right
      have same := converts.join?_eq converted (join?_lt_size found)
      rw [found, Option.map_some, Option.map_eq_some_iff] at same
      obtain ⟨payload, hpayload, hsame⟩ := same
      exact ⟨payload, hpayload, JoinNode.valueSource_of_unpriced_eq hsame⟩
  · intro id payload found
    by_cases converted : old.ConvertedAt new id
    · exact .inl converted
    · right
      by_cases inside : id < old.size
      · have same := converts.join?_eq converted inside
        rw [found, Option.map_some, eq_comm, Option.map_eq_some_iff] at same
        obtain ⟨join, hjoin, hsame⟩ := same
        exact ⟨join, hjoin, (JoinNode.valueSource_of_unpriced_eq hsame).symm⟩
      · obtain ⟨select, hselect, -⟩ := converts.added (Nat.not_lt.mp inside) (join?_lt_size found)
        simp only [join?, select?, Option.bind_eq_some_iff] at found hselect
        obtain ⟨kind, hkind, hjoin⟩ := found
        obtain ⟨kind', hkind', hselect⟩ := hselect
        rw [hkind] at hkind'
        cases hkind'
        cases kind <;> simp [NodeKind.join?, NodeKind.select?] at hjoin hselect

theorem trans (first : old.Converts middle) (second : middle.Converts new) : old.Converts new := by
  have early {id : NodeId} (converted : old.ConvertedAt middle id) : old.ConvertedAt new id :=
    (first.keepsSources.convertedAt_iff second.keepsSources).mpr (.inl converted)
  have late {id : NodeId} (converted : middle.ConvertedAt new id) : old.ConvertedAt new id :=
    (first.keepsSources.convertedAt_iff second.keepsSources).mpr (.inr converted)
  refine Touches.trans (Touches.mono first (fun _ => early) ?_)
    (Touches.mono second (fun _ => late) ?_) fun id converted => converted.lt_size
  · rintro _ ⟨id, between, source, expr, valueExpr, converted, hbetween, hsource, rfl⟩
    obtain ⟨payload, hpayload, hsource'⟩ :=
      second.keepsSources.valueSource_kept hbetween hsource
    exact ⟨id, payload, source, expr, valueExpr, early converted, hpayload, hsource', rfl⟩
  · rintro _ ⟨id, payload, source, expr, valueExpr, converted, hpayload, hsource, rfl⟩
    exact ⟨id, payload, source, expr, valueExpr, late converted, hpayload, hsource, rfl⟩

theorem unpriced_eq (converts : old.Converts new) (none : ∀ id, ¬ old.ConvertedAt new id) :
    new.unpriced = old.unpriced := by
  have size : new.size = old.size := by
    refine Nat.le_antisymm ?_ converts.grows
    by_contra grown
    obtain ⟨_, -, id, _, _, _, _, converted, -⟩ :=
      converts.added (Nat.le_refl _) (Nat.not_le.mp grown)
    exact none id converted
  refine unpriced_eq_iff.mpr ⟨converts.root, fun id => ?_⟩
  by_cases inside : id < old.size
  · obtain ⟨node, found⟩ := exists_node?_of_lt inside
    obtain ⟨after, hafter, change⟩ := converts.nodes found
    rw [found, hafter, Option.map_some, Option.map_some]
    cases change with
    | left same => rw [same]
    | changed converted => exact absurd converted (none _)
    | relinked _ converted => exact absurd converted (none _)
  · rw [node?_eq_none (Nat.not_lt.mp inside), node?_eq_none (size ▸ Nat.not_lt.mp inside)]

end Converts

theorem ConvertedAt.unpriced_ne (converted : old.ConvertedAt new id) :
    new.unpriced ≠ old.unpriced := by
  intro same
  obtain ⟨join, payload, source, hjoin, ordinary, hpayload, hsource⟩ := converted
  have touches : old.Touches new (fun _ => False) (fun _ => False) := .of_unpriced_eq same
  have untouched := touches.join?_eq not_false (join?_lt_size hjoin)
  rw [hjoin, hpayload] at untouched
  have kept := JoinNode.valueSource_of_unpriced_eq (Option.some.inj untouched)
  rw [ordinary, hsource] at kept
  cases kept

/-- Nothing but conversions has happened, and the flag tells whether there were any. -/
structure ConvertsIf (converted : Bool) (old new : Plan) : Prop where
  converts : old.Converts new
  exact_iff : converted = true ↔ ∃ id, old.ConvertedAt new id

namespace ConvertsIf

theorem of_unpriced_eq (same : new.unpriced = old.unpriced) : ConvertsIf false old new := by
  refine ⟨.of_unpriced_eq same, nofun, ?_⟩
  rintro ⟨id, converted⟩
  exact absurd same converted.unpriced_ne

theorem trans {converted converted' : Bool} (first : ConvertsIf converted old middle)
    (second : ConvertsIf converted' middle new) :
    ConvertsIf (converted || converted') old new := by
  refine ⟨first.converts.trans second.converts, ?_⟩
  rw [Bool.or_eq_true, first.exact_iff, second.exact_iff, ← exists_or]
  exact exists_congr fun id => (first.converts.keepsSources.convertedAt_iff
    second.converts.keepsSources).symm

theorem unpriced_eq_iff {converted : Bool} (converts : ConvertsIf converted old new) :
    converted = false ↔ new.unpriced = old.unpriced := by
  constructor
  · intro unconverted
    refine converts.converts.unpriced_eq fun id converted => ?_
    have := converts.exact_iff.mpr ⟨id, converted⟩
    rw [unconverted] at this
    cases this
  · intro same
    by_contra converted
    obtain ⟨id, converted⟩ := converts.exact_iff.mp (Bool.eq_true_of_not_eq_false converted)
    exact converted.unpriced_ne same

end ConvertsIf

end Plan

namespace ChooseDependent

variable {plan : Plan} {start final : Session} {id child : NodeId} {join : JoinNode}

def WaitsFor (source : String) (select : SelectNode) : Prop :=
  ∃ expr valueExpr, select = ⟨.dependentSet expr source valueExpr, true⟩

theorem touches_stackFilters {criteria : List Criteria} {filters : SelectNode → Prop}
    (parent : plan.parent? child = some id) (inside : id < plan.size) (ne : id ≠ child)
    (wanted : ∀ criterion ∈ criteria, filters ⟨criterion, true⟩) :
    plan.Touches (stackFilters plan child criteria) (· = id) filters := by
  induction criteria generalizing plan child with
  | nil => exact .of_unpriced_eq rfl
  | cons criterion rest ih =>
      have outside : plan.size ≠ child := Nat.ne_of_gt (Plan.parent?_lt_size parent)
      have parent' : (plan.addAsParent child (.select ⟨criterion, true⟩)).1.parent? plan.size =
          some id := by
        rw [Plan.parent?, Plan.node?_addAsParent_new _ outside
          (by simpa [parent] using Nat.ne_of_gt inside), parent]
        rfl
      refine (Plan.touches_addAsParent parent inside ne (wanted criterion List.mem_cons_self)).trans
        (ih parent' ?_ (Nat.ne_of_lt inside) fun other hother =>
          wanted other (List.mem_cons_of_mem _ hother)) ?_
      · rw [Plan.size_addAsParent]
        exact Nat.lt_succ_of_lt inside
      · rintro _ rfl
        exact inside

theorem join?_stackFilters (criteria : List Criteria) (child : NodeId) (inside : id < plan.size) :
    (stackFilters plan child criteria).join? id = plan.join? id := by
  induction criteria generalizing plan child with
  | nil => rfl
  | cons criterion rest ih =>
      have added : (plan.addAsParent child (.select ⟨criterion, true⟩)).1.join? id =
          plan.join? id := by
        rw [Plan.join?, Plan.kind?_addAsParent, if_neg (Nat.ne_of_lt inside), Plan.join?]
      have inside' : id < (plan.addAsParent child (.select ⟨criterion, true⟩)).1.size := by
        rw [Plan.size_addAsParent]
        exact Nat.lt_succ_of_lt inside
      exact (ih plan.size inside').trans added

theorem waitsFor_of_mem_dependentSets {source : String} {dependent independent : List Expr}
    {criterion : Criteria} (member : criterion ∈ dependentSets source dependent independent) :
    WaitsFor source ⟨criterion, true⟩ := by
  obtain ⟨pair, -, rfl⟩ := List.mem_map.mp member
  exact ⟨_, _, rfl⟩

theorem attachFilters_touches (hjoin : plan.join? id = some join)
    (parent : plan.parent? child = some id) (ne : id ≠ child) (source : String)
    (dependent independent : List Expr) :
    plan.Touches (attachFilters plan id join child source dependent independent) (· = id)
        (WaitsFor source) ∧
      (attachFilters plan id join child source dependent independent).join? id =
        some { join with valueSource := some source } := by
  have inside := Plan.join?_lt_size hjoin
  have inside' : id < (plan.setKind id (.join { join with valueSource := some source })).size := by
    rw [Plan.size_setKind]
    exact inside
  have parent' := (Plan.parent?_setKind plan id (.join { join with valueSource := some source })
    child).trans parent
  refine ⟨(Plan.touches_modify plan id _).trans (touches_stackFilters parent' inside' ne fun _ =>
    waitsFor_of_mem_dependentSets) ?_, ?_⟩
  · rintro _ rfl
    exact inside
  · rw [attachFilters, join?_stackFilters _ _ inside', Plan.join?_setKind hjoin]

theorem swapJoinChildren_touches {swapped : Plan} {filters : SelectNode → Prop}
    (hjoin : plan.join? id = some join) (h : Plan.swapJoinChildren id plan = .ok () swapped) :
    plan.Touches swapped (· = id) filters ∧ swapped.join? id = some join.mirrored := by
  obtain ⟨node, found⟩ := Plan.exists_node?_of_lt (Plan.join?_lt_size hjoin)
  by_cases applies : (plan.join? id).isSome = true ∧ ∃ left right, plan.children id = [left, right]
  · obtain ⟨-, left, right, inputs⟩ := applies
    cases (Plan.swapJoinChildren_eq inputs hjoin).symm.trans h
    refine ⟨Plan.touches_modify plan id _, ?_⟩
    rw [Plan.join?, Plan.kind?, Plan.reordered, Plan.node?_modify, if_pos rfl, found]
    rfl
  · obtain ⟨error, failed⟩ := Plan.swapJoinChildren_eq_error applies
    cases failed.symm.trans h

theorem converts_of_touches {new : Plan} {source : String} {payload : JoinNode}
    (hjoin : plan.join? id = some join) (ordinary : join.valueSource = none)
    (touches : plan.Touches new (· = id) (WaitsFor source))
    (hpayload : new.join? id = some payload) (hsource : payload.valueSource = some source) :
    Plan.ConvertsIf true plan new := by
  have converted : plan.ConvertedAt new id :=
    ⟨join, payload, source, hjoin, ordinary, hpayload, hsource⟩
  refine ⟨touches.mono ?_ ?_, fun _ => ⟨id, converted⟩, fun _ => rfl⟩
  · rintro _ rfl
    exact converted
  · rintro _ ⟨expr, valueExpr, rfl⟩
    exact ⟨id, payload, source, expr, valueExpr, converted, hpayload, hsource, rfl⟩

/-- A conversion that gives up, for want of expressions, does so before it changes the plan. -/
theorem convert_converts {converted : Bool} (h : convert id child start = .ok converted final)
    (hplan : start.plan = plan) (hjoin : plan.join? id = some join)
    (ordinary : join.valueSource = none) (parent : plan.parent? child = some id) (ne : id ≠ child) :
    Plan.ConvertsIf converted plan final.plan := by
  subst hplan
  rw [convert, bind_eq_ok_iff] at h
  obtain ⟨_, _, hplan, h⟩ := h
  obtain ⟨rfl, rfl⟩ := Planning.plan_eq_ok_iff.mp hplan
  simp only [hjoin] at h
  generalize (start.plan.firstChild? id == some child) = isLeft at h
  generalize (if isLeft = true then (join.rightExprs, join.leftExprs)
    else (join.leftExprs, join.rightExprs)) = exprs at h
  obtain ⟨independent, dependent⟩ := exprs
  cases hempty : independent.isEmpty with
  | true =>
      simp only [hempty, if_true] at h
      obtain ⟨rfl, rfl⟩ := pure_eq_ok_iff.mp h
      exact .of_unpriced_eq rfl
  | false =>
      simp only [hempty, Bool.false_eq_true, if_false] at h
      rw [bind_eq_ok_iff] at h
      obtain ⟨number, _, htake, h⟩ := h
      obtain ⟨-, rfl⟩ := Planning.takeValueSource_eq_ok_iff.mp htake
      obtain ⟨touches, hattached⟩ := attachFilters_touches hjoin parent ne (valueSourceName number)
        dependent independent
      cases isLeft with
      | false =>
          simp only [Bool.false_eq_true, if_false, bind_eq_ok_iff, Planning.setPlan_eq_ok_iff,
            Planning.plan_eq_ok_iff] at h
          obtain ⟨_, _, rfl, _, _, ⟨rfl, rfl⟩, _, _, hreport, h⟩ := h
          obtain ⟨-, events, rfl⟩ := Planning.eq_ok_of_inquire (Inquiry.finds_report _) hreport
          obtain ⟨rfl, rfl⟩ := pure_eq_ok_iff.mp h
          exact converts_of_touches hjoin ordinary touches hattached rfl
      | true =>
          simp only [if_true, bind_eq_ok_iff, Planning.setPlan_eq_ok_iff, Planning.edit_eq_ok_iff,
            Planning.plan_eq_ok_iff] at h
          obtain ⟨_, _, rfl, _, _, ⟨swapped, found, rfl⟩, _, _, ⟨rfl, rfl⟩, _, _, hreport, h⟩ := h
          obtain ⟨-, events, rfl⟩ := Planning.eq_ok_of_inquire (Inquiry.finds_report _) hreport
          obtain ⟨rfl, rfl⟩ := pure_eq_ok_iff.mp h
          obtain ⟨touches', hswapped⟩ := swapJoinChildren_touches hattached found
          refine converts_of_touches hjoin ordinary (touches.trans touches' ?_) hswapped rfl
          rintro _ rfl
          exact Plan.join?_lt_size hjoin

theorem unpriced_recordCosts (hjoin : plan.join? id = some join) (dependent ordinary : Float) :
    (recordCosts plan id join dependent ordinary).unpriced = plan.unpriced := by
  refine Plan.unpriced_eq_iff.mpr ⟨rfl, fun other => ?_⟩
  rw [recordCosts, Plan.setKind, Plan.node?_modify]
  by_cases h : other = id
  · subst h
    rw [if_pos rfl, Option.map_map]
    cases hnode : plan.node? other with
    | none => rfl
    | some node =>
        simp only [Plan.join?, Plan.kind?, hnode, Option.map_some, Option.bind_some] at hjoin
        cases hkind : node.kind <;> rw [hkind] at hjoin <;> cases hjoin
        simp [PlanNode.unpriced, hkind, NodeKind.unpriced, JoinNode.unpriced]
  · rw [if_neg h]

variable {tree : PlanTree} {outcomes : NodeId → Outcome}

theorem Standing.settle_converts {context : PlanningContext} {candidate : CandidateJoin}
    {rest : List CandidateJoin} {converted : Bool} {first : Nat}
    (standing : Standing tree first outcomes (candidate :: rest) start) (nodup : tree.ids.Nodup)
    (shaped : tree.WellShaped) (h : settle context candidate start = .ok converted final) :
    Plan.ConvertsIf converted start.plan final.plan := by
  obtain ⟨join, left, right, rebuilt, -, hleft, hright, eligible, -, -, holds, -⟩ :=
    standing.exists_join nodup shaped
  obtain ⟨side, hadmits⟩ := CandidateJoin.exists_admits hleft hright eligible
  have ordinary := JoinNode.ordinary_of_allows (JoinNode.allows_of_admits hadmits)
  have member := PlanTree.mem_subtrees_within_self (.node candidate.join (.join join)
    [left.rebuild outcomes, right.rebuild outcomes]) rebuilt
  have hjoin : start.plan.join? candidate.join = some join := holds.join?_eq member
  obtain ⟨-, below, inner, -⟩ := holds.hole
  have finds := finds_decide context (holds.firstChild?_eq member) (holds.lastChild?_eq member)
    hjoin
  have input {child : PlanTree} (hchild : child ∈ [left.rebuild outcomes, right.rebuild outcomes]) :
      start.plan.parent? child.id = some candidate.join ∧ candidate.join ≠ child.id := by
    refine ⟨?_, fun same => inner child hchild (same ▸ child.id_mem_ids)⟩
    rw [Plan.parent?, (below child hchild).node?_id]
    rfl
  rw [settle, bind_eq_ok_iff] at h
  obtain ⟨_, _, hplan, h⟩ := h
  obtain ⟨rfl, rfl⟩ := Planning.plan_eq_ok_iff.mp hplan
  rw [bind_eq_ok_iff] at h
  obtain ⟨decision, _, hdecide, h⟩ := h
  obtain ⟨hdecided, events, rfl⟩ := Planning.eq_ok_of_inquire finds hdecide
  have chosen {dependent : NodeId} (hdependent : decision.dependent? = some dependent) :
      start.plan.parent? dependent = some candidate.join ∧ candidate.join ≠ dependent := by
    rcases eq_of_decided eligible hdecided hdependent with ⟨-, rfl⟩ | ⟨-, rfl⟩
    · exact input List.mem_cons_self
    · exact input (List.mem_cons_of_mem _ List.mem_cons_self)
  cases decision with
  | leave =>
      obtain ⟨rfl, rfl⟩ := pure_eq_ok_iff.mp h
      exact .of_unpriced_eq rfl
  | convert dependent =>
      obtain ⟨parent, ne⟩ := chosen rfl
      have h : convert candidate.join dependent
        { start with report := start.report.noteAll events } = .ok converted final := h
      exact convert_converts h rfl hjoin ordinary parent ne
  | compareCosts dependent cost ordinaryCost =>
      obtain ⟨parent, ne⟩ := chosen rfl
      simp only [hjoin, bind_eq_ok_iff, Planning.setPlan_eq_ok_iff] at h
      obtain ⟨_, _, rfl, h⟩ := h
      have recorded : Plan.ConvertsIf false start.plan
          (recordCosts start.plan candidate.join join cost ordinaryCost) :=
        .of_unpriced_eq (unpriced_recordCosts hjoin cost ordinaryCost)
      split at h
      · have hjoin' := Plan.join?_setKind hjoin
          { join with dependentCost := some cost, ordinaryCost := some ordinaryCost }
        have parent' := (Plan.parent?_setKind start.plan candidate.join (.join { join with
          dependentCost := some cost, ordinaryCost := some ordinaryCost }) dependent).trans parent
        exact recorded.trans (convert_converts h rfl hjoin' ordinary parent' ne)
      · obtain ⟨rfl, rfl⟩ := pure_eq_ok_iff.mp h
        exact recorded

theorem Standing.run_converts {context : PlanningContext} {waiting : List CandidateJoin}
    {converted : Bool} {first : Nat} (standing : Standing tree first outcomes waiting start)
    (nodup : tree.ids.Nodup) (shaped : tree.WellShaped)
    (h : settleAll context waiting start = .ok converted final) :
    Plan.ConvertsIf converted start.plan final.plan := by
  induction waiting generalizing start converted outcomes with
  | nil =>
      obtain ⟨rfl, rfl⟩ := pure_eq_ok_iff.mp h
      exact .of_unpriced_eq rfl
  | cons candidate rest ih =>
      simp only [settleAll, bind_eq_ok_iff] at h
      obtain ⟨now, middle, hsettle, others, _, hrest, hdone⟩ := h
      obtain ⟨rfl, rfl⟩ := pure_eq_ok_iff.mp hdone
      obtain ⟨_, _, -, -, -, next⟩ := standing.step nodup shaped hsettle
      exact (standing.settle_converts nodup shaped hsettle).trans (ih next hrest)

theorem execute_converts {context : PlanningContext} {changed : Bool}
    (holds : start.plan.Holds tree) (shaped : tree.WellShaped)
    (h : execute context start = .ok changed final) :
    Plan.ConvertsIf changed start.plan final.plan := by
  obtain ⟨middle, hsettle, rfl⟩ := (execute_eq_ok_iff holds shaped).mp h
  have surveyed : (surveyed start).plan.Holds tree := holds
  have converts := (Standing.initial surveyed).run_converts holds.nodup shaped hsettle
  cases changed with
  | true => exact converts
  | false => exact converts

end ChooseDependent

end FederatedQuery
