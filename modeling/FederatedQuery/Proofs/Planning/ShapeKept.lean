import FederatedQuery.Proofs.Plan.Linked
import FederatedQuery.Proofs.Planning.JoinTracking
import FederatedQuery.Proofs.Planning.Moves

/-!
# The shape of a plan through runs of the optimizer

Only filters come and go.  Every other node stays in the plan with its type, and
the nodes below it, filters aside, stay the same and in order.  The one exception is
a join that is converted: its inputs may be exchanged, and then it is reversed.
-/

namespace FederatedQuery

open Relation

def JoinNode.bare (join : JoinNode) : JoinNode :=
  { join with valueSource := none, dependentCost := none, ordinaryCost := none }

@[simp] theorem JoinNode.bare_priced (join : JoinNode) (costs : Option (Float × Float)) :
    (join.priced costs).bare = join.bare := by
  cases costs <;> rfl

namespace NodeKind

def isDependentJoin (kind : NodeKind) : Bool := kind.join?.any (·.valueSource.isSome)

theorem isSelect_eq_false_iff {kind : NodeKind} :
    kind.isSelect = false ↔ kind.nodeType ≠ .select := by
  cases kind <;> simp [isSelect, select?, nodeType]

/-- A node of the same type, which is the same join if it is one. -/
structure Extends (old new : NodeKind) : Prop where
  nodeType : new.nodeType = old.nodeType
  bare : new.join?.map JoinNode.bare = old.join?.map JoinNode.bare
  dependent : old.isDependentJoin = true → new.isDependentJoin = true

theorem Extends.refl (kind : NodeKind) : kind.Extends kind := ⟨rfl, rfl, id⟩

theorem Extends.trans {old middle new : NodeKind} (first : old.Extends middle)
    (second : middle.Extends new) : old.Extends new :=
  ⟨second.nodeType.trans first.nodeType, second.bare.trans first.bare,
    second.dependent ∘ first.dependent⟩

/-- An ordinary join that was converted and whose inputs were exchanged. -/
structure Exchanges (old new : NodeKind) : Prop where
  nodeType : new.nodeType = old.nodeType
  bare : new.join?.map JoinNode.bare = old.join?.map fun join => join.bare.mirrored
  ordinary : old.isDependentJoin = false
  dependent : new.isDependentJoin = true

end NodeKind

namespace PlanTree

def inputs (tree : PlanTree) : List NodeId := tree.children.map fun child => child.beneath.id

/-- What may become of a node that is no filter. -/
inductive Persists (old new : PlanTree) : Prop
  | kept (same : old.kind.Extends new.kind) (inputs : new.inputs = old.inputs)
  | exchanged (exchanges : old.kind.Exchanges new.kind) {first second : NodeId}
      (before : old.inputs = [first, second]) (after : new.inputs = [second, first])

theorem Persists.nodeType {old new : PlanTree} (persists : old.Persists new) :
    new.kind.nodeType = old.kind.nodeType := by
  cases persists with
  | kept same => exact same.nodeType
  | exchanged exchanges => exact exchanges.nodeType

theorem Persists.trans {old middle new : PlanTree} (first : old.Persists middle)
    (second : middle.Persists new) : old.Persists new := by
  cases first with
  | kept same inputs =>
      cases second with
      | kept extends' inputs' => exact .kept (same.trans extends') (inputs'.trans inputs)
      | exchanged exchanges before after =>
          refine .exchanged ⟨exchanges.nodeType.trans same.nodeType, ?_, ?_,
            exchanges.dependent⟩ (inputs ▸ before) after
          · have same := congrArg (Option.map JoinNode.mirrored) same.bare
            simp only [Option.map_map] at same
            exact exchanges.bare.trans same
          · rw [← Bool.not_eq_true]
            intro dependent
            exact Bool.false_ne_true (exchanges.ordinary.symm.trans (same.dependent dependent))
  | exchanged exchanges before after =>
      cases second with
      | kept same inputs =>
          exact .exchanged ⟨same.nodeType.trans exchanges.nodeType,
            same.bare.trans exchanges.bare, exchanges.ordinary,
            same.dependent exchanges.dependent⟩ before (inputs.trans after)
      | exchanged exchanges' =>
          exact absurd exchanges.dependent (Bool.eq_false_iff.mp exchanges'.ordinary)

/-- No node but filters is lost, and none but filters is new. -/
structure Reshapes (old new : PlanTree) : Prop where
  persists : ∀ {sub}, sub ∈ old.subtrees → sub.kind.isSelect = false →
    ∃ after ∈ new.subtrees, after.id = sub.id ∧ sub.Persists after
  origin : ∀ {after}, after ∈ new.subtrees → after.kind.isSelect = false →
    ∃ sub ∈ old.subtrees, sub.id = after.id ∧ sub.kind.isSelect = false

theorem Persists.isSelect_eq_false {old new : PlanTree} (persists : old.Persists new)
    (h : old.kind.isSelect = false) : new.kind.isSelect = false := by
  rw [NodeKind.isSelect_eq_false_iff] at h ⊢
  rwa [persists.nodeType]

theorem Reshapes.refl (tree : PlanTree) : tree.Reshapes tree :=
  ⟨fun member _ => ⟨_, member, rfl, .kept (.refl _) rfl⟩, fun member h => ⟨_, member, rfl, h⟩⟩

theorem Reshapes.trans {old middle new : PlanTree} (first : old.Reshapes middle)
    (second : middle.Reshapes new) : old.Reshapes new := by
  constructor
  · intro sub member h
    obtain ⟨between, hbetween, hid, persists⟩ := first.persists member h
    obtain ⟨after, hafter, hid', persists'⟩ :=
      second.persists hbetween (persists.isSelect_eq_false h)
    exact ⟨after, hafter, hid'.trans hid, persists.trans persists'⟩
  · intro after member h
    obtain ⟨between, hbetween, hid, h⟩ := second.origin member h
    obtain ⟨sub, hsub, hid', h⟩ := first.origin hbetween h
    exact ⟨sub, hsub, hid'.trans hid, h⟩

/-! ## Moves -/

theorem Thinned.persists {tree new : PlanTree} (h : tree.Thinned new)
    (standing : tree.kind.isSelect = false) : tree.Persists new := by
  cases h with
  | drop => cases standing
  | push => exact .kept ⟨rfl, rfl, nofun⟩ rfl
  | node id kind h =>
      refine .kept (.refl _) ?_
      simp only [inputs, children_node]
      clear standing
      induction h with
      | nil => rfl
      | cons hchild _ ih => rw [List.map_cons, List.map_cons, hchild.sameInput.beneath, ih]

theorem Thinned.reshapes {tree new : PlanTree} (h : tree.Thinned new) : tree.Reshapes new := by
  constructor
  · intro sub member standing
    obtain ⟨after, hafter, thinned, hid⟩ := h.exists_of_mem member standing
    exact ⟨after, hafter, hid, thinned.persists standing⟩
  · intro after member standing
    obtain ⟨sub, hsub, thinned, standing'⟩ := h.exists_origin member standing
    exact ⟨sub, hsub, (thinned.id_eq standing').symm, standing'⟩

variable {outcomes : NodeId → Outcome}

theorem Sound.persists {tree : PlanTree} {first last : Nat} (sound : tree.Sound outcomes first last)
    {sub : PlanTree} (member : sub ∈ tree.subtrees) : sub.Persists (sub.rebuild outcomes) := by
  obtain ⟨id, kind, children⟩ := sub
  rw [rebuild_node]
  rcases rebuildNode_cases outcomes id kind (children.map (rebuild outcomes)) with
    ⟨join, left, right, rfl, hchildren⟩ | same
  · obtain ⟨oldLeft, oldRight, rfl, rfl, rfl⟩ : ∃ oldLeft oldRight,
        children = [oldLeft, oldRight] ∧ oldLeft.rebuild outcomes = left ∧
          oldRight.rebuild outcomes = right := by
      simpa [List.map_eq_cons_iff, and_assoc] using hchildren
    have hleft : (oldLeft.rebuild outcomes).beneath.id = oldLeft.beneath.id :=
      (sameInput_rebuild oldLeft).beneath
    have hright : (oldRight.rebuild outcomes).beneath.id = oldRight.beneath.id :=
      (sameInput_rebuild oldRight).beneath
    rw [hchildren, rebuildNode]
    cases houtcome : outcomes id with
    | mk costs conversion =>
        cases conversion with
        | none =>
            rw [Outcome.apply_unconverted]
            refine .kept ⟨rfl, ?_, ?_⟩ ?_
            · simp [NodeKind.join?]
            · simp [NodeKind.isDependentJoin, NodeKind.join?]
            · simp [inputs, hleft, hright]
        | some conversion =>
            have hadmits := sound.admitted member (show _ = some conversion by rw [houtcome])
            have ordinary := JoinNode.ordinary_of_allows (JoinNode.allows_of_admits hadmits)
            obtain ⟨side, number, firstFilter⟩ := conversion
            cases side with
            | left =>
                rw [Outcome.apply_left]
                refine .exchanged ⟨rfl, ?_, ?_, rfl⟩
                  (show _ = [oldLeft.beneath.id, oldRight.beneath.id] from rfl) ?_
                · exact congrArg (fun bare : JoinNode => some bare.mirrored)
                    (join.bare_priced costs)
                · simp [NodeKind.isDependentJoin, NodeKind.join?, ordinary]
                · simp [inputs, hleft, hright, beneath_stacked]
            | right =>
                rw [Outcome.apply_right]
                refine .kept ⟨rfl, ?_, fun _ => rfl⟩ ?_
                · exact congrArg some (join.bare_priced costs)
                · simp [inputs, hleft, hright, beneath_stacked]
  · rw [same]
    refine .kept (.refl _) ?_
    simp only [inputs, children_node, List.map_map]
    exact List.map_congr_left fun child _ => (sameInput_rebuild child).beneath

theorem Sound.reshapes {tree : PlanTree} {first last : Nat}
    (sound : tree.Sound outcomes first last) : tree.Reshapes (tree.rebuild outcomes) := by
  constructor
  · intro sub member _
    exact ⟨_, rebuild_mem_subtrees member, id_rebuild sub, sound.persists member⟩
  · intro after member standing
    obtain ⟨sub, hsub, rfl⟩ := exists_of_mem_rebuild member standing
    refine ⟨sub, hsub, (id_rebuild sub).symm, ?_⟩
    rw [NodeKind.isSelect_eq_false_iff] at standing ⊢
    rwa [← (sound.persists hsub).nodeType]

theorem reshapes_of_planningMove {tree new : PlanTree × Nat} (move : PlanningMove tree new) :
    tree.1.Reshapes new.1 := by
  cases move with
  | filter move => exact (thinned_of_move move).reshapes
  | settle nodup shaped sound started => exact sound.reshapes

theorem reshapes_of_moves {tree new : PlanTree × Nat}
    (moves : ReflTransGen PlanningMove tree new) : tree.1.Reshapes new.1 := by
  induction moves with
  | refl => exact .refl tree.1
  | tail _ move ih => exact ih.trans (reshapes_of_planningMove move)

end PlanTree

/-! ## The shape of an arena -/

namespace Plan

def Stands (plan : Plan) (id : NodeId) (nodeType : NodeType) : Prop :=
  plan.Reached id ∧ plan.nodeType? id = some nodeType ∧ nodeType ≠ .select

def beneath (plan : Plan) (id : NodeId) : NodeId :=
  plan.descendWhile (fun id => (plan.select? id).isSome) plan.size id

def inputs (plan : Plan) (id : NodeId) : List NodeId := (plan.children id).map plan.beneath

inductive KeepsNode (old new : Plan) (id : NodeId) : Prop
  | kept (bare : (new.join? id).map JoinNode.bare = (old.join? id).map JoinNode.bare)
      (inputs : new.inputs id = old.inputs id)
  | exchanged {join payload : JoinNode} (before : old.join? id = some join)
      (after : new.join? id = some payload) (ordinary : join.valueSource = none)
      (dependent : payload.valueSource.isSome = true) (bare : payload.bare = join.bare.mirrored)
      {first second : NodeId} (inputs : old.inputs id = [first, second])
      (exchanged : new.inputs id = [second, first])

structure KeepsShape (old new : Plan) : Prop where
  stands : ∀ id nodeType, new.Stands id nodeType ↔ old.Stands id nodeType
  nodes : ∀ {id nodeType}, old.Stands id nodeType → old.KeepsNode new id

variable {plan : Plan} {tree : PlanTree}

theorem Holds.stands_iff (holds : plan.Holds tree) {id : NodeId} {nodeType : NodeType} :
    plan.Stands id nodeType ↔ ∃ sub ∈ tree.subtrees, sub.id = id ∧
      sub.kind.nodeType = nodeType ∧ sub.kind.isSelect = false := by
  constructor
  · rintro ⟨reached, htype, standing⟩
    obtain ⟨sub, hsub, rfl⟩ := List.mem_map.mp (holds.mem_ids_of_reached reached)
    rw [nodeType?, holds.kind?_eq hsub, Option.map_some, Option.some.injEq] at htype
    exact ⟨sub, hsub, rfl, htype, NodeKind.isSelect_eq_false_iff.mpr (htype ▸ standing)⟩
  · rintro ⟨sub, hsub, rfl, rfl, standing⟩
    refine ⟨holds.reached hsub, ?_, NodeKind.isSelect_eq_false_iff.mp standing⟩
    rw [nodeType?, holds.kind?_eq hsub, Option.map_some]

theorem Holds.inputs_eq (holds : plan.Holds tree) {sub : PlanTree} (member : sub ∈ tree.subtrees) :
    plan.inputs sub.id = sub.inputs := by
  rw [inputs, holds.children_eq member, PlanTree.inputs, List.map_map]
  refine List.map_congr_left fun child hchild => ?_
  have inside : child ∈ tree.subtrees :=
    PlanTree.child_mem_subtrees (sub.eta.symm ▸ member) hchild
  obtain ⟨parent, keeps⟩ := holds.keeps_of_mem inside
  refine keeps.descendWhile_eq (fun other hother => ?_) (holds.height_le_size inside)
  rw [holds.select?_eq (PlanTree.subtrees_subset_of_mem inside hother)]
  rfl

theorem Holds.keepsNode {new : Plan} {newTree sub after : PlanTree} (hold : plan.Holds tree)
    (hnew : new.Holds newTree) (member : sub ∈ tree.subtrees) (hafter : after ∈ newTree.subtrees)
    (same : after.id = sub.id) (persists : sub.Persists after) : plan.KeepsNode new sub.id := by
  have oldJoin := hold.join?_eq member
  have oldInputs := hold.inputs_eq member
  have newJoin := hnew.join?_eq hafter
  have newInputs := hnew.inputs_eq hafter
  rw [same] at newJoin newInputs
  cases persists with
  | kept same inputs =>
      refine .kept ?_ ?_
      · rw [oldJoin, newJoin, same.bare]
      · rw [oldInputs, newInputs, inputs]
  | exchanged exchanges before inputs =>
      obtain ⟨-, bare, ordinary, dependent⟩ := exchanges
      obtain ⟨payload, hpayload, dependent⟩ := (Option.any_eq_true _ _).mp dependent
      rw [hpayload, Option.map_some, eq_comm, Option.map_eq_some_iff] at bare
      obtain ⟨join, hjoin, bare⟩ := bare
      refine .exchanged (oldJoin.trans hjoin) (newJoin.trans hpayload) ?_ dependent bare.symm
        (oldInputs.trans before) (newInputs.trans inputs)
      simpa [NodeKind.isDependentJoin, hjoin] using ordinary

theorem Holds.keepsShape {new : Plan} {newTree : PlanTree} (hold : plan.Holds tree)
    (hnew : new.Holds newTree) (reshapes : tree.Reshapes newTree) : plan.KeepsShape new := by
  have persists {sub : PlanTree} (member : sub ∈ tree.subtrees)
      (standing : sub.kind.isSelect = false) :
      ∃ after ∈ newTree.subtrees, after.id = sub.id ∧ sub.Persists after :=
    reshapes.persists member standing
  constructor
  · intro id nodeType
    rw [hold.stands_iff, hnew.stands_iff]
    constructor
    · rintro ⟨after, hafter, rfl, rfl, standing⟩
      obtain ⟨sub, hsub, hid, standing'⟩ := reshapes.origin hafter standing
      obtain ⟨other, hother, hid', change⟩ := persists hsub standing'
      obtain rfl := PlanTree.eq_of_id_eq hnew.nodup hother hafter (hid'.trans hid)
      exact ⟨sub, hsub, hid, change.nodeType.symm, standing'⟩
    · rintro ⟨sub, hsub, rfl, rfl, standing⟩
      obtain ⟨after, hafter, hid, change⟩ := persists hsub standing
      exact ⟨after, hafter, hid, change.nodeType, change.isSelect_eq_false standing⟩
  · intro id nodeType stands
    obtain ⟨sub, hsub, rfl, rfl, standing⟩ := hold.stands_iff.mp stands
    obtain ⟨after, hafter, hid, change⟩ := persists hsub standing
    exact hold.keepsNode hnew hsub hafter hid change

end Plan

namespace Optimizer

variable {optimizer : Optimizer} {federation : Federation} {oracle : CostOracle}
  {start final : Session} {result : OptimizedPlan}

/-- Every run leaves an accepted plan that has lost nothing but filters. -/
theorem run_keepsShape (bundled : optimizer.Bundled) (accepted : start.plan.Accepted)
    (h : optimizer.run federation oracle start = .ok result final) :
    result.plan.Accepted ∧ start.plan.KeepsShape result.plan := by
  obtain ⟨holds, shaped⟩ := accepted.holds
  obtain ⟨new, hnew, hshaped, moves⟩ := bundled.run_moves holds shaped h
  exact ⟨hnew.accepted hshaped, holds.keepsShape hnew (PlanTree.reshapes_of_moves moves)⟩

def exchangedJoin : Plan :=
  let first : Expr := .column ⟨.named "pm1.g1", "id", .int64⟩
  let second : Expr := .column ⟨.named "pm2.g2", "id", .int64⟩
  let join : JoinNode :=
    ⟨.rightOuter, .nestedLoop, [.eq first second], [first], [second], none, none, none⟩
  ⟨[⟨.select ⟨.eq second second, false⟩, none, [1]⟩, ⟨.join join, some 0, [2, 3]⟩,
    ⟨.access { group := .named "pm1.g1", makeDependent := true }, some 1, []⟩,
    ⟨.access { group := .named "pm2.g2" }, some 1, []⟩], 0⟩

theorem exchangedJoin_keepsShape :
    ∃ result final, (standard {}).run PlanningContext.permissive.federation
        PlanningContext.permissive.oracle (.start exchangedJoin ordinaryRules 0) =
          .ok result final ∧
      (exchangedJoin.inputs 1 = [2, 3] ∧ result.plan.inputs 1 = [3, 2]) ∧
      (result.plan.join? 1).map JoinNode.joinType = some .leftOuter ∧
      result.plan.Accepted ∧ exchangedJoin.KeepsShape result.plan := by
  obtain ⟨result, final, h, exchanged⟩ := Planning.exists_of_succeeds (show Planning.succeeds
    ((standard {}).run PlanningContext.permissive.federation PlanningContext.permissive.oracle)
    (.start exchangedJoin ordinaryRules 0) (fun result _ => result.plan.inputs 1 == [3, 2] &&
      (result.plan.join? 1).map JoinNode.joinType == some .leftOuter) = true by decide +kernel)
  rw [Bool.and_eq_true, beq_iff_eq, beq_iff_eq] at exchanged
  refine ⟨result, final, h, ⟨by decide, exchanged.1⟩, exchanged.2,
    run_keepsShape (bundled_standard {}) ?_ h⟩
  exact .of_links (by decide) (by decide) (by decide)

end Optimizer

end FederatedQuery
