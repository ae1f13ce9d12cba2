import FederatedQuery.Proofs.Planning.JoinTracking
import FederatedQuery.Proofs.Planning.Moves

/-!
# Joins through runs of the optimizer

Every move of planning keeps track of the joins, so any number of executions does,
whatever waits on the stack and whatever the rules push.  Hence a run converts only
joins for which that was legal when it began.
-/

namespace FederatedQuery

open Relation

namespace PlanTree

theorem tracks_of_planningMove {tree new : PlanTree × Nat} (move : PlanningMove tree new) :
    tree.1.Tracks new.1 := by
  cases move with
  | filter move => exact (thinned_of_move move).tracks
  | settle nodup shaped sound started => exact tracks_rebuild nodup shaped sound

theorem tracks_of_moves {tree new : PlanTree × Nat} (moves : ReflTransGen PlanningMove tree new) :
    tree.1.Tracks new.1 := by
  induction moves with
  | refl => exact .refl tree.1
  | tail _ move ih => exact ih.trans (tracks_of_planningMove move)

structure ConvertsLegally (old new : PlanTree) : Prop where
  persists : ∀ {id join left right}, PlanTree.node id (.join join) [left, right] ∈ old.subtrees →
    ∃ payload inputs, PlanTree.node id (.join payload) inputs ∈ new.subtrees
  converted : ∀ {id join left right payload inputs},
    PlanTree.node id (.join join) [left, right] ∈ old.subtrees → join.valueSource = none →
      PlanTree.node id (.join payload) inputs ∈ new.subtrees →
        payload.valueSource.isSome = true →
          (payload.joinType = .inner ∨ payload.joinType = .leftOuter) ∧
            ∃ side first last, join.LegalOn side (side.pick left right) ∧
              inputs = [first, last] ∧ (side.opposite.pick left right).SameInput first ∧
              last.beneath.id = (side.pick left right).beneath.id
  kept : ∀ {id join left right}, PlanTree.node id (.join join) [left, right] ∈ old.subtrees →
    (join.joinType = .cross ∨ join.joinType = .fullOuter ∨
      ∃ outer ∈ old.subtrees, isAccess outer.kind = true ∧
        PlanTree.node id (.join join) [left, right] ∈ outer.subtrees) →
      ∃ newLeft newRight, PlanTree.node id (.join join) [newLeft, newRight] ∈ new.subtrees ∧
        left.SameInput newLeft ∧ right.SameInput newRight

theorem Tracks.convertsLegally {old new : PlanTree} (tracks : old.Tracks new)
    (nodup : new.ids.Nodup) : old.ConvertsLegally new := by
  constructor
  · intro id join left right member
    obtain ⟨after, hafter, change⟩ := tracks.joins member
    cases change with
    | kept => exact ⟨_, _, hafter⟩
    | converted => exact ⟨_, _, hafter⟩
  · intro id join left right payload inputs member ordinary hnew dependent
    obtain ⟨after, hafter, change⟩ := tracks.joins member
    cases change with
    | kept same =>
        cases eq_of_id_eq nodup hnew hafter rfl
        have hsource := congrArg (·.valueSource) same
        simp only [JoinNode.unpriced, ordinary] at hsource
        rw [hsource] at dependent
        cases dependent
    | converted side _ _ legal joinType hfirst hlast =>
        cases eq_of_id_eq nodup hnew hafter rfl
        exact ⟨joinType, side, _, _, legal, rfl, hfirst, hlast⟩
  · intro id join left right member special
    have fixed (h : join.joinType = .cross ∨ join.joinType = .fullOuter) :
        ∃ newLeft newRight, PlanTree.node id (.join join) [newLeft, newRight] ∈ new.subtrees ∧
          left.SameInput newLeft ∧ right.SameInput newRight := by
      obtain ⟨after, hafter, change⟩ := tracks.joins member
      cases change with
      | kept same fixed hleft hright =>
          cases fixed h
          exact ⟨_, _, hafter, hleft, hright⟩
      | converted side _ _ legal =>
          rcases legal.joinType with htype | ⟨htype, -⟩ | ⟨htype, -⟩ <;> simp [htype] at h
    rcases special with h | h | ⟨outer, houter, haccess, inside⟩
    · exact fixed (.inl h)
    · exact fixed (.inr h)
    · obtain ⟨after, hafter, -, joins⟩ := tracks.enclosed houter haccess
      obtain ⟨newLeft, newRight, hnew, same⟩ := joins inside
      exact ⟨newLeft, newRight, subtrees_subset_of_mem hafter hnew, same⟩

end PlanTree

namespace Optimizer

variable {optimizer : Optimizer}

/-- Every run of the optimizer converts only joins that it may. -/
theorem run_convertsLegally (bundled : optimizer.Bundled) {federation : Federation}
    {oracle : CostOracle} {start final : Session} {result : OptimizedPlan}
    (accepted : start.plan.Accepted) (h : optimizer.run federation oracle start = .ok result final) :
    start.plan.tree.ConvertsLegally result.plan.tree := by
  obtain ⟨holds, shaped⟩ := accepted.holds
  obtain ⟨new, hnew, -, moves⟩ := bundled.run_moves holds shaped h
  rw [hnew.tree_eq]
  exact (PlanTree.tracks_of_moves moves).convertsLegally hnew.nodup

def hintedJoin : Plan :=
  let first : Expr := .column ⟨.named "pm1.g1", "id", .int64⟩
  let second : Expr := .column ⟨.named "pm2.g2", "id", .int64⟩
  let join : JoinNode :=
    ⟨.leftOuter, .nestedLoop, [.eq first second], [first], [second], none, none, none⟩
  ⟨[⟨.join join, none, [1, 2]⟩, ⟨.access { group := .named "pm1.g1" }, some 0, []⟩,
    ⟨.access { group := .named "pm2.g2", makeDependent := true }, some 0, []⟩], 0⟩

theorem hintedJoin_convertsLegally :
    ∃ result final, (standard {}).run PlanningContext.permissive.federation
        PlanningContext.permissive.oracle (.start hintedJoin ordinaryRules 0) =
          .ok result final ∧
      result.applied = 1 ∧ hintedJoin.tree.ConvertsLegally result.plan.tree := by
  obtain ⟨result, final, h, happlied⟩ := Planning.exists_of_succeeds (show Planning.succeeds
    ((standard {}).run PlanningContext.permissive.federation PlanningContext.permissive.oracle)
    (.start hintedJoin ordinaryRules 0) (fun result _ => result.applied == 1) = true by
      decide +kernel)
  refine ⟨result, final, h, beq_iff_eq.mp happlied, run_convertsLegally (bundled_standard {}) ?_ h⟩
  exact .of_links (by decide) (by decide) (by decide)

end Optimizer

end FederatedQuery
