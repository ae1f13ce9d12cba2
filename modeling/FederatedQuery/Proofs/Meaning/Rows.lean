import FederatedQuery.Proofs.Planning.FilterMoves

/-!
# Filters and rows

Rows come in lists.  All that is fixed about them is that a filter keeps the rows on
which its criteria hold, and that an access applies the criteria pushed into it to
what its source returns.  The rules for filters keep the rows under every such reading.
-/

namespace FederatedQuery

open Relation

universe u

/-- A reading of criteria and of plan nodes over some type of rows. -/
structure RowReading (Row : Type u) where
  holds : Criteria → Row → Bool
  holds_congr : ∀ first second : Criteria, (first == second) = true → holds first = holds second
  /-- What a source returns before it applies the pushed criteria. -/
  fetch : GroupSymbol → Option ModelId → List (List Row) → List Row
  other : NodeKind → List (List Row) → List Row

namespace RowReading

variable {Row : Type u} (reading : RowReading Row)

def apply : NodeKind → List (List Row) → List Row
  | .select select, inputs => (inputs.headD []).filter (reading.holds select.criteria)
  | .access access, inputs =>
      (reading.fetch access.group access.model inputs).filter fun row =>
        access.pushedCriteria.all fun criteria => reading.holds criteria row
  | kind, inputs => reading.other kind inputs

def rows (tree : PlanTree) : List Row := tree.fold fun _ kind inputs => reading.apply kind inputs

theorem rows_select (id : NodeId) (select : SelectNode) (below : PlanTree)
    (rest : List PlanTree) :
    reading.rows (.node id (.select select) (below :: rest)) =
      (reading.rows below).filter (reading.holds select.criteria) := by
  simp [rows, apply]

theorem rows_access (id : NodeId) (access : AccessNode) (children : List PlanTree) :
    reading.rows (.node id (.access access) children) =
      (reading.fetch access.group access.model (children.map reading.rows)).filter fun row =>
        access.pushedCriteria.all fun criteria => reading.holds criteria row := by
  rw [rows, PlanTree.fold_node]
  rfl

theorem rows_within_congr {tree other : PlanTree} (same : reading.rows tree = reading.rows other)
    (frames : List Frame) :
    reading.rows (tree.within frames) = reading.rows (other.within frames) :=
  PlanTree.fold_within_congr _ same frames

theorem exists_filter_of_passed {filters : List Frame}
    (passed : ∀ frame ∈ filters, frame.IsFilter) :
    ∃ keep : Row → Bool, ∀ tree, reading.rows (tree.within filters) =
      (reading.rows tree).filter keep := by
  induction filters with
  | nil => exact ⟨fun _ => true, fun tree => by simp⟩
  | cons frame rest ih =>
      obtain ⟨keep, hkeep⟩ := ih fun other hother => passed other (List.mem_cons_of_mem _ hother)
      obtain ⟨hkind, hsides⟩ := passed frame List.mem_cons_self
      obtain ⟨hleft, hright⟩ := List.append_eq_nil_iff.mp hsides
      obtain ⟨id, kind, left, right⟩ := frame
      cases kind <;> simp only [NodeKind.isSelect, NodeKind.select?, Option.isSome_none,
        Bool.false_eq_true] at hkind
      rename_i select
      refine ⟨fun row => keep row && reading.holds select.criteria row, fun tree => ?_⟩
      simp only at hleft hright
      subst hleft hright
      rw [PlanTree.within_cons, hkeep, Frame.fill, List.nil_append, rows_select,
        List.filter_filter]

theorem holds_of_redundantAbove {select : SelectNode} {below : PlanTree}
    (redundant : select.RedundantAbove below) :
    ∀ row ∈ reading.rows below, reading.holds select.criteria row = true := by
  intro row member
  cases redundant with
  | repeated same =>
      rw [rows_select, List.mem_filter, reading.holds_congr _ _ same] at member
      exact member.2
  | pushed passed contained =>
      obtain ⟨keep, hkeep⟩ := reading.exists_filter_of_passed passed
      rw [hkeep, List.mem_filter, rows_access, List.mem_filter, List.all_eq_true] at member
      obtain ⟨pushed, hpushed, hsame⟩ := List.contains_iff_exists_mem_beq.mp contained
      rw [reading.holds_congr _ _ hsame]
      exact member.1.2 pushed hpushed

theorem rows_eq_of_move {tree new : PlanTree} (move : FilterMove tree new) :
    reading.rows new = reading.rows tree := by
  cases move with
  | drop frames id redundant =>
      apply reading.rows_within_congr
      rw [rows_select, List.filter_eq_self.mpr]
      exact reading.holds_of_redundantAbove redundant
  | push frames id select passed source access children =>
      apply reading.rows_within_congr
      obtain ⟨keep, hkeep⟩ := reading.exists_filter_of_passed passed
      rw [rows_select, hkeep, hkeep, rows_access, rows_access]
      simp only [List.filter_filter]
      apply List.filter_congr
      intro row _
      simp only [AccessNode.push, List.all_append, List.all_cons, List.all_nil, Bool.and_true]
      cases keep row <;> simp [Bool.and_comm]

theorem rows_eq_of_moves {tree new : PlanTree} (moves : ReflTransGen FilterMove tree new) :
    reading.rows new = reading.rows tree := by
  induction moves with
  | refl => rfl
  | tail _ move ih => rw [reading.rows_eq_of_move move, ih]

end RowReading

def Plan.rows {Row : Type u} (plan : Plan) (reading : RowReading Row) : List Row :=
  reading.rows plan.tree

/-! ## Sequences of rules -/

/-- Executes rules in order, and tells of each whether it changed the plan. -/
def Rule.executeAll : List (Rule × PlanningContext) → Planning (List Bool)
  | [] => return []
  | (rule, context) :: rest => do
      let changed ← rule.execute context
      let others ← executeAll rest
      return changed :: others

theorem Rule.executeAll_transforms {steps : List (Rule × PlanningContext)}
    (forFilters : ∀ step ∈ steps, step.1 = cleanCriteria ∨ step.1 = pushSelectCriteria) :
    (executeAll steps).Transforms (ReflTransGen FilterMove) := by
  intro start final value tree holds shaped h
  induction steps generalizing start value tree with
  | nil =>
      obtain ⟨-, rfl⟩ := pure_eq_ok_iff.mp h
      exact ⟨tree, holds, shaped, .refl⟩
  | cons step rest ih =>
      obtain ⟨rule, context⟩ := step
      simp only [executeAll, bind_eq_ok_iff] at h
      obtain ⟨changed, middle, hfirst, others, last, hrest, hdone⟩ := h
      obtain ⟨-, rfl⟩ := pure_eq_ok_iff.mp hdone
      have first : (rule.execute context).Transforms (ReflTransGen FilterMove) := by
        rcases forFilters _ List.mem_cons_self with hrule | hrule
        · cases hrule
          exact CleanCriteria.execute_transforms context
        · cases hrule
          exact PushSelect.execute_transforms context
      obtain ⟨new, hnew, hshaped, moves⟩ := first holds shaped hfirst
      obtain ⟨last', hlast, hlastShaped, others⟩ :=
        ih (fun step hstep => forFilters step (List.mem_cons_of_mem _ hstep)) hnew hshaped hrest
      exact ⟨last', hlast, hlastShaped, moves.trans others⟩

/-- Cleaning and pushing filters, in any order and number, keep the rows of a plan. -/
theorem Rule.executeAll_keeps_rows {Row : Type u} (reading : RowReading Row)
    {steps : List (Rule × PlanningContext)}
    (forFilters : ∀ step ∈ steps, step.1 = cleanCriteria ∨ step.1 = pushSelectCriteria)
    {start final : Session} (accepted : start.plan.Accepted) {changed : List Bool}
    (h : executeAll steps start = .ok changed final) :
    final.plan.rows reading = start.plan.rows reading := by
  obtain ⟨holds, shaped⟩ := accepted.holds
  obtain ⟨new, hnew, -, moves⟩ := executeAll_transforms forFilters holds shaped h
  rw [Plan.rows, Plan.rows, hnew.tree_eq]
  exact reading.rows_eq_of_moves moves

namespace RowReading

def nullTests : RowReading (Option Nat) where
  holds
    | .isNull _ negated, row => row.isNone != negated
    | _, _ => true
  holds_congr := by
    intro first second same
    cases first <;> cases second <;> simp_all [BEq.beq, Criteria.beq]
  fetch _ _ _ := [none, some 1, none, some 2]
  other _ inputs := inputs.flatten

def filteredTwice : Plan :=
  let filter : SelectNode := ⟨.isNull (.literal .null) true, false⟩
  ⟨[⟨.select filter, none, [1]⟩, ⟨.select filter, some 0, [2]⟩,
    ⟨.access { group := .named "pm1.g1", model := some ⟨"pm1"⟩ }, some 1, []⟩], 0⟩

theorem filteredTwice_keeps_rows :
    ∃ final, Rule.executeAll
        [(cleanCriteria, .permissive), (pushSelectCriteria, .permissive)]
        (.start filteredTwice .empty 0) = .ok [true, true] final ∧
      final.plan.rows nullTests = filteredTwice.rows nullTests := by
  obtain ⟨changed, final, h, hchanged⟩ := Planning.exists_of_succeeds (show Planning.succeeds
    (Rule.executeAll [(cleanCriteria, .permissive), (pushSelectCriteria, .permissive)])
    (.start filteredTwice .empty 0) (fun changed _ => changed == [true, true]) = true by
      decide +kernel)
  obtain rfl := beq_iff_eq.mp hchanged
  refine ⟨final, h, Rule.executeAll_keeps_rows nullTests ?_ (.of_links ?_ ?_ ?_) h⟩
  · simp
  · decide
  · decide
  · decide

end RowReading

end FederatedQuery
