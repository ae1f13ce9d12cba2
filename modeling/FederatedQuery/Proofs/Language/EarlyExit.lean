import FederatedQuery.Proofs.Language.Surface

/-!
# Walks that end early

A walk comes to the objects in preorder, each visit gets the state that the visit before it
left, and after a visit that breaks there is no other.  So the objects visited are the
shortest initial part of the preorder that ends in a break, or all objects where no visit
breaks.  A visitor that also notes what it is given tells which objects these are.
-/

namespace FederatedQuery

section Visits

variable {α σ β : Type}

/-- The state that visits to the listed values leave, each made in the state left by the one
before it. -/
def stateAfter (visit : α → σ → σ × Option β) (values : List α) (state : σ) : σ :=
  values.foldl (fun left value => (visit value left).1) state

/-- Of the visits to the listed values, made one after another, the last one breaks. -/
def EndsInBreak (visit : α → σ → σ × Option β) (state : σ) (values : List α) (result : β) : Prop :=
  ∃ front last, values = front ++ [last] ∧
    (visit last (stateAfter visit front state)).2 = some result

/-- Visits to the members of a list end with the first break: which members are visited, and
what comes out. -/
inductive EarlyExit (visit : α → σ → σ × Option β) (state : σ) (list : List α) :
    List α → σ × Option β → Prop
  | broken {visited : List α} {result : β} (initial : visited <+: list)
      (breaks : EndsInBreak visit state visited result)
      (shortest : ∀ other result', other <+: list → EndsInBreak visit state other result' →
        visited.length ≤ other.length) :
      EarlyExit visit state list visited (stateAfter visit visited state, some result)
  | whole (unbroken : ∀ other result, other <+: list → ¬EndsInBreak visit state other result) :
      EarlyExit visit state list list (stateAfter visit list state, none)

/-- The visitor that also notes the values it is given, in the order in which it gets them. -/
def noting (visit : α → σ → σ × Option β) (value : α) (noted : σ × List α) :
    (σ × List α) × Option β :=
  let (left, stop) := visit value noted.1
  ((left, noted.2 ++ [value]), stop)

variable {visit : α → σ → σ × Option β} {state left : σ} {first : α} {rest visited : List α}
  {result : β}

theorem not_endsInBreak_nil : ¬EndsInBreak visit state [] result := by
  rintro ⟨front, last, split, -⟩
  exact List.append_ne_nil_of_right_ne_nil front (List.cons_ne_nil last []) split.symm

theorem endsInBreak_cons_iff :
    EndsInBreak visit state (first :: rest) result ↔
      (rest = [] ∧ (visit first state).2 = some result) ∨
        EndsInBreak visit (visit first state).1 rest result := by
  constructor
  · rintro ⟨front, last, split, breaks⟩
    cases front with
    | nil =>
        obtain ⟨rfl, rfl⟩ := List.cons.inj split
        exact .inl ⟨rfl, breaks⟩
    | cons value front =>
        obtain ⟨rfl, rfl⟩ := List.cons.inj split
        exact .inr ⟨front, last, rfl, breaks⟩
  · rintro (⟨rfl, breaks⟩ | ⟨front, last, rfl, breaks⟩)
    · exact ⟨[], first, rfl, breaks⟩
    · exact ⟨first :: front, last, rfl, breaks⟩

theorem exists_rest_of_endsInBreak {values : List α} (continues : visit first state = (left, none))
    (initial : values <+: first :: rest) (ends : EndsInBreak visit state values result) :
    ∃ later, values = first :: later ∧ later <+: rest ∧ EndsInBreak visit left later result := by
  cases values with
  | nil => exact absurd ends not_endsInBreak_nil
  | cons value later =>
      obtain ⟨rfl, below⟩ := List.cons_prefix_cons.mp initial
      rcases endsInBreak_cons_iff.mp ends with ⟨-, breaks⟩ | breaks
      · rw [continues] at breaks
        cases breaks
      · rw [continues] at breaks
        exact ⟨later, rfl, below, breaks⟩

namespace EarlyExit

theorem stop (breaks : visit first state = (left, some result)) :
    EarlyExit visit state (first :: rest) [first] (left, some result) := by
  have after : stateAfter visit [first] state = left := congrArg Prod.fst breaks
  have ends : EndsInBreak visit state [first] result :=
    endsInBreak_cons_iff.mpr (.inl ⟨rfl, congrArg Prod.snd breaks⟩)
  rw [← after]
  refine .broken (List.prefix_append [first] rest) ends fun other result' _ broken => ?_
  cases other with
  | nil => exact absurd broken not_endsInBreak_nil
  | cons _ _ => exact Nat.succ_le_succ (Nat.zero_le _)

/-- After a visit that lets the walk go on, the rest is as if the walk began there. -/
theorem next {out : σ × Option β} (continues : visit first state = (left, none))
    (exit : EarlyExit visit left rest visited out) :
    EarlyExit visit state (first :: rest) (first :: visited) out := by
  have after (values : List α) :
      stateAfter visit values left = stateAfter visit (first :: values) state := by
    rw [stateAfter, stateAfter, List.foldl_cons, continues]
  cases exit with
  | broken initial breaks shortest =>
      rw [after]
      refine .broken (List.cons_prefix_cons.mpr ⟨rfl, initial⟩)
        (endsInBreak_cons_iff.mpr (.inr (continues ▸ breaks))) fun other result' inside ends => ?_
      obtain ⟨later, rfl, below, ends⟩ := exists_rest_of_endsInBreak continues inside ends
      exact Nat.succ_le_succ (shortest later result' below ends)
  | whole unbroken =>
      rw [after]
      refine .whole fun other result inside ends => ?_
      obtain ⟨later, -, below, ends⟩ := exists_rest_of_endsInBreak continues inside ends
      exact unbroken later result below ends

end EarlyExit

theorem foldUntil_exits (visit : α → σ → σ × Option β) (list : List α) (state : σ)
    (before : List α) :
    ∃ visited, EarlyExit visit state list visited (foldUntil visit list state) ∧
      foldUntil (noting visit) list (state, before) =
        (((foldUntil visit list state).1, before ++ visited), (foldUntil visit list state).2) := by
  induction list generalizing state before with
  | nil =>
      refine ⟨[], .whole fun other result inside ends => ?_, ?_⟩
      · rw [List.prefix_nil.mp inside] at ends
        exact not_endsInBreak_nil ends
      · rw [foldUntil, foldUntil, List.append_nil]
  | cons first rest ih =>
      cases came : visit first state with
      | mk left stopped =>
          cases stopped with
          | some result =>
              refine ⟨[first], ?_, ?_⟩
              · simpa only [foldUntil, came] using EarlyExit.stop came
              · simp only [foldUntil, noting, came]
          | none =>
              obtain ⟨visited, exit, noted⟩ := ih left (before ++ [first])
              refine ⟨first :: visited, ?_, ?_⟩
              · simpa only [foldUntil, came] using exit.next came
              · simpa only [foldUntil, noting, came, List.append_assoc, List.singleton_append]
                  using noted

end Visits

namespace LanguageObject

def collectColumn (object : LanguageObject) (collected : List ElementSymbol) :
    List ElementSymbol × Option Unit :=
  (collected ++ object.column?.toList, none)

theorem foldUntil_collectColumn (objects : List LanguageObject) (collected : List ElementSymbol) :
    foldUntil collectColumn objects collected =
      (collected ++ objects.filterMap column?, none) := by
  induction objects generalizing collected with
  | nil => rw [foldUntil, List.filterMap_nil, List.append_nil]
  | cons object rest ih =>
      simp only [foldUntil, collectColumn, ih, List.append_assoc]
      cases column : object.column? with
      | none => rw [List.filterMap_cons_none column, Option.toList_none, List.nil_append]
      | some element =>
          rw [List.filterMap_cons_some column, Option.toList_some, List.singleton_append]

/-- A walk is a run over the preorder that ends with the first break, and what a surface hides
has no part in the order, the constructors or the columns. -/
theorem walk_visits_preorder (object : LanguageObject) :
    object.preorder = object :: object.children.flatMap preorder ∧
      (∀ {σ β : Type} (visit : LanguageObject → σ → σ × Option β) (state : σ),
        ∃ visited,
          EarlyExit visit state object.preorder visited (object.walk visit state) ∧
            object.walk (noting visit) (state, []) =
              (((object.walk visit state).1, visited), (object.walk visit state).2)) ∧
      object.walk collectColumn [] = (object.elements, none) ∧
      ∀ revised : LanguageObject, revised.surface = object.surface →
        revised.preorder.length = object.preorder.length ∧
        (∀ position : Nat, (revised.preorder[position]?).map constructors =
          (object.preorder[position]?).map constructors) ∧
        revised.elements = object.elements := by
  refine ⟨preorder_eq object, fun visit state => ?_, ?_, fun revised same => ?_⟩
  · simp only [walk_eq_foldUntil_preorder]
    exact foldUntil_exits visit object.preorder state []
  · rw [walk_eq_foldUntil_preorder, foldUntil_collectColumn, List.nil_append, elements_eq]
  · have alike := constructors_of_surface_eq same
    refine ⟨?_, fun position => ?_, elements_of_surface_eq same⟩
    · rw [← List.length_map constructors, alike, List.length_map]
    · rw [← List.getElem?_map, ← List.getElem?_map, alike]

def screened (valueSource : String) (valueExpr : Expr) (subquery : Subquery) : LanguageObject :=
  let column (name : String) : Expr := .column ⟨.named "pm2.g1", name, .int64⟩
  .criteria (.and [.dependentSet (column "e1") valueSource valueExpr,
    .not (.inSubquery (column "e2") subquery false),
    .eq (.case (column "e3") [⟨.literal (.int64 1), .scalarSubquery subquery⟩] none)
      (column "e4")])

def fedColumn : Expr := .column ⟨.named "pm1.g1", "e1", .int64⟩

def correlatedRead : Subquery :=
  let query := (Query.ofSelect [fedColumn]).reading (.named "pm1.g1")
  let read := (Subquery.ofCommand (.query query)).correlatedTo ⟨.named "pm2.g1", "e5", .int64⟩
    fedColumn
  read.plannedAsAccess

def screenedByRows : LanguageObject := screened "$dsc/id0" fedColumn correlatedRead

def screenedByCall : LanguageObject :=
  screened "" (.literal .null) (.ofCommand (.other "exec pm1.sp"))

theorem screenedByRows_in_step :
    screenedByRows.surface = screenedByCall.surface ∧
      screenedByRows.preorder.length = screenedByCall.preorder.length ∧
      (∀ position : Nat, (screenedByRows.preorder[position]?).map constructors =
        (screenedByCall.preorder[position]?).map constructors) ∧
      screenedByRows.elements = screenedByCall.elements := by
  have same : screenedByRows.surface = screenedByCall.surface := rfl
  obtain ⟨-, -, -, inStep⟩ := walk_visits_preorder screenedByCall
  exact ⟨same, inStep screenedByRows same⟩

example : screenedByRows.walk
    (fun object seen => (seen + 1, object.column?.filter (·.name == "e2"))) 0 =
      (6, some ⟨.named "pm2.g1", "e2", .int64⟩) := by
  cbv

end LanguageObject

end FederatedQuery
