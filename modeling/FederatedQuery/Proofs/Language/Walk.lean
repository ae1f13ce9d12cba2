import FederatedQuery.Language.Nesting

/-!
A walk is a run over the objects in visiting order, and no object on it holds a
subquery that is nested deeper than those of the object where the walk began.
-/

namespace FederatedQuery

theorem foldUntil_append {α σ β : Type} (visit : α → σ → σ × Option β) (front back : List α)
    (state : σ) :
    foldUntil visit (front ++ back) state =
      match foldUntil visit front state with
      | (state, some result) => (state, some result)
      | (state, none) => foldUntil visit back state := by
  induction front generalizing state with
  | nil => rfl
  | cons first rest ih =>
      simp only [List.cons_append, foldUntil]
      cases visit first state with
      | mk left stopped =>
          cases stopped with
          | some result => rfl
          | none => exact ih left

theorem foldUntil_congr {α σ β : Type} {visit visit' : α → σ → σ × Option β} {list : List α}
    (same : ∀ value ∈ list, visit value = visit' value) (state : σ) :
    foldUntil visit list state = foldUntil visit' list state := by
  induction list generalizing state with
  | nil => rfl
  | cons first rest ih =>
      have hfirst := same first (List.mem_cons_self ..)
      have hrest := fun value member => same value (List.mem_cons_of_mem first member)
      simp only [foldUntil, hfirst, ih hrest]

theorem foldUntil_flatMap {α γ σ β : Type} (visit : γ → σ → σ × Option β) (below : α → List γ)
    (list : List α) (state : σ) :
    foldUntil visit (list.flatMap below) state =
      foldUntil (fun value => foldUntil visit (below value)) list state := by
  induction list generalizing state with
  | nil => rfl
  | cons first rest ih =>
      rw [List.flatMap_cons, foldUntil_append, foldUntil]
      cases foldUntil visit (below first) state with
      | mk left stopped =>
          cases stopped with
          | some result => rfl
          | none => exact ih left

namespace LanguageObject

/-- What holds of an object as soon as it holds of its children holds of every object. -/
theorem induction_children {motive : LanguageObject → Prop}
    (step : ∀ object, (∀ child ∈ object.children, motive child) → motive object)
    (object : LanguageObject) : motive object :=
  step object fun child _ => induction_children step child
termination_by sizeOf object
decreasing_by exact sizeOf_lt_of_mem_children ‹_›

theorem walk_eq_foldUntil_preorder {σ β : Type} (visit : LanguageObject → σ → σ × Option β)
    (object : LanguageObject) (state : σ) :
    object.walk visit state = foldUntil visit object.preorder state := by
  induction object using induction_children generalizing state with
  | step object ih =>
      rw [walk_eq, preorder_eq, foldUntil]
      cases visit object state with
      | mk left stopped =>
          cases stopped with
          | some result => rfl
          | none =>
              have below : ∀ child ∈ object.children,
                  walk visit child = foldUntil visit child.preorder :=
                fun child member => funext (ih child member)
              exact (foldUntil_congr below left).trans (foldUntil_flatMap ..).symm

end LanguageObject

/-! ### Nesting along a walk -/

private theorem le_total_of_mem {α : Type} (size : α → Nat) {total : List α → Nat}
    (total_cons : ∀ first rest, total (first :: rest) = max (size first) (total rest))
    {value : α} {values : List α} (member : value ∈ values) : size value ≤ total values := by
  induction values with
  | nil => cases member
  | cons first rest ih =>
      rw [total_cons]
      rcases List.mem_cons.mp member with rfl | member
      · exact Nat.le_max_left ..
      · exact Nat.le_trans (ih member) (Nat.le_max_right ..)

theorem Expr.nesting_le_of_mem {expr : Expr} {exprs : List Expr} (member : expr ∈ exprs) :
    expr.nesting ≤ Expr.nestingOfAll exprs :=
  le_total_of_mem Expr.nesting (fun _ _ => by rw [Expr.nestingOfAll]) member

theorem Criteria.nesting_le_of_mem {criteria : Criteria} {operands : List Criteria}
    (member : criteria ∈ operands) : criteria.nesting ≤ Criteria.nestingOfAll operands :=
  le_total_of_mem Criteria.nesting (fun _ _ => by rw [Criteria.nestingOfAll]) member

theorem CaseBranch.nesting_le_of_mem {branch : CaseBranch} {branches : List CaseBranch}
    (member : branch ∈ branches) :
    max branch.value.nesting branch.result.nesting ≤ CaseBranch.nestingOfAll branches :=
  le_total_of_mem (fun branch : CaseBranch => max branch.value.nesting branch.result.nesting)
    (fun first _ => by cases first; rw [CaseBranch.nestingOfAll]) member

theorem SearchedBranch.nesting_le_of_mem {branch : SearchedBranch}
    {branches : List SearchedBranch} (member : branch ∈ branches) :
    max branch.condition.nesting branch.result.nesting ≤ SearchedBranch.nestingOfAll branches :=
  le_total_of_mem
    (fun branch : SearchedBranch => max branch.condition.nesting branch.result.nesting)
    (fun first _ => by cases first; rw [SearchedBranch.nestingOfAll]) member

theorem CorrelatedReference.nesting_le_of_mem {reference : CorrelatedReference}
    {references : List CorrelatedReference} (member : reference ∈ references) :
    reference.expr.nesting ≤ CorrelatedReference.nestingOfAll references :=
  le_total_of_mem (fun reference : CorrelatedReference => reference.expr.nesting)
    (fun first _ => by cases first; rw [CorrelatedReference.nestingOfAll]) member

theorem Subquery.nesting_command_lt (subquery : Subquery) :
    subquery.command.nesting < subquery.nesting := by
  cases subquery
  rw [Subquery.nesting]
  exact Nat.lt_succ_of_le (Nat.le_max_left ..)

theorem Subquery.nesting_reference_lt {subquery : Subquery} {reference : CorrelatedReference}
    (member : reference ∈ subquery.correlatedReferences) :
    reference.expr.nesting < subquery.nesting := by
  cases subquery
  rw [Subquery.nesting]
  exact Nat.lt_succ_of_le
    (Nat.le_trans (CorrelatedReference.nesting_le_of_mem member) (Nat.le_max_right ..))

namespace LanguageObject

private theorem nesting_le_of_mem_map_expr {exprs : List Expr} {child : LanguageObject}
    (member : child ∈ exprs.map LanguageObject.expr) :
    child.nesting ≤ Expr.nestingOfAll exprs := by
  obtain ⟨expr, hexpr, rfl⟩ := List.mem_map.mp member
  exact Expr.nesting_le_of_mem hexpr

private theorem nesting_le_of_mem_map_criteria {operands : List Criteria} {child : LanguageObject}
    (member : child ∈ operands.map LanguageObject.criteria) :
    child.nesting ≤ Criteria.nestingOfAll operands := by
  obtain ⟨criteria, hcriteria, rfl⟩ := List.mem_map.mp member
  exact Criteria.nesting_le_of_mem hcriteria

private theorem nesting_le_of_mem_optionalChild {α : Type} {wrap : α → LanguageObject}
    {value? : Option α} {child : LanguageObject} {bound : Nat}
    (member : child ∈ optionalChild wrap value?)
    (bounded : ∀ value, value? = some value → (wrap value).nesting ≤ bound) :
    child.nesting ≤ bound := by
  cases value? with
  | none => cases member
  | some value => rw [List.mem_singleton.mp member]; exact bounded value rfl

private theorem nesting_le_of_mem_optional_expr {expr? : Option Expr} {child : LanguageObject}
    (member : child ∈ optionalChild .expr expr?) :
    child.nesting ≤ Expr.nestingOfOption expr? :=
  nesting_le_of_mem_optionalChild member fun value found =>
    Nat.le_of_eq (by rw [found, Expr.nestingOfOption, LanguageObject.nesting])

private theorem nesting_le_of_mem_optional_criteria {criteria? : Option Criteria}
    {child : LanguageObject} (member : child ∈ optionalChild .criteria criteria?) :
    child.nesting ≤ Criteria.nestingOfOption criteria? :=
  nesting_le_of_mem_optionalChild member fun value found =>
    Nat.le_of_eq (by rw [found, Criteria.nestingOfOption, LanguageObject.nesting])

private theorem nesting_le_of_mem_clause {exprs? : Option (List Expr)} {child : LanguageObject}
    (member : child ∈ optionalChild .attributes exprs?) :
    child.nesting ≤ Expr.nestingOfClause exprs? :=
  nesting_le_of_mem_optionalChild member fun value found =>
    Nat.le_of_eq (by rw [found, Expr.nestingOfClause, LanguageObject.nesting])

private theorem nesting_of_mem_namespaces {names? : Option (List XmlNamespace)}
    {child : LanguageObject} (member : child ∈ optionalChild .namespaces names?) :
    child.nesting ≤ 0 :=
  nesting_le_of_mem_optionalChild member fun _ _ => Nat.le_refl 0

private theorem nesting_le_of_mem_expr {expr : Expr} {child : LanguageObject}
    (member : child ∈ expr.children) : child.nesting ≤ expr.nesting := by
  cases expr with
  | column _ | literal _ | scalarSubquery _ => cases member
  | function call =>
      cases call
      rw [Expr.nesting]
      exact nesting_le_of_mem_map_expr member
  | aggregate call =>
      cases call
      rw [Expr.nesting]
      exact nesting_le_of_mem_optional_expr member
  | case operand branches otherwise =>
      simp only [Expr.children, List.cons_append, List.mem_cons, List.mem_append,
        List.mem_flatMap, List.not_mem_nil, or_false] at member
      rw [Expr.nesting]
      rcases member with rfl | ⟨branch, hbranch, rfl | rfl⟩ | member
      · exact Nat.le_max_left ..
      · have := CaseBranch.nesting_le_of_mem hbranch
        simp only [LanguageObject.nesting]
        omega
      · have := CaseBranch.nesting_le_of_mem hbranch
        simp only [LanguageObject.nesting]
        omega
      · have := nesting_le_of_mem_optional_expr member
        omega
  | searchedCase branches otherwise =>
      simp only [Expr.children, List.mem_append, List.mem_flatMap, List.mem_cons,
        List.not_mem_nil, or_false] at member
      rw [Expr.nesting]
      rcases member with ⟨branch, hbranch, rfl | rfl⟩ | member
      · have := SearchedBranch.nesting_le_of_mem hbranch
        simp only [LanguageObject.nesting]
        omega
      · have := SearchedBranch.nesting_le_of_mem hbranch
        simp only [LanguageObject.nesting]
        omega
      · have := nesting_le_of_mem_optional_expr member
        omega
  | xmlElement name names attributes content =>
      simp only [Expr.children, List.mem_append] at member
      rw [Expr.nesting]
      rcases member with (member | member) | member
      · have := nesting_of_mem_namespaces member
        omega
      · have := nesting_le_of_mem_clause member
        omega
      · have := nesting_le_of_mem_map_expr member
        omega
  | xmlForest names items =>
      simp only [Expr.children, List.mem_append] at member
      rw [Expr.nesting]
      rcases member with member | member
      · have := nesting_of_mem_namespaces member
        omega
      · exact nesting_le_of_mem_map_expr member

private theorem nesting_le_of_mem_criteria {criteria : Criteria} {child : LanguageObject}
    (member : child ∈ criteria.children) : child.nesting ≤ criteria.nesting := by
  cases criteria with
  | compare left _ right | like left right _ _ =>
      simp only [Criteria.children, List.mem_cons, List.not_mem_nil, or_false] at member
      rw [Criteria.nesting]
      rcases member with rfl | rfl
      · exact Nat.le_max_left ..
      · exact Nat.le_max_right ..
  | compound op operands =>
      rw [Criteria.nesting]
      exact nesting_le_of_mem_map_criteria member
  | not operand =>
      rw [List.mem_singleton.mp member, Criteria.nesting]
      exact Nat.le_refl _
  | isNull expr _ | dependentSet expr _ _ =>
      rw [List.mem_singleton.mp member, Criteria.nesting]
      exact Nat.le_refl _
  | inList expr values negated =>
      rw [Criteria.nesting]
      rcases List.mem_cons.mp member with rfl | member
      · exact Nat.le_max_left ..
      · exact Nat.le_trans (nesting_le_of_mem_map_expr member) (Nat.le_max_right ..)
  | inSubquery expr _ _ | quantified expr _ _ _ =>
      rw [List.mem_singleton.mp member, Criteria.nesting]
      exact Nat.le_max_left ..
  | existence _ _ => cases member

private theorem nesting_le_of_mem_command {command : Command} {child : LanguageObject}
    (member : child ∈ command.children) : child.nesting ≤ command.nesting := by
  cases command with
  | other _ => cases member
  | query query =>
      cases query
      simp only [Command.children, List.mem_append] at member
      rw [Command.nesting]
      rcases member with ((member | member) | member) | member
      · have := nesting_le_of_mem_map_expr member
        omega
      · have := nesting_le_of_mem_optional_criteria member
        omega
      · have := nesting_le_of_mem_map_expr member
        omega
      · have := nesting_le_of_mem_optional_criteria member
        omega

theorem nesting_le_of_mem_children {object child : LanguageObject}
    (member : child ∈ object.children) : child.nesting ≤ object.nesting := by
  cases object with
  | expr _ => exact nesting_le_of_mem_expr member
  | criteria _ => exact nesting_le_of_mem_criteria member
  | command _ => exact nesting_le_of_mem_command member
  | namespaces _ => cases member
  | attributes _ => exact nesting_le_of_mem_map_expr member

theorem nesting_le_of_mem_preorder {object visited : LanguageObject}
    (member : visited ∈ object.preorder) : visited.nesting ≤ object.nesting := by
  induction object using induction_children with
  | step object ih =>
      rw [preorder_eq] at member
      rcases List.mem_cons.mp member with rfl | member
      · exact Nat.le_refl _
      · obtain ⟨child, hchild, member⟩ := List.mem_flatMap.mp member
        exact Nat.le_trans (ih child hchild member) (nesting_le_of_mem_children hchild)

end LanguageObject

end FederatedQuery
