import FederatedQuery.Language.Syntax

/-!
Language objects and the order in which they are visited.

An object comes before its children, and earlier children come before later
ones.  Subqueries are never entered, for each is a push-down question of its
own; of a dependent set only the dependent expression is entered.
-/

namespace FederatedQuery

inductive LanguageObject where
  | expr (expr : Expr)
  | criteria (criteria : Criteria)
  | command (command : Command)
  | namespaces (namespaces : List XmlNamespace)
  | attributes (args : List Expr)

def optionalChild {α : Type} (wrap : α → LanguageObject) (value? : Option α) :
    List LanguageObject :=
  (value?.map wrap).toList

def Expr.children : Expr → List LanguageObject
  | .column _ | .literal _ | .scalarSubquery _ => []
  | .function call => call.args.map .expr
  | .aggregate call => optionalChild .expr call.arg
  | .case operand branches otherwise =>
      .expr operand :: branches.flatMap (fun branch => [.expr branch.value, .expr branch.result]) ++
        optionalChild .expr otherwise
  | .searchedCase branches otherwise =>
      branches.flatMap (fun branch => [.criteria branch.condition, .expr branch.result]) ++
        optionalChild .expr otherwise
  | .xmlElement _ namespaces attributes content =>
      optionalChild .namespaces namespaces ++ optionalChild .attributes attributes ++
        content.map .expr
  | .xmlForest namespaces items => optionalChild .namespaces namespaces ++ items.map .expr

def Criteria.children : Criteria → List LanguageObject
  | .compare left _ right => [.expr left, .expr right]
  | .compound _ operands => operands.map .criteria
  | .not operand => [.criteria operand]
  | .isNull expr _ => [.expr expr]
  | .like left pattern _ _ => [.expr left, .expr pattern]
  | .inList expr values _ => .expr expr :: values.map .expr
  | .dependentSet expr _ _ => [.expr expr]
  | .inSubquery expr _ _ => [.expr expr]
  | .existence _ _ => []
  | .quantified left _ _ _ => [.expr left]

def Command.children : Command → List LanguageObject
  | .query body =>
      body.select.map .expr ++ optionalChild .criteria body.criteria ++
        body.groupBy.map .expr ++ optionalChild .criteria body.having
  | .other _ => []

private theorem sizeOf_lt_of_mem_map {α : Type} [SizeOf α] {wrap : α → LanguageObject}
    {values : List α} {child : LanguageObject} (member : child ∈ values.map wrap)
    (grows : ∀ value, sizeOf (wrap value) = 1 + sizeOf value) :
    sizeOf child < 1 + sizeOf values := by
  obtain ⟨value, hvalue, rfl⟩ := List.mem_map.mp member
  have := List.sizeOf_lt_of_mem hvalue
  rw [grows]
  omega

private theorem sizeOf_le_of_mem_optionalChild {α : Type} [SizeOf α] {wrap : α → LanguageObject}
    {value? : Option α} {child : LanguageObject} (member : child ∈ optionalChild wrap value?)
    (grows : ∀ value, sizeOf (wrap value) = 1 + sizeOf value) :
    sizeOf child ≤ sizeOf value? := by
  cases value? with
  | none => simp [optionalChild] at member
  | some value =>
      simp only [optionalChild, Option.map_some, Option.toList_some, List.mem_singleton] at member
      subst member
      rw [grows]
      simp

private theorem Expr.sizeOf_lt_of_mem_children {expr : Expr} {child : LanguageObject}
    (member : child ∈ expr.children) : sizeOf child < 1 + sizeOf expr := by
  cases expr with
  | column _ | literal _ | scalarSubquery _ => simp [Expr.children] at member
  | function call =>
      obtain ⟨name, args, returnType, pushdown, determinism⟩ := call
      have : sizeOf child < 1 + sizeOf args :=
        sizeOf_lt_of_mem_map member LanguageObject.expr.sizeOf_spec
      simp only [Expr.function.sizeOf_spec, FunctionCall.mk.sizeOf_spec]
      omega
  | aggregate call =>
      obtain ⟨function, arg, distinct⟩ := call
      have : sizeOf child ≤ sizeOf arg :=
        sizeOf_le_of_mem_optionalChild member LanguageObject.expr.sizeOf_spec
      simp only [Expr.aggregate.sizeOf_spec, AggregateCall.mk.sizeOf_spec]
      omega
  | case operand branches otherwise =>
      simp only [Expr.children, List.cons_append, List.mem_cons, List.mem_append,
        List.mem_flatMap, List.not_mem_nil, or_false] at member
      simp only [Expr.case.sizeOf_spec]
      rcases member with rfl | ⟨branch, hbranch, rfl | rfl⟩ | member
      · simp only [LanguageObject.expr.sizeOf_spec]; omega
      · have := List.sizeOf_lt_of_mem hbranch
        cases branch
        simp only [CaseBranch.mk.sizeOf_spec, LanguageObject.expr.sizeOf_spec] at *
        omega
      · have := List.sizeOf_lt_of_mem hbranch
        cases branch
        simp only [CaseBranch.mk.sizeOf_spec, LanguageObject.expr.sizeOf_spec] at *
        omega
      · have := sizeOf_le_of_mem_optionalChild member LanguageObject.expr.sizeOf_spec
        omega
  | searchedCase branches otherwise =>
      simp only [Expr.children, List.mem_append, List.mem_flatMap, List.mem_cons,
        List.not_mem_nil, or_false] at member
      simp only [Expr.searchedCase.sizeOf_spec]
      rcases member with ⟨branch, hbranch, rfl | rfl⟩ | member
      · have := List.sizeOf_lt_of_mem hbranch
        cases branch
        simp only [SearchedBranch.mk.sizeOf_spec, LanguageObject.criteria.sizeOf_spec] at *
        omega
      · have := List.sizeOf_lt_of_mem hbranch
        cases branch
        simp only [SearchedBranch.mk.sizeOf_spec, LanguageObject.expr.sizeOf_spec] at *
        omega
      · have := sizeOf_le_of_mem_optionalChild member LanguageObject.expr.sizeOf_spec
        omega
  | xmlElement name names attributes content =>
      simp only [Expr.children, List.mem_append] at member
      simp only [Expr.xmlElement.sizeOf_spec]
      rcases member with (member | member) | member
      · have := sizeOf_le_of_mem_optionalChild member LanguageObject.namespaces.sizeOf_spec
        omega
      · have := sizeOf_le_of_mem_optionalChild member LanguageObject.attributes.sizeOf_spec
        omega
      · have := sizeOf_lt_of_mem_map member LanguageObject.expr.sizeOf_spec
        omega
  | xmlForest names items =>
      simp only [Expr.children, List.mem_append] at member
      simp only [Expr.xmlForest.sizeOf_spec]
      rcases member with member | member
      · have := sizeOf_le_of_mem_optionalChild member LanguageObject.namespaces.sizeOf_spec
        omega
      · have := sizeOf_lt_of_mem_map member LanguageObject.expr.sizeOf_spec
        omega

private theorem Criteria.sizeOf_lt_of_mem_children {criteria : Criteria} {child : LanguageObject}
    (member : child ∈ criteria.children) : sizeOf child < 1 + sizeOf criteria := by
  cases criteria with
  | compare left op right =>
      simp only [Criteria.children, List.mem_cons, List.not_mem_nil, or_false] at member
      simp only [Criteria.compare.sizeOf_spec]
      rcases member with rfl | rfl <;> rw [LanguageObject.expr.sizeOf_spec] <;> omega
  | compound op operands =>
      have := sizeOf_lt_of_mem_map member LanguageObject.criteria.sizeOf_spec
      simp only [Criteria.compound.sizeOf_spec]
      omega
  | not operand =>
      simp only [Criteria.children, List.mem_singleton] at member
      subst member
      simp
  | isNull expr negated | dependentSet expr _ _ | inSubquery expr _ _ | quantified expr _ _ _ =>
      simp only [Criteria.children, List.mem_singleton] at member
      subst member
      simp +arith
  | like left pattern escape negated =>
      simp only [Criteria.children, List.mem_cons, List.not_mem_nil, or_false] at member
      simp only [Criteria.like.sizeOf_spec]
      rcases member with rfl | rfl <;> rw [LanguageObject.expr.sizeOf_spec] <;> omega
  | inList expr values negated =>
      simp only [Criteria.children, List.mem_cons] at member
      rcases member with rfl | member
      · simp
        omega
      · have := sizeOf_lt_of_mem_map member LanguageObject.expr.sizeOf_spec
        simp only [Criteria.inList.sizeOf_spec]
        omega
  | existence _ _ => simp [Criteria.children] at member

private theorem Command.sizeOf_lt_of_mem_children {command : Command} {child : LanguageObject}
    (member : child ∈ command.children) : sizeOf child < 1 + sizeOf command := by
  cases command with
  | other _ => simp [Command.children] at member
  | query query =>
      obtain ⟨select, sources, criteria, groupBy, having, isXml⟩ := query
      simp only [Command.children, List.mem_append] at member
      simp only [Command.query.sizeOf_spec, Query.mk.sizeOf_spec]
      rcases member with ((member | member) | member) | member
      · have := sizeOf_lt_of_mem_map member LanguageObject.expr.sizeOf_spec
        omega
      · have := sizeOf_le_of_mem_optionalChild member LanguageObject.criteria.sizeOf_spec
        omega
      · have := sizeOf_lt_of_mem_map member LanguageObject.expr.sizeOf_spec
        omega
      · have := sizeOf_le_of_mem_optionalChild member LanguageObject.criteria.sizeOf_spec
        omega

def foldUntil {α σ β : Type} (visit : α → σ → σ × Option β) : List α → σ → σ × Option β
  | [], state => (state, none)
  | first :: rest, state =>
      match visit first state with
      | (state, some result) => (state, some result)
      | (state, none) => foldUntil visit rest state

private theorem foldUntil_map {α γ σ β : Type} (visit : γ → σ → σ × Option β) (image : α → γ)
    (list : List α) (state : σ) :
    foldUntil (fun value => visit (image value)) list state =
      foldUntil visit (list.map image) state := by
  induction list generalizing state with
  | nil => rfl
  | cons first rest ih =>
      simp only [foldUntil, List.map_cons]
      split
      · rfl
      · exact ih _

private theorem foldUntil_attach {α σ β : Type} (visit : α → σ → σ × Option β) (list : List α)
    (state : σ) :
    foldUntil (fun (value : {value // value ∈ list}) => visit value.1) list.attach state =
      foldUntil visit list state := by
  rw [foldUntil_map visit Subtype.val, List.attach_map_subtype_val]

namespace LanguageObject

def children : LanguageObject → List LanguageObject
  | .expr body => body.children
  | .criteria body => body.children
  | .command body => body.children
  | .namespaces _ => []
  | .attributes args => args.map .expr

theorem sizeOf_lt_of_mem_children {object child : LanguageObject}
    (member : child ∈ object.children) : sizeOf child < sizeOf object := by
  match object with
  | .expr _ => simpa using Expr.sizeOf_lt_of_mem_children member
  | .criteria _ => simpa using Criteria.sizeOf_lt_of_mem_children member
  | .command _ => simpa using Command.sizeOf_lt_of_mem_children member
  | .namespaces _ => simp [children] at member
  | .attributes _ => simpa using sizeOf_lt_of_mem_map member fun value : Expr => by simp

def preorder (object : LanguageObject) : List LanguageObject :=
  object :: object.children.attach.flatMap fun ⟨child, _⟩ => child.preorder
termination_by sizeOf object
decreasing_by exact sizeOf_lt_of_mem_children ‹_›

theorem preorder_eq (object : LanguageObject) :
    object.preorder = object :: object.children.flatMap preorder := by
  rw [preorder]
  simp

/--
Visits an object and the objects below it until a visit stops the walk.  A visit
gets the state that the visit before it left behind.
-/
def walk {σ β : Type} (visit : LanguageObject → σ → σ × Option β) (object : LanguageObject)
    (state : σ) : σ × Option β :=
  match visit object state with
  | (state, some result) => (state, some result)
  | (state, none) =>
      foldUntil (fun ⟨child, _⟩ => walk visit child) object.children.attach state
termination_by sizeOf object
decreasing_by exact sizeOf_lt_of_mem_children ‹_›

theorem walk_eq {σ β : Type} (visit : LanguageObject → σ → σ × Option β)
    (object : LanguageObject) (state : σ) :
    object.walk visit state =
      match visit object state with
      | (state, some result) => (state, some result)
      | (state, none) => foldUntil (walk visit) object.children state := by
  rw [walk]
  split
  · rfl
  · exact foldUntil_attach _ _ _

def elements (object : LanguageObject) : List ElementSymbol :=
  object.preorder.filterMap fun
    | .expr (.column element) => some element
    | _ => none

end LanguageObject

def Criteria.elements (criteria : Criteria) : List ElementSymbol :=
  (LanguageObject.criteria criteria).elements

end FederatedQuery
