import FederatedQuery.Proofs.Language.Walk
import Mathlib.Data.List.Basic

/-!
# What a walk looks at

The surface of a language object is what is left of it when its subqueries and the value
sources of its dependent sets are blanked out.  Two objects have the same surface where they
differ in such parts alone, in however many places.  The children of a surface are the
surfaces of the children, so walks over two objects with the same surface keep in step.
-/

namespace FederatedQuery

/-- What stands in a surface for every subquery, its command, references and plan included. -/
def Subquery.blank : Subquery := .ofCommand (.other "")

mutual

def Expr.surface : Expr → Expr
  | .column element => .column element
  | .literal value => .literal value
  | .function ⟨name, args, returnType, pushdown, determinism⟩ =>
      .function ⟨name, Expr.surfaceOfAll args, returnType, pushdown, determinism⟩
  | .aggregate ⟨function, arg, distinct⟩ =>
      .aggregate ⟨function, Expr.surfaceOfOption arg, distinct⟩
  | .case operand branches otherwise =>
      .case (Expr.surface operand) (CaseBranch.surfaceOfAll branches)
        (Expr.surfaceOfOption otherwise)
  | .searchedCase branches otherwise =>
      .searchedCase (SearchedBranch.surfaceOfAll branches) (Expr.surfaceOfOption otherwise)
  | .scalarSubquery _ => .scalarSubquery .blank
  | .xmlElement name namespaces attributes content =>
      .xmlElement name namespaces (Expr.surfaceOfClause attributes) (Expr.surfaceOfAll content)
  | .xmlForest namespaces items => .xmlForest namespaces (Expr.surfaceOfAll items)

def Expr.surfaceOfAll : List Expr → List Expr
  | [] => []
  | expr :: rest => Expr.surface expr :: Expr.surfaceOfAll rest

def Expr.surfaceOfOption : Option Expr → Option Expr
  | none => none
  | some expr => some (Expr.surface expr)

def Expr.surfaceOfClause : Option (List Expr) → Option (List Expr)
  | none => none
  | some exprs => some (Expr.surfaceOfAll exprs)

def CaseBranch.surfaceOfAll : List CaseBranch → List CaseBranch
  | [] => []
  | ⟨value, result⟩ :: rest =>
      ⟨Expr.surface value, Expr.surface result⟩ :: CaseBranch.surfaceOfAll rest

def SearchedBranch.surfaceOfAll : List SearchedBranch → List SearchedBranch
  | [] => []
  | ⟨condition, result⟩ :: rest =>
      ⟨Criteria.surface condition, Expr.surface result⟩ :: SearchedBranch.surfaceOfAll rest

def Criteria.surface : Criteria → Criteria
  | .compare left op right => .compare (Expr.surface left) op (Expr.surface right)
  | .compound op operands => .compound op (Criteria.surfaceOfAll operands)
  | .not operand => .not (Criteria.surface operand)
  | .isNull expr negated => .isNull (Expr.surface expr) negated
  | .like left pattern escape negated =>
      .like (Expr.surface left) (Expr.surface pattern) escape negated
  | .inList expr values negated => .inList (Expr.surface expr) (Expr.surfaceOfAll values) negated
  | .dependentSet expr _ _ => .dependentSet (Expr.surface expr) "" (.literal .null)
  | .inSubquery expr _ negated => .inSubquery (Expr.surface expr) .blank negated
  | .existence _ negated => .existence .blank negated
  | .quantified left op quantifier _ => .quantified (Expr.surface left) op quantifier .blank

def Criteria.surfaceOfAll : List Criteria → List Criteria
  | [] => []
  | criteria :: rest => Criteria.surface criteria :: Criteria.surfaceOfAll rest

end

def Command.surface : Command → Command
  | .query body =>
      .query { body with
        select := body.select.map Expr.surface
        criteria := body.criteria.map Criteria.surface
        groupBy := body.groupBy.map Expr.surface
        having := body.having.map Criteria.surface }
  | .other text => .other text

namespace LanguageObject

def surface : LanguageObject → LanguageObject
  | .expr body => .expr body.surface
  | .criteria body => .criteria body.surface
  | .command body => .command body.surface
  | .namespaces names => .namespaces names
  | .attributes args => .attributes (args.map Expr.surface)

def constructors : LanguageObject → Nat × Nat
  | .expr body => (0, body.ctorIdx)
  | .criteria body => (1, body.ctorIdx)
  | .command body => (2, body.ctorIdx)
  | .namespaces _ => (3, 0)
  | .attributes _ => (4, 0)

def column? : LanguageObject → Option ElementSymbol
  | .expr (.column element) => some element
  | _ => none

theorem elements_eq (object : LanguageObject) :
    object.elements = object.preorder.filterMap column? := rfl

end LanguageObject

/-! ## Lists, options and branches -/

theorem Expr.surfaceOfAll_eq (exprs : List Expr) : surfaceOfAll exprs = exprs.map surface := by
  induction exprs with
  | nil => rfl
  | cons expr rest ih => rw [surfaceOfAll, ih, List.map_cons]

theorem Expr.surfaceOfOption_eq (expr? : Option Expr) :
    surfaceOfOption expr? = expr?.map surface := by
  cases expr? <;> rfl

theorem Expr.surfaceOfClause_eq (exprs? : Option (List Expr)) :
    surfaceOfClause exprs? = exprs?.map (List.map surface) := by
  cases exprs? with
  | none => rfl
  | some exprs => rw [surfaceOfClause, surfaceOfAll_eq, Option.map_some]

theorem Criteria.surfaceOfAll_eq (operands : List Criteria) :
    surfaceOfAll operands = operands.map surface := by
  induction operands with
  | nil => rfl
  | cons criteria rest ih => rw [surfaceOfAll, ih, List.map_cons]

def CaseBranch.surface (branch : CaseBranch) : CaseBranch :=
  ⟨branch.value.surface, branch.result.surface⟩

theorem CaseBranch.surfaceOfAll_eq (branches : List CaseBranch) :
    surfaceOfAll branches = branches.map surface := by
  induction branches with
  | nil => rfl
  | cons branch rest ih =>
      cases branch
      rw [surfaceOfAll, ih, List.map_cons, surface]

def SearchedBranch.surface (branch : SearchedBranch) : SearchedBranch :=
  ⟨branch.condition.surface, branch.result.surface⟩

theorem SearchedBranch.surfaceOfAll_eq (branches : List SearchedBranch) :
    surfaceOfAll branches = branches.map surface := by
  induction branches with
  | nil => rfl
  | cons branch rest ih =>
      cases branch
      rw [surfaceOfAll, ih, List.map_cons, surface]

/-! ## Children and what is below them -/

namespace LanguageObject

theorem surface_expr (body : Expr) : (expr body).surface = .expr body.surface := rfl

theorem surface_criteria (body : Criteria) : (criteria body).surface = .criteria body.surface := rfl

theorem surface_attributes (args : List Expr) :
    (attributes args).surface = .attributes (args.map Expr.surface) := rfl

section Wrapped

variable {α : Type} {wrap : α → LanguageObject} {image : α → α}

private theorem map_surface (inside : ∀ value, (wrap value).surface = wrap (image value))
    (values : List α) : (values.map image).map wrap = (values.map wrap).map surface := by
  rw [List.map_map, List.map_map]
  exact List.map_congr_left fun value _ => (inside value).symm

private theorem optionalChild_surface (inside : ∀ value, (wrap value).surface = wrap (image value))
    (value? : Option α) :
    optionalChild wrap (value?.map image) = (optionalChild wrap value?).map surface := by
  cases value? with
  | none => rfl
  | some value => exact congrArg (fun child => [child]) (inside value).symm

end Wrapped

private theorem optional_namespaces_surface (names? : Option (List XmlNamespace)) :
    (optionalChild namespaces names?).map surface = optionalChild namespaces names? := by
  cases names? <;> rfl

private theorem children_surface_expr (expr : Expr) :
    expr.surface.children = expr.children.map surface := by
  cases expr with
  | column _ | literal _ | scalarSubquery _ => rfl
  | function call =>
      cases call
      rw [Expr.surface, Expr.surfaceOfAll_eq]
      exact map_surface surface_expr _
  | aggregate call =>
      cases call
      rw [Expr.surface, Expr.surfaceOfOption_eq]
      exact optionalChild_surface surface_expr _
  | case operand branches otherwise =>
      rw [Expr.surface, CaseBranch.surfaceOfAll_eq, Expr.surfaceOfOption_eq]
      simp only [Expr.children, optionalChild_surface surface_expr, List.flatMap_map,
        List.map_append, List.map_cons, List.map_nil, List.map_flatMap, surface_expr,
        CaseBranch.surface]
  | searchedCase branches otherwise =>
      rw [Expr.surface, SearchedBranch.surfaceOfAll_eq, Expr.surfaceOfOption_eq]
      simp only [Expr.children, optionalChild_surface surface_expr, List.flatMap_map,
        List.map_append, List.map_cons, List.map_nil, List.map_flatMap, surface_expr,
        surface_criteria, SearchedBranch.surface]
  | xmlElement name names attributes content =>
      rw [Expr.surface, Expr.surfaceOfClause_eq, Expr.surfaceOfAll_eq]
      simp only [Expr.children, List.map_append, optional_namespaces_surface,
        optionalChild_surface surface_attributes, map_surface surface_expr]
  | xmlForest names items =>
      rw [Expr.surface, Expr.surfaceOfAll_eq]
      simp only [Expr.children, List.map_append, optional_namespaces_surface,
        map_surface surface_expr]

private theorem children_surface_criteria (criteria : Criteria) :
    criteria.surface.children = criteria.children.map surface := by
  cases criteria with
  | compare _ _ _ | like _ _ _ _ => rfl
  | compound op operands =>
      rw [Criteria.surface, Criteria.surfaceOfAll_eq]
      exact map_surface surface_criteria operands
  | not _ | isNull _ _ => rfl
  | inList expr values negated =>
      rw [Criteria.surface, Expr.surfaceOfAll_eq]
      exact congrArg _ (map_surface surface_expr values)
  | dependentSet _ _ _ | inSubquery _ _ _ | existence _ _ | quantified _ _ _ _ => rfl

private theorem children_surface_command (command : Command) :
    command.surface.children = command.children.map surface := by
  cases command with
  | other _ => rfl
  | query query =>
      simp only [Command.surface, Command.children, List.map_append, map_surface surface_expr,
        optionalChild_surface surface_criteria]

theorem children_surface (object : LanguageObject) :
    object.surface.children = object.children.map surface := by
  cases object with
  | expr body => exact children_surface_expr body
  | criteria body => exact children_surface_criteria body
  | command body => exact children_surface_command body
  | namespaces _ => rfl
  | attributes args => exact map_surface surface_expr args

/-- Step by step, a walk over the surface comes to the surfaces of the objects. -/
theorem preorder_surface (object : LanguageObject) :
    object.surface.preorder = object.preorder.map surface := by
  induction object using induction_children with
  | step object ih =>
      rw [preorder_eq, children_surface, preorder_eq object, List.map_cons, List.flatMap_map,
        List.map_flatMap]
      exact congrArg _ (List.flatMap_congr ih)

theorem surface_shows (object : LanguageObject) :
    object.surface.constructors = object.constructors ∧
      object.surface.column? = object.column? := by
  cases object with
  | expr body =>
      cases body with
      | function call | aggregate call => cases call; exact ⟨rfl, rfl⟩
      | column _ | literal _ | case _ _ _ | searchedCase _ _ | scalarSubquery _
      | xmlElement _ _ _ _ | xmlForest _ _ => exact ⟨rfl, rfl⟩
  | criteria body => cases body <;> exact ⟨rfl, rfl⟩
  | command body => cases body <;> exact ⟨rfl, rfl⟩
  | namespaces _ | attributes _ => exact ⟨rfl, rfl⟩

section SameSurface

variable {first second : LanguageObject}

/-- What a surface shows of an object is the same all along walks over objects that differ
in hidden parts alone. -/
private theorem map_preorder_of_surface_eq {α : Type} {view : LanguageObject → α}
    (shown : ∀ object, view object.surface = view object)
    (same : first.surface = second.surface) :
    first.preorder.map view = second.preorder.map view := by
  have along (object : LanguageObject) :
      object.surface.preorder.map view = object.preorder.map view := by
    rw [preorder_surface, List.map_map]
    exact List.map_congr_left fun visited _ => shown visited
  rw [← along first, same, along second]

theorem constructors_of_surface_eq (same : first.surface = second.surface) :
    first.preorder.map constructors = second.preorder.map constructors :=
  map_preorder_of_surface_eq (fun object => (surface_shows object).1) same

theorem elements_of_surface_eq (same : first.surface = second.surface) :
    first.elements = second.elements := by
  have columns := map_preorder_of_surface_eq (fun object => (surface_shows object).2) same
  simpa only [elements_eq, List.filterMap_map, Function.id_comp]
    using congrArg (List.filterMap id) columns

end SameSurface

end LanguageObject

end FederatedQuery
