import FederatedQuery.Proofs.Pushdown.Failures
import FederatedQuery.Proofs.Pushdown.Acceptance
import Mathlib.Data.List.Basic

/-!
Columns in predicates that are pushed.

Every form of predicate but one asks how its columns may be searched, columns inside
functions, cases and inner criteria included.  A test for null asks nothing: what is
declared of a column makes no difference where the column is only tested for null.
-/

namespace FederatedQuery

/-! ### What a column's declaration forbids -/

namespace Criteria

/-- Tests of columns; connectives and EXISTS only hold or replace such tests. -/
def isPredicate : Criteria → Bool
  | .compound _ _ | .not _ | .existence _ _ => false
  | .compare _ _ _ | .isNull _ _ | .like _ _ _ _ | .inList _ _ _ | .dependentSet _ _ _
  | .inSubquery _ _ _ | .quantified _ _ _ _ => true

def isLike : Criteria → Bool
  | .like _ _ _ _ => true
  | _ => false

def isNullTest : Criteria → Bool
  | .isNull _ _ => true
  | _ => false

def columnRequirement (predicate : Criteria) (element : ElementSymbol) : Requirement :=
  if predicate.isLike then .patternMatched element else .comparable element

end Criteria

/-- The predicates in which a column may not occur. -/
def Searchability.forbids (searchability : Searchability) (predicate : Criteria) : Bool :=
  match searchability with
  | .unsearchable => true
  | .likeOnly => !predicate.isLike
  | .allExceptLike => predicate.isLike
  | .searchable => false

/-! ### What is asked of columns -/

theorem Criteria.columnRequirement_mem_requirements {predicate : Criteria}
    (isPredicate : predicate.isPredicate) (asks : predicate.isNullTest = false)
    {element : ElementSymbol} (member : element ∈ predicate.elements) :
    predicate.columnRequirement element ∈ predicate.requirements := by
  rw [elements_eq_columns] at member
  cases predicate with
  | compound _ _ | not _ | existence _ _ => cases isPredicate
  | isNull _ _ => cases asks
  | like left pattern escape negated =>
      cases escape <;> simp [columnRequirement, isLike, requirements, member]
  | quantified left op quantifier subquery =>
      cases quantifier <;> simp [columnRequirement, isLike, requirements, member]
  | compare _ _ _ | inList _ _ _ | dependentSet _ _ _ | inSubquery _ _ _ =>
      simp [columnRequirement, isLike, requirements, membershipRequirements, member]

namespace Requirement

def column? : Requirement → Option ElementSymbol
  | .comparable element | .patternMatched element => some element
  | _ => none

theorem columns_supported (capability : Capability) (rest : List Requirement) :
    (supported capability :: rest).filterMap column? = rest.filterMap column? := rfl

theorem columns_listOf (count : Nat) : [listOf count].filterMap column? = [] := rfl

theorem columns_hosted (subquery : Subquery) : [hosted subquery].filterMap column? = [] := rfl

theorem columns_comparable (elements : List ElementSymbol) :
    (elements.map comparable).filterMap column? = elements := by
  rw [List.filterMap_map]
  exact List.filterMap_some

theorem columns_patternMatched (elements : List ElementSymbol) :
    (elements.map patternMatched).filterMap column? = elements := by
  rw [List.filterMap_map]
  exact List.filterMap_some

theorem columns_negation (negated : Bool) :
    (negationRequirements negated).filterMap column? = [] := by
  cases negated <;> rfl

theorem columns_compareOp (op : CompareOp) : op.requirements.filterMap column? = [] := by
  cases op <;> rfl

theorem columns_membership (negated : Bool) (criteria : Criteria) :
    (membershipRequirements negated criteria).filterMap column? = criteria.elements := by
  rw [membershipRequirements, List.cons_append, columns_supported, List.filterMap_append,
    columns_negation, columns_comparable, List.nil_append, Criteria.elements_eq_columns]

end Requirement

def LanguageObject.searched : LanguageObject → List ElementSymbol
  | .criteria body => if body.isPredicate && !body.isNullTest then body.elements else []
  | _ => []

theorem Expr.columns_requirements (expr : Expr) :
    expr.requirements.filterMap Requirement.column? = [] := by
  cases expr with
  | function call =>
      rw [requirements]
      split <;> rfl
  | _ => rfl

theorem Criteria.columns_requirements (criteria : Criteria) :
    criteria.requirements.filterMap Requirement.column? =
      (LanguageObject.criteria criteria).searched := by
  cases criteria with
  | compound op _ => cases op <;> rfl
  | not _ | existence _ _ => rfl
  | isNull _ negated => exact Requirement.columns_negation negated
  | compare _ op _ =>
      rw [requirements, List.filterMap_append, Requirement.columns_compareOp,
        Requirement.columns_comparable]
      rfl
  | like _ _ escape _ =>
      cases escape <;>
        simp only [requirements, List.cons_append, Requirement.columns_supported,
          List.filterMap_append, Requirement.columns_negation, Requirement.columns_patternMatched,
          List.nil_append] <;> rfl
  | inList _ values _ =>
      rw [requirements, List.filterMap_append, Requirement.columns_membership,
        Requirement.columns_listOf, List.append_nil]
      rfl
  | dependentSet _ _ _ => exact Requirement.columns_membership false _
  | inSubquery _ _ _ =>
      rw [requirements, List.filterMap_append, Requirement.columns_membership,
        Requirement.columns_supported, Requirement.columns_hosted, List.append_nil]
      rfl
  | quantified _ op quantifier _ =>
      cases quantifier <;>
        simp only [requirements, List.cons_append, Requirement.columns_supported,
          List.filterMap_append, Requirement.columns_compareOp, Requirement.columns_comparable,
          Requirement.columns_hosted, List.nil_append, List.append_nil] <;> rfl

theorem LanguageObject.columns_requirements (object : LanguageObject) :
    object.requirements.filterMap Requirement.column? = object.searched := by
  cases object with
  | expr expr => exact expr.columns_requirements
  | criteria criteria => exact criteria.columns_requirements
  | command _ | namespaces _ | attributes _ => rfl

namespace Federation

variable {federation : Federation} {model : ModelId} {record : SourceCapabilities}
  {object : LanguageObject}

/-! ### Accepted predicates -/

theorem obstacle?_columnRequirement_eq_none_iff {source : Source} {predicate : Criteria}
    {element : ElementSymbol} :
    (predicate.columnRequirement element).obstacle? federation source = none ↔
      ∃ searchability, federation.metadata.searchability element = .ok searchability ∧
        searchability.forbids predicate = false := by
  cases hlike : predicate.isLike <;>
    rcases hdeclared : federation.metadata.searchability element with error | searchability
  · simp [Criteria.columnRequirement, Requirement.obstacle?, obstacleOf, hlike, hdeclared]
  · cases searchability <;>
      simp [Criteria.columnRequirement, Requirement.obstacle?, obstacleOf, hlike, hdeclared,
        Searchability.forbids]
  · simp [Criteria.columnRequirement, Requirement.obstacle?, obstacleOf, hlike, hdeclared]
  · cases searchability <;>
      simp [Criteria.columnRequirement, Requirement.obstacle?, obstacleOf, hlike, hdeclared,
        Searchability.forbids]

/-! ### Columns that are not asked for -/

def redeclared (federation : Federation)
    (searchability : ElementSymbol → Except PlanError Searchability) : Federation :=
  { federation with metadata := { federation.metadata with searchability } }

/-- Two ways to declare columns that are told apart by no check of the object. -/
def AgreeOn (object : LanguageObject)
    (searchability searchability' : ElementSymbol → Except PlanError Searchability) : Prop :=
  ∀ examined, object.Examines examined → ∀ element ∈ examined.searched,
    searchability element = searchability' element

theorem agreeOn_of_predicates
    {searchability searchability' : ElementSymbol → Except PlanError Searchability}
    (same : ∀ predicate, object.Examines (.criteria predicate) → predicate.isPredicate →
      predicate.isNullTest ∨ ∀ element ∈ predicate.elements,
        searchability element = searchability' element) :
    AgreeOn object searchability searchability' := by
  intro examined examines element member
  cases examined with
  | criteria predicate =>
      rw [LanguageObject.searched, List.mem_ite_nil_right, Bool.and_eq_true, Bool.not_eq_true']
        at member
      obtain ⟨⟨isPredicate, asks⟩, member⟩ := member
      rcases same predicate examines isPredicate with nullTest | same
      · exact absurd nullTest (by simp [asks])
      · exact same element member
  | expr _ | command _ | namespaces _ | attributes _ => cases member

theorem obstacle?_redeclared {searchability : ElementSymbol → Except PlanError Searchability}
    {source : Source} {requirement : Requirement}
    (agrees : ∀ element, requirement.column? = some element →
      searchability element = federation.metadata.searchability element)
    (runs : ∀ subquery, requirement = .hosted subquery →
      (federation.redeclared searchability).subqueryModel subquery (some source.model) =
        federation.subqueryModel subquery (some source.model)) :
    requirement.obstacle? (federation.redeclared searchability) source =
      requirement.obstacle? federation source := by
  cases requirement with
  | comparable element | patternMatched element =>
      simp only [Requirement.obstacle?, redeclared, agrees element rfl]
  | hosted subquery => simp only [Requirement.obstacle?, runs subquery rfl]
  | _ => rfl

theorem placeSubquery_redeclared {searchability : ElementSymbol → Except PlanError Searchability}
    {validator validator' : Validator} {subquery : Subquery}
    (same : subquery.isCorrelated → ∀ part ∈ subquery.correlatedParts,
      validator' part = validator part) (model? : Option ModelId) :
    (federation.redeclared searchability).placeSubquery validator' subquery model? =
      federation.placeSubquery validator subquery model? := by
  change federation.placeSubquery validator' subquery model? = _
  cases correlated : subquery.isCorrelated with
  | true => exact placeSubquery_congr (same correlated) model?
  | false => simp [placeSubquery, correlated]

theorem findSome?_congr {α β : Type} {first second : α → Option β} {items : List α}
    (same : ∀ item ∈ items, first item = second item) :
    items.findSome? first = items.findSome? second := by
  rw [← List.head?_filterMap, List.filterMap_congr same, List.head?_filterMap]

theorem validate_congr_of_unknown {other : Federation}
    (virtual : other.metadata.isVirtual model = federation.metadata.isVirtual model)
    (records : other.recordOf model = federation.recordOf model)
    (unknown : ∀ record, federation.recordOf model ≠ .ok (some record)) :
    other.validate object (some model) = federation.validate object (some model) := by
  rw [validate_eq_validateWith, validate_eq_validateWith]
  rcases hvirtual : federation.metadata.isVirtual model with error | _ | _
  · simp [validateWith, virtual, hvirtual, bind, Except.bind]
  · rw [validateWith_of_physical hvirtual, validateWith_of_physical (virtual.trans hvirtual),
      records]
    rcases hrecord : federation.recordOf model with error | _ | record
    · simp only [bind, Except.bind]
    · simp only [bind, Except.bind]
    · exact absurd hrecord (unknown record)
  · simp [validateWith, virtual, hvirtual, bind, Except.bind, pure, Except.pure]

/-- What is declared of a column makes no difference where it is not asked for. -/
theorem validate_redeclared {searchability : ElementSymbol → Except PlanError Searchability}
    (agree : AgreeOn object searchability federation.metadata.searchability)
    (model? : Option ModelId) :
    (federation.redeclared searchability).validate object model? =
      federation.validate object model? := by
  induction object using LanguageObject.induction_on_parts generalizing model? with
  | step object ih =>
      cases model? with
      | none => simp only [validate_eq_validateWith, validateWith]
      | some model =>
          by_cases unknown : ∀ record, federation.recordOf model ≠ .ok (some record)
          · exact validate_congr_of_unknown rfl rfl unknown
          obtain ⟨record, known⟩ := not_forall_not.mp unknown
          have known' : (federation.redeclared searchability).recordOf model = .ok (some record) :=
            known
          rw [validate_eq_outcomeOf known', validate_eq_outcomeOf known]
          refine congrArg outcomeOf (findSome?_congr fun visited member => ?_)
          refine findSome?_congr fun requirement required => obstacle?_redeclared ?_ ?_
          · intro element column
            refine agree visited (.visits member) element ?_
            rw [← visited.columns_requirements]
            exact List.mem_filterMap.mpr ⟨requirement, required, column⟩
          · rintro subquery rfl
            have held := subquery?_eq_of_hosted required
            refine placeSubquery_redeclared (fun correlated part checked => funext ?_) _
            refine ih visited member subquery held part checked fun examined examines => ?_
            exact agree examined (.enters member held correlated checked examines)

/-- In an accepted object no column stands in a predicate that its declaration forbids, unless the
predicate is a test for null; and columns may be declared in any way where they are tested for
null only. -/
theorem allowed_or_nullTest (known : federation.recordOf model = .ok (some record))
    (accepted : federation.validate object (some model) = .ok .accepted) :
    (∀ predicate, object.Examines (.criteria predicate) → predicate.isPredicate →
        predicate.isNullTest ∨ ∀ element ∈ predicate.elements, ∃ searchability,
          federation.metadata.searchability element = .ok searchability ∧
            searchability.forbids predicate = false) ∧
      ∀ searchability,
        (∀ predicate, object.Examines (.criteria predicate) → predicate.isPredicate →
          predicate.isNullTest ∨ ∀ element ∈ predicate.elements,
            searchability element = federation.metadata.searchability element) →
        (federation.redeclared searchability).validate object (some model) = .ok .accepted := by
  refine ⟨fun predicate examines isPredicate => ?_, fun searchability same => ?_⟩
  · cases asks : predicate.isNullTest with
    | true => exact .inl rfl
    | false =>
        refine .inr fun element member => ?_
        have required := Criteria.columnRequirement_mem_requirements isPredicate asks member
        exact obstacle?_columnRequirement_eq_none_iff.mp
          (met_of_examines known accepted examines required)
  · rw [validate_redeclared (agreeOn_of_predicates same), accepted]

def titleColumn : ElementSymbol := ⟨.named "pm1.g1", "title", .string⟩

def noteColumn : ElementSymbol := ⟨.named "pm1.g1", "note", .string⟩

def patternsAndNulls : SourceCapabilities :=
  (SourceCapabilities.empty.setSupport .criteriaLike true).setSupport .criteriaIsNull true

def notebook : Federation :=
  ⟨((Catalog.twoSources.setSearchability titleColumn .likeOnly).setSearchability noteColumn
    .unsearchable).toMetadata, fun _ => .ok (some patternsAndNulls)⟩

def titledA : Criteria := .like (.column titleColumn) (.literal (.string "A%")) none false

def withoutNote : Criteria := .isNull (.column noteColumn) false

theorem titledA_allowed :
    notebook.recordOf ⟨"pm1"⟩ = .ok (some patternsAndNulls) ∧
      notebook.validate (.criteria (.and [titledA, withoutNote])) (some ⟨"pm1"⟩) = .ok .accepted ∧
      (LanguageObject.criteria (.and [titledA, withoutNote])).Examines (.criteria titledA) ∧
      titleColumn ∈ titledA.elements ∧ ∃ searchability,
        notebook.metadata.searchability titleColumn = .ok searchability ∧
          searchability.forbids titledA = false := by
  have known : notebook.recordOf ⟨"pm1"⟩ = .ok (some patternsAndNulls) := rfl
  have accepted : notebook.validate (.criteria (.and [titledA, withoutNote])) (some ⟨"pm1"⟩) =
      .ok .accepted := accepted_of_canPush (by decide +kernel)
  have examines : (LanguageObject.criteria (.and [titledA, withoutNote])).Examines
      (.criteria titledA) :=
    .visits (LanguageObject.mem_preorder_of_child List.mem_cons_self
      LanguageObject.self_mem_preorder)
  have member : titleColumn ∈ titledA.elements := by decide +kernel
  refine ⟨known, accepted, examines, member, ?_⟩
  rcases (allowed_or_nullTest known accepted).1 titledA examines rfl with ⟨⟨⟩⟩ | allowed
  exact allowed titleColumn member

theorem withoutNote_accepted_unsearchable :
    notebook.recordOf ⟨"pm1"⟩ = .ok (some patternsAndNulls) ∧
      notebook.validate (.criteria withoutNote) (some ⟨"pm1"⟩) = .ok .accepted ∧
      .criteria withoutNote ∈ (LanguageObject.criteria withoutNote).preorder ∧
      withoutNote.isPredicate ∧ noteColumn ∈ withoutNote.elements ∧
      notebook.metadata.searchability noteColumn = .ok .unsearchable :=
  ⟨rfl, accepted_of_canPush (by decide +kernel), LanguageObject.self_mem_preorder, rfl,
    by decide +kernel, by decide +kernel⟩

end Federation

end FederatedQuery
