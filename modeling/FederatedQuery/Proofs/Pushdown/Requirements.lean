import FederatedQuery.Proofs.Language.Surface
import FederatedQuery.Proofs.Pushdown.Calls
import FederatedQuery.Pushdown.Validation

/-!
What a language object, apart from the objects below it, requires of a source.

`LanguageObject.requirements` is a table: one list for each form of object, in the
order in which a source is asked.  The rule that validation applies to an object
is to stop at the first entry of its list that the source does not meet.
-/

namespace FederatedQuery

inductive Requirement where
  | supported (capability : Capability)
  | aggregate (call : AggregateCall)
  | pushable (call : FunctionCall)
  | function (call : FunctionCall)
  | listOf (count : Nat)
  | comparable (element : ElementSymbol)
  | patternMatched (element : ElementSymbol)
  | hosted (subquery : Subquery)
  /-- Never met: XML is put together locally. -/
  | noXml

/-! ### The table -/

def Criteria.columns (criteria : Criteria) : List ElementSymbol :=
  (LanguageObject.criteria criteria).preorder.filterMap LanguageObject.column?

theorem Criteria.elements_eq_columns (criteria : Criteria) :
    criteria.elements = criteria.columns := rfl

def negationRequirements (negated : Bool) : List Requirement :=
  if negated then [.supported .criteriaNot] else []

def CompareOp.requirements : CompareOp → List Requirement
  | .eq => [.supported .criteriaCompareEq]
  | .ne => [.supported .criteriaCompareEq, .supported .criteriaNot]
  | .lt | .gt => [.supported .criteriaCompareOrdered, .supported .criteriaNot]
  | .le | .ge => [.supported .criteriaCompareOrdered]

def membershipRequirements (negated : Bool) (criteria : Criteria) : List Requirement :=
  .supported .criteriaIn :: negationRequirements negated ++ criteria.columns.map .comparable

def Expr.requirements (expr : Expr) : List Requirement :=
  match expr with
  | .column _ | .literal _ => []
  | .aggregate call => [.aggregate call]
  | .case _ _ _ => [.supported .queryCase]
  | .searchedCase _ _ => [.supported .querySearchedCase]
  | .function call => if expr.Foldable then [] else [.pushable call, .function call]
  | .scalarSubquery subquery => [.supported .querySubqueriesScalar, .hosted subquery]
  | .xmlElement _ _ _ _ | .xmlForest _ _ => [.noXml]

def Criteria.requirements (criteria : Criteria) : List Requirement :=
  match criteria with
  | .compare _ op _ => op.requirements ++ criteria.columns.map .comparable
  | .compound .and _ => []
  | .compound .or _ => [.supported .criteriaOr]
  | .not _ => [.supported .criteriaNot]
  | .isNull _ negated => .supported .criteriaIsNull :: negationRequirements negated
  | .like _ _ none negated =>
      .supported .criteriaLike :: negationRequirements negated ++
        criteria.columns.map .patternMatched
  | .like _ _ (some _) negated =>
      .supported .criteriaLike :: .supported .criteriaLikeEscape ::
        negationRequirements negated ++ criteria.columns.map .patternMatched
  | .inList _ values negated => membershipRequirements negated criteria ++ [.listOf values.length]
  | .dependentSet _ _ _ => membershipRequirements false criteria
  | .inSubquery _ subquery negated =>
      membershipRequirements negated criteria ++
        [.supported .criteriaInSubquery, .hosted subquery]
  | .existence subquery _ => [.supported .criteriaExists, .hosted subquery]
  | .quantified _ op .all subquery =>
      .supported .criteriaQuantifiedAll :: op.requirements ++
        criteria.columns.map .comparable ++ [.hosted subquery]
  | .quantified _ op .some subquery | .quantified _ op .any subquery =>
      .supported .criteriaQuantifiedSome :: op.requirements ++
        criteria.columns.map .comparable ++ [.hosted subquery]

def LanguageObject.requirements : LanguageObject → List Requirement
  | .expr body => body.requirements
  | .criteria body => body.requirements
  | .command _ => []
  | .namespaces _ | .attributes _ => [.noXml]

/-! ### What keeps a source from meeting a requirement -/

def obstacleOf {α : Type} (answer : Except PlanError α) (cause? : α → Option Rejection) :
    Option Obstacle :=
  match answer with
  | .error error => some (.failure error)
  | .ok value => (cause? value).map .rejection

def Requirement.obstacle? (federation : Federation) (source : Source) :
    Requirement → Option Obstacle
  | .supported capability =>
      if source.record.Offers capability then none
      else some (.rejection (.unsupported capability source.model))
  | .aggregate call =>
      if ∀ capability ∈ call.needs, source.record.Offers capability then none
      else some (.rejection (.aggregate call))
  | .pushable call =>
      if call.pushdown = .cannot then some (.rejection (.localFunction call.name)) else none
  | .function call =>
      if call.pushdown = .must ∨
          source.record.Lists call.name ∧ call.ConfirmedBy source.record then none
      else some (.rejection (.function call))
  | .listOf count =>
      match source.record.properties.get? .maxInCriteriaSize with
      | some (.int64 most) =>
          if 0 < most.toInt ∧ most.toInt < count then
            some (.rejection (.listTooLong count most.toInt.toNat))
          else none
      | _ => none
  | .comparable element =>
      obstacleOf (federation.metadata.searchability element) fun searchability =>
        if searchability = .searchable ∨ searchability = .allExceptLike then none
        else some (.notSearchable element searchability)
  | .patternMatched element =>
      obstacleOf (federation.metadata.searchability element) fun searchability =>
        if searchability = .searchable ∨ searchability = .likeOnly then none
        else some (.notSearchable element searchability)
  | .hosted subquery =>
      obstacleOf (federation.subqueryModel subquery (some source.model)) fun
        | .error cause => some (.subquery source.model cause)
        | .ok _ => none
  | .noXml => some (.rejection .xml)

def firstObstacle? (federation : Federation) (source : Source)
    (requirements : List Requirement) : Option Obstacle :=
  requirements.findSome? (Requirement.obstacle? federation source)

def LanguageObject.obstacle? (federation : Federation) (source : Source)
    (object : LanguageObject) : Option Obstacle :=
  firstObstacle? federation source object.requirements

/-! ### The rule follows the table -/

namespace Check

def obstacle? : Check → Option Obstacle
  | .ok () => none
  | .error obstacle => some obstacle

theorem obstacle?_bind (first : Check) (next : Unit → Check) :
    obstacle? (first >>= next) = (obstacle? first).or (obstacle? (next ())) := by
  cases first <;> rfl

theorem obstacle?_ok : obstacle? (.ok ()) = none := rfl

theorem obstacle?_reject (cause : Rejection) :
    obstacle? (reject cause) = some (.rejection cause) := rfl

end Check

section Rule

variable (federation : Federation) (source : Source)

theorem firstObstacle?_nil : firstObstacle? federation source [] = none := rfl

theorem firstObstacle?_cons (requirement : Requirement) (rest : List Requirement) :
    firstObstacle? federation source (requirement :: rest) =
      (requirement.obstacle? federation source).or (firstObstacle? federation source rest) := by
  rw [firstObstacle?, List.findSome?_cons]
  cases requirement.obstacle? federation source <;> rfl

theorem firstObstacle?_append (front back : List Requirement) :
    firstObstacle? federation source (front ++ back) =
      (firstObstacle? federation source front).or (firstObstacle? federation source back) :=
  List.findSome?_append

theorem obstacle?_require (capability : Capability) :
    Check.obstacle? (source.require capability) =
      (Requirement.supported capability).obstacle? federation source := by
  simp only [Source.require, Requirement.obstacle?, SourceCapabilities.supports_iff]
  split <;> rfl

theorem obstacle?_requireNot (negated : Bool) :
    Check.obstacle? (source.requireNot negated) =
      firstObstacle? federation source (negationRequirements negated) := by
  cases negated with
  | false => rfl
  | true =>
      rw [negationRequirements, if_pos rfl, firstObstacle?_cons, firstObstacle?_nil, Option.or_none]
      exact obstacle?_require federation source .criteriaNot

theorem obstacle?_checkSearchable {allows : Searchability → Bool}
    {wrap : ElementSymbol → Requirement}
    (wrapped : ∀ element, (wrap element).obstacle? federation source =
      obstacleOf (federation.metadata.searchability element) fun searchability =>
        if allows searchability then none else some (.notSearchable element searchability))
    (elements : List ElementSymbol) :
    Check.obstacle? (checkSearchable federation.metadata allows elements) =
      firstObstacle? federation source (elements.map wrap) := by
  induction elements with
  | nil => rfl
  | cons element rest ih =>
      rw [checkSearchable, List.map_cons, firstObstacle?_cons, wrapped, ← ih]
      cases federation.metadata.searchability element with
      | error error => rfl
      | ok searchability =>
          by_cases allowed : allows searchability
          · simp [obstacleOf, allowed]
          · simp [obstacleOf, allowed, Check.obstacle?_reject]

theorem obstacle?_comparable (elements : List ElementSymbol) :
    Check.obstacle? (checkSearchable federation.metadata Searchability.supportsCompare elements) =
      firstObstacle? federation source (elements.map .comparable) := by
  refine obstacle?_checkSearchable federation source (fun element => ?_) elements
  rw [Requirement.obstacle?]
  congr 1
  funext searchability
  cases searchability <;> rfl

theorem obstacle?_patternMatched (elements : List ElementSymbol) :
    Check.obstacle? (checkSearchable federation.metadata Searchability.supportsLike elements) =
      firstObstacle? federation source (elements.map .patternMatched) := by
  refine obstacle?_checkSearchable federation source (fun element => ?_) elements
  rw [Requirement.obstacle?]
  congr 1
  funext searchability
  cases searchability <;> rfl

theorem obstacle?_checkCompare (op : CompareOp) (criteria : Criteria) :
    Check.obstacle? (checkCompare federation.metadata source op criteria) =
      firstObstacle? federation source
        (op.requirements ++ criteria.columns.map .comparable) := by
  have asked : op.requirements = .supported op.capability :: negationRequirements op.needsNot := by
    cases op <;> rfl
  rw [checkCompare, Check.obstacle?_bind, Check.obstacle?_bind, obstacle?_require federation,
    obstacle?_requireNot federation, obstacle?_comparable, Criteria.elements_eq_columns, asked,
    List.cons_append, firstObstacle?_cons, firstObstacle?_append]

theorem obstacle?_checkIn (negated : Bool) (criteria : Criteria) :
    Check.obstacle? (checkIn federation.metadata source negated criteria) =
      firstObstacle? federation source (membershipRequirements negated criteria) := by
  rw [checkIn, Check.obstacle?_bind, Check.obstacle?_bind, obstacle?_require federation,
    obstacle?_requireNot federation, obstacle?_comparable, Criteria.elements_eq_columns,
    membershipRequirements, List.cons_append, firstObstacle?_cons, firstObstacle?_append]

theorem obstacle?_checkListSize (count : Nat) :
    Check.obstacle? (checkListSize source count) =
      (Requirement.listOf count).obstacle? federation source := by
  simp only [checkListSize, SourceCapabilities.maxInListSize?, SourceCapabilities.property?,
    Requirement.obstacle?]
  rcases source.record.properties.get? .maxInCriteriaSize with _ | value
  · rfl
  · cases value with
    | int64 most =>
        have exceeded (positive : 0 < most.toInt) :
            most.toInt.toNat < count ↔ most.toInt < count := by omega
        simp only [Value.int64?, bind, Option.bind]
        by_cases positive : 0 < most.toInt
        · simp only [positive, true_and, if_true, ← exceeded positive]
          split <;> rfl
        · simp only [positive, false_and, if_false]
          rfl
    | _ => rfl

theorem supportsAggregate_of_recordOf
    (known : federation.recordOf source.model = .ok (some source.record)) (call : AggregateCall) :
    federation.supportsAggregate call source.model =
      .ok (source.record.supportsAggregate call) := by
  rw [Federation.supportsAggregate, known]
  rfl

theorem supportsCall_of_recordOf
    (known : federation.recordOf source.model = .ok (some source.record)) (call : FunctionCall) :
    federation.supportsCall call source.model = .ok (source.record.supportsCall call) := by
  rw [Federation.supportsCall, known]
  rfl

theorem obstacle?_checkSupported (supported : Bool) (cause : Rejection) :
    Check.obstacle? (checkSupported (.ok supported) cause) =
      if supported then none else some (.rejection cause) := by
  cases supported <;> rfl

theorem obstacle?_checkFunction
    (known : federation.recordOf source.model = .ok (some source.record)) (call : FunctionCall) :
    Check.obstacle? (checkFunction federation source call) =
      firstObstacle? federation source [.pushable call, .function call] := by
  simp only [checkFunction, firstObstacle?_cons, firstObstacle?_nil, Option.or_none,
    Requirement.obstacle?]
  split
  · rfl
  · rw [supportsCall_of_recordOf federation source known, obstacle?_checkSupported]
    simp only [SourceCapabilities.supportsCall_iff, Option.none_or]

theorem obstacle?_subqueryRule (subquery : Subquery) :
    Check.obstacle? (federation.subqueryRule federation.validate source subquery) =
      (Requirement.hosted subquery).obstacle? federation source := by
  simp only [Federation.subqueryRule, Requirement.obstacle?, Federation.subqueryModel]
  cases federation.placeSubquery federation.validate subquery (some source.model) with
  | error error => rfl
  | ok verdict => cases verdict <;> rfl

theorem obstacle?_checkExpr
    (known : federation.recordOf source.model = .ok (some source.record)) (expr : Expr) :
    Check.obstacle? (checkExpr federation source
        (federation.subqueryRule federation.validate source) expr) =
      firstObstacle? federation source expr.requirements := by
  cases expr with
  | column _ | literal _ => rfl
  | aggregate call =>
      rw [checkExpr, supportsAggregate_of_recordOf federation source known,
        obstacle?_checkSupported]
      simp only [Expr.requirements, firstObstacle?_cons, firstObstacle?_nil, Option.or_none,
        Requirement.obstacle?, SourceCapabilities.supportsAggregate_iff]
  | case _ _ _ | searchedCase _ _ =>
      simp only [checkExpr, Expr.requirements, firstObstacle?_cons, firstObstacle?_nil,
        Option.or_none, obstacle?_require federation]
  | function call =>
      simp only [checkExpr, Expr.requirements, Expr.isConstant_iff]
      split
      · rfl
      · exact obstacle?_checkFunction federation source known call
  | scalarSubquery subquery =>
      simp only [checkExpr, Expr.requirements, firstObstacle?_cons, firstObstacle?_nil,
        Option.or_none, Check.obstacle?_bind, obstacle?_require federation, obstacle?_subqueryRule]
  | xmlElement _ _ _ _ | xmlForest _ _ => rfl

theorem obstacle?_checkCriteria (criteria : Criteria) :
    Check.obstacle? (checkCriteria federation.metadata source
        (federation.subqueryRule federation.validate source) criteria) =
      firstObstacle? federation source criteria.requirements := by
  cases criteria with
  | compare left op right => exact obstacle?_checkCompare federation source op _
  | compound op operands =>
      cases op with
      | and => rfl
      | or =>
          simp only [checkCriteria, Criteria.requirements, firstObstacle?_cons, firstObstacle?_nil,
            Option.or_none, obstacle?_require federation]
  | not operand =>
      simp only [checkCriteria, Criteria.requirements, firstObstacle?_cons, firstObstacle?_nil,
        Option.or_none, obstacle?_require federation]
  | isNull expr negated =>
      simp only [checkCriteria, Criteria.requirements, firstObstacle?_cons, Check.obstacle?_bind,
        obstacle?_require federation, obstacle?_requireNot federation]
  | like left pattern escape negated =>
      cases escape <;>
        simp only [Criteria.requirements, List.cons_append, firstObstacle?_cons,
          firstObstacle?_append, checkCriteria, Check.obstacle?_bind, obstacle?_require federation,
          obstacle?_requireNot federation, Option.isSome_some, Option.isSome_none, if_true,
          if_false, Bool.false_eq_true, ← obstacle?_patternMatched, Criteria.elements_eq_columns]
  | inList expr values negated =>
      simp only [checkCriteria, Criteria.requirements, firstObstacle?_append, firstObstacle?_cons,
        firstObstacle?_nil, Option.or_none, Check.obstacle?_bind, obstacle?_checkIn,
        obstacle?_checkListSize federation]
  | dependentSet expr valueSource valueExpr => exact obstacle?_checkIn federation source false _
  | inSubquery expr subquery negated =>
      simp only [checkCriteria, Criteria.requirements, firstObstacle?_append, firstObstacle?_cons,
        firstObstacle?_nil, Option.or_none, Check.obstacle?_bind, obstacle?_checkIn,
        obstacle?_require federation, obstacle?_subqueryRule]
  | existence subquery negated =>
      simp only [checkCriteria, Criteria.requirements, firstObstacle?_cons, firstObstacle?_nil,
        Option.or_none, Check.obstacle?_bind, obstacle?_require federation, obstacle?_subqueryRule]
  | quantified left op quantifier subquery =>
      have asked : (Criteria.quantified left op quantifier subquery).requirements =
          .supported quantifier.capability :: op.requirements ++
            (Criteria.quantified left op quantifier subquery).columns.map .comparable ++
              [.hosted subquery] := by
        cases quantifier <;> rfl
      simp only [asked, checkCriteria, List.cons_append, firstObstacle?_cons,
        firstObstacle?_append, firstObstacle?_nil, Option.or_none, Check.obstacle?_bind,
        obstacle?_require federation, obstacle?_checkCompare, obstacle?_subqueryRule]

/-- The rule of validation stops at the first requirement that is not met. -/
theorem obstacle?_localRule
    (known : federation.recordOf source.model = .ok (some source.record))
    (object : LanguageObject) :
    Check.obstacle? (localRule federation source
        (federation.subqueryRule federation.validate source) object) =
      object.obstacle? federation source := by
  cases object with
  | expr expr => exact obstacle?_checkExpr federation source known expr
  | criteria criteria => exact obstacle?_checkCriteria federation source criteria
  | command _ | namespaces _ | attributes _ => rfl

end Rule

end FederatedQuery
