import FederatedQuery.Json.Decode

/-!
Features that a source may or may not evaluate.

The last two constructors are no features but keys of settings, which hold a value.
-/

namespace FederatedQuery

inductive Capability where
  | criteriaCompareEq
  | criteriaCompareOrdered
  /-- NOT, and every negated form of a predicate. -/
  | criteriaNot
  | criteriaOr
  | criteriaIsNull
  | criteriaLike
  | criteriaLikeEscape
  | criteriaIn
  | criteriaInSubquery
  | criteriaExists
  | criteriaQuantifiedAll
  | criteriaQuantifiedSome
  | queryAggregates
  | queryAggregatesCount
  | queryAggregatesCountStar
  | queryAggregatesSum
  | queryAggregatesAvg
  | queryAggregatesMin
  | queryAggregatesMax
  | queryAggregatesDistinct
  | queryGroupBy
  | queryHaving
  | queryCase
  | querySearchedCase
  | querySubqueriesScalar
  | querySubqueriesCorrelated
  | maxInCriteriaSize
  | connectorId
  deriving DecidableEq, Repr

namespace Capability

def all : List Capability := [
  .criteriaCompareEq, .criteriaCompareOrdered, .criteriaNot, .criteriaOr, .criteriaIsNull,
  .criteriaLike, .criteriaLikeEscape, .criteriaIn, .criteriaInSubquery, .criteriaExists,
  .criteriaQuantifiedAll, .criteriaQuantifiedSome, .queryAggregates, .queryAggregatesCount,
  .queryAggregatesCountStar, .queryAggregatesSum, .queryAggregatesAvg, .queryAggregatesMin,
  .queryAggregatesMax, .queryAggregatesDistinct, .queryGroupBy, .queryHaving, .queryCase,
  .querySearchedCase, .querySubqueriesScalar, .querySubqueriesCorrelated, .maxInCriteriaSize,
  .connectorId]

def tag : Capability → String
  | .criteriaCompareEq => "CriteriaCompareEq"
  | .criteriaCompareOrdered => "CriteriaCompareOrdered"
  | .criteriaNot => "CriteriaNot"
  | .criteriaOr => "CriteriaOr"
  | .criteriaIsNull => "CriteriaIsNull"
  | .criteriaLike => "CriteriaLike"
  | .criteriaLikeEscape => "CriteriaLikeEscape"
  | .criteriaIn => "CriteriaIn"
  | .criteriaInSubquery => "CriteriaInSubquery"
  | .criteriaExists => "CriteriaExists"
  | .criteriaQuantifiedAll => "CriteriaQuantifiedAll"
  | .criteriaQuantifiedSome => "CriteriaQuantifiedSome"
  | .queryAggregates => "QueryAggregates"
  | .queryAggregatesCount => "QueryAggregatesCount"
  | .queryAggregatesCountStar => "QueryAggregatesCountStar"
  | .queryAggregatesSum => "QueryAggregatesSum"
  | .queryAggregatesAvg => "QueryAggregatesAvg"
  | .queryAggregatesMin => "QueryAggregatesMin"
  | .queryAggregatesMax => "QueryAggregatesMax"
  | .queryAggregatesDistinct => "QueryAggregatesDistinct"
  | .queryGroupBy => "QueryGroupBy"
  | .queryHaving => "QueryHaving"
  | .queryCase => "QueryCase"
  | .querySearchedCase => "QuerySearchedCase"
  | .querySubqueriesScalar => "QuerySubqueriesScalar"
  | .querySubqueriesCorrelated => "QuerySubqueriesCorrelated"
  | .maxInCriteriaSize => "MaxInCriteriaSize"
  | .connectorId => "ConnectorId"

def name : Capability → String
  | .criteriaCompareEq => "CRITERIA_COMPARE_EQ"
  | .criteriaCompareOrdered => "CRITERIA_COMPARE_ORDERED"
  | .criteriaNot => "CRITERIA_NOT"
  | .criteriaOr => "CRITERIA_OR"
  | .criteriaIsNull => "CRITERIA_ISNULL"
  | .criteriaLike => "CRITERIA_LIKE"
  | .criteriaLikeEscape => "CRITERIA_LIKE_ESCAPE"
  | .criteriaIn => "CRITERIA_IN"
  | .criteriaInSubquery => "CRITERIA_IN_SUBQUERY"
  | .criteriaExists => "CRITERIA_EXISTS"
  | .criteriaQuantifiedAll => "CRITERIA_QUANTIFIED_ALL"
  | .criteriaQuantifiedSome => "CRITERIA_QUANTIFIED_SOME"
  | .queryAggregates => "QUERY_AGGREGATES"
  | .queryAggregatesCount => "QUERY_AGGREGATES_COUNT"
  | .queryAggregatesCountStar => "QUERY_AGGREGATES_COUNT_STAR"
  | .queryAggregatesSum => "QUERY_AGGREGATES_SUM"
  | .queryAggregatesAvg => "QUERY_AGGREGATES_AVG"
  | .queryAggregatesMin => "QUERY_AGGREGATES_MIN"
  | .queryAggregatesMax => "QUERY_AGGREGATES_MAX"
  | .queryAggregatesDistinct => "QUERY_AGGREGATES_DISTINCT"
  | .queryGroupBy => "QUERY_GROUP_BY"
  | .queryHaving => "QUERY_HAVING"
  | .queryCase => "QUERY_CASE"
  | .querySearchedCase => "QUERY_SEARCHED_CASE"
  | .querySubqueriesScalar => "QUERY_SUBQUERIES_SCALAR"
  | .querySubqueriesCorrelated => "QUERY_SUBQUERIES_CORRELATED"
  | .maxInCriteriaSize => "MAX_IN_CRITERIA_SIZE"
  | .connectorId => "CONNECTOR_ID"

def isProperty : Capability → Bool
  | .maxInCriteriaSize | .connectorId => true
  | _ => false

def position (capability : Capability) : Nat := capability.ctorIdx

instance : Ord Capability where
  compare first second := compare first.position second.position

instance : Std.TransOrd Capability :=
  inferInstanceAs (Std.TransCmp (compareOn position))

theorem getElem?_all_position (capability : Capability) :
    all[capability.position]? = some capability := by
  cases capability <;> rfl

theorem eq_of_position_eq {first second : Capability} (same : first.position = second.position) :
    first = second := by
  have := getElem?_all_position first
  rw [same, getElem?_all_position second] at this
  exact (Option.some.inj this).symm

theorem compare_eq_iff {first second : Capability} :
    compare first second = .eq ↔ first = second := by
  constructor
  · intro same
    exact eq_of_position_eq (Nat.compare_eq_eq.mp same)
  · rintro rfl
    exact Std.ReflCmp.compare_self

def ofTag? (name : String) : Option Capability := all.find? (tag · == name)

def toJson (capability : Capability) : Json := .string capability.tag

def ofJson? (json : Json) : Option Capability := Json.tagged? all tag json

end Capability

end FederatedQuery
