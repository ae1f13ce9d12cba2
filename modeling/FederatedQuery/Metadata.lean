import FederatedQuery.Error
import FederatedQuery.Symbol

/-!
What planning asks about models, groups and elements.

Every answer may be a failed look-up.  An element's searchability says in which
predicates a source accepts it.
-/

namespace FederatedQuery

inductive Searchability where
  | unsearchable
  | likeOnly
  | allExceptLike
  | searchable
  deriving DecidableEq, Repr

namespace Searchability

def all : List Searchability := [.unsearchable, .likeOnly, .allExceptLike, .searchable]

def name : Searchability → String
  | .unsearchable => "Unsearchable"
  | .likeOnly => "LikeOnly"
  | .allExceptLike => "AllExceptLike"
  | .searchable => "Searchable"

def supportsCompare : Searchability → Bool
  | .searchable | .allExceptLike => true
  | _ => false

def supportsLike : Searchability → Bool
  | .searchable | .likeOnly => true
  | _ => false

def toJson (searchability : Searchability) : Json := .string searchability.name

def ofJson? (json : Json) : Option Searchability := Json.tagged? all name json

end Searchability

structure Metadata where
  modelOf : GroupSymbol → Except PlanError ModelId
  fullName : ModelId → Except PlanError String
  isVirtual : ModelId → Except PlanError Bool
  searchability : ElementSymbol → Except PlanError Searchability

end FederatedQuery
