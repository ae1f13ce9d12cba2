import FederatedQuery.Plan.Basic
import FederatedQuery.Proofs.Language.Codec

/-!
# Decoding plans

An arena is encoded node by node, whether or not its links make up a tree.
-/

namespace FederatedQuery

open Json

@[simp] theorem JoinType.ofJson?_toJson (joinType : JoinType) :
    ofJson? joinType.toJson = some joinType :=
  tagged?_of_find (by cases joinType <;> rfl)

@[simp] theorem JoinStrategy.ofJson?_toJson (strategy : JoinStrategy) :
    ofJson? strategy.toJson = some strategy :=
  tagged?_of_find (by cases strategy <;> rfl)

@[simp] theorem SetOperation.ofJson?_toJson (operation : SetOperation) :
    ofJson? operation.toJson = some operation :=
  tagged?_of_find (by cases operation <;> rfl)

@[simp] theorem ModelId.ofJson?_toJson (model : ModelId) : ofJson? model.toJson = some model := by
  simp [ofJson?, toJson]

@[simp] theorem ModelId.toJson_ne_null (model : ModelId) : model.toJson ≠ .null := nofun

@[simp] theorem JoinNode.ofJson?_toJson (join : JoinNode) : ofJson? join.toJson = some join := by
  simp [ofJson?, toJson, members?]

@[simp] theorem AccessPattern.ofJson?_toJson (pattern : AccessPattern) :
    ofJson? pattern.toJson = some pattern := by
  simp [ofJson?, toJson, members?]

@[simp] theorem AccessNode.ofJson?_toJson (access : AccessNode) :
    ofJson? access.toJson = some access := by
  simp [ofJson?, toJson, members?]

@[simp] theorem SelectNode.ofJson?_toJson (select : SelectNode) :
    ofJson? select.toJson = some select := by
  simp [ofJson?, toJson, members?]

@[simp] theorem NodeKind.ofJson?_toJson (kind : NodeKind) : ofJson? kind.toJson = some kind := by
  cases kind with
  | dupRemove => rfl
  | null => rfl
  | _ => simp [ofJson?, toJson, exprsOfJson?, members?]

@[simp] theorem NodeId.ofJson?_int (id : NodeId) :
    NodeId.ofJson? (.int (id : Nat)) = some id := by
  rw [← Int.ofNat_eq_natCast, ofJson?]

@[simp] theorem PlanNode.ofJson?_toJson (node : PlanNode) :
    PlanNode.ofJson? node.toJson = some node := by
  simp [PlanNode.ofJson?, toJson, members?]

@[simp] theorem Plan.ofJson?_toJson (plan : Plan) : ofJson? plan.toJson = some plan := by
  simp [ofJson?, toJson, members?]

end FederatedQuery
