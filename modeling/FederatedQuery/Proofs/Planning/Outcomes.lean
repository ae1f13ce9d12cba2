import FederatedQuery.Planning.ChooseDependent
import FederatedQuery.Proofs.Plan.Accepted
import FederatedQuery.Proofs.Plan.Surgery
import FederatedQuery.Proofs.Plan.Unpriced
import Mathlib.Logic.Function.Basic

/-!
# What becomes of joins

Settling a join may record its costs and may make one input dependent.  All that
happened to a tree is told by one such outcome for every join: the new tree is the
old one, rebuilt with the outcomes.  Settling another join changes one outcome only.
-/

namespace FederatedQuery

def Side.pick {α : Type} (left right : α) : Side → α
  | .left => left
  | .right => right

/-- Which input became dependent, on what values, and where its first new filter lies. -/
structure Conversion where
  side : Side
  number : Nat
  firstFilter : NodeId

structure Outcome where
  costs : Option (Float × Float)
  conversion : Option Conversion

def Outcome.none : Outcome := ⟨Option.none, Option.none⟩

def JoinNode.priced (join : JoinNode) : Option (Float × Float) → JoinNode
  | none => join
  | some (dependent, ordinary) =>
      { join with dependentCost := some dependent, ordinaryCost := some ordinary }

def JoinNode.fedBy (join : JoinNode) (number : Nat) : JoinNode :=
  { join with valueSource := some (ChooseDependent.valueSourceName number) }

namespace PlanTree

def stacked (first : NodeId) (tree : PlanTree) : List Criteria → PlanTree
  | [] => tree
  | criteria :: rest => stacked (first + 1) (.node first (.select ⟨criteria, true⟩) [tree]) rest

end PlanTree

/-- A join whose dependent input has been given its filters and stands last. -/
def Conversion.apply (conversion : Conversion) (id : NodeId) (join : JoinNode)
    (left right : PlanTree) : PlanTree :=
  let source := ChooseDependent.valueSourceName conversion.number
  match conversion.side with
  | .right =>
      .node id (.join (join.fedBy conversion.number))
        [left, right.stacked conversion.firstFilter
          (ChooseDependent.dependentSets source join.rightExprs join.leftExprs)]
  | .left =>
      .node id (.join (join.fedBy conversion.number).mirrored)
        [right, left.stacked conversion.firstFilter
          (ChooseDependent.dependentSets source join.leftExprs join.rightExprs)]

def Outcome.apply (outcome : Outcome) (id : NodeId) (join : JoinNode) (left right : PlanTree) :
    PlanTree :=
  match outcome.conversion with
  | some conversion => conversion.apply id (join.priced outcome.costs) left right
  | Option.none => .node id (.join (join.priced outcome.costs)) [left, right]

namespace PlanTree

def rebuildNode (outcomes : NodeId → Outcome) (id : NodeId) :
    NodeKind → List PlanTree → PlanTree
  | .join join, [left, right] => (outcomes id).apply id join left right
  | kind, children => .node id kind children

/-- The tree with the outcomes of all its joins. -/
def rebuild (outcomes : NodeId → Outcome) (tree : PlanTree) : PlanTree :=
  tree.fold (rebuildNode outcomes)

variable {outcomes : NodeId → Outcome}

theorem rebuild_node (id : NodeId) (kind : NodeKind) (children : List PlanTree) :
    (PlanTree.node id kind children).rebuild outcomes =
      rebuildNode outcomes id kind (children.map (rebuild outcomes)) :=
  fold_node _ _ _ _

theorem rebuild_join (id : NodeId) (join : JoinNode) (left right : PlanTree) :
    (PlanTree.node id (.join join) [left, right]).rebuild outcomes =
      (outcomes id).apply id join (left.rebuild outcomes) (right.rebuild outcomes) :=
  rebuild_node _ _ _

theorem rebuild_of_not_join {id : NodeId} {kind : NodeKind} {children : List PlanTree}
    (h : kind.join? = none) :
    (PlanTree.node id kind children).rebuild outcomes =
      .node id kind (children.map (rebuild outcomes)) := by
  rw [rebuild_node]
  cases kind <;> simp_all [NodeKind.join?, rebuildNode]

theorem rebuildNode_cases (outcomes : NodeId → Outcome) (id : NodeId) (kind : NodeKind)
    (children : List PlanTree) :
    (∃ join left right, kind = .join join ∧ children = [left, right]) ∨
      rebuildNode outcomes id kind children = .node id kind children := by
  cases kind with
  | join join =>
      match children with
      | [left, right] => exact .inl ⟨join, left, right, rfl, rfl⟩
      | [] => exact .inr rfl
      | [_] => exact .inr rfl
      | _ :: _ :: _ :: _ => exact .inr rfl
  | _ => exact .inr rfl

end PlanTree

@[simp] theorem JoinNode.joinType_priced (join : JoinNode) (costs : Option (Float × Float)) :
    (join.priced costs).joinType = join.joinType := by
  cases costs <;> rfl

@[simp] theorem JoinNode.criteria_priced (join : JoinNode) (costs : Option (Float × Float)) :
    (join.priced costs).criteria = join.criteria := by
  cases costs <;> rfl

@[simp] theorem JoinNode.leftExprs_priced (join : JoinNode) (costs : Option (Float × Float)) :
    (join.priced costs).leftExprs = join.leftExprs := by
  cases costs <;> rfl

@[simp] theorem JoinNode.rightExprs_priced (join : JoinNode) (costs : Option (Float × Float)) :
    (join.priced costs).rightExprs = join.rightExprs := by
  cases costs <;> rfl

@[simp] theorem JoinNode.unpriced_priced (join : JoinNode) (costs : Option (Float × Float)) :
    (join.priced costs).unpriced = join.unpriced := by
  cases costs <;> rfl

theorem Outcome.apply_left (costs : Option (Float × Float)) (number : Nat) (first id : NodeId)
    (join : JoinNode) (left right : PlanTree) :
    Outcome.apply ⟨costs, some ⟨.left, number, first⟩⟩ id join left right =
      .node id (.join ((join.priced costs).fedBy number).mirrored)
        [right, left.stacked first (ChooseDependent.dependentSets
          (ChooseDependent.valueSourceName number) join.leftExprs join.rightExprs)] := by
  simp only [Outcome.apply, Conversion.apply, JoinNode.leftExprs_priced,
    JoinNode.rightExprs_priced]

theorem Outcome.apply_right (costs : Option (Float × Float)) (number : Nat) (first id : NodeId)
    (join : JoinNode) (left right : PlanTree) :
    Outcome.apply ⟨costs, some ⟨.right, number, first⟩⟩ id join left right =
      .node id (.join ((join.priced costs).fedBy number))
        [left, right.stacked first (ChooseDependent.dependentSets
          (ChooseDependent.valueSourceName number) join.rightExprs join.leftExprs)] := by
  simp only [Outcome.apply, Conversion.apply, JoinNode.leftExprs_priced,
    JoinNode.rightExprs_priced]

theorem Outcome.apply_unconverted (costs : Option (Float × Float)) (id : NodeId)
    (join : JoinNode) (left right : PlanTree) :
    Outcome.apply ⟨costs, Option.none⟩ id join left right =
      .node id (.join (join.priced costs)) [left, right] := rfl

@[simp] theorem Outcome.apply_none (id : NodeId) (join : JoinNode) (left right : PlanTree) :
    Outcome.none.apply id join left right = .node id (.join join) [left, right] := rfl

@[simp] theorem JoinNode.valueSource_priced (join : JoinNode) (costs : Option (Float × Float)) :
    (join.priced costs).valueSource = join.valueSource := by
  cases costs <;> rfl

theorem Conversion.exists_apply_eq (conversion : Conversion) (costs : Option (Float × Float))
    (id : NodeId) (join : JoinNode) (left right : PlanTree) :
    ∃ payload last, Outcome.apply ⟨costs, some conversion⟩ id join left right =
        .node id (.join payload) [conversion.side.opposite.pick left right, last] ∧
      payload.valueSource = some (ChooseDependent.valueSourceName conversion.number) := by
  obtain ⟨side, number, first⟩ := conversion
  cases side with
  | left => exact ⟨_, _, Outcome.apply_left _ _ _ _ _ _ _, rfl⟩
  | right => exact ⟨_, _, Outcome.apply_right _ _ _ _ _ _ _, rfl⟩

@[simp] theorem Conversion.id_apply (conversion : Conversion) (id : NodeId) (join : JoinNode)
    (left right : PlanTree) : (conversion.apply id join left right).id = id := by
  unfold Conversion.apply
  cases conversion.side <;> rfl

@[simp] theorem Outcome.id_apply (outcome : Outcome) (id : NodeId) (join : JoinNode)
    (left right : PlanTree) : (outcome.apply id join left right).id = id := by
  unfold Outcome.apply
  cases outcome.conversion with
  | none => rfl
  | some conversion => exact conversion.id_apply _ _ _ _

theorem Outcome.exists_apply (outcome : Outcome) (id : NodeId) (join : JoinNode)
    (left right : PlanTree) : ∃ payload first last,
      outcome.apply id join left right = .node id (.join payload) [first, last] := by
  obtain ⟨costs, conversion⟩ := outcome
  cases conversion with
  | none => exact ⟨_, _, _, rfl⟩
  | some conversion =>
      obtain ⟨payload, last, happly, -⟩ := conversion.exists_apply_eq costs id join left right
      exact ⟨payload, _, last, happly⟩

theorem Outcome.exists_kind_apply (outcome : Outcome) (id : NodeId) (join : JoinNode)
    (left right : PlanTree) :
    ∃ payload, (outcome.apply id join left right).kind = .join payload := by
  obtain ⟨payload, _, _, happly⟩ := outcome.exists_apply id join left right
  exact ⟨payload, by rw [happly]; rfl⟩

namespace PlanTree

variable {outcomes : NodeId → Outcome}

@[simp] theorem id_rebuild (tree : PlanTree) : (tree.rebuild outcomes).id = tree.id := by
  obtain ⟨id, kind, children⟩ := tree
  rw [rebuild_node]
  rcases rebuildNode_cases outcomes id kind (children.map (rebuild outcomes)) with
    ⟨join, left, right, rfl, hchildren⟩ | same
  · rw [hchildren]
    exact (outcomes id).id_apply _ _ _ _
  · rw [same]
    rfl

theorem rebuildNode_congr {other : NodeId → Outcome} {id : NodeId}
    (same : other id = outcomes id) (kind : NodeKind) (children : List PlanTree) :
    rebuildNode other id kind children = rebuildNode outcomes id kind children := by
  unfold rebuildNode
  rw [same]

theorem rebuild_congr {other : NodeId → Outcome} {tree : PlanTree}
    (same : ∀ id ∈ tree.ids, other id = outcomes id) :
    tree.rebuild other = tree.rebuild outcomes := by
  induction tree with
  | node id kind children ih =>
      have hchildren : children.map (rebuild other) = children.map (rebuild outcomes) := by
        apply List.map_congr_left
        intro child hchild
        exact ih child hchild fun position hposition =>
          same position (mem_ids_of_child hchild hposition)
      rw [rebuild_node, rebuild_node, hchildren, rebuildNode_congr (same id (by simp))]

theorem rebuild_none (tree : PlanTree) : tree.rebuild (fun _ => .none) = tree := by
  induction tree with
  | node id kind children ih =>
      rw [rebuild_node, List.map_congr_left ih, List.map_id']
      rcases rebuildNode_cases (fun _ => .none) id kind children with
        ⟨join, left, right, rfl, rfl⟩ | same
      · rfl
      · exact same

/-! ## Rebuilding a context -/

theorem exists_frames_stacked (first : NodeId) (criteria : List Criteria) :
    ∃ frames, ∀ tree : PlanTree, tree.stacked first criteria = tree.within frames := by
  induction criteria generalizing first with
  | nil => exact ⟨[], fun _ => rfl⟩
  | cons criterion rest ih =>
      obtain ⟨frames, hframes⟩ := ih (first + 1)
      refine ⟨⟨first, .select ⟨criterion, true⟩, [], []⟩ :: frames, fun tree => ?_⟩
      rw [stacked, hframes]
      rfl

theorem exists_frames_left (outcome : Outcome) (id : NodeId) (join : JoinNode)
    (right : PlanTree) :
    ∃ frames, ∀ left, outcome.apply id join left right = left.within frames := by
  obtain ⟨costs, conversion⟩ := outcome
  cases conversion with
  | none => exact ⟨[⟨id, .join (join.priced costs), [], [right]⟩], fun _ => rfl⟩
  | some conversion =>
      obtain ⟨side, number, first⟩ := conversion
      cases side with
      | right =>
          exact ⟨[⟨id, .join ((join.priced costs).fedBy number), [],
            [right.stacked first _]⟩], fun _ => rfl⟩
      | left =>
          obtain ⟨frames, hframes⟩ := exists_frames_stacked first
            (ChooseDependent.dependentSets (ChooseDependent.valueSourceName number)
              (join.priced costs).leftExprs (join.priced costs).rightExprs)
          refine ⟨frames ++ [⟨id, .join ((join.priced costs).fedBy number).mirrored,
            [right], []⟩], fun left => ?_⟩
          rw [within_append, ← hframes]
          rfl

theorem exists_frames_right (outcome : Outcome) (id : NodeId) (join : JoinNode)
    (left : PlanTree) :
    ∃ frames, ∀ right, outcome.apply id join left right = right.within frames := by
  obtain ⟨costs, conversion⟩ := outcome
  cases conversion with
  | none => exact ⟨[⟨id, .join (join.priced costs), [left], []⟩], fun _ => rfl⟩
  | some conversion =>
      obtain ⟨side, number, first⟩ := conversion
      cases side with
      | left =>
          exact ⟨[⟨id, .join ((join.priced costs).fedBy number).mirrored, [],
            [left.stacked first _]⟩], fun _ => rfl⟩
      | right =>
          obtain ⟨frames, hframes⟩ := exists_frames_stacked first
            (ChooseDependent.dependentSets (ChooseDependent.valueSourceName number)
              (join.priced costs).rightExprs (join.priced costs).leftExprs)
          refine ⟨frames ++ [⟨id, .join ((join.priced costs).fedBy number), [left], []⟩],
            fun right => ?_⟩
          rw [within_append, ← hframes]
          rfl

theorem exists_frames_fill (outcomes : NodeId → Outcome) (frame : Frame) :
    ∃ frames, ∀ tree, rebuildNode outcomes frame.id frame.kind
        (frame.left ++ tree :: frame.right) = tree.within frames := by
  obtain ⟨id, kind, left, right⟩ := frame
  have plain (same : ∀ tree, rebuildNode outcomes id kind (left ++ tree :: right) =
      .node id kind (left ++ tree :: right)) :
      ∃ frames, ∀ tree, rebuildNode outcomes id kind (left ++ tree :: right) =
        tree.within frames :=
    ⟨[⟨id, kind, left, right⟩], same⟩
  cases kind with
  | join join =>
      match left, right with
      | [], [right] => exact exists_frames_left (outcomes id) id join right
      | [left], [] => exact exists_frames_right (outcomes id) id join left
      | [], [] => exact plain fun _ => rfl
      | [], _ :: _ :: _ => exact plain fun _ => rfl
      | [_], _ :: _ => exact plain fun _ => rfl
      | _ :: _ :: _, _ => exact plain fun _ => by simp [rebuildNode]
  | _ => exact plain fun _ => rfl

/-- The outcomes elsewhere turn a context into another one, whatever the hole holds. -/
theorem exists_frames_rebuild (outcomes : NodeId → Outcome) (frames : List Frame) :
    ∃ rebuilt, ∀ (tree : PlanTree) (other : NodeId → Outcome),
      (∀ id ∈ Frame.outerIds frames, other id = outcomes id) →
        (tree.within frames).rebuild other = (tree.rebuild other).within rebuilt := by
  induction frames with
  | nil => exact ⟨[], fun _ _ _ => rfl⟩
  | cons frame rest ih =>
      obtain ⟨outer, houter⟩ := ih
      obtain ⟨id, kind, left, right⟩ := frame
      obtain ⟨inner, hinner⟩ := exists_frames_fill outcomes
        ⟨id, kind, left.map (rebuild outcomes), right.map (rebuild outcomes)⟩
      refine ⟨inner ++ outer, fun tree other same => ?_⟩
      simp only [Frame.outerIds_cons, List.mem_append] at same
      have hsides : ∀ side ∈ left ++ right, side.rebuild other = side.rebuild outcomes := by
        intro side hside
        refine rebuild_congr fun position hposition => same position (.inl ?_)
        rw [Frame.ids, List.mem_cons, List.mem_flatMap]
        exact .inr ⟨side, hside, hposition⟩
      have hleft : left.map (rebuild other) = left.map (rebuild outcomes) :=
        List.map_congr_left fun side hside => hsides side (List.mem_append_left _ hside)
      have hright : right.map (rebuild other) = right.map (rebuild outcomes) :=
        List.map_congr_left fun side hside => hsides side (List.mem_append_right _ hside)
      have hid : other id = outcomes id := same id (.inl (by simp [Frame.ids]))
      rw [within_cons, houter _ other fun id member => same id (.inr member), within_append,
        ← hinner, Frame.fill, rebuild_node, rebuildNode_congr hid, List.map_append, List.map_cons,
        hleft, hright]

theorem exists_rebuild_update {id : NodeId} {join : JoinNode} {left right : PlanTree}
    {frames : List Frame}
    (nodup : ((PlanTree.node id (.join join) [left, right]).within frames).ids.Nodup)
    (outcomes : NodeId → Outcome) :
    ∃ rebuilt, ∀ outcome,
      ((PlanTree.node id (.join join) [left, right]).within frames).rebuild
          (Function.update outcomes id outcome) =
        (outcome.apply id join (left.rebuild outcomes)
          (right.rebuild outcomes)).within rebuilt := by
  obtain ⟨-, inner, disjoint⟩ := nodup_ids_within.mp nodup
  rw [ids_node, List.nodup_cons] at inner
  obtain ⟨rebuilt, hrebuilt⟩ := exists_frames_rebuild outcomes frames
  refine ⟨rebuilt, fun outcome => ?_⟩
  have elsewhere {other : NodeId} (ne : other ≠ id) :
      Function.update outcomes id outcome other = outcomes other := Function.update_of_ne ne _ _
  rw [hrebuilt]
  · have below : ∀ child ∈ [left, right],
        child.rebuild (Function.update outcomes id outcome) = child.rebuild outcomes := by
      intro child hchild
      refine rebuild_congr fun other member => elsewhere ?_
      rintro rfl
      exact inner.1 (List.mem_flatMap.mpr ⟨child, hchild, member⟩)
    rw [rebuild_join, Function.update_self, below left (by simp), below right (by simp)]
  · intro other member
    apply elsewhere
    rintro rfl
    exact disjoint member (by simp)

/-! ## What rebuilding keeps -/

theorem WellShaped.stacked {tree : PlanTree} (shaped : tree.WellShaped) (first : NodeId)
    (criteria : List Criteria) : (tree.stacked first criteria).WellShaped := by
  induction criteria generalizing tree first with
  | nil => exact shaped
  | cons criterion rest ih =>
      apply ih
      rw [wellShaped_node]
      refine ⟨⟨fun _ h => ?_, nofun⟩, by simpa using shaped⟩
      cases h
      rfl

end PlanTree

theorem NodeKind.fits_join {join : JoinNode} {count : Nat} :
    (NodeKind.join join).Fits count ↔
      count = 2 ∧ join.leftExprs.length = join.rightExprs.length := by
  constructor
  · intro fits
    exact ⟨fits.arity 2 rfl, fits.paired join rfl⟩
  · rintro ⟨rfl, paired⟩
    refine ⟨fun _ h => ?_, fun _ h => ?_⟩
    · cases h
      rfl
    · cases h
      exact paired

theorem Outcome.wellShaped_apply (outcome : Outcome) (id : NodeId) {join : JoinNode}
    {left right : PlanTree} (paired : join.leftExprs.length = join.rightExprs.length)
    (hleft : left.WellShaped) (hright : right.WellShaped) :
    (outcome.apply id join left right).WellShaped := by
  obtain ⟨costs, conversion⟩ := outcome
  cases conversion with
  | none =>
      rw [Outcome.apply_unconverted, PlanTree.wellShaped_node, NodeKind.fits_join]
      simp [paired, hleft, hright]
  | some conversion =>
      obtain ⟨side, number, first⟩ := conversion
      cases side with
      | left =>
          rw [Outcome.apply_left, PlanTree.wellShaped_node, NodeKind.fits_join]
          simp [JoinNode.mirrored, JoinNode.fedBy, paired, hright, hleft.stacked]
      | right =>
          rw [Outcome.apply_right, PlanTree.wellShaped_node, NodeKind.fits_join]
          simp [JoinNode.fedBy, paired, hleft, hright.stacked]

namespace PlanTree

variable {outcomes : NodeId → Outcome}

theorem WellShaped.rebuild {tree : PlanTree} (shaped : tree.WellShaped) :
    (tree.rebuild outcomes).WellShaped := by
  induction tree with
  | node id kind children ih =>
      obtain ⟨fits, below⟩ := wellShaped_node.mp shaped
      rw [rebuild_node]
      rcases rebuildNode_cases outcomes id kind (children.map (PlanTree.rebuild outcomes)) with
        ⟨join, left, right, rfl, hchildren⟩ | same
      · have hall : ∀ child ∈ [left, right], child.WellShaped := by
          rw [← hchildren]
          intro child hchild
          obtain ⟨old, hold, rfl⟩ := List.mem_map.mp hchild
          exact ih old hold (below old hold)
        rw [hchildren]
        exact (outcomes id).wellShaped_apply id (NodeKind.fits_join.mp fits).2
          (hall left (by simp)) (hall right (by simp))
      · rw [same, wellShaped_node, List.length_map]
        refine ⟨fits, fun child hchild => ?_⟩
        obtain ⟨old, hold, rfl⟩ := List.mem_map.mp hchild
        exact ih old hold (below old hold)

theorem rebuild_mem_subtrees {tree sub : PlanTree} (member : sub ∈ tree.subtrees) :
    sub.rebuild outcomes ∈ (tree.rebuild outcomes).subtrees := by
  obtain ⟨frames, rfl⟩ := exists_within_of_mem member
  obtain ⟨rebuilt, hrebuilt⟩ := exists_frames_rebuild outcomes frames
  rw [hrebuilt sub outcomes fun _ _ => rfl]
  exact mem_subtrees_within_self _ _

theorem unpriced_rebuild {tree : PlanTree}
    (unconverted : ∀ id ∈ tree.ids, (outcomes id).conversion = none) :
    (tree.rebuild outcomes).unpriced = tree.unpriced := by
  induction tree with
  | node id kind children ih =>
      have below : (children.map (rebuild outcomes)).map unpriced = children.map unpriced := by
        rw [List.map_map]
        refine List.map_congr_left fun child hchild => ih child hchild fun other hother => ?_
        exact unconverted other (mem_ids_of_child hchild hother)
      rw [rebuild_node, unpriced_node, ← below]
      rcases rebuildNode_cases outcomes id kind (children.map (rebuild outcomes)) with
        ⟨join, left, right, rfl, hchildren⟩ | same
      · have hconversion := unconverted id (id_mem_ids _)
        obtain ⟨⟨costs, conversion⟩, houtcome⟩ : ∃ outcome, outcomes id = outcome := ⟨_, rfl⟩
        rw [houtcome] at hconversion
        cases hconversion
        rw [hchildren, rebuildNode, houtcome, Outcome.apply_unconverted, unpriced_node,
          NodeKind.unpriced, JoinNode.unpriced_priced]
        rfl
      · rw [same, unpriced_node]

theorem kind_rebuild (outcomes : NodeId → Outcome) (tree : PlanTree) :
    (tree.rebuild outcomes).kind = tree.kind ∨
      ∃ join payload, tree.kind = .join join ∧ (tree.rebuild outcomes).kind = .join payload := by
  obtain ⟨id, kind, children⟩ := tree
  rw [rebuild_node]
  rcases rebuildNode_cases outcomes id kind (children.map (rebuild outcomes)) with
    ⟨join, left, right, rfl, hchildren⟩ | same
  · rw [hchildren]
    obtain ⟨payload, hpayload⟩ := (outcomes id).exists_kind_apply id join left right
    exact .inr ⟨join, payload, rfl, hpayload⟩
  · rw [same]
    exact .inl rfl

theorem access?_rebuild (tree : PlanTree) :
    (tree.rebuild outcomes).kind.access? = tree.kind.access? := by
  rcases tree.kind_rebuild outcomes with same | ⟨join, payload, hold, hnew⟩
  · rw [same]
  · rw [hold, hnew]
    rfl

theorem descend_rebuild {step : NodeKind → Bool} (joins : ∀ join, step (.join join) = false)
    (tree : PlanTree) :
    (tree.rebuild outcomes).descend step = (tree.descend step).rebuild outcomes := by
  induction tree with
  | node id kind children ih =>
      cases hstep : step kind with
      | false =>
          have hold : (PlanTree.node id kind children).descend step = .node id kind children :=
            descend_of_not_step hstep
          rw [hold, descend_of_not_step]
          rcases (PlanTree.node id kind children).kind_rebuild outcomes with
            same | ⟨join, payload, -, hpayload⟩
          · rw [same]
            exact hstep
          · rw [hpayload]
            exact joins payload
      | true =>
          have hjoin : kind.join? = none := by
            cases kind <;> first | rfl | (rw [joins] at hstep; cases hstep)
          rw [rebuild_of_not_join hjoin]
          cases children with
          | nil =>
              simp only [descend, List.map_nil]
              rw [rebuild_of_not_join hjoin, List.map_nil]
          | cons child rest =>
              have hchild := ih child List.mem_cons_self
              simp only [descend, List.map_cons, hstep, if_true, hchild]

theorem source_rebuild (tree : PlanTree) :
    (tree.rebuild outcomes).source = tree.source.rebuild outcomes :=
  descend_rebuild (fun _ => rfl) tree

theorem beneath_rebuild (tree : PlanTree) :
    (tree.rebuild outcomes).beneath = tree.beneath.rebuild outcomes :=
  descend_rebuild (fun _ => rfl) tree

theorem mem_subtrees_of_stacked {first : NodeId} {tree sub : PlanTree} {criteria : List Criteria}
    (member : sub ∈ (tree.stacked first criteria).subtrees) (h : sub.kind.isSelect = false) :
    sub ∈ tree.subtrees := by
  induction criteria generalizing first tree with
  | nil => exact member
  | cons criterion rest ih =>
      have inside := ih member
      rw [subtrees_node, List.mem_cons, List.flatMap_cons, List.flatMap_nil,
        List.append_nil] at inside
      rcases inside with rfl | inside
      · cases h
      · exact inside

end PlanTree

theorem Outcome.mem_subtrees_apply {outcome : Outcome} {id : NodeId} {join : JoinNode}
    {left right sub : PlanTree} (member : sub ∈ (outcome.apply id join left right).subtrees)
    (h : sub.kind.isSelect = false) :
    sub = outcome.apply id join left right ∨ sub ∈ left.subtrees ∨ sub ∈ right.subtrees := by
  obtain ⟨costs, conversion⟩ := outcome
  cases conversion with
  | none =>
      rw [apply_unconverted] at member ⊢
      simpa using member
  | some conversion =>
      obtain ⟨side, number, first⟩ := conversion
      cases side with
      | left =>
          rw [apply_left] at member ⊢
          rw [PlanTree.subtrees_node, List.mem_cons, List.flatMap_cons, List.flatMap_cons,
            List.flatMap_nil, List.append_nil, List.mem_append] at member
          rcases member with rfl | member | member
          · exact .inl rfl
          · exact .inr (.inr member)
          · exact .inr (.inl (PlanTree.mem_subtrees_of_stacked member h))
      | right =>
          rw [apply_right] at member ⊢
          rw [PlanTree.subtrees_node, List.mem_cons, List.flatMap_cons, List.flatMap_cons,
            List.flatMap_nil, List.append_nil, List.mem_append] at member
          rcases member with rfl | member | member
          · exact .inl rfl
          · exact .inr (.inl member)
          · exact .inr (.inr (PlanTree.mem_subtrees_of_stacked member h))

namespace PlanTree

variable {outcomes : NodeId → Outcome}

/-- Every node but the new filters comes from a node of the old tree. -/
theorem exists_of_mem_rebuild {tree sub : PlanTree}
    (member : sub ∈ (tree.rebuild outcomes).subtrees) (h : sub.kind.isSelect = false) :
    ∃ old ∈ tree.subtrees, sub = old.rebuild outcomes := by
  induction tree with
  | node id kind children ih =>
      have deeper : ∀ child ∈ children, sub ∈ (child.rebuild outcomes).subtrees →
          ∃ old ∈ (PlanTree.node id kind children).subtrees, sub = old.rebuild outcomes := by
        intro child hchild hmember
        obtain ⟨old, hold, hsub⟩ := ih child hchild hmember
        exact ⟨old, mem_subtrees_of_child hchild hold, hsub⟩
      rw [rebuild_node] at member
      rcases rebuildNode_cases outcomes id kind (children.map (rebuild outcomes)) with
        ⟨join, left, right, rfl, hchildren⟩ | same
      · have among : ∀ input ∈ [left, right], sub ∈ input.subtrees →
            ∃ old ∈ (PlanTree.node id (.join join) children).subtrees,
              sub = old.rebuild outcomes := by
          rw [← hchildren]
          intro input hinput hmember
          obtain ⟨child, hchild, rfl⟩ := List.mem_map.mp hinput
          exact deeper child hchild hmember
        rw [hchildren] at member
        rcases Outcome.mem_subtrees_apply member h with rfl | hleft | hright
        · refine ⟨_, self_mem_subtrees _, ?_⟩
          rw [rebuild_node, hchildren]
          rfl
        · exact among left (by simp) hleft
        · exact among right (by simp) hright
      · rw [same, subtrees_node, List.mem_cons, List.mem_flatMap] at member
        rcases member with rfl | ⟨child, hchild, hmember⟩
        · refine ⟨_, self_mem_subtrees _, ?_⟩
          rw [rebuild_node, same]
        · obtain ⟨old, hold, rfl⟩ := List.mem_map.mp hchild
          exact deeper old hold hmember

end PlanTree

end FederatedQuery
