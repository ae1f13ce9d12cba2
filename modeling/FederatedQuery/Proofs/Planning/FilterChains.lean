import FederatedQuery.Proofs.Planning.ShapeKept

/-!
# Chains of filters

A plan is read as the list of its nodes that are no filters, in preorder, each with the
filters directly above it and with the nodes that its inputs come from.  Each move of a
filter changes one entry of the list.
-/

namespace FederatedQuery

/-- A node that is no filter, with what stands directly above it. -/
structure FilterChain where
  bottom : NodeId
  kind : NodeKind
  filters : List (NodeId × SelectNode)
  inputs : List NodeId

namespace PlanTree

mutual

def chainsBelow (above : List (NodeId × SelectNode)) : PlanTree → List FilterChain
  | .node id (.select select) [below] => chainsBelow ((id, select) :: above) below
  | .node id kind children =>
      ⟨id, kind, above, children.map fun child => child.beneath.id⟩ :: chainsOfAll children

def chainsOfAll : List PlanTree → List FilterChain
  | [] => []
  | tree :: rest => chainsBelow [] tree ++ chainsOfAll rest

end

def chains (tree : PlanTree) : List FilterChain := tree.chainsBelow []

theorem chainsOfAll_eq_flatMap (trees : List PlanTree) :
    chainsOfAll trees = trees.flatMap chains := by
  induction trees with
  | nil => rfl
  | cons tree rest ih =>
      rw [chainsOfAll, ih, List.flatMap_cons]
      rfl

theorem chainsBelow_select (above : List (NodeId × SelectNode)) (id : NodeId)
    (select : SelectNode) (below : PlanTree) :
    (PlanTree.node id (.select select) [below]).chainsBelow above =
      below.chainsBelow ((id, select) :: above) := by
  rw [chainsBelow]

theorem chainsBelow_of_not_select {kind : NodeKind} (h : kind.isSelect = false)
    (above : List (NodeId × SelectNode)) (id : NodeId) (children : List PlanTree) :
    (PlanTree.node id kind children).chainsBelow above =
      ⟨id, kind, above, children.map fun child => child.beneath.id⟩ :: children.flatMap chains := by
  rw [chainsBelow, chainsOfAll_eq_flatMap]
  rintro select below rfl
  cases h

theorem chainsBelow_eq {tree : PlanTree} (shaped : tree.WellShaped)
    (above : List (NodeId × SelectNode)) :
    tree.chainsBelow above =
      ⟨tree.beneath.id, tree.beneath.kind, tree.filters.reverse ++ above, tree.beneath.inputs⟩ ::
        tree.beneath.children.flatMap chains := by
  induction tree generalizing above with
  | node id kind children ih =>
      cases hselect : kind.isSelect with
      | false =>
          have none : (PlanTree.node id kind children).filters = [] := filters_of_not_select hselect
          rw [chainsBelow_of_not_select hselect, beneath, descend_of_not_step hselect, none,
            List.reverse_nil, List.nil_append]
          rfl
      | true =>
          obtain ⟨select, rfl⟩ := NodeKind.exists_eq_select hselect
          obtain ⟨below, rfl⟩ := shaped.only_child
          have hbelow := (wellShaped_node.mp shaped).2 below List.mem_cons_self
          rw [chainsBelow_select, ih below List.mem_cons_self hbelow, beneath, beneath,
            descend_of_step hselect, filters, List.reverse_cons, List.append_assoc]
          rfl

/-! ## Filters in a context -/

/-- A context adds filters above what stands in the hole, and the chains beside the way. -/
theorem exists_chains_within {tree : PlanTree} {frames : List Frame}
    (shaped : (tree.within frames).WellShaped) :
    ∃ above before after, ∀ other : PlanTree, other.beneath.id = tree.beneath.id →
      (other.within frames).chains = before ++ other.chainsBelow above ++ after := by
  induction frames generalizing tree with
  | nil => exact ⟨[], [], [], fun other _ => by rw [within_nil, chains]; simp⟩
  | cons frame rest ih =>
      obtain ⟨above, before, after, outer⟩ := @ih (frame.fill tree) shaped
      have filled := shaped.of_mem (mem_subtrees_within_self (frame.fill tree) rest)
      obtain ⟨id, kind, left, right⟩ := frame
      cases hselect : kind.isSelect with
      | true =>
          obtain ⟨select, rfl⟩ := NodeKind.exists_eq_select hselect
          obtain ⟨below, hbelow⟩ := filled.only_child
          obtain ⟨rfl, rfl, rfl⟩ : left = [] ∧ tree = below ∧ right = [] := by
            simpa [List.append_eq_singleton_iff] using hbelow
          refine ⟨(id, select) :: above, before, after, fun other same => ?_⟩
          rw [within_cons, outer _ ?_, Frame.fill, List.nil_append, chainsBelow_select]
          · simpa [Frame.fill, beneath, descend_of_step hselect] using same
      | false =>
          refine ⟨[], before ++ ⟨id, kind, above,
              left.map (fun child => child.beneath.id) ++ tree.beneath.id ::
                right.map (fun child => child.beneath.id)⟩ :: left.flatMap chains,
            right.flatMap chains ++ after, fun other same => ?_⟩
          have stays (inner : PlanTree) :
              ((⟨id, kind, left, right⟩ : Frame).fill inner).beneath =
                (⟨id, kind, left, right⟩ : Frame).fill inner := descend_of_not_step hselect
          rw [within_cons, outer _ (by rw [stays, stays]; rfl), Frame.fill,
            chainsBelow_of_not_select hselect]
          simp [same, chains]

/-! ## The nodes of the chains -/

end PlanTree

namespace FilterChain

def entries (chain : FilterChain) : List (NodeId × NodeKind) :=
  chain.filters.reverse.map (fun filter => (filter.1, .select filter.2)) ++
    [(chain.bottom, chain.kind)]

def ids (chain : FilterChain) : List NodeId := chain.entries.map Prod.fst

theorem ids_eq (chain : FilterChain) :
    chain.ids = chain.filters.reverse.map Prod.fst ++ [chain.bottom] := by
  simp [ids, entries]

end FilterChain

namespace PlanTree

theorem kind_of_mem_chainsBelow {tree : PlanTree} (shaped : tree.WellShaped)
    {above : List (NodeId × SelectNode)} {chain : FilterChain}
    (member : chain ∈ tree.chainsBelow above) : chain.kind.isSelect = false := by
  induction tree generalizing above with
  | node id kind children ih =>
      have below := (wellShaped_node.mp shaped).2
      cases hselect : kind.isSelect with
      | false =>
          rw [chainsBelow_of_not_select hselect, List.mem_cons, List.mem_flatMap] at member
          rcases member with rfl | ⟨child, hchild, member⟩
          · exact hselect
          · exact ih child hchild (below child hchild) member
      | true =>
          obtain ⟨select, rfl⟩ := NodeKind.exists_eq_select hselect
          obtain ⟨child, rfl⟩ := shaped.only_child
          rw [chainsBelow_select] at member
          exact ih child List.mem_cons_self (below child List.mem_cons_self) member

theorem entries_chainsBelow {tree : PlanTree} (shaped : tree.WellShaped)
    (above : List (NodeId × SelectNode)) :
    (tree.chainsBelow above).flatMap FilterChain.entries =
      above.reverse.map (fun filter => (filter.1, .select filter.2)) ++
        tree.subtrees.map fun sub => (sub.id, sub.kind) := by
  induction tree generalizing above with
  | node id kind children ih =>
      have below := (wellShaped_node.mp shaped).2
      cases hselect : kind.isSelect with
      | false =>
          rw [chainsBelow_of_not_select hselect, List.flatMap_cons, List.flatMap_assoc,
            subtrees_node, List.map_cons, List.map_flatMap, FilterChain.entries, List.append_assoc]
          refine congrArg (_ ++ ·) (congrArg ((id, kind) :: ·) ?_)
          exact List.flatMap_congr fun child hchild => ih child hchild (below child hchild) []
      | true =>
          obtain ⟨select, rfl⟩ := NodeKind.exists_eq_select hselect
          obtain ⟨child, rfl⟩ := shaped.only_child
          rw [chainsBelow_select, ih child List.mem_cons_self (below child List.mem_cons_self)]
          simp

theorem id_mem_chain {tree : PlanTree} (shaped : tree.WellShaped)
    (above : List (NodeId × SelectNode)) :
    tree.id ∈ FilterChain.ids ⟨tree.beneath.id, tree.beneath.kind, tree.filters.reverse ++ above,
      tree.beneath.inputs⟩ := by
  obtain ⟨id, kind, children⟩ := tree
  rw [FilterChain.ids_eq, List.mem_append]
  cases hselect : kind.isSelect with
  | false =>
      rw [beneath, descend_of_not_step hselect]
      exact .inr List.mem_cons_self
  | true =>
      obtain ⟨select, rfl⟩ := NodeKind.exists_eq_select hselect
      obtain ⟨below, rfl⟩ := shaped.only_child
      exact .inl (by simp [filters])

theorem ids_chains {tree : PlanTree} (shaped : tree.WellShaped) :
    tree.chains.flatMap FilterChain.ids = tree.ids := by
  have entries := congrArg (List.map Prod.fst) (entries_chainsBelow shaped [])
  rw [List.map_flatMap, List.reverse_nil, List.map_nil, List.nil_append, List.map_map] at entries
  exact entries

end PlanTree

theorem append_cons_inj_of_mem {α β : Type} (pick : α → List β)
    {before before' after after' : List α} {value value' : α} {element : β}
    (same : before ++ value :: after = before' ++ value' :: after')
    (nodup : ((before ++ value :: after).flatMap pick).Nodup) (member : element ∈ pick value)
    (member' : element ∈ pick value') : before = before' ∧ value = value' ∧ after = after' := by
  induction before generalizing before' with
  | nil =>
      cases before' with
      | nil => simpa using same
      | cons first rest =>
          obtain ⟨rfl, rfl⟩ := List.cons.inj same
          rw [List.nil_append, List.flatMap_cons, List.nodup_append'] at nodup
          exact (nodup.2.2 member (List.mem_flatMap.mpr ⟨value', by simp, member'⟩)).elim
  | cons first rest ih =>
      rw [List.cons_append, List.flatMap_cons, List.nodup_append'] at nodup
      cases before' with
      | nil =>
          obtain ⟨rfl, rfl⟩ := List.cons.inj same
          exact (nodup.2.2 member' (List.mem_flatMap.mpr ⟨value, by simp, member⟩)).elim
      | cons first' rest' =>
          rw [List.cons_append, List.cons_append] at same
          obtain ⟨rfl, tails⟩ := List.cons.inj same
          obtain ⟨rfl, rfl, rfl⟩ := ih tails nodup.2.1
          exact ⟨rfl, rfl, rfl⟩

namespace Plan

/-- The plan holds a well-shaped tree, and these are its chains. -/
def Reads (plan : Plan) (chains : List FilterChain) : Prop :=
  ∃ tree, plan.Holds tree ∧ tree.WellShaped ∧ tree.chains = chains

def chains (plan : Plan) : List FilterChain := plan.tree.chains

variable {plan : Plan} {before after : List FilterChain} {chain : FilterChain} {id : NodeId}
  {kind : NodeKind}

theorem Accepted.reads (accepted : plan.Accepted) : plan.Reads plan.chains :=
  ⟨plan.tree, accepted.holds.1, accepted.holds.2, rfl⟩

theorem Reads.accepted {chains : List FilterChain} (reads : plan.Reads chains) : plan.Accepted := by
  obtain ⟨tree, holds, shaped, -⟩ := reads
  exact holds.accepted shaped

theorem Reads.chains_eq {chains : List FilterChain} (reads : plan.Reads chains) :
    plan.chains = chains := by
  obtain ⟨tree, holds, -, rfl⟩ := reads
  rw [Plan.chains, holds.tree_eq]

theorem Reads.nodup_ids {chains : List FilterChain} (reads : plan.Reads chains) :
    (chains.flatMap FilterChain.ids).Nodup := by
  obtain ⟨tree, holds, shaped, rfl⟩ := reads
  rw [PlanTree.ids_chains shaped]
  exact holds.nodup

/-- What is put in the place of a node that a chain lists gets the filters of that chain. -/
theorem Reads.exists_hole (reads : plan.Reads (before ++ chain :: after))
    (member : (id, kind) ∈ chain.entries) :
    ∃ children frames above rest,
      plan.Holds ((PlanTree.node id kind children).within frames) ∧
      ((PlanTree.node id kind children).within frames).WellShaped ∧
      (PlanTree.node id kind children).chainsBelow above ++ rest = chain :: after ∧
      ∀ other : PlanTree, other.beneath.id = (PlanTree.node id kind children).beneath.id →
        (other.within frames).chains = before ++ (other.chainsBelow above ++ rest) := by
  have unique := reads.nodup_ids
  obtain ⟨tree, holds, shaped, hchains⟩ := reads
  have listed : (id, kind) ∈ tree.chains.flatMap FilterChain.entries := by
    rw [hchains, List.mem_flatMap]
    exact ⟨chain, by simp, member⟩
  rw [PlanTree.chains, PlanTree.entries_chainsBelow shaped, List.reverse_nil, List.map_nil,
    List.nil_append] at listed
  obtain ⟨sub, hsub, entry⟩ := List.mem_map.mp listed
  obtain ⟨rfl, rfl⟩ := Prod.mk.inj entry
  obtain ⟨frames, rfl⟩ := PlanTree.exists_within_of_mem hsub
  obtain ⟨above, before', rest, outer⟩ := PlanTree.exists_chains_within shaped
  have inner := shaped.of_mem hsub
  have here := outer sub rfl
  rw [hchains, PlanTree.chainsBelow_eq inner, List.append_assoc, List.cons_append] at here
  obtain ⟨rfl, same, hafter⟩ := append_cons_inj_of_mem FilterChain.ids here unique
    (List.mem_map_of_mem member) (PlanTree.id_mem_chain inner above)
  refine ⟨sub.children, frames, above, rest, ?_, ?_, ?_, ?_⟩
  · rwa [sub.eta]
  · rwa [sub.eta]
  · rw [sub.eta, PlanTree.chainsBelow_eq inner, List.cons_append, ← same, ← hafter]
  · intro other same
    rw [outer other (by rw [same, sub.eta]), List.append_assoc]

/-! ## The filters of a chain -/

theorem Reads.nodup_filters (reads : plan.Reads (before ++ chain :: after)) :
    (chain.filters.map Prod.fst).Nodup := by
  have unique := (List.nodup_flatMap.mp reads.nodup_ids).1 chain (by simp)
  rw [FilterChain.ids_eq, List.map_reverse] at unique
  exact List.nodup_reverse.mp unique.of_append_left

section

variable {bottom : NodeId} {nearer upper : List (NodeId × SelectNode)} {select : SelectNode}
  {inputs : List NodeId}

theorem Reads.exists_filter (reads : plan.Reads
    (before ++ ⟨bottom, kind, nearer ++ (id, select) :: upper, inputs⟩ :: after)) :
    ∃ below frames, plan.Holds ((PlanTree.node id (.select select) [below]).within frames) ∧
      ((PlanTree.node id (.select select) [below]).within frames).WellShaped ∧
      below.beneath.id = bottom ∧ below.beneath.kind = kind ∧ below.filters.reverse = nearer ∧
      (below.within frames).chains =
        before ++ ⟨bottom, kind, nearer ++ upper, inputs⟩ :: after := by
  have unique := reads.nodup_filters
  have member : (id, .select select) ∈ FilterChain.entries
      ⟨bottom, kind, nearer ++ (id, select) :: upper, inputs⟩ := by simp [FilterChain.entries]
  obtain ⟨children, frames, above, rest, holds, shaped, here, outer⟩ := reads.exists_hole member
  have inner := shaped.of_mem (PlanTree.mem_subtrees_within_self _ frames)
  obtain ⟨below, rfl⟩ := inner.only_child
  have hbelow := (PlanTree.wellShaped_node.mp inner).2 below List.mem_cons_self
  rw [PlanTree.chainsBelow_select, PlanTree.chainsBelow_eq hbelow, List.cons_append] at here
  obtain ⟨first, rfl⟩ := List.cons.inj here
  obtain ⟨rfl, rfl, filters, rfl⟩ := FilterChain.mk.inj first
  obtain ⟨rfl, -, rfl⟩ := append_cons_inj_of_mem (fun filter => [filter.1]) filters.symm
    (by rwa [← List.map_eq_flatMap]) List.mem_cons_self List.mem_cons_self
  refine ⟨below, frames, holds, shaped, rfl, rfl, rfl, ?_⟩
  rw [outer below (by rw [PlanTree.beneath, PlanTree.beneath, PlanTree.descend_of_step rfl]),
    PlanTree.chainsBelow_eq hbelow, List.cons_append]

theorem Reads.select?_eq (reads : plan.Reads
    (before ++ ⟨bottom, kind, nearer ++ (id, select) :: upper, inputs⟩ :: after)) :
    plan.select? id = some select := by
  obtain ⟨below, frames, holds, -⟩ := reads.exists_filter
  exact holds.select?_eq (PlanTree.mem_subtrees_within_self (.node id _ _) frames)

theorem Reads.accessBelow?_eq (reads : plan.Reads
    (before ++ ⟨bottom, kind, nearer ++ (id, select) :: upper, inputs⟩ :: after)) :
    plan.accessBelow? id = if kind.access?.isSome then some bottom else none := by
  obtain ⟨below, frames, holds, -, rfl, rfl, -⟩ := reads.exists_filter
  exact holds.accessBelow?_eq (PlanTree.mem_subtrees_within_self (.node id _ _) frames)

theorem Reads.exists_spliceOut (reads : plan.Reads
    (before ++ ⟨bottom, kind, nearer ++ (id, select) :: upper, inputs⟩ :: after)) :
    ∃ rest top, Plan.spliceOut id plan = .ok top rest ∧
      rest.Reads (before ++ ⟨bottom, kind, nearer ++ upper, inputs⟩ :: after) := by
  obtain ⟨below, frames, holds, shaped, -, -, -, chains⟩ := reads.exists_filter
  have inner := shaped.of_mem (PlanTree.mem_subtrees_within_self _ frames)
  have hbelow := (PlanTree.wellShaped_node.mp inner).2 below List.mem_cons_self
  exact ⟨_, _, holds.spliceOut, _, holds.spliced, shaped.replace hbelow, chains⟩

end

/-! ## The last node of a chain -/

theorem Reads.exists_bottom (reads : plan.Reads (before ++ chain :: after)) :
    ∃ children frames,
      plan.Holds ((PlanTree.node chain.bottom chain.kind children).within frames) ∧
      ((PlanTree.node chain.bottom chain.kind children).within frames).WellShaped ∧
      ∀ new : NodeKind, new.isSelect = false →
        ((PlanTree.node chain.bottom new children).within frames).chains =
          before ++ { chain with kind := new } :: after := by
  have member : (chain.bottom, chain.kind) ∈ chain.entries := by simp [FilterChain.entries]
  obtain ⟨children, frames, above, rest, holds, shaped, here, outer⟩ := reads.exists_hole member
  have standing : chain.kind.isSelect = false := by
    obtain ⟨tree, -, shaped, hchains⟩ := reads
    have member : chain ∈ tree.chains := by simp [hchains]
    exact PlanTree.kind_of_mem_chainsBelow shaped member
  refine ⟨children, frames, holds, shaped, fun new standing' => ?_⟩
  rw [PlanTree.chainsBelow_of_not_select standing, List.cons_append] at here
  obtain ⟨first, hafter⟩ := List.cons.inj here
  rw [outer, PlanTree.chainsBelow_of_not_select standing', List.cons_append, ← hafter, ← first]
  have stays {kind : NodeKind} (standing : kind.isSelect = false) :
      (PlanTree.node chain.bottom kind children).beneath.id = chain.bottom := by
    rw [PlanTree.beneath, PlanTree.descend_of_not_step standing]
    rfl
  rw [stays standing, stays standing']

theorem Reads.access?_eq (reads : plan.Reads (before ++ chain :: after)) :
    plan.access? chain.bottom = chain.kind.access? := by
  obtain ⟨children, frames, holds, -⟩ := reads.exists_bottom
  exact holds.access?_eq (PlanTree.mem_subtrees_within_self (.node chain.bottom _ _) frames)

/-! ## All filters -/

theorem Reads.findAll_select {chains : List FilterChain} (reads : plan.Reads chains) :
    plan.findAll plan.root [.select] [] =
      chains.flatMap fun chain => chain.filters.reverse.map Prod.fst := by
  obtain ⟨tree, holds, shaped, rfl⟩ := reads
  have entries := PlanTree.entries_chainsBelow shaped []
  rw [List.reverse_nil, List.map_nil, List.nil_append] at entries
  have visited : tree.visit (fun kind => ([] : List NodeType).contains kind.nodeType) =
      tree.subtrees := rfl
  have filters := congrArg (fun nodes : List (NodeId × NodeKind) =>
    (nodes.filter fun node => [.select].contains node.2.nodeType).map Prod.fst) entries
  rw [List.filter_map, List.map_map] at filters
  rw [holds.findAll_root_eq, visited]
  refine filters.symm.trans ?_
  rw [List.filter_flatMap, List.map_flatMap]
  refine List.flatMap_congr fun chain member => ?_
  have standing :=
    NodeKind.isSelect_eq_false_iff.mp (PlanTree.kind_of_mem_chainsBelow shaped member)
  have filter (select : SelectNode) : (NodeKind.select select).nodeType = .select := rfl
  simp [FilterChain.entries, List.filter_map, Function.comp_def, filter, standing]

end Plan

end FederatedQuery
