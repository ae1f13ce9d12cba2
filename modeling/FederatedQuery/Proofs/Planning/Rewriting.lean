import FederatedQuery.Proofs.Planning.Conversions

/-!
# Conversions, node by node

A conversion is told by the arena that it leaves: which nodes are new, what has become
of the join and of its dependent input, and that no other node has been written to.
-/

namespace FederatedQuery

theorem PlanNode.relinked_relinked {node : PlanNode} {base first : NodeId} (last : NodeId)
    (absent : first ∉ node.children) :
    (node.relinked base first).relinked first last = node.relinked base last := by
  have same : ∀ child ∈ node.children,
      (if (if child = base then first else child) = first then last
        else if child = base then first else child) = if child = base then last else child := by
    intro child member
    have : child ≠ first := fun h => absent (h ▸ member)
    grind
  simp only [PlanNode.relinked, Plan.replaceChild, List.map_map]
  exact congrArg (PlanNode.mk _ _) (List.map_congr_left same)

namespace Plan

/-- The position at a height of a chain of new nodes that stands on `base`. -/
def rung (plan : Plan) (base : NodeId) : Nat → NodeId
  | 0 => base
  | height + 1 => plan.size + height

/-- Filters have been put between a node and its parent, the first one nearest to the node,
and no other node has been written to. -/
structure Stacks (old new : Plan) (above base : NodeId) (criteria : List Criteria) : Prop where
  root : new.root = old.root
  size : new.size = old.size + criteria.length
  filter : ∀ {height criterion}, criteria[height]? = some criterion →
    new.node? (old.size + height) = some ⟨.select ⟨criterion, true⟩,
      some (if height + 1 = criteria.length then above else old.size + (height + 1)),
      [old.rung base height]⟩
  lower : new.node? base = (old.node? base).map fun node =>
    { node with parent := some (if criteria = [] then above else old.size) }
  upper : new.node? above =
    (old.node? above).map (PlanNode.relinked base (old.rung base criteria.length))
  others : ∀ {id}, id < old.size → id ≠ base → id ≠ above → new.node? id = old.node? id

theorem rung_succ {plan added : Plan} (size : added.size = plan.size + 1) (base : NodeId)
    (height : Nat) : added.rung plan.size height = plan.rung base (height + 1) := by
  cases height with
  | zero => rfl
  | succ height => rw [rung, rung, size, Nat.add_right_comm, Nat.add_assoc]

theorem Stacks.singleton {plan : Plan} {above base : NodeId} (criterion : Criteria)
    (parent : plan.parent? base = some above) (ne : above ≠ base) (inside : above < plan.size) :
    plan.Stacks (plan.addAsParent base (.select ⟨criterion, true⟩)).1 above base [criterion] := by
  have hbase := parent?_lt_size parent
  have ne_parent : some base ≠ plan.parent? base := by simpa [parent] using ne.symm
  refine ⟨?_, ?_, ?_, ?_, ?_, ?_⟩
  · rw [root_addAsParent, if_neg (by simp [parent])]
  · rw [size_addAsParent, List.length_singleton]
  · intro height other hother
    cases height with
    | zero =>
        cases hother
        rw [Nat.add_zero, node?_addAsParent_new _ (Nat.ne_of_gt hbase)
          (by simpa [parent] using Nat.ne_of_gt inside), parent]
        rfl
    | succ height => cases hother
  · rw [node?_addAsParent_child _ (Nat.ne_of_lt hbase) ne_parent]
    rfl
  · rw [node?_addAsParent _ ne (Nat.ne_of_lt inside), parent, if_pos rfl]
    rfl
  · intro id hid ne_base ne_above
    rw [node?_addAsParent _ ne_base (Nat.ne_of_lt hid), parent, if_neg (by simpa using ne_above)]

theorem Stacks.cons {plan added new : Plan} {above base : NodeId} {criterion : Criteria}
    {criteria : List Criteria} (first : plan.Stacks added above base [criterion])
    (rest : added.Stacks new above plan.size criteria) (hbase : base < plan.size)
    (ne : above ≠ base) (inRange : ∀ child ∈ plan.children above, child < plan.size) :
    plan.Stacks new above base (criterion :: criteria) := by
  have size : added.size = plan.size + 1 := first.size
  have later {id : NodeId} (inside : id < plan.size) : id < added.size :=
    size ▸ Nat.lt_succ_of_lt inside
  refine ⟨rest.root.trans first.root, ?_, ?_, ?_, ?_, ?_⟩
  · rw [rest.size, size, List.length_cons]
    omega
  · intro height other hother
    cases height with
    | zero =>
        cases hother
        have lowest := first.filter (show [criterion][0]? = some criterion from rfl)
        rw [Nat.add_zero] at lowest
        rw [Nat.add_zero, rest.lower, lowest, size]
        cases criteria <;> simp [rung]
    | succ height =>
        have filter := rest.filter hother
        rw [rung_succ size base, size, Nat.add_right_comm, Nat.add_assoc,
          Nat.add_right_comm, Nat.add_assoc] at filter
        simpa only [List.length_cons, Nat.add_right_cancel_iff] using filter
  · rw [rest.others (later hbase) (Nat.ne_of_lt hbase) ne.symm, first.lower]
    rfl
  · rw [rest.upper, first.upper]
    cases found : plan.node? above with
    | none => rfl
    | some node =>
        rw [children_eq_of_node? found] at inRange
        rw [Option.map_some, Option.map_some, rung_succ size base]
        exact congrArg some
          (PlanNode.relinked_relinked _ fun member => Nat.lt_irrefl _ (inRange _ member))
  · intro id hid ne_base ne_above
    rw [rest.others (later hid) (Nat.ne_of_lt hid) ne_above, first.others hid ne_base ne_above]

theorem stacks_stackFilters {plan : Plan} {above base : NodeId} (criteria : List Criteria)
    (parent : plan.parent? base = some above) (ne : above ≠ base)
    (inRange : ∀ child ∈ plan.children above, child < plan.size) (inside : above < plan.size) :
    plan.Stacks (ChooseDependent.stackFilters plan base criteria) above base criteria := by
  induction criteria generalizing plan base with
  | nil =>
      refine ⟨rfl, rfl, nofun, ?_, ?_, fun _ _ _ => rfl⟩
      · rw [ChooseDependent.stackFilters, if_pos rfl, ← parent, parent?]
        cases plan.node? base <;> rfl
      · simp [ChooseDependent.stackFilters, rung]
  | cons criterion rest ih =>
      have first := Stacks.singleton criterion parent ne inside
      refine first.cons (ih ?_ (Nat.ne_of_lt inside) ?_ ?_) (parent?_lt_size parent) ne inRange
      · have lowest := first.filter (show [criterion][0]? = some criterion from rfl)
        rw [Nat.add_zero] at lowest
        rw [parent?, lowest]
        rfl
      · obtain ⟨node, found⟩ := exists_node?_of_lt inside
        rw [children_eq_of_node? found] at inRange
        have upper := first.upper
        rw [found, Option.map_some] at upper
        rw [children_eq_of_node? upper, first.size]
        intro child member
        obtain ⟨old, hold, rfl⟩ := List.mem_map.mp member
        split
        · exact Nat.lt_succ_self _
        · exact Nat.lt_succ_of_lt (inRange old hold)
      · rw [first.size]
        exact Nat.lt_succ_of_lt inside

/-- What is left of a plan when one input of a join has been made dependent on the values
of the other: the pairs of expressions become filters, one above the other, from the
dependent input upwards.  The join has the last of them as its right input. -/
structure Rewritten (old new : Plan) (id : NodeId) (join : JoinNode) (side : Side)
    (left right : NodeId) (source : String) : Prop where
  root : new.root = old.root
  size : new.size = old.size + join.leftExprs.length
  joined : new.node? id = (old.node? id).map fun node => { node with
    kind := .join { join with
      joinType := side.pick join.joinType.mirrored join.joinType
      leftExprs := side.opposite.pick join.leftExprs join.rightExprs
      rightExprs := side.pick join.leftExprs join.rightExprs
      valueSource := some source }
    children := [side.opposite.pick left right, old.size + (join.leftExprs.length - 1)] }
  filter : ∀ {height expr valueExpr},
    (side.pick join.leftExprs join.rightExprs)[height]? = some expr →
      (side.opposite.pick join.leftExprs join.rightExprs)[height]? = some valueExpr →
        new.node? (old.size + height) = some ⟨.select ⟨.dependentSet expr source valueExpr, true⟩,
          some (if height + 1 = join.leftExprs.length then id else old.size + (height + 1)),
          [if height = 0 then side.pick left right else old.size + (height - 1)]⟩
  dependent : new.node? (side.pick left right) = (old.node? (side.pick left right)).map
    fun node => { node with parent := some old.size }
  others : ∀ {other}, other < old.size → other ≠ id → other ≠ side.pick left right →
    new.node? other = old.node? other

theorem Accepted.exists_inputs {plan : Plan} {id : NodeId} {join : JoinNode}
    (accepted : plan.Accepted) (reached : plan.Reached id) (hjoin : plan.join? id = some join) :
    ∃ left right frames,
      plan.Holds ((PlanTree.node id (.join join) [left, right]).within frames) ∧
        join.leftExprs.length = join.rightExprs.length := by
  obtain ⟨holds, shaped⟩ := accepted.holds
  obtain ⟨sub, hsub, rfl⟩ := List.mem_map.mp (holds.mem_ids_of_reached reached)
  have hkind : sub.kind.join? = some join := (holds.join?_eq hsub).symm.trans hjoin
  obtain ⟨id, payload, left, right, rfl, paired⟩ :=
    (shaped.of_mem hsub).exists_inputs (Option.isSome_of_eq_some hkind)
  cases hkind
  obtain ⟨frames, hframes⟩ := PlanTree.exists_within_of_mem hsub
  exact ⟨left, right, frames, hframes ▸ holds, paired⟩

end Plan

namespace ChooseDependent

variable {start : Session} {plan attached new : Plan} {id left right : NodeId} {join : JoinNode}
  {above : Option NodeId} {side : Side} {source : String}

theorem length_pick (paired : join.leftExprs.length = join.rightExprs.length) (side : Side) :
    (side.pick join.leftExprs join.rightExprs).length = join.leftExprs.length := by
  cases side
  · rfl
  · exact paired.symm

theorem length_dependentSets_pick (paired : join.leftExprs.length = join.rightExprs.length)
    (side : Side) (source : String) :
    (dependentSets source (side.pick join.leftExprs join.rightExprs)
      (side.opposite.pick join.leftExprs join.rightExprs)).length = join.leftExprs.length := by
  rw [dependentSets, List.length_map, List.length_zip, length_pick paired, length_pick paired,
    Nat.min_self]

theorem stacks_attachFilters (found : plan.node? id = some ⟨.join join, above, [left, right]⟩)
    (linked : ∀ child ∈ [left, right], plan.parent? child = some id)
    (apart : ∀ child ∈ [left, right], id ≠ child) (side : Side) (source : String)
    (dependent independent : List Expr) :
    (plan.setKind id (.join { join with valueSource := some source })).Stacks
      (attachFilters plan id join (side.pick left right) source dependent independent) id
      (side.pick left right) (dependentSets source dependent independent) := by
  have member : side.pick left right ∈ [left, right] := by cases side <;> simp [Side.pick]
  refine Plan.stacks_stackFilters _ ?_ (apart _ member) ?_ ?_
  · rw [Plan.parent?_setKind, linked _ member]
  · have marked : (plan.setKind id (.join { join with valueSource := some source })).node? id =
        some ⟨.join { join with valueSource := some source }, above, [left, right]⟩ := by
      rw [Plan.setKind, Plan.node?_modify, if_pos rfl, found]
      rfl
    rw [Plan.children_eq_of_node? marked, Plan.size_setKind]
    exact fun child hchild => Plan.parent?_lt_size (linked child hchild)
  · rw [Plan.size_setKind]
    exact Plan.node?_lt_size found

theorem rewritten_of_stacks (found : plan.node? id = some ⟨.join join, above, [left, right]⟩)
    (paired : join.leftExprs.length = join.rightExprs.length) (equalities : join.leftExprs ≠ [])
    (apart : ∀ child ∈ [left, right], id ≠ child)
    (chain : (plan.setKind id (.join { join with valueSource := some source })).Stacks attached id
      (side.pick left right) (dependentSets source (side.pick join.leftExprs join.rightExprs)
        (side.opposite.pick join.leftExprs join.rightExprs)))
    (root : new.root = attached.root) (size : new.size = attached.size)
    (nodes : ∀ other, other ≠ id → new.node? other = attached.node? other)
    (joined : new.node? id = some ⟨.join { join with
        joinType := side.pick join.joinType.mirrored join.joinType
        leftExprs := side.opposite.pick join.leftExprs join.rightExprs
        rightExprs := side.pick join.leftExprs join.rightExprs
        valueSource := some source }, above,
      [side.opposite.pick left right, plan.size + (join.leftExprs.length - 1)]⟩) :
    plan.Rewritten new id join side left right source := by
  have length := length_dependentSets_pick paired side source
  have fresh (height : Nat) : plan.size + height ≠ id :=
    Nat.ne_of_gt (Nat.lt_add_right height (Plan.node?_lt_size found))
  have dependent_ne : side.pick left right ≠ id := by
    cases side
    · exact (apart left List.mem_cons_self).symm
    · exact (apart right (List.mem_cons_of_mem _ List.mem_cons_self)).symm
  refine ⟨root.trans chain.root, ?_, joined.trans (by rw [found]; rfl), ?_, ?_, ?_⟩
  · rw [size, chain.size, Plan.size_setKind, length]
  · intro height expr valueExpr hexpr hvalue
    have filter := chain.filter (show (dependentSets source _ _)[height]? =
      some (.dependentSet expr source valueExpr) by
        simp [dependentSets, List.getElem?_zip_eq_some, hexpr, hvalue])
    rw [length, Plan.size_setKind] at filter
    rw [nodes _ (fresh height), filter]
    cases height <;> simp [Plan.rung]
  · have no_sets : dependentSets source (side.pick join.leftExprs join.rightExprs)
        (side.opposite.pick join.leftExprs join.rightExprs) ≠ [] := by
      rwa [← List.length_pos_iff, length, List.length_pos_iff]
    rw [nodes _ dependent_ne, chain.lower, if_neg no_sets, Plan.size_setKind, Plan.setKind,
      Plan.node?_modify, if_neg dependent_ne]
  · intro other inside ne_id ne_dependent
    rw [nodes _ ne_id, chain.others (by rwa [Plan.size_setKind]) ne_dependent ne_id, Plan.setKind,
      Plan.node?_modify, if_neg ne_id]

theorem exists_rewritten (found : plan.node? id = some ⟨.join join, above, [left, right]⟩)
    (linked : ∀ child ∈ [left, right], plan.parent? child = some id)
    (apart : ∀ child ∈ [left, right], id ≠ child) (ne : left ≠ right)
    (paired : join.leftExprs.length = join.rightExprs.length) (equalities : join.leftExprs ≠ [])
    (side : Side) (source : String)
    (attach : attachFilters plan id join (side.pick left right) source
      (side.pick join.leftExprs join.rightExprs)
      (side.opposite.pick join.leftExprs join.rightExprs) = attached) :
    ∃ new, side.pick (Plan.swapJoinChildren id attached) (.ok () attached) = .ok () new ∧
      plan.Rewritten new id join side left right source := by
  have chain := stacks_attachFilters found linked apart side source
    (side.pick join.leftExprs join.rightExprs) (side.opposite.pick join.leftExprs join.rightExprs)
  obtain ⟨count, hcount⟩ := Nat.exists_eq_add_of_lt (List.length_pos_iff.mpr equalities)
  rw [Nat.zero_add] at hcount
  have length := length_dependentSets_pick paired side source
  have upper := chain.upper
  rw [attach] at chain upper
  rw [length, hcount, Plan.rung, Plan.size_setKind, Plan.setKind, Plan.node?_modify, if_pos rfl,
    found] at upper
  have relinked (top : NodeId) : Plan.replaceChild (side.pick left right) top [left, right] =
      side.pick [top, right] [left, top] := by
    cases side <;> simp [Plan.replaceChild, Side.pick, ne, ne.symm]
  simp only [Option.map_some, PlanNode.relinked, relinked] at upper
  cases side with
  | right =>
      refine ⟨attached, rfl, rewritten_of_stacks found paired equalities apart chain rfl rfl
        (fun _ _ => rfl) ?_⟩
      rw [upper, hcount]
      rfl
  | left =>
      have hjoin : attached.join? id = some { join with valueSource := some source } := by
        rw [Plan.join?, Plan.kind?, upper]
        rfl
      refine ⟨_, Plan.swapJoinChildren_eq (Plan.children_eq_of_node? upper) hjoin,
        rewritten_of_stacks found paired equalities apart chain rfl (Plan.size_modify _ _ _)
          (fun other ne_id => ?_) ?_⟩
      · rw [Plan.reordered, Plan.node?_modify, if_neg ne_id]
      · rw [Plan.reordered, Plan.node?_modify, if_pos rfl, upper, hcount]
        rfl

theorem convert_succeeds {left right : PlanTree} {frames : List Frame}
    (holds : start.plan.Holds ((PlanTree.node id (.join join) [left, right]).within frames))
    (paired : join.leftExprs.length = join.rightExprs.length) (equalities : join.leftExprs ≠ [])
    (side : Side) :
    ∃ final, convert id (side.pick left.id right.id) start = .ok true final ∧
      final.nextValueSource = start.nextValueSource + 1 ∧
      start.plan.Rewritten final.plan id join side left.id right.id
        (valueSourceName start.nextValueSource) ∧
      final.plan.Holds ((Conversion.apply ⟨side, start.nextValueSource, start.plan.size⟩ id join
        left right).within frames) := by
  have member := PlanTree.mem_subtrees_within_self (.node id (.join join) [left, right]) frames
  obtain ⟨found, below, inner, -⟩ := holds.hole
  have ne := input_ids_ne holds member
  have children {child : NodeId} (hchild : child ∈ [left.id, right.id]) :
      start.plan.parent? child = some id ∧ id ≠ child := by
    obtain ⟨tree, htree, rfl⟩ := List.mem_map.mp (show child ∈ [left, right].map _ from hchild)
    refine ⟨?_, fun same => inner tree htree (same ▸ tree.id_mem_ids)⟩
    rw [Plan.parent?, (below tree htree).node?_id]
    rfl
  obtain ⟨new, exchange, rewritten⟩ := exists_rewritten found (fun _ h => (children h).1)
    (fun _ h => (children h).2) ne paired equalities side
    (valueSourceName start.nextValueSource) rfl
  have others : side.opposite.pick join.leftExprs join.rightExprs ≠ [] := by
    rwa [← List.length_pos_iff, length_pick paired, List.length_pos_iff]
  obtain ⟨result, final, h⟩ :=
    Planning.exists_endsWith (convert id (side.pick left.id right.id)) start
  obtain ⟨rfl, report, rfl⟩ := convert_attaches (holds.join?_eq member) (holds.children_eq member)
    ne side others rfl exchange h
  exact ⟨_, h, rfl, rewritten, (convert_ends holds paired equalities h).2.2.2⟩

theorem convert_eq_false (hjoin : start.plan.join? id = some join)
    (inputs : start.plan.children id = [left, right]) (ne : left ≠ right) (side : Side)
    (none : side.opposite.pick join.leftExprs join.rightExprs = []) :
    convert id (side.pick left right) start = .ok false start := by
  have hfirst : start.plan.firstChild? id = some left := by
    rw [Plan.firstChild?, inputs]
    rfl
  obtain ⟨result, final, h⟩ := Planning.exists_endsWith (convert id (side.pick left right)) start
  have ends := h
  rw [convert] at h
  replace h := h.of_bind (show Planning.plan start = .ok start.plan start from rfl)
  simp only [hjoin, hfirst] at h
  have empty : (Planning.EndsWith (pure false) start result final) := by
    cases side with
    | right =>
        have hside : (some left == some right) = false := by simpa using ne
        simp only [Side.pick, Side.opposite] at none
        simpa only [Side.pick, hside, Bool.false_eq_true, if_false, none, List.isEmpty_nil,
          if_true] using h
    | left =>
        simp only [Side.pick, Side.opposite] at none
        simpa only [Side.pick, beq_self_eq_true, none, List.isEmpty_nil, if_true] using h
  obtain ⟨rfl, rfl⟩ := Planning.endsWith_pure_iff.mp empty
  exact ends

/-- With pairs of expressions a conversion rewrites the plan around the join, and only there;
without a pair it leaves everything as it is. -/
theorem convert_rewrites (accepted : start.plan.Accepted) (reached : start.plan.Reached id)
    (hjoin : start.plan.join? id = some join) (inputs : start.plan.children id = [left, right])
    (side : Side) :
    (join.leftExprs ≠ [] → ∃ final, convert id (side.pick left right) start = .ok true final ∧
      final.nextValueSource = start.nextValueSource + 1 ∧
      start.plan.Rewritten final.plan id join side left right
        (valueSourceName start.nextValueSource) ∧
      ∀ {leftTree rightTree frames}, start.plan.Holds
          ((PlanTree.node id (.join join) [leftTree, rightTree]).within frames) →
        final.plan.Holds ((Conversion.apply ⟨side, start.nextValueSource, start.plan.size⟩ id join
          leftTree rightTree).within frames)) ∧
    (side.opposite.pick join.leftExprs join.rightExprs = [] →
      convert id (side.pick left right) start = .ok false start) := by
  obtain ⟨leftTree, rightTree, frames, holds, paired⟩ := accepted.exists_inputs reached hjoin
  have member := PlanTree.mem_subtrees_within_self (.node id (.join join) [leftTree, rightTree])
    frames
  cases inputs.symm.trans (holds.children_eq member)
  constructor
  · intro equalities
    obtain ⟨final, h, next, rewritten, -⟩ := convert_succeeds holds paired equalities side
    refine ⟨final, h, next, rewritten, fun {first second outer} other => ?_⟩
    have inputs' : start.plan.children id = [first.id, second.id] :=
      other.children_eq
        (PlanTree.mem_subtrees_within_self (.node id (.join join) [first, second]) _)
    obtain ⟨hleft, hright⟩ : leftTree.id = first.id ∧ rightTree.id = second.id := by
      simpa using inputs.symm.trans inputs'
    rw [hleft, hright] at h
    exact (convert_ends other paired equalities
      (show Planning.EndsWith _ _ (.ok true) _ from h)).2.2.2
  · exact convert_eq_false hjoin inputs (input_ids_ne holds member) side

def twoPairs : JoinNode :=
  let column (group name : String) : Expr := .column ⟨.named group, name, .int64⟩
  { joinType := .rightOuter, strategy := .merge
    criteria := [.eq (column "pm1.g1" "id") (column "pm2.g1" "id"),
      .eq (column "pm1.g1" "kind") (column "pm2.g1" "kind")]
    leftExprs := [column "pm1.g1" "id", column "pm1.g1" "kind"]
    rightExprs := [column "pm2.g1" "id", column "pm2.g1" "kind"] }

def pairsInProduct : Plan :=
  ⟨[⟨.join { joinType := .cross }, none, [1, 4]⟩, ⟨.join twoPairs, some 0, [2, 3]⟩,
    ⟨.access { group := .named "pm1.g1" }, some 1, []⟩,
    ⟨.access { group := .named "pm2.g1" }, some 1, []⟩,
    ⟨.access { group := .named "pm3.g1" }, some 0, []⟩], 0⟩

theorem pairsInProduct_rewritten :
    (∃ final, convert 1 2 (.start pairsInProduct .empty 7) = .ok true final ∧
      final.nextValueSource = 8 ∧
      pairsInProduct.Rewritten final.plan 1 twoPairs .left 2 3 (valueSourceName 7)) ∧
    convert 0 4 (.start pairsInProduct .empty 7) =
      .ok false (.start pairsInProduct .empty 7) := by
  have accepted : (Session.start pairsInProduct .empty 7).plan.Accepted :=
    .of_links (by decide) (by decide) (by decide)
  obtain ⟨converts, -⟩ := @convert_rewrites (.start pairsInProduct .empty 7) 1 2 3 twoPairs accepted
    (.child .root (by decide)) rfl rfl .left
  obtain ⟨final, h, next, rewritten, -⟩ := converts (by simp [twoPairs])
  obtain ⟨-, leaves⟩ := @convert_rewrites (.start pairsInProduct .empty 7) 0 1 4 _ accepted .root
    rfl rfl .right
  exact ⟨⟨final, h, next, rewritten⟩, leaves rfl⟩

end ChooseDependent

end FederatedQuery
