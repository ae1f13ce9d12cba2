import FederatedQuery.Proofs.Plan.Linked

/-!
# The structural check on any arena

The check keeps a stack of links and a list of the nodes that it has seen.  Whatever links
an arena has, shared or in cycles, the check ends: a link either leads to a node that has
been seen, or it is traded for the links of a node whose links have not been followed.
So every node that is reached is entered once, with the faults of its own, and each further
link to it is a fault.  No fault is found exactly on the linked arenas whose nodes have as
many children as their kinds ask for.
-/

namespace FederatedQuery

namespace StructuralFault

def isShared : StructuralFault → Bool
  | .shared _ => true
  | _ => false

def node : StructuralFault → NodeId
  | .shared node | .brokenParentLink node _ _ | .wrongArity node _ _ _
  | .unpairedExprs node _ _ => node

/-- Whether the fault is in a node alone, and not in the links to it. -/
def isMisshape : StructuralFault → Bool
  | .wrongArity .. | .unpairedExprs .. => true
  | .shared _ | .brokenParentLink .. => false

end StructuralFault

namespace PlanNode

def misshapes (id : NodeId) (node : PlanNode) : List StructuralFault :=
  node.arityFaults id ++ node.pairingFaults id

variable {id : NodeId} {node : PlanNode} {fault : StructuralFault}

theorem mem_arityFaults : fault ∈ node.arityFaults id ↔
    ∃ expected, node.kind.nodeType.arity? = some expected ∧ node.children.length ≠ expected ∧
      fault = .wrongArity id node.kind.nodeType expected node.children.length := by
  rw [arityFaults]
  cases node.kind.nodeType.arity? with
  | none => simp
  | some expected => by_cases h : node.children.length = expected <;> simp [h]

theorem mem_pairingFaults : fault ∈ node.pairingFaults id ↔
    ∃ join, node.kind.join? = some join ∧ join.leftExprs.length ≠ join.rightExprs.length ∧
      fault = .unpairedExprs id join.leftExprs.length join.rightExprs.length := by
  rw [pairingFaults]
  cases node.kind.join? with
  | none => simp
  | some join => by_cases h : join.leftExprs.length = join.rightExprs.length <;> simp [h]

theorem of_mem_misshapes (member : fault ∈ node.misshapes id) :
    fault.isMisshape = true ∧ fault.isShared = false ∧ fault.node = id := by
  rcases List.mem_append.mp member with member | member
  · obtain ⟨_, -, -, rfl⟩ := mem_arityFaults.mp member
    exact ⟨rfl, rfl, rfl⟩
  · obtain ⟨_, -, -, rfl⟩ := mem_pairingFaults.mp member
    exact ⟨rfl, rfl, rfl⟩

theorem nodup_misshapes (id : NodeId) (node : PlanNode) : (node.misshapes id).Nodup := by
  have arity : (node.arityFaults id).Nodup := by
    rw [arityFaults]
    cases node.kind.nodeType.arity? with
    | none => exact List.nodup_nil
    | some expected => by_cases h : node.children.length = expected <;> simp [h]
  have pairing : (node.pairingFaults id).Nodup := by
    rw [pairingFaults]
    cases node.kind.join? with
    | none => exact List.nodup_nil
    | some join => by_cases h : join.leftExprs.length = join.rightExprs.length <;> simp [h]
  refine List.nodup_append'.mpr ⟨arity, pairing, fun fault inArity inPairing => ?_⟩
  obtain ⟨_, -, -, rfl⟩ := mem_arityFaults.mp inArity
  obtain ⟨_, -, -, same⟩ := mem_pairingFaults.mp inPairing
  cases same

theorem filter_isMisshape_faults (id : NodeId) (expected : Option NodeId) (node : PlanNode) :
    (node.faults id expected).filter (·.isMisshape) = node.misshapes id := by
  have own : (node.misshapes id).filter (·.isMisshape) = node.misshapes id :=
    List.filter_eq_self.mpr fun _ member => (of_mem_misshapes member).1
  rw [faults, List.append_assoc, ← misshapes, List.filter_append, own]
  split <;> rfl

theorem countP_isShared_faults (id : NodeId) (expected : Option NodeId) (node : PlanNode) :
    (node.faults id expected).countP (·.isShared) = 0 := by
  have own : (node.misshapes id).countP (·.isShared) = 0 :=
    List.countP_eq_zero.mpr fun _ member => by simp [(of_mem_misshapes member).2.1]
  rw [faults, List.append_assoc, ← misshapes, List.countP_append, own]
  split <;> rfl

end PlanNode

namespace Plan

/-- A run of the check that starts with nodes that have been seen and with links to follow,
told by the nodes that it enters, the first one first, and by the faults that it finds. -/
inductive Checks (plan : Plan) : List NodeId → List (NodeId × Option NodeId) → List NodeId →
    List StructuralFault → Prop
  | done {seen : List NodeId} : plan.Checks seen [] [] []
  | again {seen : List NodeId} {id : NodeId} {expected : Option NodeId}
      {pending : List (NodeId × Option NodeId)} {entered : List NodeId}
      {faults : List StructuralFault} (known : id ∈ seen)
      (rest : plan.Checks seen pending entered faults) :
      plan.Checks seen ((id, expected) :: pending) entered (.shared id :: faults)
  | enter {seen : List NodeId} {id : NodeId} {expected : Option NodeId}
      {pending : List (NodeId × Option NodeId)} {entered : List NodeId}
      {faults : List StructuralFault} {node : PlanNode} (fresh : id ∉ seen)
      (found : plan.node? id = some node)
      (rest : plan.Checks (id :: seen) (node.children.reverse.map (·, some id) ++ pending)
        entered faults) :
      plan.Checks seen ((id, expected) :: pending) (id :: entered)
        (node.faults id expected ++ faults)

/-- The faults that the nodes themselves give cause for. -/
inductive Warrants (plan : Plan) : StructuralFault → Prop
  | wrongArity {id : NodeId} {node : PlanNode} {expected : Nat} (reached : plan.Reached id)
      (found : plan.node? id = some node) (fixed : node.kind.nodeType.arity? = some expected)
      (wrong : node.children.length ≠ expected) :
      plan.Warrants (.wrongArity id node.kind.nodeType expected node.children.length)
  | unpairedExprs {id : NodeId} {node : PlanNode} {join : JoinNode} (reached : plan.Reached id)
      (found : plan.node? id = some node) (payload : node.kind.join? = some join)
      (unpaired : join.leftExprs.length ≠ join.rightExprs.length) :
      plan.Warrants (.unpairedExprs id join.leftExprs.length join.rightExprs.length)

/-- What the check comes to on any arena. -/
structure Diagnosed (plan : Plan) : Prop where
  ends : ∃ entered faults, plan.Checks [] [(plan.root, none)] entered faults
  finds : ∀ entered faults, plan.Checks [] [(plan.root, none)] entered faults →
    faults = plan.structuralFaults
  enters : ∀ entered faults, plan.Checks [] [(plan.root, none)] entered faults →
    entered.Nodup ∧ ∀ id, id ∈ entered ↔ plan.Reached id
  /-- The entries of the lists of children of the nodes that are reached, and one for the root,
  are as many as these nodes and the faults of sharing. -/
  shared : ∀ reachable : List NodeId, reachable.Nodup →
    (∀ id, id ∈ reachable ↔ plan.Reached id) →
      plan.structuralFaults.countP (·.isShared) + reachable.length =
        (reachable.flatMap plan.children).length + 1
  accepts : plan.isWellFormed = true ↔
    plan.Linked ∧ ∀ id node, plan.Reached id → plan.node? id = some node →
      node.kind.Fits node.children.length
  misshapen : ∀ fault ∈ plan.structuralFaults, fault.isMisshape = true → plan.Warrants fault
  once : ∀ fault, plan.Warrants fault → plan.structuralFaults.count fault = 1

def misshapes (plan : Plan) (id : NodeId) : List StructuralFault :=
  match plan.node? id with
  | some node => node.misshapes id
  | none => []

variable {plan : Plan} {seen entered : List NodeId} {pending : List (NodeId × Option NodeId)}
  {faults : List StructuralFault} {id : NodeId}

/-! ## The check ends -/

theorem exists_checks (inRange : ∀ id, plan.Reached id → id < plan.size) {steps : Nat}
    (seen : List NodeId) (reached : ∀ link ∈ pending, plan.Reached link.1)
    (enough : pending.length + plan.openLinks seen ≤ steps) :
    ∃ entered, plan.Checks seen pending entered (plan.faultsFrom steps seen pending) := by
  induction steps generalizing seen pending with
  | zero =>
      obtain rfl : pending = [] := List.eq_nil_of_length_eq_zero (by omega)
      exact ⟨[], .done⟩
  | succ steps ih =>
      cases pending with
      | nil => exact ⟨[], .done⟩
      | cons link pending =>
          obtain ⟨id, expected⟩ := link
          have hid : plan.Reached id := reached _ List.mem_cons_self
          have later : ∀ link ∈ pending, plan.Reached link.1 := fun link member =>
            reached link (List.mem_cons_of_mem _ member)
          rw [List.length_cons] at enough
          by_cases known : id ∈ seen
          · obtain ⟨entered, rest⟩ := ih seen later (by omega)
            refine ⟨entered, ?_⟩
            rw [faultsFrom, if_pos (List.contains_iff_mem.mpr known)]
            exact .again known rest
          · obtain ⟨node, found⟩ := exists_node?_of_lt (inRange id hid)
            have links := length_links_add_openLinks (inRange id hid) known found pending
            obtain ⟨entered, rest⟩ :=
              ih (id :: seen) (reached_links hid found later) (by omega)
            refine ⟨id :: entered, ?_⟩
            rw [faultsFrom, if_neg (mt List.contains_iff_mem.mp known), found]
            exact .enter known found rest

namespace Checks

theorem unique {entered' : List NodeId} {faults' : List StructuralFault}
    (first : plan.Checks seen pending entered faults)
    (second : plan.Checks seen pending entered' faults') :
    entered = entered' ∧ faults = faults' := by
  induction first generalizing entered' faults' with
  | done =>
      cases second
      exact ⟨rfl, rfl⟩
  | again known _ ih =>
      cases second with
      | again _ rest =>
          obtain ⟨rfl, rfl⟩ := ih rest
          exact ⟨rfl, rfl⟩
      | enter fresh => exact (fresh known).elim
  | enter fresh found _ ih =>
      cases second with
      | again known => exact (fresh known).elim
      | enter _ found' rest =>
          cases found.symm.trans found'
          obtain ⟨rfl, rfl⟩ := ih rest
          exact ⟨rfl, rfl⟩

/-! ## The nodes that are entered -/

theorem nodup_entered (checks : plan.Checks seen pending entered faults) :
    entered.Nodup ∧ ∀ id ∈ entered, id ∉ seen := by
  induction checks with
  | done => exact ⟨List.nodup_nil, by simp⟩
  | again _ _ ih => exact ih
  | enter fresh _ _ ih =>
      obtain ⟨nodup, unseen⟩ := ih
      refine ⟨List.nodup_cons.mpr ⟨fun member => unseen _ member List.mem_cons_self, nodup⟩, ?_⟩
      intro other member
      rcases List.mem_cons.mp member with rfl | member
      · exact fresh
      · exact fun old => unseen other member (List.mem_cons_of_mem _ old)

theorem reached_of_mem (checks : plan.Checks seen pending entered faults)
    (reached : ∀ link ∈ pending, plan.Reached link.1) : ∀ id ∈ entered, plan.Reached id := by
  induction checks with
  | done => simp
  | again _ _ ih => exact ih fun link member => reached link (List.mem_cons_of_mem _ member)
  | enter _ found _ ih =>
      have here := reached _ List.mem_cons_self
      have later := reached_links here found fun link member =>
        reached link (List.mem_cons_of_mem _ member)
      intro other member
      rcases List.mem_cons.mp member with rfl | member
      · exact here
      · exact ih later other member

theorem closed (checks : plan.Checks seen pending entered faults) :
    (∀ link ∈ pending, link.1 ∈ seen ∨ link.1 ∈ entered) ∧
      ∀ id ∈ entered, ∀ child ∈ plan.children id, child ∈ seen ∨ child ∈ entered := by
  induction checks with
  | done => simp
  | again known _ ih => exact ⟨List.forall_mem_cons.mpr ⟨.inl known, ih.1⟩, ih.2⟩
  | @enter seen id expected pending entered faults node fresh found _ ih =>
      have weaken {other : NodeId} (h : other ∈ id :: seen ∨ other ∈ entered) :
          other ∈ seen ∨ other ∈ id :: entered := by
        rw [List.mem_cons] at h ⊢
        tauto
      obtain ⟨links, below⟩ := ih
      refine ⟨List.forall_mem_cons.mpr ⟨.inr List.mem_cons_self, fun link member => ?_⟩,
        List.forall_mem_cons.mpr ⟨fun child member => ?_, fun other hother child member => ?_⟩⟩
      · exact weaken (links link (List.mem_append_right _ member))
      · rw [children_eq_of_node? found] at member
        have link := List.mem_map_of_mem (f := (·, some id)) (List.mem_reverse.mpr member)
        exact weaken (links _ (List.mem_append_left _ link))
      · exact weaken (below other hother child member)

theorem mem_entered_iff (checks : plan.Checks [] [(plan.root, none)] entered faults) :
    id ∈ entered ↔ plan.Reached id := by
  obtain ⟨links, below⟩ := checks.closed
  simp only [List.not_mem_nil, false_or] at links below
  refine ⟨fun member => checks.reached_of_mem (by simpa using .root) id member, fun reached => ?_⟩
  induction reached with
  | root => exact links _ List.mem_cons_self
  | child _ member ih => exact below _ ih _ member

/-! ## The faults that are found -/

theorem countP_isShared (checks : plan.Checks seen pending entered faults) :
    faults.countP (·.isShared) + entered.length =
      pending.length + (entered.flatMap plan.children).length := by
  induction checks with
  | done => rfl
  | again _ _ ih =>
      rw [List.countP_cons_of_pos rfl, List.length_cons]
      omega
  | @enter seen id expected pending entered faults node fresh found _ ih =>
      simp only [List.length_append, List.length_map, List.length_reverse] at ih
      rw [List.countP_append, PlanNode.countP_isShared_faults, List.flatMap_cons,
        children_eq_of_node? found, List.length_append, List.length_cons, List.length_cons]
      omega

theorem filter_isMisshape (checks : plan.Checks seen pending entered faults) :
    faults.filter (·.isMisshape) = entered.flatMap plan.misshapes := by
  induction checks with
  | done => rfl
  | again _ _ ih => rw [List.filter_cons_of_neg (by simp [StructuralFault.isMisshape]), ih]
  | enter _ found _ ih =>
      rw [List.filter_append, ih, List.flatMap_cons, misshapes, found,
        PlanNode.filter_isMisshape_faults]

end Checks

theorem node_of_mem_misshapes {fault : StructuralFault} (member : fault ∈ plan.misshapes id) :
    fault.node = id := by
  rw [misshapes] at member
  split at member
  · exact (PlanNode.of_mem_misshapes member).2.2
  · cases member

theorem mem_misshapes {fault : StructuralFault} (reached : plan.Reached id) :
    fault ∈ plan.misshapes id ↔ fault.node = id ∧ plan.Warrants fault := by
  constructor
  · intro member
    refine ⟨node_of_mem_misshapes member, ?_⟩
    cases found : plan.node? id with
    | none => simp [misshapes, found] at member
    | some node =>
        rw [misshapes, found] at member
        rcases List.mem_append.mp member with member | member
        · obtain ⟨expected, fixed, wrong, rfl⟩ := PlanNode.mem_arityFaults.mp member
          exact .wrongArity reached found fixed wrong
        · obtain ⟨join, payload, unpaired, rfl⟩ := PlanNode.mem_pairingFaults.mp member
          exact .unpairedExprs reached found payload unpaired
  · rintro ⟨rfl, warrants⟩
    cases warrants with
    | wrongArity _ found fixed wrong =>
        rw [StructuralFault.node, misshapes, found]
        exact List.mem_append_left _ (PlanNode.mem_arityFaults.mpr ⟨_, fixed, wrong, rfl⟩)
    | unpairedExprs _ found payload unpaired =>
        rw [StructuralFault.node, misshapes, found]
        exact List.mem_append_right _ (PlanNode.mem_pairingFaults.mpr ⟨_, payload, unpaired, rfl⟩)

theorem Warrants.reached {fault : StructuralFault} (warrants : plan.Warrants fault) :
    plan.Reached fault.node := by
  cases warrants <;> assumption

theorem Warrants.isMisshape {fault : StructuralFault} (warrants : plan.Warrants fault) :
    fault.isMisshape = true := by
  cases warrants <;> rfl

theorem nodup_flatMap_misshapes (nodup : entered.Nodup) :
    (entered.flatMap plan.misshapes).Nodup := by
  refine List.nodup_flatMap.mpr ⟨fun id _ => ?_, nodup.imp fun distinct fault first second =>
    distinct ((node_of_mem_misshapes first).symm.trans (node_of_mem_misshapes second))⟩
  rw [misshapes]
  split
  · exact PlanNode.nodup_misshapes _ _
  · exact List.nodup_nil

theorem isWellFormed_iff (inRange : ∀ id, plan.Reached id → id < plan.size) :
    plan.isWellFormed = true ↔
      plan.Linked ∧ ∀ id node, plan.Reached id → plan.node? id = some node →
        node.kind.Fits node.children.length := by
  constructor
  · intro wellFormed
    obtain ⟨holds, shaped⟩ := Accepted.holds ⟨inRange, wellFormed⟩
    refine ⟨linked_iff.mpr ⟨_, holds⟩, fun id node reached found => ?_⟩
    obtain ⟨sub, member, rfl, -⟩ := holds.exists_of_reached reached
    obtain ⟨parent, found'⟩ := holds.node?_of_mem member
    cases found.symm.trans found'
    rw [List.length_map]
    exact shaped sub member
  · rintro ⟨linked, fits⟩
    have holds := linked.holds
    refine (holds.accepted fun sub member => ?_).wellFormed
    obtain ⟨parent, found⟩ := holds.node?_of_mem member
    have fit := fits sub.id _ (holds.reached member) found
    rwa [List.length_map] at fit

/-- The check tells the truth about any arena whose links lead to nodes: it ends, it finds no
fault exactly if the arena is linked and its nodes are well-shaped, it finds each ill-shaped
node once, and one fault for every link too many. -/
theorem structuralFaults_diagnose (inRange : ∀ id, plan.Reached id → id < plan.size) :
    plan.Diagnosed := by
  obtain ⟨entered, checks⟩ : ∃ entered,
      plan.Checks [] [(plan.root, none)] entered plan.structuralFaults :=
    exists_checks inRange [] (by simpa using .root) (by rw [openLinks_nil]; simp [Nat.add_comm])
  have misshapes := checks.filter_isMisshape
  refine ⟨⟨_, _, checks⟩, fun _ _ other => (other.unique checks).2,
    fun _ _ other => ⟨other.nodup_entered.1, fun _ => other.mem_entered_iff⟩,
    fun reachable nodup each => ?_,
    isWellFormed_iff inRange, fun fault member misshape => ?_, fun fault warrants => ?_⟩
  · have same : reachable.Perm entered :=
      (List.perm_ext_iff_of_nodup nodup checks.nodup_entered.1).mpr fun id =>
        (each id).trans checks.mem_entered_iff.symm
    rw [same.length_eq, (same.flatMap_right _).length_eq, checks.countP_isShared,
      List.length_singleton, Nat.add_comm]
  · have found := List.mem_filter.mpr ⟨member, misshape⟩
    rw [misshapes, List.mem_flatMap] at found
    obtain ⟨id, hid, found⟩ := found
    exact ((mem_misshapes (checks.mem_entered_iff.mp hid)).mp found).2
  · rw [← List.count_filter (p := (·.isMisshape)) warrants.isMisshape, misshapes]
    refine List.count_eq_one_of_mem (nodup_flatMap_misshapes checks.nodup_entered.1) ?_
    have reached := warrants.reached
    exact List.mem_flatMap.mpr ⟨_, checks.mem_entered_iff.mpr reached,
      (mem_misshapes reached).mpr ⟨rfl, warrants⟩⟩

def entangled : Plan :=
  ⟨[⟨.join { joinType := .inner, leftExprs := [.literal .null] }, none, [1, 1, 0]⟩,
    ⟨.null, some 0, []⟩], 0⟩

theorem entangled_diagnosed :
    entangled.Diagnosed ∧ entangled.structuralFaults =
      [.wrongArity 0 .join 2 3, .unpairedExprs 0 1 0, .shared 0, .shared 1] :=
  ⟨structuralFaults_diagnose fun _ reached => reached.lt_size (by decide) (by decide), by decide⟩

end Plan

end FederatedQuery
