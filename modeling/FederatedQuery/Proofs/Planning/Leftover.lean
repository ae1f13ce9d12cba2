import FederatedQuery.Proofs.Planning.Settling

/-!
# Candidates that were left

A conversion takes its join out of the candidates and brings no other join in.  So
the candidates of a plan on which the rule has run are those that it left.
-/

namespace FederatedQuery

namespace PlanTree

variable {outcomes : NodeId → Outcome}

/-! ## Candidates of rebuilt trees -/

theorem candidate_of_not_join {id : NodeId} {kind : NodeKind} {children : List PlanTree}
    (h : kind.join? = none) :
    (PlanTree.node id kind children).candidate = ⟨id, false, false⟩ := by
  cases kind <;> first | rfl | cases h

theorem candidates_node (id : NodeId) (kind : NodeKind) (children : List PlanTree) :
    (PlanTree.node id kind children).candidates =
      [(PlanTree.node id kind children).candidate].filter CandidateJoin.isEligible ++
        if isAccess kind then [] else children.flatMap candidates := by
  have below : ((if isAccess kind then [] else children.flatMap joins).map candidate).filter
      CandidateJoin.isEligible = if isAccess kind then [] else children.flatMap candidates := by
    cases isAccess kind with
    | true => rfl
    | false =>
        simp only [Bool.false_eq_true, if_false, List.map_flatMap, List.filter_flatMap]
        rfl
  rw [candidates, joins_node, List.map_append, List.filter_append, below]
  cases hjoin : kind.join? with
  | some join => rfl
  | none =>
      rw [candidate_of_not_join hjoin]
      rfl

theorem candidates_eq_nil_of_mayDepend {tree : PlanTree} (shaped : tree.WellShaped)
    (h : tree.mayDepend = true) : tree.candidates = [] := by
  induction tree with
  | node id kind children ih =>
      obtain ⟨fits, below⟩ := wellShaped_node.mp shaped
      rw [candidates_node]
      cases htransparent : kind.isTransparent with
      | true =>
          have hjoin : kind.join? = none := by
            cases kind <;> first | rfl | cases htransparent
          have harity : kind.nodeType.arity? = some 1 := by
            cases kind <;> first | rfl | cases htransparent
          obtain ⟨child, rfl⟩ := List.length_eq_one_iff.mp (fits.arity 1 harity)
          have hchild : child.mayDepend = true := by
            rw [mayDepend, source, descend_of_step htransparent] at h
            exact h
          rw [candidate_of_not_join hjoin, List.flatMap_singleton,
            ih child List.mem_cons_self (below child List.mem_cons_self) hchild]
          cases isAccess kind <;> rfl
      | false =>
          have hsource : (PlanTree.node id kind children).source = .node id kind children :=
            descend_of_not_step htransparent
          rw [mayDepend, hsource, kind_node] at h
          cases kind <;> first | rfl | cases h

theorem candidates_stacked (first : NodeId) (tree : PlanTree) (criteria : List Criteria) :
    (tree.stacked first criteria).candidates = tree.candidates := by
  induction criteria generalizing first tree with
  | nil => rfl
  | cons criterion rest ih =>
      rw [stacked, ih, candidates_node, candidate_of_not_join rfl]
      exact List.append_nil _

theorem mayDepend_rebuild (tree : PlanTree) :
    (tree.rebuild outcomes).mayDepend = tree.mayDepend := by
  rw [mayDepend, mayDepend, source_rebuild, access?_rebuild]

theorem candidate_priced (id : NodeId) (join : JoinNode) (costs : Option (Float × Float))
    (left right : PlanTree) :
    (PlanTree.node id (.join (join.priced costs))
        [left.rebuild outcomes, right.rebuild outcomes]).candidate =
      (PlanTree.node id (.join join) [left, right]).candidate := by
  simp only [candidate, JoinNode.admits, mayDepend_rebuild]
  cases costs <;> rfl

theorem not_isEligible_of_fed {id : NodeId} {join : JoinNode} {left right : PlanTree}
    (fed : join.valueSource.isSome = true) :
    (PlanTree.node id (.join join) [left, right]).candidate.isEligible = false := by
  have none (side : Side) (input : PlanTree) : join.admits side input = false := by
    obtain ⟨source, hsource⟩ := Option.isSome_iff_exists.mp fed
    simp [JoinNode.admits, JoinNode.allows, hsource]
  simp [candidate, CandidateJoin.isEligible, none]

theorem candidates_join (id : NodeId) (join : JoinNode) (left right : PlanTree) :
    (PlanTree.node id (.join join) [left, right]).candidates =
      [(PlanTree.node id (.join join) [left, right]).candidate].filter CandidateJoin.isEligible ++
        (left.candidates ++ right.candidates) := by
  rw [candidates_node, List.flatMap_cons, List.flatMap_singleton]
  rfl

theorem candidates_apply {conversion : Conversion} {left right : PlanTree}
    (empty : conversion.side = .left → left.candidates = [])
    (costs : Option (Float × Float)) (id : NodeId) (join : JoinNode) :
    (Outcome.apply ⟨costs, some conversion⟩ id join left right).candidates =
      left.candidates ++ right.candidates := by
  have alone {payload : JoinNode} (fed : payload.valueSource.isSome = true)
      (first second : PlanTree) :
      (PlanTree.node id (.join payload) [first, second]).candidates =
        first.candidates ++ second.candidates := by
    rw [candidates_join, List.filter_cons_of_neg]
    · rfl
    · rw [not_isEligible_of_fed fed]
      simp
  obtain ⟨side, number, firstFilter⟩ := conversion
  cases side with
  | right => rw [Outcome.apply_right, alone rfl, candidates_stacked]
  | left =>
      rw [Outcome.apply_left, alone rfl, candidates_stacked, empty rfl, List.append_nil]
      rfl

/-- The candidates of a rebuilt tree are the old ones that were not converted. -/
theorem candidates_rebuild {tree : PlanTree} {first last : Nat} (shaped : tree.WellShaped)
    (sound : tree.Sound outcomes first last) :
    ∀ sub ∈ tree.subtrees, (sub.rebuild outcomes).candidates =
      sub.candidates.filter fun candidate => (outcomes candidate.join).conversion.isNone := by
  intro sub member
  induction sub with
  | node id kind children ih =>
      have below := fun child hchild => ih child hchild (child_mem_subtrees member hchild)
      cases hjoin : kind.join? with
      | none =>
          rw [rebuild_of_not_join hjoin, candidates_node, candidates_node,
            candidate_of_not_join hjoin, candidate_of_not_join hjoin]
          cases isAccess kind with
          | true => rfl
          | false =>
              simp only [Bool.false_eq_true, if_false, List.flatMap_map, List.filter_append,
                List.filter_flatMap]
              congr 1
              exact List.flatMap_congr below
      | some payload =>
          obtain ⟨_, payload, left, right, hnode, -⟩ := (shaped.of_mem member).exists_inputs
            (Option.isSome_iff_exists.mpr ⟨payload, hjoin⟩)
          cases hnode
          have hleft := below left (by simp)
          have hright := below right (by simp)
          have hcandidate : (PlanTree.node id (.join payload) [left, right]).candidate.join = id :=
            join_candidate _
          obtain ⟨⟨costs, conversion⟩, houtcome⟩ : ∃ outcome, outcomes id = outcome := ⟨_, rfl⟩
          rw [rebuild_join, houtcome, candidates_join, List.filter_append, List.filter_append,
            ← hleft, ← hright]
          cases conversion with
          | none =>
              rw [Outcome.apply_unconverted, candidates_join, candidate_priced]
              congr 1
              rw [List.filter_filter]
              refine List.filter_congr fun own hown => ?_
              rw [List.mem_singleton.mp hown, hcandidate, houtcome]
              rfl
          | some conversion =>
              have hadmits := sound.admitted member (show _ = some conversion by rw [houtcome])
              have gone : ([(PlanTree.node id (.join payload) [left, right]).candidate].filter
                  CandidateJoin.isEligible).filter
                  (fun candidate => (outcomes candidate.join).conversion.isNone) = [] := by
                rw [List.filter_eq_nil_iff]
                intro own hown
                rw [List.mem_singleton.mp (List.mem_filter.mp hown).1, hcandidate, houtcome]
                simp
              rw [gone, List.nil_append]
              refine candidates_apply (fun hside => ?_) costs id payload
              have hshaped := shaped.of_mem (child_mem_subtrees member List.mem_cons_self)
              rw [hside] at hadmits
              have hmay : left.mayDepend = true := (Bool.and_eq_true_iff.mp hadmits).1
              rw [hleft, candidates_eq_nil_of_mayDepend hshaped hmay]
              rfl

end PlanTree

namespace ChooseDependent

variable {tree : PlanTree} {outcomes : NodeId → Outcome}

/-- The candidates of a plan that a run of the rule has not converted. -/
def leftover (before after : Plan) : List CandidateJoin :=
  (candidates before).filter fun candidate =>
    (after.join? candidate.join).any (·.valueSource.isNone)

theorem leftover_eq {before after : Plan} (holds : before.Holds tree) (shaped : tree.WellShaped)
    (holds' : after.Holds (tree.rebuild outcomes)) :
    leftover before after =
      tree.candidates.filter fun candidate => (outcomes candidate.join).conversion.isNone := by
  rw [leftover, candidates_eq holds shaped]
  refine List.filter_congr fun candidate hcandidate => ?_
  obtain ⟨join, left, right, hjoins, hleft, hright, eligible, -⟩ :=
    PlanTree.exists_of_mem_candidates shaped hcandidate
  obtain ⟨side, hadmits⟩ := CandidateJoin.exists_admits hleft hright eligible
  have ordinary := JoinNode.ordinary_of_allows (JoinNode.allows_of_admits hadmits)
  have inside : _ ∈ (tree.rebuild outcomes).subtrees :=
    PlanTree.rebuild_mem_subtrees (PlanTree.joins_subset_subtrees tree hjoins)
  obtain ⟨⟨costs, conversion⟩, houtcome⟩ : ∃ outcome, outcomes candidate.join = outcome :=
    ⟨_, rfl⟩
  rw [PlanTree.rebuild_join, houtcome] at inside
  rw [houtcome]
  cases conversion with
  | none =>
      rw [Outcome.apply_unconverted] at inside
      have hjoin : after.join? candidate.join = some (join.priced costs) := holds'.join?_eq inside
      simp [hjoin, ordinary]
  | some conversion =>
      obtain ⟨payload, last, happly, hsource⟩ := conversion.exists_apply_eq costs candidate.join
        join (left.rebuild outcomes) (right.rebuild outcomes)
      rw [happly] at inside
      have hjoin : after.join? candidate.join = some payload := holds'.join?_eq inside
      simp [hjoin, hsource]

theorem candidates_rebuild_eq_leftover {before after : Plan} {first last : Nat}
    (holds : before.Holds tree) (shaped : tree.WellShaped) (sound : tree.Sound outcomes first last)
    (holds' : after.Holds (tree.rebuild outcomes)) :
    (tree.rebuild outcomes).candidates = leftover before after := by
  rw [leftover_eq holds shaped holds']
  exact PlanTree.candidates_rebuild shaped sound tree tree.self_mem_subtrees

end ChooseDependent

end FederatedQuery
