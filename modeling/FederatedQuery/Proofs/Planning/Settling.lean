import FederatedQuery.Proofs.Planning.Candidates

/-!
# Carrying decisions out

Every candidate that is settled gets one outcome, and nothing else happens to the
tree.  So a run of the whole rule rebuilds the tree with outcomes for candidates: a
conversion has an eligible side, and a value source that no other conversion has.
-/

namespace FederatedQuery

namespace Plan

variable {plan : Plan}

theorem Holds.stackFilters {sub : PlanTree} {frames : List Frame} (criteria : List Criteria)
    (holds : plan.Holds (sub.within frames)) :
    (ChooseDependent.stackFilters plan sub.id criteria).Holds
      ((sub.stacked plan.size criteria).within frames) := by
  induction criteria generalizing plan sub with
  | nil => exact holds
  | cons criterion rest ih =>
      have added := holds.addAsParent (.select ⟨criterion, true⟩)
      have stacked := ih added
      rw [size_addAsParent] at stacked
      exact stacked

end Plan

def Decision.converts : Decision → Bool
  | .leave => false
  | .convert _ => true
  | .compareCosts _ dependentCost ordinaryCost => dependentCost < ordinaryCost

def Decision.costs? : Decision → Option (Float × Float)
  | .leave | .convert _ => none
  | .compareCosts _ dependentCost ordinaryCost => some (dependentCost, ordinaryCost)

namespace ChooseDependent

variable {start final : Session} {id : NodeId} {join : JoinNode} {left right : PlanTree}
  {frames : List Frame}

theorem holds_attachFilters {plan : Plan} {before after : List PlanTree} {input : PlanTree}
    (holds : plan.Holds ((PlanTree.node id (.join join) (before ++ input :: after)).within frames))
    (source : String) (dependent independent : List Expr) :
    (attachFilters plan id join input.id source dependent independent).Holds
      ((PlanTree.node id (.join { join with valueSource := some source })
        (before ++ input.stacked plan.size (dependentSets source dependent independent) ::
          after)).within frames) := by
  have marked : (plan.setKind id (.join { join with valueSource := some source })).Holds
      (input.within (⟨id, .join { join with valueSource := some source }, before, after⟩ ::
        frames)) := holds.setKind _
  have stacked := marked.stackFilters (dependentSets source dependent independent)
  rw [Plan.size_setKind] at stacked
  exact stacked

theorem convert_attaches {left right : NodeId} {attached new : Plan}
    {result : Except PlanError Bool}
    (hjoin : start.plan.join? id = some join) (inputs : start.plan.children id = [left, right])
    (ne : left ≠ right) (side : Side)
    (equalities : side.opposite.pick join.leftExprs join.rightExprs ≠ [])
    (attach : attachFilters start.plan id join (side.pick left right)
      (valueSourceName start.nextValueSource) (side.pick join.leftExprs join.rightExprs)
      (side.opposite.pick join.leftExprs join.rightExprs) = attached)
    (exchange : side.pick (Plan.swapJoinChildren id attached) (.ok () attached) = .ok () new)
    (h : (convert id (side.pick left right)).EndsWith start result final) :
    result = .ok true ∧ ∃ report, final = { start with
      plan := new, nextValueSource := start.nextValueSource + 1, report := report } := by
  have hfirst : start.plan.firstChild? id = some left := by
    rw [Plan.firstChild?, inputs]
    rfl
  have nonempty := List.isEmpty_eq_false_iff.mpr equalities
  subst attach
  rw [convert] at h
  replace h := h.of_bind (show Planning.plan start = .ok start.plan start from rfl)
  simp only [hjoin, hfirst] at h
  cases side with
  | right =>
      have hside : (some left == some right) = false := by simpa using ne
      cases exchange
      simp only [Side.pick, Side.opposite] at nonempty
      simp only [Side.pick, hside, Bool.false_eq_true, if_false, nonempty] at h
      replace h := h.of_bind (show Planning.takeValueSource start = .ok _ _ from rfl)
      replace h := h.of_bind (show Planning.setPlan _ _ = .ok () _ from rfl)
      replace h := h.of_bind (show Planning.plan _ = .ok _ _ from rfl)
      obtain ⟨events, ⟨_, ⟨⟩, -⟩ | ⟨_, -, h⟩⟩ := h.of_inquire_bind (Inquiry.finds_report _)
      obtain ⟨rfl, rfl⟩ := Planning.endsWith_pure_iff.mp h
      exact ⟨rfl, _, rfl⟩
  | left =>
      simp only [Side.pick, Side.opposite] at nonempty exchange
      simp only [Side.pick, beq_self_eq_true, if_true, nonempty, Bool.false_eq_true, if_false] at h
      replace h := h.of_bind (show Planning.takeValueSource start = .ok _ _ from rfl)
      replace h := h.of_bind (show Planning.setPlan _ _ = .ok () _ from rfl)
      replace h := h.of_bind (Planning.edit_eq_ok exchange)
      replace h := h.of_bind (show Planning.plan _ = .ok _ _ from rfl)
      obtain ⟨events, ⟨_, ⟨⟩, -⟩ | ⟨_, -, h⟩⟩ := h.of_inquire_bind (Inquiry.finds_report _)
      obtain ⟨rfl, rfl⟩ := Planning.endsWith_pure_iff.mp h
      exact ⟨rfl, _, rfl⟩

theorem convert_ends {side : Side} {result : Except PlanError Bool}
    (holds : start.plan.Holds ((PlanTree.node id (.join join) [left, right]).within frames))
    (paired : join.leftExprs.length = join.rightExprs.length) (equalities : join.leftExprs ≠ [])
    (h : (convert id (side.pick left.id right.id)).EndsWith start result final) :
    result = .ok true ∧ final.nextValueSource = start.nextValueSource + 1 ∧
      final.pending = start.pending ∧
      final.plan.Holds ((Conversion.apply ⟨side, start.nextValueSource, start.plan.size⟩ id join
        left right).within frames) := by
  have member := PlanTree.mem_subtrees_within_self (.node id (.join join) [left, right]) frames
  have hjoin : start.plan.join? id = some join := holds.join?_eq member
  have inputs : start.plan.children id = [left.id, right.id] := holds.children_eq member
  have hne := input_ids_ne holds member
  have equalities' : join.rightExprs ≠ [] := by
    rwa [← List.length_pos_iff, ← paired, List.length_pos_iff]
  cases side with
  | right =>
      have attached : (attachFilters start.plan id join right.id
          (valueSourceName start.nextValueSource) join.rightExprs join.leftExprs).Holds _ :=
        holds_attachFilters (show start.plan.Holds
          ((PlanTree.node id (.join join) ([left] ++ right :: [])).within frames) from holds) _ _ _
      obtain ⟨rfl, report, rfl⟩ :=
        convert_attaches hjoin inputs hne .right equalities rfl rfl h
      exact ⟨rfl, rfl, rfl, attached⟩
  | left =>
      have attached : (attachFilters start.plan id join left.id
          (valueSourceName start.nextValueSource) join.leftExprs join.rightExprs).Holds _ :=
        holds_attachFilters (show start.plan.Holds
          ((PlanTree.node id (.join join) ([] ++ left :: [right])).within frames) from holds) _ _ _
      obtain ⟨swapped, hswapped, -, exchanged⟩ := attached.swapJoinChildren
      obtain ⟨rfl, report, rfl⟩ :=
        convert_attaches hjoin inputs hne .left equalities' rfl hswapped h
      exact ⟨rfl, rfl, rfl, exchanged⟩

/-- What a step on a candidate has done to its join, and to the rest of the session. -/
structure Settled (candidate : CandidateJoin) (decision : Decision) (conversion : Option Conversion)
    (start final : Session) : Prop where
  converts : conversion.isSome = decision.converts
  eligible : ∀ taken, conversion = some taken →
    taken.side.pick candidate.left candidate.right = true
  number : ∀ taken, conversion = some taken → taken.number = start.nextValueSource
  next : final.nextValueSource = start.nextValueSource + if decision.converts then 1 else 0
  pending : final.pending = start.pending

theorem Settled.of_leave {candidate : CandidateJoin} {decision : Decision}
    (leaves : decision.converts = false) (next : final.nextValueSource = start.nextValueSource)
    (pending : final.pending = start.pending) : Settled candidate decision none start final := by
  refine ⟨leaves.symm, nofun, nofun, ?_, pending⟩
  simp [leaves, next]

theorem Settled.of_convert {candidate : CandidateJoin} {decision : Decision} {side : Side}
    (converts : decision.converts = true)
    (eligible : side.pick candidate.left candidate.right = true)
    (next : final.nextValueSource = start.nextValueSource + 1)
    (pending : final.pending = start.pending) (firstFilter : NodeId) :
    Settled candidate decision (some ⟨side, start.nextValueSource, firstFilter⟩) start final := by
  refine ⟨converts.symm, ?_, ?_, ?_, pending⟩
  · rintro _ ⟨⟩
    exact eligible
  · rintro _ ⟨⟩
    rfl
  · rw [next, converts, if_pos rfl]

theorem compareCosts_ends {candidate : CandidateJoin} {side : Side} {cost ordinary : Float}
    {result : Except PlanError Bool} {plan : Plan}
    (holds : plan.Holds
      ((PlanTree.node candidate.join (.join join) [left, right]).within frames))
    (paired : join.leftExprs.length = join.rightExprs.length) (equalities : join.leftExprs ≠ [])
    (eligible : side.pick candidate.left candidate.right = true)
    (h : Planning.EndsWith
      (do
        Planning.setPlan (recordCosts plan candidate.join join cost ordinary)
        if cost < ordinary then convert candidate.join (side.pick left.id right.id)
        else return false)
      start result final) :
    ∃ conversion, result = .ok (cost < ordinary : Bool) ∧
      Settled candidate (.compareCosts (side.pick left.id right.id) cost ordinary) conversion
        start final ∧
      final.plan.Holds ((Outcome.apply ⟨some (cost, ordinary), conversion⟩ candidate.join join
        left right).within frames) := by
  have recorded : (recordCosts plan candidate.join join cost ordinary).Holds
      ((PlanTree.node candidate.join (.join (join.priced (some (cost, ordinary))))
        [left, right]).within frames) := holds.setKind _
  replace h := h.of_bind (show Planning.setPlan _ _ = .ok () _ from rfl)
  by_cases hcheaper : cost < ordinary
  · rw [if_pos hcheaper] at h
    obtain ⟨rfl, hnext, hpending, hfinal⟩ :=
      convert_ends (by exact recorded) (by exact paired) (by exact equalities) h
    rw [recordCosts, Plan.size_setKind] at hfinal
    have converts : (Decision.compareCosts (side.pick left.id right.id) cost ordinary).converts =
        true := decide_eq_true hcheaper
    exact ⟨some ⟨side, start.nextValueSource, plan.size⟩, by rw [decide_eq_true hcheaper],
      .of_convert converts eligible (by exact hnext) (by exact hpending) _, hfinal⟩
  · rw [if_neg hcheaper] at h
    obtain ⟨rfl, rfl⟩ := Planning.endsWith_pure_iff.mp h
    have leaves : (Decision.compareCosts (side.pick left.id right.id) cost ordinary).converts =
        false := decide_eq_false hcheaper
    exact ⟨none, by rw [decide_eq_false hcheaper], .of_leave leaves rfl rfl, recorded⟩

theorem settle_ends {context : PlanningContext} {candidate : CandidateJoin}
    {result : Except PlanError Bool}
    (holds : start.plan.Holds
      ((PlanTree.node candidate.join (.join join) [left, right]).within frames))
    (paired : join.leftExprs.length = join.rightExprs.length) (equalities : join.leftExprs ≠ [])
    (eligible : candidate.isEligible = true)
    (h : (settle context candidate).EndsWith start result final) :
    (∃ error, result = .error error ∧
        decided context start.plan candidate left.id right.id join.strategy = .error error ∧
        final.plan = start.plan ∧ final.nextValueSource = start.nextValueSource) ∨
      ∃ decision conversion, (decide context start.plan candidate).Finds (.ok decision) ∧
        result = .ok decision.converts ∧ Settled candidate decision conversion start final ∧
        final.plan.Holds
          ((Outcome.apply ⟨decision.costs?, conversion⟩ candidate.join join left right).within
            frames) := by
  have member := PlanTree.mem_subtrees_within_self
    (.node candidate.join (.join join) [left, right]) frames
  have hjoin : start.plan.join? candidate.join = some join := holds.join?_eq member
  have finds := finds_decide context (holds.firstChild?_eq member)
    (holds.lastChild?_eq member) hjoin
  rw [settle] at h
  replace h := h.of_bind (show Planning.plan start = .ok start.plan start from rfl)
  obtain ⟨events, ⟨error, hdecided, rfl, rfl⟩ | ⟨decision, hdecided, h⟩⟩ := h.of_inquire_bind finds
  · exact .inl ⟨error, rfl, hdecided, rfl, rfl⟩
  right
  have finds : (decide context start.plan candidate).Finds (.ok decision) := hdecided ▸ finds
  have hside : ∀ dependent, decision.dependent? = some dependent → ∃ side : Side,
      side.pick candidate.left candidate.right = true ∧
        dependent = side.pick left.id right.id := by
    intro dependent hdependent
    rcases eq_of_decided eligible hdecided hdependent with ⟨hflag, rfl⟩ | ⟨hflag, rfl⟩
    · exact ⟨.left, hflag, rfl⟩
    · exact ⟨.right, hflag, rfl⟩
  cases decision with
  | leave =>
      obtain ⟨rfl, rfl⟩ := Planning.endsWith_pure_iff.mp h
      exact ⟨.leave, none, finds, rfl, .of_leave rfl rfl rfl, holds⟩
  | convert dependent =>
      obtain ⟨side, hflag, rfl⟩ := hside dependent rfl
      obtain ⟨rfl, hnext, hpending, hfinal⟩ :=
        convert_ends (by exact holds) paired equalities h
      exact ⟨.convert _, some ⟨side, start.nextValueSource, start.plan.size⟩, finds, rfl,
        .of_convert rfl hflag (by exact hnext) (by exact hpending) _, hfinal⟩
  | compareCosts dependent cost ordinary =>
      obtain ⟨side, hflag, rfl⟩ := hside dependent rfl
      simp only [hjoin] at h
      obtain ⟨conversion, rfl, settled, hfinal⟩ :=
        compareCosts_ends (by exact holds) paired equalities hflag h
      exact ⟨.compareCosts _ cost ordinary, conversion, finds, rfl, { settled with }, hfinal⟩

end ChooseDependent

/-- Outcomes that settling candidates may lead to, with value sources of certain numbers. -/
structure PlanTree.Sound (tree : PlanTree) (outcomes : NodeId → Outcome) (first last : Nat) :
    Prop where
  candidate : ∀ id, outcomes id ≠ .none → id ∈ tree.candidates.map CandidateJoin.join
  admitted : ∀ {id join left right conversion},
    PlanTree.node id (.join join) [left, right] ∈ tree.subtrees →
      (outcomes id).conversion = some conversion →
        join.admits conversion.side (conversion.side.pick left right) = true
  numbered : ∀ {id conversion}, (outcomes id).conversion = some conversion →
    first ≤ conversion.number ∧ conversion.number < last
  distinct : ∀ {id other conversion conversion'}, (outcomes id).conversion = some conversion →
    (outcomes other).conversion = some conversion' →
      conversion.number = conversion'.number → id = other

theorem PlanTree.sound_none (tree : PlanTree) (first : Nat) :
    tree.Sound (fun _ => .none) first first :=
  ⟨fun _ h => absurd rfl h, nofun, nofun, nofun⟩

theorem PlanTree.Sound.update {tree : PlanTree} {outcomes : NodeId → Outcome}
    {first last next : Nat} (sound : tree.Sound outcomes first last) (nodup : tree.ids.Nodup)
    {id : NodeId} {join : JoinNode} {left right : PlanTree}
    (member : PlanTree.node id (.join join) [left, right] ∈ tree.subtrees)
    (candidate : id ∈ tree.candidates.map CandidateJoin.join) {outcome : Outcome}
    (later : last ≤ next)
    (admitted : ∀ conversion, outcome.conversion = some conversion →
      join.admits conversion.side (conversion.side.pick left right) = true ∧
        conversion.number = last ∧ last < next)
    (started : first ≤ last) : tree.Sound (Function.update outcomes id outcome) first next := by
  have elsewhere {other : NodeId} (ne : other ≠ id) :
      Function.update outcomes id outcome other = outcomes other := Function.update_of_ne ne _ _
  have here : Function.update outcomes id outcome id = outcome := Function.update_self _ _ _
  have apart {other : NodeId} {conversion conversion' : Conversion}
      (h : outcome.conversion = some conversion)
      (h' : (outcomes other).conversion = some conversion') :
      conversion.number ≠ conversion'.number := by
    have := (sound.numbered h').2
    have := (admitted conversion h).2.1
    omega
  constructor
  · intro other h
    by_cases same : other = id
    · exact same ▸ candidate
    · exact sound.candidate other (elsewhere same ▸ h)
  · intro other join' left' right' conversion hmember h
    by_cases same : other = id
    · subst same
      rw [here] at h
      obtain ⟨rfl, rfl, rfl⟩ : join' = join ∧ left' = left ∧ right' = right := by
        have := PlanTree.eq_of_id_eq nodup hmember member rfl
        simpa using this
      exact (admitted conversion h).1
    · exact sound.admitted hmember (elsewhere same ▸ h)
  · intro other conversion h
    by_cases same : other = id
    · subst same
      rw [here] at h
      obtain ⟨-, hnumber, hnext⟩ := admitted conversion h
      omega
    · obtain ⟨hfirst, hlast⟩ := sound.numbered (elsewhere same ▸ h)
      omega
  · intro other other' conversion conversion' h h' hnumber
    by_cases same : other = id
    · by_cases same' : other' = id
      · rw [same, same']
      · subst same
        rw [here] at h
        exact absurd hnumber (apart h (elsewhere same' ▸ h'))
    · by_cases same' : other' = id
      · subst same'
        rw [here] at h'
        exact absurd hnumber.symm (apart h' (elsewhere same ▸ h))
      · exact sound.distinct (elsewhere same ▸ h) (elsewhere same' ▸ h') hnumber

theorem PlanTree.Sound.exists_candidate {tree : PlanTree} {outcomes : NodeId → Outcome}
    {first last : Nat} (sound : tree.Sound outcomes first last) {id : NodeId}
    (converted : (outcomes id).conversion ≠ none) :
    ∃ candidate ∈ tree.candidates, candidate.join = id := by
  refine List.mem_map.mp (sound.candidate id fun unsettled => converted ?_)
  rw [unsettled]
  rfl

theorem PlanTree.Sound.exists_allows {tree : PlanTree} {outcomes : NodeId → Outcome}
    {first last : Nat} (sound : tree.Sound outcomes first last) (nodup : tree.ids.Nodup)
    (shaped : tree.WellShaped) {id : NodeId} {join : JoinNode} {left right : PlanTree}
    (member : PlanTree.node id (.join join) [left, right] ∈ tree.subtrees)
    (settled : outcomes id ≠ .none) : ∃ side, join.allows side = true := by
  obtain ⟨candidate, hcandidate, rfl⟩ := List.mem_map.mp (sound.candidate id settled)
  obtain ⟨join', left', right', hjoins, hleft, hright, eligible, -⟩ :=
    exists_of_mem_candidates shaped hcandidate
  obtain ⟨rfl, rfl, rfl⟩ : join = join' ∧ left = left' ∧ right = right' := by
    simpa using PlanTree.eq_of_id_eq nodup member (joins_subset_subtrees tree hjoins) rfl
  obtain ⟨side, hadmits⟩ := CandidateJoin.exists_admits hleft hright eligible
  exact ⟨side, JoinNode.allows_of_admits hadmits⟩

namespace ChooseDependent

variable {start final : Session} {tree : PlanTree} {outcomes : NodeId → Outcome}

/-- Where a run stands that has given joins of a tree these outcomes, with these candidates
still to be settled. -/
structure Standing (tree : PlanTree) (first : Nat) (outcomes : NodeId → Outcome)
    (waiting : List CandidateJoin) (session : Session) : Prop where
  holds : session.plan.Holds (tree.rebuild outcomes)
  sound : tree.Sound outcomes first session.nextValueSource
  started : first ≤ session.nextValueSource
  members : waiting ⊆ tree.candidates
  distinct : (waiting.map CandidateJoin.join).Nodup
  fresh : ∀ candidate ∈ waiting, outcomes candidate.join = .none

theorem Standing.initial {session : Session} (holds : session.plan.Holds tree) :
    Standing tree session.nextValueSource (fun _ => .none) tree.candidates session := by
  refine ⟨?_, tree.sound_none _, Nat.le_refl _, List.Subset.refl _,
    PlanTree.nodup_candidates holds.nodup, fun _ _ => rfl⟩
  rw [PlanTree.rebuild_none]
  exact holds

theorem Standing.exists_join {candidate : CandidateJoin} {rest : List CandidateJoin} {first : Nat}
    (standing : Standing tree first outcomes (candidate :: rest) start) (nodup : tree.ids.Nodup)
    (shaped : tree.WellShaped) :
    ∃ join left right rebuilt,
      PlanTree.node candidate.join (.join join) [left, right] ∈ tree.subtrees ∧
      candidate.left = join.admits .left left ∧ candidate.right = join.admits .right right ∧
      candidate.isEligible = true ∧ join.leftExprs.length = join.rightExprs.length ∧
      join.leftExprs ≠ [] ∧
      start.plan.Holds ((PlanTree.node candidate.join (.join join)
        [left.rebuild outcomes, right.rebuild outcomes]).within rebuilt) ∧
      ∀ outcome, tree.rebuild (Function.update outcomes candidate.join outcome) =
        (outcome.apply candidate.join join (left.rebuild outcomes)
          (right.rebuild outcomes)).within rebuilt := by
  have fresh : outcomes candidate.join = .none := standing.fresh candidate List.mem_cons_self
  obtain ⟨join, left, right, hjoins, hleft, hright, eligible, paired⟩ :=
    PlanTree.exists_of_mem_candidates shaped (List.cons_subset.mp standing.members).1
  have inside := PlanTree.joins_subset_subtrees tree hjoins
  obtain ⟨side, hadmits⟩ := CandidateJoin.exists_admits hleft hright eligible
  obtain ⟨frames, hframes⟩ := PlanTree.exists_within_of_mem inside
  obtain ⟨rebuilt, hrebuilt⟩ := PlanTree.exists_rebuild_update (hframes ▸ nodup) outcomes
  rw [← hframes] at hrebuilt
  have before : tree.rebuild outcomes = (PlanTree.node candidate.join (.join join)
      [left.rebuild outcomes, right.rebuild outcomes]).within rebuilt := by
    rw [← Outcome.apply_none, ← hrebuilt, ← fresh, Function.update_eq_self]
  exact ⟨join, left, right, rebuilt, inside, hleft, hright, eligible, paired,
    JoinNode.equalities_of_admits hadmits, before ▸ standing.holds, hrebuilt⟩

theorem Standing.step {context : PlanningContext} {candidate : CandidateJoin}
    {rest : List CandidateJoin} {converted : Bool} {first : Nat}
    (standing : Standing tree first outcomes (candidate :: rest) start) (nodup : tree.ids.Nodup)
    (shaped : tree.WellShaped) (h : settle context candidate start = .ok converted final) :
    ∃ decision conversion, (decide context start.plan candidate).Finds (.ok decision) ∧
      converted = decision.converts ∧ Settled candidate decision conversion start final ∧
      Standing tree first
        (Function.update outcomes candidate.join ⟨decision.costs?, conversion⟩) rest final := by
  obtain ⟨member, members⟩ := List.cons_subset.mp standing.members
  obtain ⟨notWaiting, distinct⟩ := List.nodup_cons.mp standing.distinct
  obtain ⟨join, left, right, rebuilt, inside, hleft, hright, eligible, paired, equalities, holds,
    hrebuilt⟩ := standing.exists_join nodup shaped
  obtain ⟨_, ⟨⟩, -⟩ | ⟨decision, conversion, finds, ⟨⟩, settled, hfinal⟩ :=
    settle_ends holds paired equalities eligible
      (show Planning.EndsWith _ _ (.ok converted) _ from h)
  rw [← hrebuilt] at hfinal
  have later : start.nextValueSource ≤ final.nextValueSource := by
    rw [settled.next]
    omega
  refine ⟨decision, conversion, finds, rfl, settled, hfinal, ?_,
    Nat.le_trans standing.started later, members, distinct, fun other hother => ?_⟩
  · refine standing.sound.update nodup inside (List.mem_map_of_mem member) later
      (fun taken htaken => ?_) standing.started
    have hflag := settled.eligible taken htaken
    have hconverts : decision.converts = true := by
      rw [← settled.converts, Option.isSome_iff_exists]
      exact ⟨taken, htaken⟩
    refine ⟨?_, settled.number taken htaken, ?_⟩
    · cases hside : taken.side with
      | left => rwa [hside, Side.pick, hleft] at hflag
      | right => rwa [hside, Side.pick, hright] at hflag
    · rw [settled.next, hconverts, if_pos rfl]
      omega
  · rw [Function.update_of_ne]
    · exact standing.fresh other (List.mem_cons_of_mem _ hother)
    · intro same
      exact notWaiting (same ▸ List.mem_map_of_mem hother)

/-- The outcome of a candidate was decided when the other joins had these outcomes or none. -/
def Decided (context : PlanningContext) (tree : PlanTree) (outcomes : NodeId → Outcome)
    (candidate : CandidateJoin) : Prop :=
  ∃ plan earlier decision, plan.Holds (tree.rebuild earlier) ∧
    (∀ id, earlier id = .none ∨ earlier id = outcomes id) ∧
    (decide context plan candidate).Finds (.ok decision) ∧
    decision.converts = (outcomes candidate.join).conversion.isSome

def Undecided (context : PlanningContext) (plan : Plan) (error : PlanError) : Prop :=
  ∃ tree candidate join left right, plan.Holds tree ∧
    PlanTree.node candidate.join (.join join) [left, right] ∈ tree.subtrees ∧
      decided context plan candidate left.id right.id join.strategy = .error error

/-- Settling candidates in order gives each of them an outcome. -/
theorem Standing.run {context : PlanningContext} {waiting : List CandidateJoin}
    {converted : Bool} {first : Nat} (standing : Standing tree first outcomes waiting start)
    (nodup : tree.ids.Nodup) (shaped : tree.WellShaped)
    (h : settleAll context waiting start = .ok converted final) :
    ∃ after, Standing tree first after [] final ∧
      start.nextValueSource ≤ final.nextValueSource ∧ final.pending = start.pending ∧
      (∀ id, id ∉ waiting.map CandidateJoin.join → after id = outcomes id) ∧
      (converted = waiting.any fun candidate => (after candidate.join).conversion.isSome) ∧
      ∀ candidate ∈ waiting, Decided context tree after candidate := by
  induction waiting generalizing start converted outcomes with
  | nil =>
      obtain ⟨rfl, rfl⟩ := pure_eq_ok_iff.mp h
      exact ⟨outcomes, standing, Nat.le_refl _, rfl, fun _ _ => rfl, rfl, nofun⟩
  | cons candidate rest ih =>
      simp only [settleAll, bind_eq_ok_iff] at h
      obtain ⟨now, middle, hsettle, others, _, hrest, hdone⟩ := h
      obtain ⟨rfl, rfl⟩ := pure_eq_ok_iff.mp hdone
      have notWaiting := (List.nodup_cons.mp standing.distinct).1
      obtain ⟨decision, conversion, finds, rfl, settled, next⟩ :=
        standing.step nodup shaped hsettle
      obtain ⟨after, hafter, hlater, hpending, hframe, rfl, hdecided⟩ := ih next hrest
      have outside {id : NodeId} (hid : id ∉ (candidate :: rest).map CandidateJoin.join) :
          after id = outcomes id := by
        rw [List.map_cons, List.mem_cons, not_or] at hid
        rw [hframe id hid.2, Function.update_of_ne hid.1]
      have own : after candidate.join = ⟨decision.costs?, conversion⟩ := by
        rw [hframe candidate.join notWaiting, Function.update_self]
      refine ⟨after, hafter, ?_, hpending.trans settled.pending, fun _ hid => outside hid, ?_, ?_⟩
      · rw [settled.next] at hlater
        omega
      · rw [List.any_cons, own, ← settled.converts]
      · rintro other (_ | ⟨_, hother⟩)
        · refine ⟨start.plan, outcomes, decision, standing.holds, fun id => ?_, finds, ?_⟩
          -- When the candidate was decided, those that wait had no outcome yet.
          · by_cases hid : id ∈ (candidate :: rest).map CandidateJoin.join
            · obtain ⟨waiting, hwaiting, rfl⟩ := List.mem_map.mp hid
              exact .inl (standing.fresh waiting hwaiting)
            · exact .inr (outside hid).symm
          · rw [own, settled.converts]
        · exact hdecided other hother

theorem Standing.run_error {context : PlanningContext} {waiting : List CandidateJoin}
    {error : PlanError} {first : Nat} (standing : Standing tree first outcomes waiting start)
    (nodup : tree.ids.Nodup) (shaped : tree.WellShaped)
    (h : (settleAll context waiting).EndsWith start (.error error) final) :
    ∃ after, final.plan.Holds (tree.rebuild after) ∧
      tree.Sound after first final.nextValueSource ∧ first ≤ final.nextValueSource ∧
      Undecided context final.plan error := by
  induction waiting generalizing start outcomes with
  | nil => cases h
  | cons candidate rest ih =>
      obtain ⟨join, left, right, rebuilt, -, -, -, eligible, paired, equalities, holds, -⟩ :=
        standing.exists_join nodup shaped
      rcases Planning.endsWith_bind_iff.mp h with ⟨_, ⟨⟩, failed⟩ | ⟨converted, middle, hsettle, h⟩
      · obtain ⟨_, ⟨⟩, undecided, hplan, hnumber⟩ | ⟨_, _, -, ⟨⟩, -⟩ :=
          settle_ends holds paired equalities eligible failed
        rw [hplan, hnumber]
        exact ⟨outcomes, standing.holds, standing.sound, standing.started, _, candidate, join, _, _,
          holds, PlanTree.mem_subtrees_within_self _ rebuilt, undecided⟩
      · obtain ⟨decision, conversion, -, -, -, next⟩ := standing.step nodup shaped hsettle
        rcases Planning.endsWith_bind_iff.mp h with ⟨_, ⟨⟩, failed⟩ | ⟨_, _, -, ⟨⟩⟩
        exact ih next failed

def surveyed (session : Session) : Session :=
  { session with report := session.report.noteAll ((surveys session.plan).flatMap (·.2)) }

theorem execute_eq_ok_iff {context : PlanningContext} {changed : Bool}
    (holds : start.plan.Holds tree) (shaped : tree.WellShaped) :
    execute context start = .ok changed final ↔
      ∃ middle, settleAll context tree.candidates (surveyed start) = .ok changed middle ∧
        final = if changed then { middle with
          pending := (middle.pending.push .pushSelectCriteria).push .cleanCriteria }
        else middle := by
  rw [execute, bind_eq_ok_iff]
  constructor
  · rintro ⟨plan, _, hplan, h⟩
    obtain ⟨rfl, rfl⟩ := Planning.plan_eq_ok_iff.mp hplan
    simp only [bind_eq_ok_iff] at h
    obtain ⟨_, _, hreport, converted, middle, hsettle, h⟩ := h
    cases hreport
    rw [candidates_eq holds shaped] at hsettle
    cases converted with
    | true =>
        simp only [if_true, bind_eq_ok_iff] at h
        obtain ⟨_, _, hpush, _, _, hclean, h⟩ := h
        cases Planning.push_eq_ok_iff.mp hpush
        cases Planning.push_eq_ok_iff.mp hclean
        obtain ⟨rfl, rfl⟩ := pure_eq_ok_iff.mp h
        exact ⟨middle, hsettle, rfl⟩
    | false =>
        simp only [Bool.false_eq_true, if_false] at h
        obtain ⟨rfl, rfl⟩ := pure_eq_ok_iff.mp h
        exact ⟨middle, hsettle, rfl⟩
  · rintro ⟨middle, hsettle, rfl⟩
    refine ⟨_, _, Planning.plan_eq_ok_iff.mpr ⟨rfl, rfl⟩, ?_⟩
    simp only [bind_eq_ok_iff]
    rw [← candidates_eq holds shaped] at hsettle
    refine ⟨(), surveyed start, rfl, changed, middle, hsettle, ?_⟩
    cases changed with
    | true => rfl
    | false => rfl

/-- After the candidates nothing is done to plan and counter, also where one of them fails. -/
theorem execute_endsWith {context : PlanningContext} {result : Except PlanError Bool}
    (holds : start.plan.Holds tree) (shaped : tree.WellShaped)
    (h : (execute context).EndsWith start result final) :
    ∃ middle, (settleAll context tree.candidates).EndsWith (surveyed start) result middle ∧
      final.plan = middle.plan ∧ final.nextValueSource = middle.nextValueSource := by
  rw [execute] at h
  replace h := h.of_bind (show Planning.plan start = .ok start.plan start from rfl)
  replace h := h.of_bind (show Planning.inquire _ start = .ok () (surveyed start) from rfl)
  rw [candidates_eq holds shaped] at h
  rcases Planning.endsWith_bind_iff.mp h with ⟨_, rfl, failed⟩ | ⟨converted, middle, settled, h⟩
  · exact ⟨final, failed, rfl, rfl⟩
  · refine ⟨middle, ?_⟩
    cases converted with
    | true =>
        rw [if_pos rfl] at h
        replace h := (h.of_bind rfl).of_bind rfl
        obtain ⟨rfl, rfl⟩ := Planning.endsWith_pure_iff.mp h
        exact ⟨settled, rfl, rfl⟩
    | false =>
        rw [if_neg nofun] at h
        obtain ⟨rfl, rfl⟩ := Planning.endsWith_pure_iff.mp h
        exact ⟨settled, rfl, rfl⟩

theorem execute_rebuilds {context : PlanningContext} {changed : Bool}
    (holds : start.plan.Holds tree) (shaped : tree.WellShaped)
    (h : execute context start = .ok changed final) :
    ∃ outcomes, final.plan.Holds (tree.rebuild outcomes) ∧
      tree.Sound outcomes start.nextValueSource final.nextValueSource ∧
      start.nextValueSource ≤ final.nextValueSource ∧
      changed = (tree.candidates.any fun candidate =>
        (outcomes candidate.join).conversion.isSome) ∧
      (final.pending = if changed then
        (start.pending.push .pushSelectCriteria).push .cleanCriteria else start.pending) ∧
      ∀ candidate ∈ tree.candidates, Decided context tree outcomes candidate := by
  obtain ⟨middle, hsettle, rfl⟩ := (execute_eq_ok_iff holds shaped).mp h
  have hsurveyed : (surveyed start).plan.Holds tree := holds
  obtain ⟨after, hafter, later, hpending, -, hchanged, hdecided⟩ :=
    (Standing.initial hsurveyed).run holds.nodup shaped hsettle
  refine ⟨after, ?_⟩
  cases changed with
  | true =>
      exact ⟨hafter.holds, hafter.sound, later, hchanged, by simp [hpending, surveyed], hdecided⟩
  | false =>
      exact ⟨hafter.holds, hafter.sound, later, hchanged, by simp [hpending, surveyed], hdecided⟩

theorem execute_error {context : PlanningContext} {error : PlanError}
    (holds : start.plan.Holds tree) (shaped : tree.WellShaped)
    (h : (execute context).EndsWith start (.error error) final) :
    ∃ outcomes, final.plan.Holds (tree.rebuild outcomes) ∧
      tree.Sound outcomes start.nextValueSource final.nextValueSource ∧
      start.nextValueSource ≤ final.nextValueSource ∧ Undecided context final.plan error := by
  obtain ⟨middle, failed, hplan, hnumber⟩ := execute_endsWith holds shaped h
  have surveyed : (surveyed start).plan.Holds tree := holds
  rw [hplan, hnumber]
  exact (Standing.initial surveyed).run_error holds.nodup shaped failed

end ChooseDependent

end FederatedQuery
