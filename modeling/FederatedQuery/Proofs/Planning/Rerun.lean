import FederatedQuery.Proofs.Cost.Local
import FederatedQuery.Proofs.Planning.Leftover

/-!
# Choosing dependent joins again

When the rule runs again, it decides about the joins that it left.  They may be
decided in another way: when a join was left, those below it had not been settled.
-/

namespace FederatedQuery

namespace ChooseDependent

variable {start final : Session} {tree : PlanTree} {outcomes : NodeId → Outcome}

/-! ## Leaving candidates -/

def recorded (plan : Plan) (candidate : CandidateJoin) (decision : Decision) : Plan :=
  match decision.costs?, plan.join? candidate.join with
  | some (dependent, ordinary), some join =>
      recordCosts plan candidate.join join dependent ordinary
  | _, _ => plan

/-- Decided in turn, each on the plan that the ones before it leave, no candidate is converted. -/
def LeavesAll (context : PlanningContext) : Plan → List CandidateJoin → Prop
  | _, [] => True
  | plan, candidate :: rest =>
      ∃ decision, (decide context plan candidate).Finds (.ok decision) ∧
        decision.converts = false ∧ LeavesAll context (recorded plan candidate decision) rest

theorem settle_of_leaves {context : PlanningContext} {candidate : CandidateJoin}
    {decision : Decision} (finds : (decide context start.plan candidate).Finds (.ok decision))
    (leaves : decision.converts = false) :
    ∃ events, settle context candidate start = .ok false { start with
      plan := recorded start.plan candidate decision
      report := start.report.noteAll events } := by
  obtain ⟨events, hdecide⟩ := Planning.inquire_eq_ok finds start
  refine ⟨events, ?_⟩
  rw [settle, bind_eq_ok_iff]
  refine ⟨start.plan, start, rfl, ?_⟩
  rw [bind_eq_ok_iff]
  refine ⟨decision, _, hdecide, ?_⟩
  cases decision with
  | leave => rfl
  | convert dependent => cases leaves
  | compareCosts dependent cost ordinary =>
      have dearer : ¬ cost < ordinary := of_decide_eq_false leaves
      simp only [if_neg dearer, recorded, Decision.costs?]
      cases start.plan.join? candidate.join with
      | none => rfl
      | some join => rfl

theorem settleAll_of_leavesAll {context : PlanningContext} {waiting : List CandidateJoin}
    (leaves : LeavesAll context start.plan waiting) :
    ∃ final, settleAll context waiting start = .ok false final := by
  induction waiting generalizing start with
  | nil => exact ⟨start, rfl⟩
  | cons candidate rest ih =>
      obtain ⟨decision, finds, hconverts, others⟩ := leaves
      obtain ⟨events, hsettle⟩ := settle_of_leaves finds hconverts
      obtain ⟨final, hrest⟩ := @ih
        { start with
          plan := recorded start.plan candidate decision
          report := start.report.noteAll events } others
      refine ⟨final, ?_⟩
      simp only [settleAll, bind_eq_ok_iff]
      exact ⟨false, _, hsettle, false, final, hrest, rfl⟩

theorem Standing.leavesAll {context : PlanningContext} {waiting : List CandidateJoin} {first : Nat}
    (standing : Standing tree first outcomes waiting start) (nodup : tree.ids.Nodup)
    (shaped : tree.WellShaped) (h : settleAll context waiting start = .ok false final) :
    LeavesAll context start.plan waiting := by
  induction waiting generalizing start outcomes with
  | nil => trivial
  | cons candidate rest ih =>
      simp only [settleAll, bind_eq_ok_iff] at h
      obtain ⟨now, middle, hsettle, others, _, hrest, hdone⟩ := h
      obtain ⟨hnone, rfl⟩ := pure_eq_ok_iff.mp hdone
      obtain ⟨rfl, rfl⟩ := Bool.or_eq_false_iff.mp hnone
      obtain ⟨decision, conversion, finds, hconverts, -, next⟩ :=
        standing.step nodup shaped hsettle
      obtain ⟨events, hleave⟩ := settle_of_leaves finds hconverts.symm
      rw [hleave] at hsettle
      cases hsettle
      exact ⟨decision, finds, hconverts.symm, ih next hrest⟩

theorem execute_eq_false_iff {context : PlanningContext} (holds : start.plan.Holds tree)
    (shaped : tree.WellShaped) :
    (∃ final, execute context start = .ok false final) ↔
      LeavesAll context start.plan tree.candidates := by
  constructor
  · rintro ⟨final, h⟩
    obtain ⟨middle, hsettle, -⟩ := (execute_eq_ok_iff holds shaped).mp h
    have hsurveyed : (surveyed start).plan.Holds tree := holds
    exact (Standing.initial hsurveyed).leavesAll holds.nodup shaped hsettle
  · intro leaves
    obtain ⟨middle, hsettle⟩ := settleAll_of_leavesAll (show LeavesAll context
      (surveyed start).plan tree.candidates from leaves)
    exact ⟨_, (execute_eq_ok_iff holds shaped).mpr ⟨middle, hsettle, rfl⟩⟩

theorem unchanged_of_execute_eq_false {context : PlanningContext} (holds : start.plan.Holds tree)
    (shaped : tree.WellShaped) (h : execute context start = .ok false final) :
    final.pending = start.pending ∧ final.plan.tree.unpriced = start.plan.tree.unpriced := by
  obtain ⟨outcomes, hfinal, sound, -, hchanged, hpending, -⟩ := execute_rebuilds holds shaped h
  refine ⟨hpending, ?_⟩
  rw [hfinal.tree_eq, holds.tree_eq]
  apply PlanTree.unpriced_rebuild
  intro id _
  by_contra converted
  obtain ⟨candidate, hcandidate, rfl⟩ := sound.exists_candidate converted
  have unconverted := List.any_eq_false.mp hchanged.symm candidate hcandidate
  exact converted (by simpa using unconverted)

/-! ## Decisions of local oracles -/

variable {context : PlanningContext} {plan other : Plan} {candidate : CandidateJoin}

theorem needed_congr {first : NodeId} {second : Option NodeId} (hfirst : plan.Agrees other first)
    (hsecond : ∀ id, second = some id → plan.Agrees other id) :
    needed other first second = needed plan first second := by
  have sources : (second.map other.sourceOf).bind other.access? =
      (second.map plan.sourceOf).bind plan.access? := by
    cases second with
    | none => rfl
    | some id => exact (hsecond id rfl).access?_sourceOf_eq
  simp only [needed, sources, hfirst.access?_sourceOf_eq]

theorem compared_congr (isLocal : context.oracle.Local) {first second : NodeId}
    (hfirst : plan.Agrees other first) (hsecond : plan.Agrees other second) (both : Bool)
    (strategy : JoinStrategy) (firstCost secondCost : Option Float) :
    compared context other both strategy first second firstCost secondCost =
      compared context plan both strategy first second firstCost secondCost := by
  unfold compared
  rw [isLocal.subtreeCost hfirst, isLocal.subtreeCost hsecond]
  cases hcosts : cheaper first second firstCost secondCost with
  | none => rfl
  | some costs =>
      obtain ⟨dependent, independent, cost⟩ := costs
      rcases eq_of_cheaper hcosts with ⟨rfl, rfl⟩ | ⟨rfl, rfl, -⟩
      · simp only [isLocal.joinCost hsecond hfirst]
      · simp only [isLocal.joinCost hfirst hsecond]

theorem decided_congr (isLocal : context.oracle.Local) {left right : NodeId}
    (agrees : plan.Agrees other candidate.join) (hleft : plan.Agrees other left)
    (hright : plan.Agrees other right) (strategy : JoinStrategy) :
    decided context other candidate left right strategy =
      decided context plan candidate left right strategy := by
  obtain ⟨inputs, hinputs⟩ : ∃ inputs,
      inputs = if candidate.left = true then (left, right) else (right, left) := ⟨_, rfl⟩
  have hfirst : plan.Agrees other inputs.1 := by
    rw [hinputs]
    split
    · exact hleft
    · exact hright
  have hsecond : plan.Agrees other inputs.2 := by
    rw [hinputs]
    split
    · exact hright
    · exact hleft
  have hneeded : needed other inputs.1
      (if candidate.left && candidate.right then some inputs.2 else none) =
        needed plan inputs.1 (if candidate.left && candidate.right then some inputs.2 else none) :=
    needed_congr hfirst fun id hid => by
      split at hid
      · exact Option.some.inj hid ▸ hsecond
      · cases hid
  have hweighed : weighed context other candidate strategy inputs.1 inputs.2 =
      weighed context plan candidate strategy inputs.1 inputs.2 := by
    simp only [weighed, isLocal.dependentJoinCost agrees, compared_congr isLocal hfirst hsecond]
  simp only [decided, ← hinputs, hneeded, hweighed]

theorem finds_decide_congr (isLocal : context.oracle.Local)
    (agrees : plan.Agrees other candidate.join) {left right : NodeId} {payload : JoinNode}
    (hleft : plan.firstChild? candidate.join = some left)
    (hright : plan.lastChild? candidate.join = some right)
    (hjoin : plan.join? candidate.join = some payload) {result : Except PlanError Decision} :
    (decide context other candidate).Finds result ↔
      (decide context plan candidate).Finds result := by
  have hleft' : other.firstChild? candidate.join = some left := by
    rw [Plan.firstChild?, agrees.children_eq]
    exact hleft
  have hright' : other.lastChild? candidate.join = some right := by
    rw [Plan.lastChild?, agrees.children_eq]
    exact hright
  obtain ⟨payload', hjoin', same⟩ : ∃ payload', other.join? candidate.join = some payload' ∧
      payload'.unpriced = payload.unpriced := by
    have h := agrees.join?_eq
    rw [hjoin, Option.map_some, Option.map_eq_some_iff] at h
    exact h
  have strategy : payload'.strategy = payload.strategy := congrArg (·.strategy) same
  have finds := finds_decide context hleft hright hjoin
  have finds' := finds_decide context hleft' hright' hjoin'
  rw [strategy, decided_congr isLocal agrees (agrees.child (List.mem_of_head? hleft))
    (agrees.child (List.mem_of_getLast? hright))] at finds'
  constructor
  · intro h
    exact finds'.unique h ▸ finds
  · intro h
    exact finds.unique h ▸ finds'

def Leaves (context : PlanningContext) (plan : Plan) (candidate : CandidateJoin) : Prop :=
  ∃ decision, (decide context plan candidate).Finds (.ok decision) ∧ decision.converts = false

theorem leaves_congr (isLocal : context.oracle.Local) (holds : plan.Holds tree)
    (shaped : tree.WellShaped) (member : candidate ∈ tree.candidates)
    (agrees : plan.Agrees other candidate.join) {decision : Decision} :
    (decide context other candidate).Finds (.ok decision) ↔
      (decide context plan candidate).Finds (.ok decision) := by
  obtain ⟨join, left, right, hjoins, -⟩ := PlanTree.exists_of_mem_candidates shaped member
  have inside := PlanTree.joins_subset_subtrees tree hjoins
  exact finds_decide_congr isLocal agrees (holds.firstChild?_eq inside) (holds.lastChild?_eq inside)
    (holds.join?_eq inside)

theorem holds_recorded (holds : plan.Holds tree) (member : candidate.join ∈ tree.ids)
    (decision : Decision) :
    ∃ new, (recorded plan candidate decision).Holds new ∧ new.unpriced = tree.unpriced := by
  unfold recorded
  split
  · rename_i dependent ordinary join hcosts hjoin
    obtain ⟨sub, hsub, hid⟩ := List.mem_map.mp member
    rw [← hid, holds.join?_eq hsub] at hjoin
    obtain ⟨frames, rfl⟩ := PlanTree.exists_within_of_mem hsub
    obtain ⟨id, kind, children⟩ := sub
    obtain rfl : kind = .join join := by
      cases kind <;> first | cases hjoin; rfl | cases hjoin
    rw [← hid]
    refine ⟨_, holds.setKind _, PlanTree.fold_within_congr _ ?_ frames⟩
    rw [PlanTree.fold_node, PlanTree.fold_node]
    rfl
  · exact ⟨tree, holds, rfl⟩

theorem leavesAll_iff (isLocal : context.oracle.Local) (holds : plan.Holds tree)
    (shaped : tree.WellShaped) {waiting : List CandidateJoin} (members : waiting ⊆ tree.candidates)
    {new : PlanTree} (holds' : other.Holds new) (same : new.unpriced = tree.unpriced) :
    LeavesAll context other waiting ↔ ∀ candidate ∈ waiting, Leaves context plan candidate := by
  induction waiting generalizing other new with
  | nil => simp [LeavesAll]
  | cons candidate rest ih =>
      obtain ⟨member, members⟩ := List.cons_subset.mp members
      obtain ⟨join, left, right, hjoins, -⟩ := PlanTree.exists_of_mem_candidates shaped member
      have agrees : plan.Agrees other candidate.join :=
        .of_tree holds holds' same (PlanTree.joins_subset_subtrees tree hjoins)
      have following (decision : Decision) :
          LeavesAll context (recorded other candidate decision) rest ↔
            ∀ candidate ∈ rest, Leaves context plan candidate := by
        have inside : candidate.join ∈ new.ids := by
          rw [← new.ids_unpriced, same, tree.ids_unpriced]
          exact List.mem_map_of_mem (PlanTree.joins_subset_subtrees tree hjoins)
        obtain ⟨next, hnext, hsame⟩ := holds_recorded holds' inside decision
        exact ih members hnext (hsame.trans same)
      rw [List.forall_mem_cons]
      constructor
      · rintro ⟨decision, finds, hconverts, others⟩
        exact ⟨⟨decision, (leaves_congr isLocal holds shaped member agrees).mp finds, hconverts⟩,
          (following decision).mp others⟩
      · rintro ⟨⟨decision, finds, hconverts⟩, others⟩
        exact ⟨decision, (leaves_congr isLocal holds shaped member agrees).mpr finds, hconverts,
          (following decision).mpr others⟩

/-- What was decided about a candidate still holds when nothing below it was converted. -/
theorem leaves_of_decided (isLocal : context.oracle.Local) (shaped : tree.WellShaped)
    (holds : plan.Holds (tree.rebuild outcomes)) (member : candidate ∈ tree.candidates)
    (decided : Decided context tree outcomes candidate)
    (untouched : ∀ sub ∈ tree.subtrees, sub.id = candidate.join →
      ∀ id ∈ sub.ids, (outcomes id).conversion = none) : Leaves context plan candidate := by
  obtain ⟨before, earlier, decision, hbefore, same, finds, hconverts⟩ := decided
  obtain ⟨join, left, right, hjoins, -⟩ := PlanTree.exists_of_mem_candidates shaped member
  have inside := PlanTree.joins_subset_subtrees tree hjoins
  have unconverted := untouched _ inside rfl
  have unconverted' : ∀ id ∈ (PlanTree.node candidate.join (.join join) [left, right]).ids,
      (earlier id).conversion = none := by
    intro id hid
    rcases same id with h | h
    · rw [h]
      rfl
    · rw [h]
      exact unconverted id hid
  have agrees : before.Agrees plan candidate.join := by
    have hsame := (PlanTree.unpriced_rebuild unconverted).trans
      (PlanTree.unpriced_rebuild unconverted').symm
    have := Plan.Agrees.of_unpriced_eq hbefore holds (PlanTree.rebuild_mem_subtrees inside)
      (PlanTree.rebuild_mem_subtrees inside) hsame
    rwa [PlanTree.id_rebuild] at this
  have own := PlanTree.id_mem_ids (.node candidate.join (.join join) [left, right])
  have standing : _ ∈ (tree.rebuild earlier).subtrees := PlanTree.rebuild_mem_subtrees inside
  obtain ⟨⟨costs, conversion⟩, houtcome⟩ : ∃ outcome, earlier candidate.join = outcome := ⟨_, rfl⟩
  have hconversion := unconverted' _ own
  rw [PlanTree.id_node, houtcome] at hconversion
  cases hconversion
  rw [PlanTree.rebuild_join, houtcome, Outcome.apply_unconverted] at standing
  refine ⟨decision, (finds_decide_congr isLocal agrees (hbefore.firstChild?_eq standing)
    (hbefore.lastChild?_eq standing) (hbefore.join?_eq standing)).mpr finds, ?_⟩
  rw [hconverts, unconverted candidate.join own]
  rfl

/-! ## The second run -/

/-- Running the rule changes nothing but recorded costs, says so, and pushes no rule. -/
def HasNoEffect (context : PlanningContext) (session : Session) : Prop :=
  ∃ final, execute context session = .ok false final ∧ final.pending = session.pending ∧
    final.plan.tree.unpriced = session.plan.tree.unpriced

def AboveConversion (before after : Plan) (candidate : CandidateJoin) : Prop :=
  ∃ inner ∈ candidates before, inner ∉ leftover before after ∧
    inner.join ∈ (before.treeAt candidate.join).ids

/-- The rule has an effect on its own result unless every candidate that it left is left
again.  For a local oracle only candidates above a conversion can be decided anew. -/
theorem hasNoEffect_again_iff {middle again : Session} {changed : Bool}
    (accepted : start.plan.Accepted) (h : execute context start = .ok changed middle)
    (same : again.plan = middle.plan) :
    (HasNoEffect context again ↔
      LeavesAll context middle.plan (leftover start.plan middle.plan)) ∧
    (context.oracle.Local → (HasNoEffect context again ↔
      ∀ candidate ∈ leftover start.plan middle.plan,
        AboveConversion start.plan middle.plan candidate →
          Leaves context middle.plan candidate)) := by
  obtain ⟨holds, shaped⟩ := accepted.holds
  obtain ⟨outcomes, hmiddle, sound, -, -, -, hdecided⟩ := execute_rebuilds holds shaped h
  have hagain : again.plan.Holds (start.plan.tree.rebuild outcomes) := same ▸ hmiddle
  have left_eq := candidates_rebuild_eq_leftover holds shaped sound hmiddle
  have exact_iff : HasNoEffect context again ↔
      LeavesAll context middle.plan (leftover start.plan middle.plan) := by
    rw [← left_eq, ← same, ← execute_eq_false_iff hagain shaped.rebuild]
    constructor
    · rintro ⟨final, hexecute, -⟩
      exact ⟨final, hexecute⟩
    · rintro ⟨final, hexecute⟩
      exact ⟨final, hexecute, unchanged_of_execute_eq_false hagain shaped.rebuild hexecute⟩
  refine ⟨exact_iff, fun isLocal => ?_⟩
  rw [exact_iff, ← left_eq, leavesAll_iff isLocal hmiddle shaped.rebuild (List.Subset.refl _)
    hmiddle rfl, left_eq]
  refine forall₂_congr fun candidate hcandidate => ⟨fun leaves _ => leaves, fun leaves => ?_⟩
  by_cases above : AboveConversion start.plan middle.plan candidate
  · exact leaves above
  · rw [leftover_eq holds shaped hmiddle, List.mem_filter] at hcandidate
    -- With no conversion below it, what the first run decided is decided again.
    refine leaves_of_decided isLocal shaped hmiddle hcandidate.1
      (hdecided candidate hcandidate.1) fun sub hsub hid id member => ?_
    by_contra converted
    refine above ?_
    obtain ⟨inner, hinner, rfl⟩ := sound.exists_candidate converted
    refine ⟨inner, ?_, ?_, ?_⟩
    · rw [candidates_eq holds shaped]
      exact hinner
    · rw [leftover_eq holds shaped hmiddle, List.mem_filter]
      rintro ⟨-, unconverted⟩
      exact converted (Option.isNone_iff_eq_none.mp unconverted)
    · rw [← hid, holds.treeAt_eq hsub]
      exact member

/-! ## A join that is converted by the second run -/

def estimating : PlanningContext := { PlanningContext.permissive with oracle := cardinalityOracle }

def nestedJoins : Plan :=
  let idOf (group : String) : Expr := .column ⟨.named group, "id", .int64⟩
  let equal (left right : String) : JoinNode :=
    ⟨.inner, .nestedLoop, [.eq (idOf left) (idOf right)], [idOf left], [idOf right],
      none, none, none⟩
  ⟨[⟨.join (equal "pm1.g1" "pm3.g3"), none, [1, 4]⟩,
    ⟨.join (equal "pm1.g1" "pm2.g2"), some 0, [2, 3]⟩,
    ⟨.access { group := .named "pm1.g1", cardinality := some 6 }, some 1, []⟩,
    ⟨.access { group := .named "pm2.g2", cardinality := some 15 }, some 1, []⟩,
    ⟨.access { group := .named "pm3.g3" }, some 0, []⟩], 0⟩

theorem nestedJoins_runs :
    ∃ middle final, execute estimating (.start nestedJoins .empty 0) = .ok true middle ∧
      execute estimating middle = .ok true final := by
  obtain ⟨_, middle, hfirst, hsecond⟩ := Planning.exists_of_succeeds (show Planning.succeeds
    (execute estimating) (.start nestedJoins .empty 0) (fun changed middle => changed &&
      Planning.succeeds (execute estimating) middle fun again _ => again) = true by decide +kernel)
  obtain ⟨rfl, hsecond⟩ := Bool.and_eq_true_iff.mp hsecond
  obtain ⟨_, final, hsecond, rfl⟩ := Planning.exists_of_succeeds hsecond
  exact ⟨middle, final, hfirst, hsecond⟩

theorem accepted_nestedJoins : nestedJoins.Accepted :=
  .of_links (by decide) (by decide) (by decide)

theorem nestedJoins_has_effect_again :
    nestedJoins.Accepted ∧ ∃ middle,
      execute estimating (.start nestedJoins .empty 0) = .ok true middle ∧
        ¬ HasNoEffect estimating middle := by
  obtain ⟨middle, final, hfirst, hsecond⟩ := nestedJoins_runs
  refine ⟨accepted_nestedJoins, middle, hfirst, ?_⟩
  rintro ⟨final', hsecond', -⟩
  rw [hsecond] at hsecond'
  cases hsecond'

theorem nestedJoins_not_left_again :
    ∃ middle, execute estimating (.start nestedJoins .empty 0) = .ok true middle ∧
      ¬ LeavesAll estimating middle.plan (leftover nestedJoins middle.plan) ∧
      ∃ candidate ∈ leftover nestedJoins middle.plan,
        AboveConversion nestedJoins middle.plan candidate ∧
          ¬ Leaves estimating middle.plan candidate := by
  obtain ⟨middle, final, hfirst, hsecond⟩ := nestedJoins_runs
  have effect : ¬ HasNoEffect estimating middle := by
    rintro ⟨final', hsecond', -⟩
    rw [hsecond] at hsecond'
    cases hsecond'
  obtain ⟨general, forLocal⟩ := hasNoEffect_again_iff accepted_nestedJoins hfirst rfl
  refine ⟨middle, hfirst, fun leaves => effect (general.mpr leaves), ?_⟩
  by_contra none
  refine effect ((forLocal cardinalityOracle_local).mpr fun candidate hcandidate above => ?_)
  by_contra changed
  exact none ⟨candidate, hcandidate, above, changed⟩

end ChooseDependent

end FederatedQuery
