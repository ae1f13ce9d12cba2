import FederatedQuery.Proofs.Cost.Order
import FederatedQuery.Proofs.Planning.Leftover
import FederatedQuery.Proofs.Planning.Rewriting

/-!
# The side that becomes dependent

The rule asks about the inputs of a candidate one after the other.  What it comes to is
specified by sides: need and hints are decisive, then the least known cost of a dependent
join, then the sizes of the inputs.
-/

namespace FederatedQuery

/-- Whatever the oracle knows is a finite number. -/
structure CostOracle.Finite (oracle : CostOracle) : Prop where
  subtree : ∀ {plan node rows}, oracle.subtreeCost plan node = .ok (some rows) →
    rows.isFinite = true
  dependent : ∀ {plan join side strategy cost},
    oracle.dependentJoinCost plan join side strategy = .ok (some cost) → cost.isFinite = true
  ordinary : ∀ {plan independent dependent strategy cost},
    oracle.joinCost plan independent dependent strategy = .ok cost → cost.isFinite = true

/-- A candidate join with its inputs, one of which may become dependent on the other. -/
structure Contest where
  plan : Plan
  candidate : CandidateJoin
  join : JoinNode
  left : NodeId
  right : NodeId

structure Choice where
  costs : Option (Float × Float)
  side : Option Side

namespace Contest

/-! ## Need and hints -/

def input (contest : Contest) (side : Side) : NodeId := side.pick contest.left contest.right

def mayDepend (contest : Contest) (side : Side) : Bool :=
  side.pick contest.candidate.left contest.candidate.right

def access? (contest : Contest) (side : Side) : Option AccessNode :=
  contest.plan.access? (contest.plan.sourceOf (contest.input side))

def needs (contest : Contest) (side : Side) : Bool :=
  contest.mayDepend side && (contest.access? side).any (·.hasUnsatisfiedPatterns)

def hinted (contest : Contest) (side : Side) : Bool :=
  contest.mayDepend side && (contest.access? side).any (·.makeDependent)

/-- The side that is dependent whatever it costs: the only one in need, or, where none is in
need, the first one with a hint. -/
def forced? (contest : Contest) : Option Side :=
  match contest.needs .left, contest.needs .right with
  | true, true => none
  | true, false => some .left
  | false, true => some .right
  | false, false =>
      if contest.hinted .left then some .left
      else if contest.hinted .right then some .right
      else none

/-! ## Costs and sizes -/

variable (contest : Contest) (oracle : CostOracle)

def dependentCost (side : Side) : Except PlanError (Option Float) :=
  oracle.dependentJoinCost contest.plan contest.candidate.join side contest.join.strategy

def ordinaryCost (side : Side) : Except PlanError Float :=
  oracle.joinCost contest.plan (contest.input side.opposite) (contest.input side)
    contest.join.strategy

def rows (side : Side) : Except PlanError (Option Float) :=
  oracle.subtreeCost contest.plan (contest.input side)

structure Answered : Prop where
  dependent : ∀ side, contest.mayDepend side = true →
    ∃ answer, contest.dependentCost oracle side = .ok answer
  ordinary : ∀ side, ∃ cost, contest.ordinaryCost oracle side = .ok cost
  rows : ∀ side, ∃ answer, contest.rows oracle side = .ok answer

/-- Of the dependent joins whose costs are known, this one has the least cost; where both
have it, the left one is meant. -/
structure Cheapest (side : Side) (cost : Float) : Prop where
  mayDepend : contest.mayDepend side = true
  answered : ∀ other, contest.mayDepend other = true →
    ∃ answer, contest.dependentCost oracle other = .ok answer
  known : contest.dependentCost oracle side = .ok (some cost)
  least : ∀ {other otherCost}, contest.mayDepend other = true →
    contest.dependentCost oracle other = .ok (some otherCost) → cost ≤ otherCost
  first : side = .right → ∀ {leftCost}, contest.mayDepend .left = true →
    contest.dependentCost oracle .left = .ok (some leftCost) → cost < leftCost

def isSmall (threshold : Float) (rows : Option Float) : Bool := rows.any (· < threshold)

def bySize (threshold : Float) (left right : Option Float) : Option Side :=
  match contest.mayDepend .left, contest.mayDepend .right with
  | true, true =>
      if isSmall threshold left && left.any (fun left => right.all (left < ·)) then some .right
      else if isSmall threshold right then some .left
      else none
  | true, false => if isSmall threshold right then some .left else none
  | false, true => if isSmall threshold left then some .right else none
  | false, false => none

inductive Specified (threshold : Float) : Choice → Prop
  | forced {side : Side} (forced : contest.forced? = some side) :
      Specified threshold ⟨none, some side⟩
  | compared {side : Side} {cost ordinary : Float} (free : contest.forced? = none)
      (cheapest : contest.Cheapest oracle side cost)
      (asked : contest.ordinaryCost oracle side = .ok ordinary) :
      Specified threshold ⟨some (cost, ordinary), if cost < ordinary then some side else none⟩
  | sized {left right : Option Float} (free : contest.forced? = none)
      (unknown : ∀ side, contest.mayDepend side = true →
        contest.dependentCost oracle side = .ok none)
      (askedLeft : contest.rows oracle .left = .ok left)
      (askedRight : contest.rows oracle .right = .ok right) :
      Specified threshold ⟨none, contest.bySize threshold left right⟩

def priced : Option (Float × Float) → Plan
  | none => contest.plan
  | some (dependent, ordinary) =>
      ChooseDependent.recordCosts contest.plan contest.candidate.join contest.join dependent
        ordinary

/-- The costs have been recorded and the side of the choice has become dependent, and
nothing else has happened to the plan. -/
def CarriedOut (choice : Choice) (start final : Session) : Prop :=
  match choice.side with
  | none => final.plan = contest.priced choice.costs ∧
      final.nextValueSource = start.nextValueSource
  | some side =>
      (contest.priced choice.costs).Rewritten final.plan contest.candidate.join
        (contest.join.priced choice.costs) side contest.left contest.right
        (ChooseDependent.valueSourceName start.nextValueSource) ∧
      final.nextValueSource = start.nextValueSource + 1

variable {contest : Contest} {oracle : CostOracle} {threshold : Float}

theorem Cheapest.eq {side other : Side} {cost otherCost : Float}
    (cheapest : contest.Cheapest oracle side cost)
    (cheapest' : contest.Cheapest oracle other otherCost) : side = other ∧ cost = otherCost := by
  have apart {leftCost rightCost : Float} (left : contest.Cheapest oracle .left leftCost)
      (right : contest.Cheapest oracle .right rightCost) : False :=
    Cost.not_lt_of_le (left.least right.mayDepend right.known)
      (right.first rfl left.mayDepend left.known)
  obtain rfl : side = other := by
    cases side <;> cases other
    · rfl
    · exact (apart cheapest cheapest').elim
    · exact (apart cheapest' cheapest).elim
    · rfl
  exact ⟨rfl, by simpa using cheapest.known.symm.trans cheapest'.known⟩

theorem Specified.eq {choice other : Choice} (specified : contest.Specified oracle threshold choice)
    (specified' : contest.Specified oracle threshold other) : choice = other := by
  have clash {side : Side} {cost : Float} (cheapest : contest.Cheapest oracle side cost)
      (unknown : ∀ side, contest.mayDepend side = true →
        contest.dependentCost oracle side = .ok none) : False := by
    simpa [unknown side cheapest.mayDepend] using cheapest.known
  cases specified with
  | forced forced =>
      cases specified' with
      | forced forced' => cases forced.symm.trans forced'; rfl
      | compared free | sized free => cases forced.symm.trans free
  | compared free cheapest asked =>
      cases specified' with
      | forced forced' => cases free.symm.trans forced'
      | compared _ cheapest' asked' =>
          obtain ⟨rfl, rfl⟩ := cheapest.eq cheapest'
          cases asked.symm.trans asked'
          rfl
      | sized _ unknown => exact (clash cheapest unknown).elim
  | sized free unknown askedLeft askedRight =>
      cases specified' with
      | forced forced' => cases free.symm.trans forced'
      | compared _ cheapest' => exact (clash cheapest' unknown).elim
      | sized _ _ askedLeft' askedRight' =>
          cases askedLeft.symm.trans askedLeft'
          cases askedRight.symm.trans askedRight'
          rfl

theorem Cheapest.of_opposite {side : Side} {cost : Float} (finite : oracle.Finite)
    (answered : contest.Answered oracle) (mayDepend : contest.mayDepend side = true)
    (known : contest.dependentCost oracle side = .ok (some cost))
    (cheaper : ∀ otherCost, contest.mayDepend side.opposite = true →
      contest.dependentCost oracle side.opposite = .ok (some otherCost) →
        cost ≤ otherCost ∧ (side = .right → cost < otherCost)) :
    contest.Cheapest oracle side cost where
  mayDepend := mayDepend
  answered := answered.dependent
  known := known
  least := by
    intro other otherCost hmay hother
    by_cases same : other = side
    · subst same
      cases known.symm.trans hother
      exact Cost.le_refl (finite.dependent known)
    · obtain rfl : other = side.opposite := by cases other <;> cases side <;> trivial
      exact (cheaper otherCost hmay hother).1
  first := by
    rintro rfl leftCost hmay hleft
    exact (cheaper leftCost hmay hleft).2 rfl

theorem exists_cheapest (finite : oracle.Finite) (answered : contest.Answered oracle) :
    (∃ side cost, contest.Cheapest oracle side cost) ∨
      ∀ side, contest.mayDepend side = true → contest.dependentCost oracle side = .ok none := by
  let Known (side : Side) (cost : Float) : Prop :=
    contest.mayDepend side = true ∧ contest.dependentCost oracle side = .ok (some cost)
  by_cases hleft : ∃ cost, Known .left cost <;> by_cases hright : ∃ cost, Known .right cost
  · obtain ⟨left, mayLeft, leftKnown⟩ := hleft
    obtain ⟨right, mayRight, rightKnown⟩ := hright
    by_cases lt : right < left
    · refine .inl ⟨.right, right, .of_opposite finite answered mayRight rightKnown ?_⟩
      rintro other - hother
      cases leftKnown.symm.trans hother
      exact ⟨Cost.le_of_lt lt, fun _ => lt⟩
    · refine .inl ⟨.left, left, .of_opposite finite answered mayLeft leftKnown ?_⟩
      rintro other - hother
      cases rightKnown.symm.trans hother
      exact ⟨Cost.le_of_not_lt (finite.dependent leftKnown) (finite.dependent rightKnown) lt, nofun⟩
  · obtain ⟨left, mayLeft, leftKnown⟩ := hleft
    exact .inl ⟨.left, left, .of_opposite finite answered mayLeft leftKnown
      fun other hmay hother => absurd ⟨other, hmay, hother⟩ hright⟩
  · obtain ⟨right, mayRight, rightKnown⟩ := hright
    exact .inl ⟨.right, right, .of_opposite finite answered mayRight rightKnown
      fun other hmay hother => absurd ⟨other, hmay, hother⟩ hleft⟩
  · refine .inr fun side hmay => ?_
    obtain ⟨answer, hanswer⟩ := answered.dependent side hmay
    cases answer with
    | none => exact hanswer
    | some cost =>
        cases side with
        | left => exact absurd ⟨cost, hmay, hanswer⟩ hleft
        | right => exact absurd ⟨cost, hmay, hanswer⟩ hright

/-- Where the oracle answers with finite numbers, one choice is specified. -/
theorem existsUnique_specified (finite : oracle.Finite) (answered : contest.Answered oracle)
    (threshold : Float) : ∃! choice, contest.Specified oracle threshold choice := by
  refine existsUnique_of_exists_of_unique ?_ fun _ _ => Specified.eq
  cases hforced : contest.forced? with
  | some side => exact ⟨_, .forced hforced⟩
  | none =>
      rcases exists_cheapest finite answered with ⟨side, cost, cheapest⟩ | unknown
      · obtain ⟨ordinary, asked⟩ := answered.ordinary side
        exact ⟨_, .compared hforced cheapest asked⟩
      · obtain ⟨left, askedLeft⟩ := answered.rows .left
        obtain ⟨right, askedRight⟩ := answered.rows .right
        exact ⟨_, .sized hforced unknown askedLeft askedRight⟩

end Contest

namespace ChooseDependent

variable {contest : Contest} {context : PlanningContext}

def asked (contest : Contest) : NodeId × NodeId :=
  if contest.candidate.left then (contest.left, contest.right) else (contest.right, contest.left)

theorem decided_eq (contest : Contest) (context : PlanningContext) :
    decided context contest.plan contest.candidate contest.left contest.right
        contest.join.strategy =
      match needed contest.plan (asked contest).1
        (if contest.candidate.left && contest.candidate.right then some (asked contest).2
          else none) with
      | some dependent => .ok (.convert dependent)
      | none => weighed context contest.plan contest.candidate contest.join.strategy
          (asked contest).1 (asked contest).2 := rfl

theorem needed_eq_forced (eligible : contest.candidate.isEligible = true) :
    needed contest.plan (asked contest).1
        (if contest.candidate.left && contest.candidate.right then some (asked contest).2
          else none) = contest.forced?.map contest.input := by
  obtain ⟨plan, ⟨id, mayLeft, mayRight⟩, join, left, right⟩ := contest
  cases mayLeft <;> cases mayRight <;>
    simp only [asked, needed, Contest.forced?, Contest.needs, Contest.hinted, Contest.mayDepend,
      Contest.access?, Contest.input, Side.pick, CandidateJoin.isEligible, Bool.false_and,
      Bool.true_and, Bool.and_false, Bool.and_true, Bool.or_false, Bool.false_eq_true, if_true,
      if_false, Option.map_none, Option.map_some, Option.bind_none, Option.bind_some] at eligible ⊢
  all_goals
    cases (plan.access? (plan.sourceOf left)).any (·.hasUnsatisfiedPatterns) <;>
      cases (plan.access? (plan.sourceOf right)).any (·.hasUnsatisfiedPatterns) <;>
      cases (plan.access? (plan.sourceOf left)).any (·.makeDependent) <;>
      cases (plan.access? (plan.sourceOf right)).any (·.makeDependent) <;> rfl

theorem chooseBySize_eq (threshold : Float) (both : Bool) (first second : NodeId)
    (firstRows secondRows : Option Float) :
    chooseBySize threshold both first second firstRows secondRows =
      if both && (Contest.isSmall threshold firstRows &&
        firstRows.any fun rows => secondRows.all (rows < ·)) then some second
      else if Contest.isSmall threshold secondRows then some first
      else none := by
  cases firstRows <;> cases secondRows <;>
    simp [chooseBySize, Contest.isSmall, and_assoc]

theorem chooseBySize_eq_bySize (eligible : contest.candidate.isEligible = true)
    (threshold : Float) (left right : Option Float) :
    chooseBySize threshold (contest.candidate.left && contest.candidate.right) (asked contest).1
        (asked contest).2 (if contest.candidate.left then left else right)
        (if contest.candidate.left then right else left) =
      (contest.bySize threshold left right).map contest.input := by
  obtain ⟨plan, ⟨id, mayLeft, mayRight⟩, join, first, second⟩ := contest
  rw [chooseBySize_eq]
  simp only [Contest.bySize, Contest.mayDepend, Side.pick, asked]
  cases mayLeft <;> cases mayRight
  · cases eligible
  all_goals
    simp only [Bool.false_eq_true, if_true, if_false, Bool.and_true, Bool.true_and, Bool.false_and]
    cases Contest.isSmall threshold left <;> cases Contest.isSmall threshold right <;>
      cases left.any (fun left => right.all (left < ·)) <;> rfl

theorem weighed_eq (eligible : contest.candidate.isEligible = true) {known : Side → Option Float}
    (answered : ∀ side, contest.mayDepend side = true →
      contest.dependentCost context.oracle side = .ok (known side)) :
    weighed context contest.plan contest.candidate contest.join.strategy (asked contest).1
        (asked contest).2 =
      compared context contest.plan (contest.candidate.left && contest.candidate.right)
        contest.join.strategy (asked contest).1 (asked contest).2
        (if contest.candidate.left then known .left else known .right)
        (if contest.candidate.left && contest.candidate.right then known .right else none) := by
  obtain ⟨plan, ⟨id, mayLeft, mayRight⟩, join, first, second⟩ := contest
  have hleft := answered .left
  have hright := answered .right
  simp only [Contest.dependentCost, Contest.mayDepend, Side.pick] at hleft hright
  cases mayLeft <;> cases mayRight
  · cases eligible
  · simp only [weighed, Bool.false_eq_true, if_false, Bool.false_and, hright rfl]
    rfl
  · simp only [weighed, Bool.false_eq_true, if_true, if_false, Bool.true_and, hleft rfl]
    rfl
  · simp only [weighed, if_true, Bool.true_and, hleft rfl, hright rfl]
    rfl

theorem weighed_of_unknown (eligible : contest.candidate.isEligible = true)
    {left right : Option Float}
    (unknown : ∀ side, contest.mayDepend side = true →
      contest.dependentCost context.oracle side = .ok none)
    (askedLeft : contest.rows context.oracle .left = .ok left)
    (askedRight : contest.rows context.oracle .right = .ok right) :
    weighed context contest.plan contest.candidate contest.join.strategy (asked contest).1
        (asked contest).2 = .ok (match contest.bySize context.threshold left right with
      | some side => .convert (contest.input side)
      | none => .leave) := by
  have first : context.oracle.subtreeCost contest.plan (asked contest).1 =
      .ok (if contest.candidate.left then left else right) := by
    rw [asked]
    split
    · exact askedLeft
    · exact askedRight
  have second : context.oracle.subtreeCost contest.plan (asked contest).2 =
      .ok (if contest.candidate.left then right else left) := by
    rw [asked]
    split
    · exact askedRight
    · exact askedLeft
  rw [weighed_eq eligible unknown, ite_self, ite_self]
  simp only [compared, cheaper, first, second, bind, Except.bind,
    chooseBySize_eq_bySize eligible]
  cases contest.bySize context.threshold left right <;> rfl

theorem cheaper_of_first {first second : NodeId} {cost : Float} {other : Option Float}
    (least : ∀ otherCost, other = some otherCost → cost ≤ otherCost) :
    cheaper first second (some cost) other = some (first, second, cost) := by
  cases other with
  | none => rfl
  | some otherCost => exact if_neg (Cost.not_lt_of_le (least otherCost rfl))

theorem cheaper_of_second {first second : NodeId} {cost : Float} {other : Option Float}
    (less : ∀ otherCost, other = some otherCost → cost < otherCost) :
    cheaper first second other (some cost) = some (second, first, cost) := by
  cases other with
  | none => rfl
  | some otherCost => exact if_pos (less otherCost rfl)

theorem cheaper_eq {side : Side} {cost : Float}
    (cheapest : contest.Cheapest context.oracle side cost) {known : Side → Option Float}
    (answered : ∀ other, contest.mayDepend other = true →
      contest.dependentCost context.oracle other = .ok (known other)) :
    cheaper (asked contest).1 (asked contest).2
        (if contest.candidate.left then known .left else known .right)
        (if contest.candidate.left && contest.candidate.right then known .right else none) =
      some (contest.input side, contest.input side.opposite, cost) := by
  have hcost : known side = some cost := by
    simpa [answered side cheapest.mayDepend] using cheapest.known
  have least (other : Side) {otherCost : Float} (hmay : contest.mayDepend other = true)
      (hother : known other = some otherCost) : cost ≤ otherCost :=
    cheapest.least hmay ((answered other hmay).trans (congrArg _ hother))
  cases hleft : contest.candidate.left with
  | false =>
      obtain rfl : side = .right := by
        cases side with
        | left => exact absurd (hleft.symm.trans cheapest.mayDepend) Bool.false_ne_true
        | right => rfl
      simp only [asked, hleft, Bool.false_and, Bool.false_eq_true, if_false, hcost]
      exact cheaper_of_first nofun
  | true =>
      simp only [asked, hleft, Bool.true_and, if_true]
      cases side with
      | left =>
          rw [hcost]
          refine cheaper_of_first fun otherCost hother => ?_
          cases hright : contest.candidate.right with
          | false => simp [hright] at hother
          | true => exact least .right hright (by simpa [hright] using hother)
      | right =>
          have hright : contest.candidate.right = true := cheapest.mayDepend
          rw [if_pos hright, hcost]
          refine cheaper_of_second fun otherCost hother => ?_
          exact cheapest.first rfl hleft ((answered .left hleft).trans (congrArg _ hother))

theorem weighed_of_cheapest (eligible : contest.candidate.isEligible = true) {side : Side}
    {cost ordinary : Float} (cheapest : contest.Cheapest context.oracle side cost)
    (hordinary : contest.ordinaryCost context.oracle side = .ok ordinary) :
    weighed context contest.plan contest.candidate contest.join.strategy (asked contest).1
        (asked contest).2 = .ok (.compareCosts (contest.input side) cost ordinary) := by
  choose! known hknown using cheapest.answered
  have chosen := cheaper_eq cheapest hknown
  rw [weighed_eq eligible hknown]
  simp only [compared, chosen]
  rw [show context.oracle.joinCost contest.plan (contest.input side.opposite) (contest.input side)
    contest.join.strategy = .ok ordinary from hordinary]
  rfl

/-! ## Settling a candidate -/

theorem exists_decide_of_forced (eligible : contest.candidate.isEligible = true)
    (hjoin : contest.plan.join? contest.candidate.join = some contest.join)
    (inputs : contest.plan.children contest.candidate.join = [contest.left, contest.right])
    {side : Side} (forced : contest.forced? = some side) (report : Report) :
    ∃ events, ∀ context : PlanningContext, decide context contest.plan contest.candidate report =
      .ok (.convert (contest.input side)) (report.noteAll events) := by
  have hfirst : contest.plan.firstChild? contest.candidate.join = some contest.left := by
    rw [Plan.firstChild?, inputs]
    rfl
  have hlast : contest.plan.lastChild? contest.candidate.join = some contest.right := by
    rw [Plan.lastChild?, inputs]
    rfl
  have needed := needed_eq_forced eligible
  rw [forced, Option.map_some] at needed
  obtain ⟨events, hrun⟩ := (finds_chooseByNeed contest.plan (asked contest).1
    (if contest.candidate.left && contest.candidate.right then some (asked contest).2
      else none)).exists_eq_ok report
  rw [needed] at hrun
  refine ⟨events, fun context => ?_⟩
  unfold decide
  simp only [hfirst, hlast, hjoin]
  rw [asked] at hrun
  simp only [bind, EStateM.bind, hrun]
  rfl

theorem decided_of_specified (eligible : contest.candidate.isEligible = true)
    {choice : Choice}
    (specified : contest.Specified context.oracle context.threshold choice) :
    ∃ decision, decided context contest.plan contest.candidate contest.left contest.right
        contest.join.strategy = .ok decision ∧
      ((decision = .leave ∧ choice = ⟨none, none⟩) ∨
        (∃ side, decision = .convert (contest.input side) ∧ choice = ⟨none, some side⟩) ∨
        ∃ side cost ordinary, decision = .compareCosts (contest.input side) cost ordinary ∧
          choice = ⟨some (cost, ordinary), if cost < ordinary then some side else none⟩) := by
  rw [decided_eq, needed_eq_forced eligible]
  cases specified with
  | @forced side forced =>
      rw [forced]
      exact ⟨_, rfl, .inr (.inl ⟨side, rfl, rfl⟩)⟩
  | @compared side cost ordinary free cheapest hordinary =>
      rw [free]
      exact ⟨_, weighed_of_cheapest eligible cheapest hordinary,
        .inr (.inr ⟨side, cost, ordinary, rfl, rfl⟩)⟩
  | @sized left right free unknown askedLeft askedRight =>
      rw [free]
      refine ⟨_, weighed_of_unknown eligible unknown askedLeft askedRight, ?_⟩
      cases contest.bySize context.threshold left right with
      | none => exact .inl ⟨rfl, rfl⟩
      | some side => exact .inr (.inl ⟨side, rfl, rfl⟩)

section

variable {start : Session} {candidate : CandidateJoin} {join : JoinNode} {left right : PlanTree}
  {frames : List Frame}

theorem exists_convert
    (holds : start.plan.Holds
      ((PlanTree.node candidate.join (.join join) [left, right]).within frames))
    (paired : join.leftExprs.length = join.rightExprs.length) (equalities : join.leftExprs ≠ [])
    (costs : Option (Float × Float)) (side : Side) (report : Report) :
    let contest : Contest := ⟨start.plan, candidate, join, left.id, right.id⟩
    ∃ final, convert candidate.join (contest.input side)
        { start with plan := contest.priced costs, report := report } = .ok true final ∧
      contest.CarriedOut ⟨costs, some side⟩ start final := by
  intro contest
  have priced : (contest.priced costs).Holds ((PlanTree.node candidate.join
      (.join (join.priced costs)) [left, right]).within frames) := by
    cases costs with
    | none => exact holds
    | some costs => exact holds.setKind _
  obtain ⟨final, h, next, rewritten, -⟩ := @convert_succeeds
    { start with plan := contest.priced costs, report := report } _ _ left right frames priced
    (by simpa using paired) (by simpa using equalities) side
  exact ⟨final, h, rewritten, next⟩

theorem settle_of_convert {context : PlanningContext} {dependent : NodeId} {asked : Session}
    (h : Planning.inquire (decide context start.plan candidate) start =
      .ok (.convert dependent) asked) :
    settle context candidate start = convert candidate.join dependent asked := by
  have hplan : Planning.plan start = .ok start.plan start := rfl
  simp only [settle, bind, EStateM.bind, hplan, h]

/-- A specified choice is what settling the candidate comes to. -/
theorem settle_of_specified {context : PlanningContext}
    (holds : start.plan.Holds
      ((PlanTree.node candidate.join (.join join) [left, right]).within frames))
    (paired : join.leftExprs.length = join.rightExprs.length) (equalities : join.leftExprs ≠ [])
    (eligible : candidate.isEligible = true) {choice : Choice} :
    let contest : Contest := ⟨start.plan, candidate, join, left.id, right.id⟩
    contest.Specified context.oracle context.threshold choice →
      ∃ final, settle context candidate start = .ok choice.side.isSome final ∧
        contest.CarriedOut choice start final := by
  intro contest specified
  have member := PlanTree.mem_subtrees_within_self
    (.node candidate.join (.join join) [left, right]) frames
  have hjoin : start.plan.join? candidate.join = some join := holds.join?_eq member
  have finds : (decide context start.plan candidate).Finds
      (decided context start.plan candidate left.id right.id join.strategy) :=
    finds_decide context (holds.firstChild?_eq member) (holds.lastChild?_eq member) hjoin
  obtain ⟨decision, hdecided, meaning⟩ :=
    @decided_of_specified contest context eligible choice specified
  have hdecided : decided context start.plan candidate left.id right.id join.strategy =
    .ok decision := hdecided
  rw [hdecided] at finds
  obtain ⟨events, hdecide⟩ := Planning.inquire_eq_ok finds start
  have converts := exists_convert holds paired equalities
  rcases meaning with ⟨rfl, rfl⟩ | ⟨side, rfl, rfl⟩ | ⟨side, cost, ordinary, rfl, rfl⟩
  · refine ⟨{ start with report := start.report.noteAll events }, ?_, rfl, rfl⟩
    rw [settle, bind_eq_ok_iff]
    refine ⟨start.plan, start, rfl, ?_⟩
    rw [bind_eq_ok_iff]
    exact ⟨.leave, _, hdecide, rfl⟩
  · obtain ⟨final, h, carried⟩ := converts none side (start.report.noteAll events)
    exact ⟨final, (settle_of_convert hdecide).trans h, carried⟩
  · have settles {result : Bool} {final : Session}
        (h : (if cost < ordinary then convert candidate.join (contest.input side)
            else return false) { start with
          plan := contest.priced (some (cost, ordinary))
          report := start.report.noteAll events } = .ok result final) :
        settle context candidate start = .ok result final := by
      rw [settle, bind_eq_ok_iff]
      refine ⟨start.plan, start, rfl, ?_⟩
      rw [bind_eq_ok_iff]
      refine ⟨_, _, hdecide, ?_⟩
      simp only [hjoin]
      rw [bind_eq_ok_iff]
      exact ⟨(), _, rfl, h⟩
    by_cases hcheaper : cost < ordinary
    · rw [if_pos hcheaper] at settles ⊢
      obtain ⟨final, h, carried⟩ := converts (some (cost, ordinary)) side
        (start.report.noteAll events)
      exact ⟨final, settles h, carried⟩
    · rw [if_neg hcheaper] at settles ⊢
      exact ⟨_, settles rfl, rfl, rfl⟩

def contest? (plan : Plan) (candidate : CandidateJoin) : Option Contest :=
  match plan.join? candidate.join, plan.children candidate.join with
  | some join, [left, right] => some ⟨plan, candidate, join, left, right⟩
  | _, _ => none

/-- However the candidates before it have been settled, a candidate is still one in an
accepted plan when its turn comes. -/
theorem mem_candidates_of_settleAll {context : PlanningContext} {first : Session}
    {before : List CandidateJoin} {converted : Bool} (accepted : first.plan.Accepted)
    (chosen : (before ++ [candidate]).Sublist (candidates first.plan))
    (settled : settleAll context before first = .ok converted start) :
    start.plan.Accepted ∧ candidate ∈ candidates start.plan := by
  obtain ⟨holds, shaped⟩ := accepted.holds
  rw [candidates_eq holds shaped] at chosen
  have distinct := (PlanTree.nodup_candidates holds.nodup).sublist (chosen.map _)
  rw [List.map_append, List.nodup_append] at distinct
  have standing := Standing.initial holds
  obtain ⟨outcomes, stands, -, -, frame, -⟩ := Standing.run
    { standing with
      members := fun _ h => chosen.subset (List.mem_append_left _ h)
      distinct := distinct.1
      fresh := fun _ _ => rfl } holds.nodup shaped settled
  have waiting : outcomes candidate.join = .none :=
    frame _ fun member => distinct.2.2 _ member _ (by simp) rfl
  refine ⟨stands.holds.accepted shaped.rebuild, ?_⟩
  rw [candidates_eq stands.holds shaped.rebuild,
    PlanTree.candidates_rebuild shaped stands.sound _ (PlanTree.self_mem_subtrees _),
    List.mem_filter, waiting]
  exact ⟨chosen.subset (by simp), rfl⟩

/-- When its turn comes, a candidate is settled as specified. -/
theorem settle_as_specified {context : PlanningContext} {first : Session}
    {before : List CandidateJoin} {converted : Bool} (accepted : first.plan.Accepted)
    (chosen : (before ++ [candidate]).Sublist (candidates first.plan))
    (settled : settleAll context before first = .ok converted start)
    (finite : context.oracle.Finite) :
    ∃ contest, contest? start.plan candidate = some contest ∧
      (∀ side, contest.forced? = some side → ∃ final,
        contest.CarriedOut ⟨none, some side⟩ start final ∧
        ∀ oracle, settle { context with oracle := oracle } candidate start = .ok true final) ∧
      (∀ choice, contest.Specified context.oracle context.threshold choice → ∃ final,
        settle context candidate start = .ok choice.side.isSome final ∧
        contest.CarriedOut choice start final) ∧
      (contest.Answered context.oracle →
        ∃! choice, contest.Specified context.oracle context.threshold choice) := by
  obtain ⟨accepted, member⟩ := mem_candidates_of_settleAll accepted chosen settled
  obtain ⟨holds, shaped⟩ := accepted.holds
  rw [candidates_eq holds shaped] at member
  obtain ⟨join, left, right, hjoins, hleft, hright, eligible, paired⟩ :=
    PlanTree.exists_of_mem_candidates shaped member
  have inside := PlanTree.joins_subset_subtrees _ hjoins
  obtain ⟨frames, hframes⟩ := PlanTree.exists_within_of_mem inside
  obtain ⟨side, hadmits⟩ := CandidateJoin.exists_admits hleft hright eligible
  have equalities := JoinNode.equalities_of_admits hadmits
  have hjoin : start.plan.join? candidate.join = some join := holds.join?_eq inside
  have inputs : start.plan.children candidate.join = [left.id, right.id] :=
    holds.children_eq inside
  rw [hframes] at holds
  refine ⟨⟨start.plan, candidate, join, left.id, right.id⟩, ?_, ?_, ?_, ?_⟩
  · rw [contest?, hjoin, inputs]
  · intro side forced
    obtain ⟨events, hdecide⟩ :=
      exists_decide_of_forced eligible hjoin inputs forced start.report
    obtain ⟨final, h, carried⟩ :=
      exists_convert holds paired equalities none side (start.report.noteAll events)
    refine ⟨final, carried, fun oracle => ?_⟩
    have hinquire := hdecide { context with oracle := oracle }
    rw [settle_of_convert (by rw [Planning.inquire, hinquire])]
    exact h
  · exact fun choice => settle_of_specified holds paired equalities eligible
  · exact fun answered => Contest.existsUnique_specified finite answered _

end

def openJoin : JoinNode :=
  let first : Expr := .column ⟨.named "pm1.g1", "id", .int64⟩
  let second : Expr := .column ⟨.named "pm2.g2", "id", .int64⟩
  ⟨.inner, .nestedLoop, [.eq first second], [first], [second], none, none, none⟩

def openContest : Contest where
  plan := ⟨[⟨.join openJoin, none, [1, 2]⟩, ⟨.access { group := .named "pm1.g1" }, some 0, []⟩,
    ⟨.access { group := .named "pm2.g2" }, some 0, []⟩], 0⟩
  candidate := ⟨0, true, true⟩
  join := openJoin
  left := 1
  right := 2

theorem accepted_openContest : openContest.plan.Accepted :=
  .of_links (by decide) (by decide) (by decide)

def pricing : CostOracle :=
  ⟨fun _ _ => .ok none, fun _ _ side _ => .ok (some (side.pick 5 3)), fun _ _ _ _ => .ok 10⟩

theorem finite_pricing : pricing.Finite where
  subtree := nofun
  dependent := by
    rintro - - (_ | _) - _ ⟨⟩
    · decide +kernel
    · decide +kernel
  ordinary := by
    rintro - - - - _ ⟨⟩
    decide +kernel

theorem cheapest_pricing : openContest.Cheapest pricing .right 3 where
  mayDepend := rfl
  answered := fun _ _ => ⟨_, rfl⟩
  known := rfl
  least := by
    rintro (_ | _) _ - ⟨⟩
    · decide +kernel
    · decide +kernel
  first := by
    rintro - _ - ⟨⟩
    decide +kernel

theorem openContest_settled_by_cost :
    ∃ final, settle { PlanningContext.permissive with oracle := pricing } openContest.candidate
        (.start openContest.plan .empty 0) = .ok true final ∧
      openContest.CarriedOut ⟨some (3, 10), some .right⟩ (.start openContest.plan .empty 0)
        final := by
  obtain ⟨contest, hcontest, -, settles, -⟩ := @settle_as_specified
    (.start openContest.plan .empty 0) openContest.candidate
    { PlanningContext.permissive with oracle := pricing } (.start openContest.plan .empty 0) []
    false accepted_openContest (List.singleton_sublist.mpr (by decide)) rfl finite_pricing
  obtain rfl : openContest = contest :=
    Option.some.inj ((show contest? openContest.plan openContest.candidate = some openContest
      from rfl).symm.trans hcontest)
  have lt : (3 : Float) < 10 := by decide +kernel
  obtain ⟨final, h, carried⟩ := settles _ (.compared (by decide) cheapest_pricing rfl)
  rw [if_pos lt] at h carried
  exact ⟨final, h, carried⟩

end ChooseDependent

end FederatedQuery
