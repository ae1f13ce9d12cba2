import FederatedQuery.Proofs.Planning.OptimizerRuns

/-!
# Diagnostics

Rules see whether a trace is kept and whether decisions are recorded, and report as they
go.  Two sessions that differ in that are planned alike, step by step and with the same
errors, also when the flags differ.  So what a run comes to depends neither on what is
recorded and traced nor on what had been reported when it began.
-/

namespace FederatedQuery

/-- The sessions differ in the report and in the trace at most. -/
structure Session.Agrees (session other : Session) : Prop where
  plan : other.plan = session.plan
  pending : other.pending = session.pending
  nextValueSource : other.nextValueSource = session.nextValueSource
  executions : other.executions = session.executions

theorem Session.Agrees.refl (session : Session) : session.Agrees session := ⟨rfl, rfl, rfl, rfl⟩

structure PlanningContext.Agrees (context other : PlanningContext) : Prop where
  federation : other.federation = context.federation
  oracle : other.oracle = context.oracle
  threshold : other.threshold = context.threshold

theorem PlanningContext.Agrees.refl (context : PlanningContext) : context.Agrees context :=
  ⟨rfl, rfl, rfl⟩

namespace Report

def Grows (report after : Report) : Prop := ∃ events, after = report.noteAll events

theorem Grows.refl (report : Report) : report.Grows report := ⟨[], rfl⟩

theorem Grows.trans {report middle after : Report} (first : report.Grows middle)
    (second : middle.Grows after) : report.Grows after := by
  obtain ⟨events, rfl⟩ := first
  obtain ⟨more, rfl⟩ := second
  exact ⟨events ++ more, (report.noteAll_append events more).symm⟩

theorem Grows.silent {report after : Report} (grows : report.Grows after)
    (off : report.analysis = .empty false) : after.analysis = .empty false := by
  obtain ⟨events, rfl⟩ := grows
  induction events generalizing report with
  | nil => exact off
  | cons event rest ih =>
      refine @ih (report.note event) ?_
      cases event with
      | decision line => rw [note, off, AnalysisRecord.record, AnalysisRecord.empty, if_neg nofun]
      | log level text => exact off
      | question asked => exact off

end Report

namespace Planning

variable {α β : Type}

/-- Both results are the same but for what has been reported and traced, and the first has
nothing taken back of what the report said. -/
inductive EndAlike (report : Report) :
    EStateM.Result PlanError Session α → EStateM.Result PlanError Session α → Prop
  | ok (value : α) {final other : Session} (agrees : final.Agrees other)
      (grows : report.Grows final.report) : EndAlike report (.ok value final) (.ok value other)
  | error (error : PlanError) {final other : Session} (agrees : final.Agrees other)
      (grows : report.Grows final.report) :
      EndAlike report (.error error final) (.error error other)

theorem EndAlike.after {report middle : Report}
    {result result' : EStateM.Result PlanError Session α}
    (ends : EndAlike middle result result') (grown : report.Grows middle) :
    EndAlike report result result' := by
  cases ends with
  | ok value agrees grows => exact .ok value agrees (grown.trans grows)
  | error error agrees grows => exact .error error agrees (grown.trans grows)

/-- From sessions that differ in report and trace at most, both steps end alike. -/
def Alike (first second : Planning α) : Prop :=
  ∀ ⦃start other : Session⦄, start.Agrees other →
    EndAlike start.report (first start) (second other)

abbrev IgnoresReport (step : Planning α) : Prop := Alike step step

theorem Alike.bind {first second : Planning β} {next next' : β → Planning α}
    (alike : first.Alike second) (rest : ∀ value, (next value).Alike (next' value)) :
    Alike (first >>= next) (second >>= next') := by
  intro start other agrees
  have ends := alike agrees
  simp only [Bind.bind, EStateM.bind]
  generalize first start = result at ends
  generalize second other = result' at ends
  cases ends with
  | ok value agrees grows => exact (rest value agrees).after grows
  | error error agrees grows => exact .error error agrees grows

theorem ignoresReport_pure (value : α) : IgnoresReport (pure value) :=
  fun _ _ agrees => .ok value agrees (.refl _)

theorem ignoresReport_throw (error : PlanError) : IgnoresReport (throw error : Planning α) :=
  fun _ _ agrees => .error error agrees (.refl _)

theorem alike_get_bind {next next' : Session → Planning α}
    (rest : ∀ session other : Session, session.Agrees other →
      (next session).Alike (next' other)) : Alike (get >>= next) (get >>= next') :=
  fun start other agrees => rest start other agrees agrees

theorem ignoresReport_plan : Planning.plan.IgnoresReport :=
  alike_get_bind fun session other agrees => by
    rw [agrees.plan]
    exact ignoresReport_pure _

theorem ignoresReport_modify (change : Session → Session)
    (agree : ∀ {session other : Session}, session.Agrees other →
      (change session).Agrees (change other))
    (same : ∀ session, (change session).report = session.report) : IgnoresReport (modify change) :=
  fun start _ agrees => .ok () (agree agrees) ⟨[], same start⟩

theorem ignoresReport_setPlan (plan : Plan) : (setPlan plan).IgnoresReport :=
  ignoresReport_modify _ (fun agrees => { agrees with plan := rfl }) fun _ => rfl

theorem ignoresReport_setPending (pending : RuleStack) : (setPending pending).IgnoresReport :=
  ignoresReport_modify _ (fun agrees => { agrees with pending := rfl }) fun _ => rfl

theorem ignoresReport_push (rule : RuleName) : (push rule).IgnoresReport :=
  ignoresReport_modify _ (fun agrees => { agrees with pending := by rw [agrees.pending] })
    fun _ => rfl

theorem ignoresReport_finish (execution : Execution) : (finish execution).IgnoresReport :=
  ignoresReport_modify _ (fun agrees => { agrees with executions := by rw [agrees.executions] })
    fun _ => rfl

theorem ignoresReport_takeValueSource : takeValueSource.IgnoresReport := by
  intro start other agrees
  rw [show takeValueSource other = .ok start.nextValueSource
    { other with nextValueSource := start.nextValueSource + 1 } by
      rw [← agrees.nextValueSource]
      rfl]
  exact .ok _ { agrees with nextValueSource := rfl } (.refl _)

theorem ignoresReport_edit (step : PlanStep α) : (edit step).IgnoresReport := by
  intro start other agrees
  rw [edit, edit, agrees.plan]
  cases step start.plan with
  | ok value plan => exact .ok value { agrees with plan := rfl } (.refl _)
  | error error plan => exact .error error { agrees with plan := rfl } (.refl _)

theorem alike_inquire {inquiry inquiry' : Inquiry α} {result : Except PlanError α}
    (finds : inquiry.Finds result) (finds' : inquiry'.Finds result) :
    Alike (inquire inquiry) (inquire inquiry') := by
  intro start other agrees
  rw [inquire, inquire]
  cases hrun : inquiry start.report with
  | ok value report =>
      obtain ⟨rfl, grows⟩ := finds.eq_ok hrun
      obtain ⟨events, hrun'⟩ := finds'.exists_eq_ok other.report
      rw [hrun']
      exact .ok value { agrees with } grows
  | error error report =>
      obtain ⟨rfl, grows⟩ := finds.eq_error hrun
      cases hrun' : inquiry' other.report with
      | ok value report' => cases (finds'.eq_ok hrun').1
      | error error' report' =>
          cases (finds'.eq_error hrun').1
          exact .error error { agrees with } grows

theorem ignoresReport_inquire {inquiry : Inquiry α} {result : Except PlanError α}
    (finds : inquiry.Finds result) : (inquire inquiry).IgnoresReport :=
  alike_inquire finds finds

theorem alike_report (event event' : Event) :
    Alike (inquire (Inquiry.report event)) (inquire (Inquiry.report event')) :=
  alike_inquire (Inquiry.finds_report event) (Inquiry.finds_report event')

theorem alike_keep (kept? kept?' : Option TraceEntry) :
    Alike (match kept? with | some entry => keepEntry entry | none => pure ())
      (match kept?' with | some entry => keepEntry entry | none => pure ()) := by
  intro start other agrees
  cases kept? <;> cases kept?' <;> exact .ok () { agrees with } (.refl _)

end Planning

open Planning

/-! ## The rules -/

theorem CleanCriteria.execute_alike (context context' : PlanningContext) :
    Alike (execute context) (execute context') := by
  have removes (fuel : Nat) : (removeWithin fuel).IgnoresReport := by
    induction fuel with
    | zero => exact ignoresReport_pure _
    | succ fuel ih =>
        refine ignoresReport_plan.bind fun plan => ?_
        split
        · exact ignoresReport_pure _
        · refine (ignoresReport_inquire (Inquiry.finds_reportAll _)).bind fun _ => ?_
          exact (ignoresReport_edit _).bind fun _ => ih.bind fun _ => ignoresReport_pure _
  exact ignoresReport_plan.bind fun plan => removes plan.size

namespace PushSelect

variable {context context' : PlanningContext}

theorem pushFilter_alike (agrees : context.Agrees context') (id : NodeId) :
    Alike (pushFilter context id) (pushFilter context' id) := by
  refine ignoresReport_plan.bind fun plan => ?_
  cases plan.accessBelow? id with
  | none => exact ignoresReport_pure _
  | some accessId =>
      simp only
      cases plan.select? id with
      | none => exact ignoresReport_pure _
      | some select =>
          simp only
          cases (plan.access? accessId).bind (·.model) with
          | none => exact ignoresReport_pure _
          | some model =>
              simp only [agrees.federation]
              refine (ignoresReport_inquire (Inquiry.finds_ofExcept _)).bind fun verdict => ?_
              cases verdict with
              | rejected cause =>
                  exact (ignoresReport_inquire (Inquiry.finds_reportAll _)).bind fun _ =>
                    ignoresReport_pure _
              | accepted =>
                  refine (ignoresReport_edit _).bind fun _ => ignoresReport_plan.bind fun _ => ?_
                  refine (ignoresReport_setPlan _).bind fun _ => ?_
                  exact (alike_report _ _).bind fun _ => ignoresReport_pure _

theorem execute_alike (agrees : context.Agrees context') :
    Alike (execute context) (execute context') := by
  have pushes (waiting : List NodeId) :
      Alike (pushFilters context waiting) (pushFilters context' waiting) := by
    induction waiting with
    | nil => exact ignoresReport_pure _
    | cons id rest ih =>
        exact (pushFilter_alike agrees id).bind fun _ => ih.bind fun _ => ignoresReport_pure _
  exact ignoresReport_plan.bind fun plan => pushes (filters plan)

end PushSelect

namespace ChooseDependent

variable {context context' : PlanningContext}

theorem decided_eq_of_agrees (agrees : context.Agrees context') (plan : Plan)
    (candidate : CandidateJoin) (left right : NodeId) (strategy : JoinStrategy) :
    decided context' plan candidate left right strategy =
      decided context plan candidate left right strategy := by
  simp only [decided, weighed, compared, agrees.oracle, agrees.threshold]

theorem exists_finds_decide (agrees : context.Agrees context') (plan : Plan)
    (candidate : CandidateJoin) :
    ∃ result, (decide context plan candidate).Finds result ∧
      (decide context' plan candidate).Finds result := by
  cases hleft : plan.firstChild? candidate.join with
  | none =>
      simp only [decide, hleft]
      exact ⟨_, Inquiry.finds_throw _, Inquiry.finds_throw _⟩
  | some left =>
      cases hright : plan.lastChild? candidate.join with
      | none =>
          simp only [decide, hleft, hright]
          exact ⟨_, Inquiry.finds_throw _, Inquiry.finds_throw _⟩
      | some right =>
          cases hjoin : plan.join? candidate.join with
          | none =>
              simp only [decide, hleft, hright, hjoin]
              exact ⟨_, Inquiry.finds_throw _, Inquiry.finds_throw _⟩
          | some payload =>
              refine ⟨_, finds_decide context hleft hright hjoin, ?_⟩
              rw [← decided_eq_of_agrees agrees]
              exact finds_decide context' hleft hright hjoin

theorem convert_ignoresReport (id child : NodeId) : (convert id child).IgnoresReport := by
  refine ignoresReport_plan.bind fun plan => ?_
  cases plan.join? id with
  | none => exact ignoresReport_throw _
  | some join =>
      have last (source : String) : IgnoresReport (do
          inquire (.debug (s!"Made {(← Planning.plan).describe child} dependent " ++
            s!"with value source {source}"))
          return true) :=
        ignoresReport_plan.bind fun _ =>
          (alike_report _ _).bind fun _ => ignoresReport_pure _
      simp only
      cases plan.firstChild? id == some child with
      | false =>
          simp only [Bool.false_eq_true, if_false]
          split
          · exact ignoresReport_pure _
          · exact ignoresReport_takeValueSource.bind fun _ =>
              (ignoresReport_setPlan _).bind fun _ => last _
      | true =>
          simp only [if_true]
          split
          · exact ignoresReport_pure _
          · refine ignoresReport_takeValueSource.bind fun _ => ?_
            refine (ignoresReport_setPlan _).bind fun _ => ?_
            exact (ignoresReport_edit _).bind fun _ => last _

theorem settle_alike (agrees : context.Agrees context') (candidate : CandidateJoin) :
    Alike (settle context candidate) (settle context' candidate) := by
  refine ignoresReport_plan.bind fun plan => ?_
  obtain ⟨result, finds, finds'⟩ := exists_finds_decide agrees plan candidate
  refine (alike_inquire finds finds').bind fun decision => ?_
  cases decision with
  | leave => exact ignoresReport_pure _
  | convert dependent => exact convert_ignoresReport _ _
  | compareCosts dependent cost ordinary =>
      have last : IgnoresReport
          (if cost < ordinary then convert candidate.join dependent else return false) := by
        split
        · exact convert_ignoresReport _ _
        · exact ignoresReport_pure _
      simp only
      cases plan.join? candidate.join with
      | none => exact last
      | some join => exact (ignoresReport_setPlan _).bind fun _ => last

theorem execute_alike (agrees : context.Agrees context') :
    Alike (execute context) (execute context') := by
  have settles (waiting : List CandidateJoin) :
      Alike (settleAll context waiting) (settleAll context' waiting) := by
    induction waiting with
    | nil => exact ignoresReport_pure _
    | cons candidate rest ih =>
        exact (settle_alike agrees candidate).bind fun _ =>
          ih.bind fun _ => ignoresReport_pure _
  refine ignoresReport_plan.bind fun plan => ?_
  refine (ignoresReport_inquire (Inquiry.finds_reportAll _)).bind fun _ => ?_
  refine (settles (candidates plan)).bind fun converted => ?_
  cases converted with
  | false => exact ignoresReport_pure _
  | true =>
      exact (ignoresReport_push _).bind fun _ =>
        (ignoresReport_push _).bind fun _ => ignoresReport_pure _

end ChooseDependent

/-! ## Runs -/

namespace Optimizer

def outcome (optimizer : Optimizer) (federation : Federation) (oracle : CostOracle)
    (start : Session) : Except PlanError (Plan × Nat × Nat) :=
  match optimizer.run federation oracle start with
  | .ok result _ => .ok (result.plan, result.executions, result.applied)
  | .error error _ => .error error

variable {optimizer other : Optimizer} {context context' : PlanningContext}

theorem Bundled.runRule_alike (bundled : optimizer.Bundled) (same : other.rules = optimizer.rules)
    (agrees : context.Agrees context') (name : RuleName) :
    Alike (optimizer.runRule context name) (other.runRule context' name) := by
  rw [runRule, runRule, same]
  cases found : optimizer.rules name with
  | none => exact ignoresReport_throw _
  | some rule =>
      have executes : Alike (rule.execute context) (rule.execute context') := by
        rcases bundled name rule found with rfl | rfl | rfl
        · exact ChooseDependent.execute_alike agrees
        · exact CleanCriteria.execute_alike context context'
        · exact PushSelect.execute_alike agrees
      refine ignoresReport_plan.bind fun before => executes.bind fun changed => ?_
      refine ignoresReport_plan.bind fun after => (ignoresReport_finish _).bind fun _ => ?_
      cases changed with
      | false => exact ignoresReport_pure _
      | true =>
          simp only [if_true]
          refine alike_get_bind fun _ _ _ => (alike_report _ _).bind fun _ => ?_
          cases optimizer.config.optimizer.enableTrace <;>
            cases other.config.optimizer.enableTrace
          · exact alike_keep none none
          · exact alike_keep none (some _)
          · exact alike_keep (some _) none
          · exact alike_keep (some _) (some _)

theorem Bundled.runWithin_alike (bundled : optimizer.Bundled)
    (same : other.rules = optimizer.rules) (agrees : context.Agrees context') (budget : Nat) :
    Alike (optimizer.runWithin context budget) (other.runWithin context' budget) := by
  induction budget with
  | zero =>
      refine alike_get_bind fun session other agrees => ?_
      simp only [agrees.pending]
      split
      · exact alike_report _ _
      · exact ignoresReport_pure _
  | succ budget ih =>
      refine alike_get_bind fun session other agrees => ?_
      rw [agrees.pending]
      split
      · exact ignoresReport_pure _
      · exact (ignoresReport_setPending _).bind fun _ =>
          (bundled.runRule_alike same ‹context.Agrees context'› _).bind fun _ => ih

theorem Bundled.runWithin_grows (bundled : optimizer.Bundled) {budget : Nat} {value : Unit}
    {start final : Session} (h : optimizer.runWithin context budget start = .ok value final) :
    start.report.Grows final.report := by
  have ends := bundled.runWithin_alike rfl (.refl context) budget (.refl start)
  rw [h] at ends
  cases ends with
  | ok _ _ grows => exact grows

theorem outcome_eq (federation : Federation) (oracle : CostOracle) (start : Session) :
    optimizer.outcome federation oracle start =
      match optimizer.runWithin (optimizer.context federation oracle)
        optimizer.config.optimizer.maxRuleExecutions.toNat
        (start.opened optimizer.config.optimizer.recordDebug) with
      | .ok _ final => .ok (final.plan, final.executions.length,
          (final.executions.filter Execution.changed).length)
      | .error error _ => .error error := by
  have opens : Planning.openRecords optimizer.config.optimizer.recordDebug start =
    .ok () (start.opened optimizer.config.optimizer.recordDebug) := rfl
  simp only [outcome, run, bind, EStateM.bind, opens]
  cases optimizer.runWithin (optimizer.context federation oracle)
    optimizer.config.optimizer.maxRuleExecutions.toNat
    (start.opened optimizer.config.optimizer.recordDebug) <;> rfl

/-- Neither what is recorded or traced nor what has been reported before makes a difference
to what a run comes to. -/
theorem outcome_eq_of_agrees {config config' : Config}
    (most : config'.optimizer.maxRuleExecutions = config.optimizer.maxRuleExecutions)
    (threshold : config'.dependentJoin.independentCardinalityThreshold =
      config.dependentJoin.independentCardinalityThreshold)
    (federation : Federation) (oracle : CostOracle) {start start' : Session}
    (agrees : start.Agrees start') :
    (standard config').outcome federation oracle start' =
        (standard config).outcome federation oracle start ∧
      (config.optimizer.recordDebug = false → ∀ result final,
        (standard config).run federation oracle start = .ok result final →
          result.analysis.lines = []) := by
  refine ⟨?_, fun off result final h => ?_⟩
  · have contexts : ((standard config).context federation oracle).Agrees
        ((standard config').context federation oracle) := ⟨rfl, rfl, threshold⟩
    have opened : (start.opened config.optimizer.recordDebug).Agrees
        (start'.opened config'.optimizer.recordDebug) := { agrees with }
    have rules : (standard config').rules = (standard config).rules := rfl
    have ends := (bundled_standard config).runWithin_alike rules contexts
      config.optimizer.maxRuleExecutions.toNat opened
    rw [outcome_eq, outcome_eq, show (standard config').config = config' from rfl, most,
      show (standard config).config = config from rfl]
    generalize (standard config).runWithin _ _ _ = result at ends ⊢
    generalize (standard config').runWithin _ _ _ = result' at ends ⊢
    cases ends with
    | error error agrees => rfl
    | ok value agrees => simp only [agrees.plan, agrees.executions]
  · obtain ⟨hrun, rfl⟩ := run_eq_ok h
    have grows := (bundled_standard config).runWithin_grows hrun
    have silent : (start.opened config.optimizer.recordDebug).report.analysis = .empty false := by
      rw [off]
      rfl
    rw [OptimizedPlan.ofSession, grows.silent silent]
    rfl

theorem hintedJoin_outcome_recorded :
    let silent : Config := {}
    let recording : Config := { optimizer := { enableTrace := true, recordDebug := true } }
    let federation := PlanningContext.permissive.federation
    let oracle := PlanningContext.permissive.oracle
    let start := Session.start hintedJoin ordinaryRules 0
    let start' : Session := { start with
      report := start.report.note (.log .debug "Waiting for statistics") }
    (standard recording).outcome federation oracle start' =
        (standard silent).outcome federation oracle start ∧
      (∃ result final, (standard silent).run federation oracle start = .ok result final ∧
        result.applied = 1 ∧ result.analysis.lines = []) ∧
      ∃ result final, (standard recording).run federation oracle start = .ok result final ∧
        result.analysis.lines ≠ [] := by
  intro silent recording federation oracle start start'
  obtain ⟨same, unrecorded⟩ := @outcome_eq_of_agrees silent recording rfl rfl federation oracle
    start start' ⟨rfl, rfl, rfl, rfl⟩
  obtain ⟨result, final, h, happlied⟩ := Planning.exists_of_succeeds (show Planning.succeeds
    ((standard silent).run federation oracle) start (fun result _ => result.applied == 1) = true by
      decide +kernel)
  obtain ⟨recorded, last, h', hlines⟩ := Planning.exists_of_succeeds (show Planning.succeeds
    ((standard recording).run federation oracle) start
    (fun result _ => !result.analysis.lines.isEmpty) = true by decide +kernel)
  refine ⟨same, ⟨result, final, h, beq_iff_eq.mp happlied, unrecorded rfl result final h⟩,
    recorded, last, h', fun none => ?_⟩
  rw [none] at hlines
  cases hlines

end Optimizer

end FederatedQuery
