import FederatedQuery.Proofs.Planning.Moves
import FederatedQuery.Proofs.Planning.Reports

/-!
# Executions of rules

A run is a chain of executions, each of the rule on top of the stack.  An execution
takes its rule off, and a change by the rule for dependent joins puts two others
there.  So the work that waits gets less with every execution, and the number of
executions follows from the stack and from the changes.
-/

namespace FederatedQuery

/-! ## What rules do to the stack -/

/-- What is kept of a session beside the plan, its value sources and the report. -/
def Session.agenda (session : Session) : RuleStack × List Execution × List TraceEntry :=
  (session.pending, session.executions, session.trace)

namespace Planning

variable {α β : Type}

def KeepsAgenda (step : Planning α) : Prop :=
  ∀ ⦃start final : Session⦄ ⦃value : α⦄, step start = .ok value final →
    final.agenda = start.agenda

theorem KeepsAgenda.bind {first : Planning β} {next : β → Planning α} (keeps : first.KeepsAgenda)
    (rest : ∀ value, (next value).KeepsAgenda) : KeepsAgenda (first >>= next) := by
  intro start final result h
  obtain ⟨value, middle, hfirst, hnext⟩ := bind_eq_ok_iff.mp h
  exact (rest value hnext).trans (keeps hfirst)

theorem keepsAgenda_pure (value : α) : KeepsAgenda (pure value) := by
  intro start final result h
  rw [(pure_eq_ok_iff.mp h).2]

theorem keepsAgenda_throw (error : PlanError) : KeepsAgenda (throw error : Planning α) := nofun

theorem keepsAgenda_plan : Planning.plan.KeepsAgenda := by
  intro start final result h
  rw [(plan_eq_ok_iff.mp h).2]

theorem keepsAgenda_setPlan (plan : Plan) : (setPlan plan).KeepsAgenda := by
  intro start final result h
  rw [← setPlan_eq_ok_iff.mp h]
  rfl

theorem keepsAgenda_takeValueSource : takeValueSource.KeepsAgenda := by
  intro start final result h
  rw [← (takeValueSource_eq_ok_iff.mp h).2]
  rfl

theorem keepsAgenda_inquire (inquiry : Inquiry α) : (inquire inquiry).KeepsAgenda := by
  intro start final result h
  rw [inquire] at h
  cases hrun : inquiry start.report with
  | ok value report =>
      rw [hrun] at h
      cases h
      rfl
  | error error report =>
      rw [hrun] at h
      cases h

theorem keepsAgenda_edit (step : PlanStep α) : (edit step).KeepsAgenda := by
  intro start final result h
  obtain ⟨plan, -, rfl⟩ := edit_eq_ok_iff.mp h
  rfl

end Planning

open Planning

theorem CleanCriteria.execute_keepsAgenda (context : PlanningContext) :
    (execute context).KeepsAgenda := by
  have removes (fuel : Nat) : (removeWithin fuel).KeepsAgenda := by
    induction fuel with
    | zero => exact keepsAgenda_pure _
    | succ fuel ih =>
        refine keepsAgenda_plan.bind fun plan => ?_
        split
        · exact keepsAgenda_pure _
        · refine (keepsAgenda_inquire _).bind fun _ => (keepsAgenda_edit _).bind fun _ => ?_
          exact ih.bind fun _ => keepsAgenda_pure _
  exact keepsAgenda_plan.bind fun plan => removes plan.size

theorem PushSelect.execute_keepsAgenda (context : PlanningContext) :
    (execute context).KeepsAgenda := by
  have pushes (id : NodeId) : (pushFilter context id).KeepsAgenda := by
    refine keepsAgenda_plan.bind fun plan => ?_
    split
    · split
      · split
        · refine (keepsAgenda_inquire _).bind fun verdict => ?_
          cases verdict with
          | rejected cause => exact (keepsAgenda_inquire _).bind fun _ => keepsAgenda_pure _
          | accepted =>
              refine (keepsAgenda_edit _).bind fun _ => keepsAgenda_plan.bind fun _ => ?_
              refine (keepsAgenda_setPlan _).bind fun _ => ?_
              exact (keepsAgenda_inquire _).bind fun _ => keepsAgenda_pure _
        · exact keepsAgenda_pure _
      · exact keepsAgenda_pure _
    · exact keepsAgenda_pure _
  have all (waiting : List NodeId) : (pushFilters context waiting).KeepsAgenda := by
    induction waiting with
    | nil => exact keepsAgenda_pure _
    | cons id rest ih =>
        exact (pushes id).bind fun _ => ih.bind fun _ => keepsAgenda_pure _
  exact keepsAgenda_plan.bind fun plan => all (filters plan)

namespace ChooseDependent

theorem convert_keepsAgenda (id child : NodeId) : (convert id child).KeepsAgenda := by
  refine keepsAgenda_plan.bind fun plan => ?_
  cases plan.join? id with
  | none => exact keepsAgenda_throw _
  | some join =>
      have last (source : String) : KeepsAgenda (do
          inquire (.debug (s!"Made {(← Planning.plan).describe child} dependent " ++
            s!"with value source {source}"))
          return true) :=
        keepsAgenda_plan.bind fun _ => (keepsAgenda_inquire _).bind fun _ => keepsAgenda_pure _
      simp only
      cases plan.firstChild? id == some child with
      | false =>
          simp only [Bool.false_eq_true, if_false]
          split
          · exact keepsAgenda_pure _
          · exact keepsAgenda_takeValueSource.bind fun _ => (keepsAgenda_setPlan _).bind fun _ =>
              last _
      | true =>
          simp only [if_true]
          split
          · exact keepsAgenda_pure _
          · exact keepsAgenda_takeValueSource.bind fun _ => (keepsAgenda_setPlan _).bind fun _ =>
              (keepsAgenda_edit _).bind fun _ => last _

theorem settleAll_keepsAgenda (context : PlanningContext) (waiting : List CandidateJoin) :
    (settleAll context waiting).KeepsAgenda := by
  have settles (candidate : CandidateJoin) : (settle context candidate).KeepsAgenda := by
    refine keepsAgenda_plan.bind fun plan => (keepsAgenda_inquire _).bind fun decision => ?_
    cases decision with
    | leave => exact keepsAgenda_pure _
    | convert dependent => exact convert_keepsAgenda _ _
    | compareCosts dependent cost ordinary =>
        have last : KeepsAgenda
            (if cost < ordinary then convert candidate.join dependent else return false) := by
          split
          · exact convert_keepsAgenda _ _
          · exact keepsAgenda_pure _
        simp only
        cases plan.join? candidate.join with
        | none => exact last
        | some join => exact (keepsAgenda_setPlan _).bind fun _ => last
  induction waiting with
  | nil => exact keepsAgenda_pure _
  | cons candidate rest ih =>
      exact (settles candidate).bind fun _ => ih.bind fun _ => keepsAgenda_pure _

theorem execute_agenda {context : PlanningContext} {start final : Session} {changed : Bool}
    (h : execute context start = .ok changed final) :
    final.executions = start.executions ∧ final.trace = start.trace ∧
      final.pending = if changed then (start.pending.push .pushSelectCriteria).push .cleanCriteria
        else start.pending := by
  rw [execute] at h
  simp only [bind_eq_ok_iff] at h
  obtain ⟨plan, _, hplan, _, middle, hreport, converted, after, hsettle, h⟩ := h
  have kept := ((settleAll_keepsAgenda context _ hsettle).trans
    (keepsAgenda_inquire _ hreport)).trans (keepsAgenda_plan hplan)
  simp only [Session.agenda, Prod.mk.injEq] at kept
  obtain ⟨pending, executions, trace⟩ := kept
  cases converted with
  | true =>
      simp only [if_true, bind_eq_ok_iff, push_eq_ok_iff, pure_eq_ok_iff] at h
      obtain ⟨_, _, rfl, _, _, rfl, rfl, rfl⟩ := h
      exact ⟨executions, trace, by simp [pending]⟩
  | false =>
      simp only [Bool.false_eq_true, if_false, pure_eq_ok_iff] at h
      obtain ⟨rfl, rfl⟩ := h
      exact ⟨executions, trace, by simp [pending]⟩

end ChooseDependent

/-! ## One execution -/

/-- How many executions a stack may lead to. -/
def RuleStack.weight (stack : RuleStack) : Nat :=
  stack.length + 2 * stack.pending.count .chooseDependent

theorem RuleStack.pop?_eq_some_iff {stack rest : RuleStack} {name : RuleName} :
    stack.pop? = some (name, rest) ↔ stack.pending = name :: rest.pending := by
  obtain ⟨pending⟩ := stack
  obtain ⟨others⟩ := rest
  cases pending <;> simp [RuleStack.pop?]

theorem RuleStack.pop?_eq_none_iff {stack : RuleStack} :
    stack.pop? = none ↔ stack.pending = [] := by
  obtain ⟨pending⟩ := stack
  cases pending <;> simp [RuleStack.pop?]

namespace Execution

def converts (execution : Execution) : Bool :=
  execution.rule == .chooseDependent && execution.changed

def followUps (execution : Execution) : List RuleName :=
  if execution.converts then [.cleanCriteria, .pushSelectCriteria] else []

def entries (tracing : Bool) (execution : Execution) : List TraceEntry :=
  if tracing && execution.changed then [.ofExecution execution] else []

theorem flatMap_entries (tracing : Bool) (executions : List Execution) :
    executions.flatMap (entries tracing) =
      if tracing then (executions.filter changed).map .ofExecution else [] := by
  induction executions with
  | nil => cases tracing <;> rfl
  | cons execution rest ih =>
      rw [List.flatMap_cons, ih, entries, List.filter_cons]
      cases tracing <;> cases execution.changed <;> rfl

/-- What an execution has done to a session without the rule, beside the report. -/
structure Does (tracing : Bool) (execution : Execution) (start final : Session) : Prop where
  before : execution.before = start.plan
  after : execution.after = final.plan
  accepted : final.plan.Accepted
  pending : final.pending.pending = execution.followUps ++ start.pending.pending
  recorded : final.executions = start.executions ++ [execution]
  traced : final.trace = start.trace ++ execution.entries tracing
  reports : execution.changed = false ↔ final.plan.unpriced = start.plan.unpriced
  sources : start.plan.KeepsSources final.plan
  converted : (∃ id, start.plan.ConvertedAt final.plan id) ↔ execution.converts = true
  cleaned : execution.rule = .cleanCriteria → CleanCriteria.findRedundant? final.plan = none

end Execution

def Session.recorded (session : Session) (tracing : Bool) (execution : Execution)
    (report : Report) : Session :=
  { session with
    executions := session.executions ++ [execution]
    trace := session.trace ++ execution.entries tracing
    report := report }

namespace Optimizer

variable {optimizer : Optimizer} {context : PlanningContext} {start final : Session}

theorem runRule_eq_ok {name : RuleName} {value : Unit}
    (h : optimizer.runRule context name start = .ok value final) :
    ∃ rule changed middle report, optimizer.rules name = some rule ∧
      rule.execute context start = .ok changed middle ∧
      final = middle.recorded optimizer.config.optimizer.enableTrace
        ⟨name, rule.name, start.plan, middle.plan, changed⟩ report := by
  rw [runRule] at h
  cases found : optimizer.rules name with
  | none =>
      rw [found] at h
      cases h
  | some rule =>
      simp only [found, bind_eq_ok_iff, plan_eq_ok_iff, finish_eq_ok_iff] at h
      obtain ⟨_, _, ⟨rfl, rfl⟩, changed, middle, hexecute, _, _, ⟨rfl, rfl⟩, _, _, rfl, h⟩ := h
      cases changed with
      | false =>
          simp only [Bool.false_eq_true, if_false, pure_eq_ok_iff] at h
          refine ⟨rule, false, middle, middle.report, rfl, hexecute, ?_⟩
          simp [← h.2, Session.recorded, Execution.entries]
      | true =>
          simp only [if_true, bind_eq_ok_iff, get_eq_ok_iff] at h
          obtain ⟨_, _, ⟨rfl, rfl⟩, _, _, hreport, h⟩ := h
          obtain ⟨-, events, rfl⟩ := eq_ok_of_inquire (Inquiry.finds_report _) hreport
          refine ⟨rule, true, middle, middle.report.noteAll events, rfl, hexecute, ?_⟩
          cases tracing : optimizer.config.optimizer.enableTrace with
          | false =>
              simp only [tracing, Bool.false_eq_true, if_false, pure_eq_ok_iff] at h
              simp [← h.2, Session.recorded, Execution.entries]
          | true =>
              simp only [tracing, if_true, keepEntry_eq_ok_iff] at h
              simp [← h, Session.recorded, Execution.entries, TraceEntry.ofExecution]

theorem does_of_execute {config : Config} {name : RuleName} {rule : Rule} {changed : Bool}
    {middle : Session} (accepted : start.plan.Accepted)
    (found : (standard config).rules name = some rule)
    (h : rule.execute context start = .ok changed middle) (tracing : Bool) (report : Report) :
    Execution.Does tracing ⟨name, rule.name, start.plan, middle.plan, changed⟩ start
      (middle.recorded tracing ⟨name, rule.name, start.plan, middle.plan, changed⟩ report) := by
  obtain ⟨holds, shaped⟩ := accepted.holds
  have bundled := bundled_standard config
  obtain ⟨new, hnew, hshaped, -⟩ := bundled.execute_moves found context holds shaped
    (show Planning.EndsWith _ _ (.ok changed) _ from h)
  have reports := Rule.reports (bundled name rule found) holds shaped h
  have ofFilters (filters : rule = cleanCriteria ∨ rule = pushSelectCriteria)
      (other : (name == .chooseDependent) = false)
      (cleaned : name = .cleanCriteria → CleanCriteria.findRedundant? middle.plan = none) :
      Execution.Does tracing ⟨name, rule.name, start.plan, middle.plan, changed⟩ start
        (middle.recorded tracing ⟨name, rule.name, start.plan, middle.plan, changed⟩ report) := by
    obtain ⟨_, _, effect⟩ := Rule.exists_effect filters holds shaped h
    have agenda : middle.agenda = start.agenda := by
      rcases filters with rfl | rfl
      · exact CleanCriteria.execute_keepsAgenda context h
      · exact PushSelect.execute_keepsAgenda context h
    simp only [Session.agenda, Prod.mk.injEq] at agenda
    obtain ⟨pending, executions, trace⟩ := agenda
    refine ⟨rfl, rfl, hnew.accepted hshaped, ?_, by rw [Session.recorded, executions],
      by rw [Session.recorded, trace], reports, .of_join?_eq effect.joins, ?_, cleaned⟩
    · simp [Session.recorded, Execution.followUps, Execution.converts, other, pending]
    · simp only [Execution.converts, other, Bool.false_and, Bool.false_eq_true, iff_false,
        not_exists]
      exact fun id => Plan.KeepsSources.not_convertedAt_of_join?_eq (effect.joins id)
  cases name with
  | chooseDependent =>
      cases found
      obtain ⟨executions, trace, pending⟩ := ChooseDependent.execute_agenda h
      have converts := ChooseDependent.execute_converts holds shaped h
      refine ⟨rfl, rfl, hnew.accepted hshaped, ?_, by rw [Session.recorded, executions],
        by rw [Session.recorded, trace], reports, converts.converts.keepsSources, ?_, nofun⟩
      · rw [Session.recorded, pending]
        cases changed <;> rfl
      · change (∃ id, start.plan.ConvertedAt middle.plan id) ↔ _
        rw [← converts.exact_iff]
        cases changed <;> rfl
  | cleanCriteria =>
      cases found
      have cleaned := @CleanCriteria.findRedundant?_of_execute context _ _ _ _ holds shaped h
      exact ofFilters (.inl rfl) rfl fun _ => cleaned
  | pushSelectCriteria =>
      cases found
      exact ofFilters (.inr rfl) rfl nofun

/-! ## Chains of executions -/

structure Executes (optimizer : Optimizer) (context : PlanningContext) (start : Session)
    (execution : Execution) (final : Session) : Prop where
  run : ∃ rest, start.pending.pop? = some (execution.rule, rest) ∧
    optimizer.runRule context execution.rule { start with pending := rest } = .ok () final
  recorded : final.executions = start.executions ++ [execution]

/-- Rules are run one after the other, each the one then on top of the stack. -/
inductive Performs (optimizer : Optimizer) (context : PlanningContext) :
    Session → List Execution → Session → Prop
  | nothing (session : Session) : Performs optimizer context session [] session
  | first {start middle final : Session} {execution : Execution} {executions : List Execution}
      (executes : optimizer.Executes context start execution middle)
      (rest : Performs optimizer context middle executions final) :
      Performs optimizer context start (execution :: executions) final

def Halts (optimizer : Optimizer) (context : PlanningContext) (session : Session) : Prop :=
  session.pending.pending = [] ∨ ∃ name rest error failed,
    session.pending.pop? = some (name, rest) ∧
      optimizer.runRule context name { session with pending := rest } = .error error failed

variable {config : Config} {execution : Execution} {executions : List Execution}

theorem exists_executes {name : RuleName} {rest : RuleStack} (accepted : start.plan.Accepted)
    (popped : start.pending.pop? = some (name, rest))
    (h : (standard config).runRule context name { start with pending := rest } = .ok () final) :
    ∃ execution, execution.rule = name ∧
      (standard config).Executes context start execution final ∧
      execution.Does config.optimizer.enableTrace { start with pending := rest } final := by
  obtain ⟨rule, changed, middle, report, found, hexecute, rfl⟩ := runRule_eq_ok h
  have ready : ({ start with pending := rest } : Session).plan.Accepted := accepted
  have does := does_of_execute ready found hexecute config.optimizer.enableTrace report
  exact ⟨_, rfl, ⟨⟨rest, popped, h⟩, does.recorded⟩, does⟩

theorem Executes.does (executes : (standard config).Executes context start execution final)
    (accepted : start.plan.Accepted) :
    ∃ rest : RuleStack, start.pending.pending = execution.rule :: rest.pending ∧
      execution.Does config.optimizer.enableTrace { start with pending := rest } final := by
  obtain ⟨⟨rest, popped, h⟩, recorded⟩ := executes
  obtain ⟨other, -, executes', does⟩ := exists_executes accepted popped h
  have same := recorded.symm.trans executes'.recorded
  rw [List.append_cancel_left_eq, List.singleton_inj] at same
  exact ⟨rest, RuleStack.pop?_eq_some_iff.mp popped, same ▸ does⟩

/-- Either rule that a conversion puts on the stack leads to one execution, and not to three. -/
theorem Executes.weight_lt (executes : (standard config).Executes context start execution final)
    (accepted : start.plan.Accepted) : final.pending.weight < start.pending.weight := by
  obtain ⟨rest, popped, does⟩ := executes.does accepted
  rw [RuleStack.weight, RuleStack.weight, RuleStack.length, RuleStack.length, does.pending, popped,
    Execution.followUps, Execution.converts]
  cases hrule : execution.rule <;> cases hchanged : execution.changed <;> simp <;> omega

namespace Performs

theorem recorded (performs : optimizer.Performs context start executions final) :
    final.executions = start.executions ++ executions := by
  induction performs with
  | nothing => simp
  | first executes _ ih => rw [ih, executes.recorded, List.append_assoc, List.singleton_append]

theorem exists_middle {before after : List Execution}
    (performs : optimizer.Performs context start (before ++ after) final) :
    ∃ middle, optimizer.Performs context start before middle ∧
      optimizer.Performs context middle after final := by
  induction before generalizing start with
  | nil => exact ⟨start, .nothing start, performs⟩
  | cons execution before ih =>
      cases performs with
      | first executes rest =>
          obtain ⟨middle, first, second⟩ := ih rest
          exact ⟨middle, .first executes first, second⟩

variable (performs : (standard config).Performs context start executions final)
  (accepted : start.plan.Accepted)

include performs accepted

theorem accepted_final : final.plan.Accepted := by
  induction performs with
  | nothing => exact accepted
  | first executes _ ih =>
      obtain ⟨rest, -, does⟩ := executes.does accepted
      exact ih does.accepted

theorem traced : final.trace =
    start.trace ++ executions.flatMap (Execution.entries config.optimizer.enableTrace) := by
  induction performs with
  | nothing => simp
  | first executes _ ih =>
      obtain ⟨rest, -, does⟩ := executes.does accepted
      rw [ih does.accepted, does.traced, List.flatMap_cons, List.append_assoc]

theorem length_add : final.pending.length + executions.length =
    start.pending.length + 2 * executions.countP Execution.converts := by
  induction performs with
  | nothing => simp
  | @first start middle final execution executions executes _ ih =>
      obtain ⟨rest, popped, does⟩ := executes.does accepted
      have balance := ih does.accepted
      rw [RuleStack.length, RuleStack.length, does.pending, Execution.followUps] at balance
      rw [RuleStack.length, RuleStack.length, popped, List.countP_cons]
      cases hconverts : execution.converts <;>
        simp only [hconverts, Bool.false_eq_true, if_false, if_true, List.nil_append,
          List.cons_append, List.length_cons] at balance ⊢ <;> omega

theorem count_add_le : final.pending.pending.count .chooseDependent +
    executions.countP Execution.converts ≤ start.pending.pending.count .chooseDependent := by
  induction performs with
  | nothing => simp
  | @first start middle final execution executions executes _ ih =>
      obtain ⟨rest, popped, does⟩ := executes.does accepted
      have balance := ih does.accepted
      rw [does.pending, Execution.followUps, Execution.converts] at balance
      rw [popped, List.countP_cons, Execution.converts]
      cases hrule : execution.rule <;> cases hchanged : execution.changed <;>
        simp [hrule, hchanged] at balance ⊢ <;> omega

theorem length_le_weight : executions.length ≤ start.pending.weight := by
  have balance := performs.length_add accepted
  have counted := performs.count_add_le accepted
  rw [RuleStack.weight]
  omega

theorem converted_iff : start.plan.KeepsSources final.plan ∧
    ((∃ id, start.plan.ConvertedAt final.plan id) ↔
      ∃ execution ∈ executions, execution.converts = true) := by
  induction performs with
  | nothing session =>
      have same (id : NodeId) : session.plan.join? id = session.plan.join? id := rfl
      refine ⟨.of_join?_eq same, ?_⟩
      simpa using fun id => Plan.KeepsSources.not_convertedAt_of_join?_eq (same id)
  | first executes _ ih =>
      obtain ⟨rest, -, does⟩ := executes.does accepted
      obtain ⟨keeps, later⟩ := ih does.accepted
      refine ⟨does.sources.trans keeps, ?_⟩
      simp only [does.sources.convertedAt_iff keeps, exists_or, does.converted, later,
        List.mem_cons, or_and_right, exists_or, exists_eq_left]

theorem cleaned : ∀ execution ∈ executions, execution.rule = .cleanCriteria →
    CleanCriteria.findRedundant? execution.after = none := by
  induction performs with
  | nothing => simp
  | first executes _ ih =>
      obtain ⟨rest, -, does⟩ := executes.does accepted
      rintro other (_ | ⟨_, hother⟩) isClean
      · rw [does.after]
        exact does.cleaned isClean
      · exact ih does.accepted other hother isClean

theorem rules_take {quiet rest : List RuleName} (waiting : start.pending.pending = quiet ++ rest)
    (others : .chooseDependent ∉ quiet) :
    (executions.map Execution.rule).take quiet.length = quiet.take executions.length := by
  induction performs generalizing quiet with
  | nothing => simp
  | @first start middle final execution executions executes _ ih =>
      obtain ⟨popped, hpopped, does⟩ := executes.does accepted
      cases quiet with
      | nil => simp
      | cons name quiet =>
          rw [hpopped, List.cons_append, List.cons.injEq] at waiting
          obtain ⟨rfl, waiting⟩ := waiting
          rw [List.mem_cons, not_or] at others
          have silent : execution.converts = false := by
            simp [Execution.converts, Ne.symm others.1]
          have following := ih does.accepted (by
            rw [does.pending, Execution.followUps, silent]
            exact waiting) others.2
          simp [following]

end Performs

/-! ## Runs -/

theorem runWithin_performs {budget : Nat} {value : Unit} (accepted : start.plan.Accepted)
    (h : (standard config).runWithin context budget start = .ok value final) :
    ∃ executions last report, (standard config).Performs context start executions last ∧
      final = { last with report := report } ∧
      (executions.length = budget ∨ executions.length < budget ∧ last.pending.pending = []) := by
  induction budget generalizing start with
  | zero =>
      simp only [runWithin, bind_eq_ok_iff, get_eq_ok_iff] at h
      obtain ⟨_, _, ⟨rfl, rfl⟩, h⟩ := h
      split at h
      · obtain ⟨-, events, rfl⟩ := eq_ok_of_inquire (Inquiry.finds_report _) h
        exact ⟨[], start, _, .nothing start, rfl, .inl rfl⟩
      · obtain ⟨-, rfl⟩ := pure_eq_ok_iff.mp h
        exact ⟨[], start, start.report, .nothing start, rfl, .inl rfl⟩
  | succ budget ih =>
      rw [runWithin, bind_eq_ok_iff] at h
      obtain ⟨_, _, hget, h⟩ := h
      obtain ⟨rfl, rfl⟩ := get_eq_ok_iff.mp hget
      cases popped : start.pending.pop? with
      | none =>
          rw [popped] at h
          obtain ⟨-, rfl⟩ := pure_eq_ok_iff.mp h
          exact ⟨[], start, start.report, .nothing start, rfl,
            .inr ⟨Nat.succ_pos _, RuleStack.pop?_eq_none_iff.mp popped⟩⟩
      | some top =>
          obtain ⟨name, rest⟩ := top
          simp only [popped, bind_eq_ok_iff, setPending_eq_ok_iff] at h
          obtain ⟨_, _, rfl, _, middle, hrule, h⟩ := h
          obtain ⟨execution, -, executes, does⟩ := exists_executes accepted popped hrule
          obtain ⟨executions, last, report, performs, hfinal, ends⟩ := ih does.accepted h
          refine ⟨execution :: executions, last, report, .first executes performs, hfinal, ?_⟩
          rcases ends with exhausted | ⟨within, finished⟩
          · exact .inl (congrArg (· + 1) exhausted)
          · exact .inr ⟨Nat.succ_lt_succ within, finished⟩

theorem exists_performs_halts (config : Config) (context : PlanningContext) {start : Session}
    (accepted : start.plan.Accepted) : ∃ executions last,
      (standard config).Performs context start executions last ∧
        (standard config).Halts context last := by
  induction hweight : start.pending.weight using Nat.strong_induction_on generalizing start with
  | _ weight ih =>
      cases popped : start.pending.pop? with
      | none =>
          exact ⟨[], start, .nothing start, .inl (RuleStack.pop?_eq_none_iff.mp popped)⟩
      | some top =>
          obtain ⟨name, rest⟩ := top
          cases hrule : (standard config).runRule context name { start with pending := rest } with
          | error error failed =>
              exact ⟨[], start, .nothing start, .inr ⟨name, rest, error, failed, popped, hrule⟩⟩
          | ok value middle =>
              obtain ⟨execution, rfl, executes, does⟩ := exists_executes accepted popped hrule
              have lighter : middle.pending.weight < weight :=
                hweight ▸ executes.weight_lt accepted
              obtain ⟨executions, last, performs, halts⟩ := ih _ lighter does.accepted rfl
              exact ⟨execution :: executions, last, .first executes performs, halts⟩

/-- How the executions of a run without an error are counted and ordered. -/
structure Tallies (config : Config) (context : PlanningContext) (start : Session)
    (result : OptimizedPlan) (executions : List Execution) : Prop where
  performed : ∃ last, (standard config).Performs context start executions last ∧
    last.plan = result.plan
  executed : result.executions = executions.length
  count : result.executions = min config.optimizer.maxRuleExecutions.toNat
    (start.pending.length + 2 * executions.countP Execution.converts)
  conversions : executions.countP Execution.converts ≤
    start.pending.pending.count .chooseDependent
  converted : (∃ id, start.plan.ConvertedAt result.plan id) ↔
    ∃ execution ∈ executions, execution.converts = true
  followed : ∀ {before execution after}, executions = before ++ execution :: after →
    execution.converts = true → (after.map Execution.rule).take 2 =
      [RuleName.cleanCriteria, .pushSelectCriteria].take
        (config.optimizer.maxRuleExecutions.toNat - (before.length + 1))
  ordinary : start.pending = ordinaryRules → 3 ≤ config.optimizer.maxRuleExecutions.toNat →
    ((¬ ∃ id, start.plan.ConvertedAt result.plan id) → result.executions = 1) ∧
      ((∃ id, start.plan.ConvertedAt result.plan id) → result.executions = 3)
  applied : result.applied = executions.countP Execution.changed
  traced : result.trace.length =
    if config.optimizer.enableTrace then executions.countP Execution.changed else 0

theorem Performs.take_after {before after : List Execution} {most : Nat}
    (performs : (standard config).Performs context start (before ++ execution :: after) final)
    (accepted : start.plan.Accepted) (converts : execution.converts = true)
    (ends : before.length + 1 + after.length = most ∨
      before.length + 1 + after.length < most ∧ final.pending.pending = []) :
    (after.map Execution.rule).take 2 =
      [RuleName.cleanCriteria, .pushSelectCriteria].take (most - (before.length + 1)) := by
  obtain ⟨middle, first, second⟩ := performs.exists_middle
  cases second with
  | first executes rest =>
      obtain ⟨waiting, -, does⟩ := executes.does (first.accepted_final accepted)
      have pending := does.pending
      rw [Execution.followUps, if_pos converts] at pending
      have next := rest.rules_take does.accepted pending (by decide)
      rw [List.length_cons, List.length_singleton] at next
      rcases ends with exhausted | ⟨within, finished⟩
      · rw [next]
        congr 1
        omega
      -- Nothing waits any more, so both follow-ups have been executed.
      · have balance := rest.length_add does.accepted
        rw [RuleStack.length, RuleStack.length, finished, pending] at balance
        simp only [List.length_append, List.length_cons, List.length_nil] at balance
        rw [next, List.take_of_length_le, List.take_of_length_le]
        · rw [List.length_cons, List.length_singleton]
          omega
        · rw [List.length_cons, List.length_singleton]
          omega

theorem length_of_single {most : Nat} {converted : Prop} (within : 3 ≤ most)
    (count : executions.length = min most (1 + 2 * executions.countP Execution.converts))
    (conversions : executions.countP Execution.converts ≤ 1)
    (converted_iff : converted ↔ ∃ execution ∈ executions, execution.converts = true) :
    (¬ converted → executions.length = 1) ∧ (converted → executions.length = 3) := by
  constructor
  · intro unconverted
    have none : executions.countP Execution.converts = 0 :=
      List.countP_eq_zero.mpr fun execution member converts =>
        unconverted (converted_iff.mpr ⟨execution, member, converts⟩)
    omega
  · intro conversion
    have some : 0 < executions.countP Execution.converts :=
      List.countP_pos_iff.mpr (converted_iff.mp conversion)
    omega

theorem run_tallies {federation : Federation} {oracle : CostOracle} {plan : Plan}
    {stack : RuleStack} {number : Nat} {result : OptimizedPlan} (accepted : plan.Accepted)
    (h : (standard config).run federation oracle (.start plan stack number) = .ok result final) :
    Tallies config ((standard config).context federation oracle)
      ((Session.start plan stack number).opened config.optimizer.recordDebug) result
      final.executions := by
  obtain ⟨hrun, rfl⟩ := run_eq_ok h
  have accepted : ((Session.start plan stack number).opened
      config.optimizer.recordDebug).plan.Accepted := accepted
  obtain ⟨executions, last, report, performs, rfl, ends⟩ := runWithin_performs accepted hrun
  have recorded : last.executions = executions := performs.recorded
  subst recorded
  generalize hmost : config.optimizer.maxRuleExecutions.toNat = most
  replace ends : last.executions.length = most ∨
      last.executions.length < most ∧ last.pending.pending = [] := hmost ▸ ends
  have balance : last.pending.length + last.executions.length =
      stack.length + 2 * last.executions.countP Execution.converts := performs.length_add accepted
  have conversions : last.executions.countP Execution.converts ≤
      stack.pending.count .chooseDependent :=
    Nat.le_trans (Nat.le_add_left _ _) (performs.count_add_le accepted)
  have count : last.executions.length =
      min most (stack.length + 2 * last.executions.countP Execution.converts) := by
    rcases ends with exhausted | ⟨within, finished⟩
    · omega
    · rw [RuleStack.length, finished, List.length_nil] at balance
      omega
  obtain ⟨-, converted⟩ := performs.converted_iff accepted
  have traced : last.trace = _ := performs.traced accepted
  refine ⟨⟨last, performs, rfl⟩, rfl, hmost ▸ count, conversions, converted, ?_, ?_,
    List.countP_eq_length_filter.symm, ?_⟩
  · intro before execution after hsplit converts
    rw [hsplit] at performs ends
    rw [hmost]
    refine performs.take_after accepted converts ?_
    simp only [List.length_append, List.length_cons] at ends
    rcases ends with exhausted | ⟨within, finished⟩
    · exact .inl (by omega)
    · exact .inr ⟨by omega, finished⟩
  · intro ordinary within
    obtain rfl : stack = ordinaryRules := ordinary
    exact length_of_single (hmost ▸ within) count conversions converted
  · change last.trace.length = _
    rw [traced, Execution.flatMap_entries]
    cases config.optimizer.enableTrace with
    | false => rfl
    | true => simp [Session.start, Session.opened, List.countP_eq_length_filter]

/-- The rules come to an end whatever the budget.  A run within a budget executes as many as
the stack and the conversions ask for, unless the budget is less. -/
theorem executions_of_run (config : Config) (federation : Federation) (oracle : CostOracle)
    {plan : Plan} (accepted : plan.Accepted) (stack : RuleStack) (number : Nat) :
    let context := (standard config).context federation oracle
    let start := (Session.start plan stack number).opened config.optimizer.recordDebug
    (∀ executions last, (standard config).Performs context start executions last →
      executions.length ≤ stack.weight ∧
        ∀ execution ∈ executions, execution.rule = .cleanCriteria →
          CleanCriteria.findRedundant? execution.after = none) ∧
    (∃ executions last, (standard config).Performs context start executions last ∧
      (standard config).Halts context last) ∧
    ∀ result final,
      (standard config).run federation oracle (.start plan stack number) = .ok result final →
        Tallies config context start result final.executions :=
  ⟨fun _ _ performs => ⟨performs.length_le_weight accepted, performs.cleaned accepted⟩,
    exists_performs_halts config _ accepted, fun _ _ h => run_tallies accepted h⟩

theorem hintedJoin_executions :
    ∃ result final, (standard {}).run PlanningContext.permissive.federation
        PlanningContext.permissive.oracle (.start hintedJoin ordinaryRules 0) =
          .ok result final ∧
      (∃ id, hintedJoin.ConvertedAt result.plan id) ∧ result.executions = 3 := by
  obtain ⟨result, final, h, hexecutions⟩ := Planning.exists_of_succeeds (show Planning.succeeds
    ((standard {}).run PlanningContext.permissive.federation PlanningContext.permissive.oracle)
    (.start hintedJoin ordinaryRules 0)
    (fun _ final => final.executions.any Execution.converts) = true by decide +kernel)
  obtain ⟨-, -, tallies⟩ := executions_of_run {} PlanningContext.permissive.federation
    PlanningContext.permissive.oracle
    (show hintedJoin.Accepted from .of_links (by decide) (by decide) (by decide)) ordinaryRules 0
  have tally := tallies result final h
  have converted := tally.converted.mpr (List.any_eq_true.mp hexecutions)
  exact ⟨result, final, h, converted, (tally.ordinary rfl (by decide)).2 converted⟩

end Optimizer

end FederatedQuery
