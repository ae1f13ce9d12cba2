import FederatedQuery.Planning.Session

/-!
# Steps on sessions

A step that ends without an error is taken apart into the steps it consists of.
Inquiries leave a session as it is but for events that they note, and their answers
do not depend on the report before them, so an inquiry is known by what it finds.
-/

namespace FederatedQuery

theorem Except.bind_eq_ok_iff {ε α β : Type} {first : Except ε α} {next : α → Except ε β}
    {result : β} :
    (first >>= next) = .ok result ↔ ∃ value, first = .ok value ∧ next value = .ok result := by
  cases first <;> simp [bind, Except.bind]

section

variable {σ α β : Type} {start final : σ}

theorem bind_eq_ok_iff {first : EStateM PlanError σ α} {next : α → EStateM PlanError σ β}
    {result : β} :
    (first >>= next) start = .ok result final ↔
      ∃ value middle, first start = .ok value middle ∧ next value middle = .ok result final := by
  simp only [bind, EStateM.bind]
  cases h : first start with
  | ok value middle =>
      constructor
      · intro hnext
        exact ⟨value, middle, rfl, hnext⟩
      · rintro ⟨_, _, ⟨⟩, hnext⟩
        exact hnext
  | error error middle => simp

@[simp] theorem pure_eq_ok_iff {value result : α} :
    (pure value : EStateM PlanError σ α) start = .ok result final ↔
      value = result ∧ start = final := by
  simp [pure, EStateM.pure]

@[simp] theorem get_eq_ok_iff {result : σ} :
    (get : EStateM PlanError σ σ) start = .ok result final ↔ start = result ∧ start = final := by
  change EStateM.Result.ok start start = .ok result final ↔ _
  simp

end

/-! ## Inquiries -/

theorem Report.noteAll_append (report : Report) (events more : List Event) :
    report.noteAll (events ++ more) = (report.noteAll events).noteAll more :=
  List.foldl_append

namespace Inquiry

variable {α β : Type}

def answerAfter (inquiry : Inquiry α) (report : Report) : Except PlanError α :=
  match inquiry report with
  | .ok value _ => .ok value
  | .error error _ => .error error

def reportAfter (inquiry : Inquiry α) (report : Report) : Report :=
  match inquiry report with
  | .ok _ after => after
  | .error _ after => after

/-- The inquiry has this answer, whatever has been reported before, and only notes events. -/
structure Finds (inquiry : Inquiry α) (result : Except PlanError α) : Prop where
  answer : ∀ report, inquiry.answerAfter report = result
  notes : ∀ report, ∃ events, inquiry.reportAfter report = report.noteAll events

variable {inquiry : Inquiry α} {result : Except PlanError α} {value : α} {report after : Report}

theorem Finds.unique {other : Except PlanError α} (finds : inquiry.Finds result)
    (finds' : inquiry.Finds other) : result = other :=
  (finds.answer {}).symm.trans (finds'.answer {})

theorem Finds.eq_ok (finds : inquiry.Finds result) (h : inquiry report = .ok value after) :
    result = .ok value ∧ ∃ events, after = report.noteAll events := by
  obtain ⟨events, notes⟩ := finds.notes report
  rw [reportAfter, h] at notes
  rw [← finds.answer report, answerAfter, h]
  exact ⟨rfl, events, notes⟩

theorem Finds.eq_error {error : PlanError} (finds : inquiry.Finds result)
    (h : inquiry report = .error error after) :
    result = .error error ∧ ∃ events, after = report.noteAll events := by
  obtain ⟨events, notes⟩ := finds.notes report
  rw [reportAfter, h] at notes
  rw [← finds.answer report, answerAfter, h]
  exact ⟨rfl, events, notes⟩

theorem Finds.exists_eq_ok (finds : inquiry.Finds (.ok value)) (report : Report) :
    ∃ events, inquiry report = .ok value (report.noteAll events) := by
  cases hrun : inquiry report with
  | ok other after =>
      obtain ⟨⟨⟩, events, rfl⟩ := finds.eq_ok hrun
      exact ⟨events, rfl⟩
  | error error after =>
      obtain ⟨⟨⟩, -⟩ := finds.eq_error hrun

theorem Finds.bind {next : α → Inquiry β} {results : α → Except PlanError β}
    (finds : inquiry.Finds result) (rest : ∀ value, (next value).Finds (results value)) :
    (inquiry >>= next).Finds (result >>= results) := by
  constructor <;> intro report
  · rw [← finds.answer report]
    simp only [answerAfter, Bind.bind, EStateM.bind]
    cases inquiry report with
    | ok value after => exact (rest value).answer after
    | error error after => rfl
  · obtain ⟨events, notes⟩ := finds.notes report
    simp only [reportAfter, Bind.bind, EStateM.bind] at notes ⊢
    cases hrun : inquiry report with
    | ok value after =>
        obtain ⟨more, notes'⟩ := (rest value).notes after
        rw [hrun] at notes
        replace notes : after = report.noteAll events := notes
        exact ⟨events ++ more, notes'.trans (by rw [notes, Report.noteAll_append])⟩
    | error error after =>
        rw [hrun] at notes
        exact ⟨events, notes⟩

theorem finds_pure (value : α) : (pure value : Inquiry α).Finds (.ok value) :=
  ⟨fun _ => rfl, fun _ => ⟨[], rfl⟩⟩

theorem finds_throw (error : PlanError) : (throw error : Inquiry α).Finds (.error error) :=
  ⟨fun _ => rfl, fun _ => ⟨[], rfl⟩⟩

theorem finds_report (event : Event) : (Inquiry.report event).Finds (.ok ()) :=
  ⟨fun _ => rfl, fun _ => ⟨[event], rfl⟩⟩

theorem finds_reportAll (events : List Event) : (reportAll events).Finds (.ok ()) :=
  ⟨fun _ => rfl, fun _ => ⟨events, rfl⟩⟩

theorem finds_ofExcept (result : Except PlanError α) : (ofExcept result).Finds result := by
  cases result with
  | ok value => exact finds_pure value
  | error error => exact finds_throw error

theorem Finds.reporting (finds : inquiry.Finds result) (event : Event) :
    (do Inquiry.report event; inquiry).Finds result :=
  (finds_report event).bind fun _ => finds

theorem finds_ask (question : OracleQuestion) (result : Except PlanError α) :
    (ask question result).Finds result :=
  (finds_ofExcept result).reporting _

end Inquiry

/-! ## Sessions -/

namespace Planning

variable {α : Type} {start final : Session}

@[simp] theorem plan_eq_ok_iff {result : Plan} :
    Planning.plan start = .ok result final ↔ start.plan = result ∧ start = final := by
  change EStateM.Result.ok start.plan start = .ok result final ↔ _
  simp

@[simp] theorem setPlan_eq_ok_iff {plan : Plan} {result : Unit} :
    setPlan plan start = .ok result final ↔ { start with plan := plan } = final := by
  change EStateM.Result.ok () { start with plan := plan } = .ok result final ↔ _
  simp

@[simp] theorem setPending_eq_ok_iff {pending : RuleStack} {result : Unit} :
    setPending pending start = .ok result final ↔ { start with pending := pending } = final := by
  change EStateM.Result.ok () { start with pending := pending } = .ok result final ↔ _
  simp

@[simp] theorem push_eq_ok_iff {rule : RuleName} {result : Unit} :
    push rule start = .ok result final ↔
      { start with pending := start.pending.push rule } = final := by
  change EStateM.Result.ok () { start with pending := start.pending.push rule } =
    .ok result final ↔ _
  simp

@[simp] theorem finish_eq_ok_iff {execution : Execution} {result : Unit} :
    finish execution start = .ok result final ↔
      { start with executions := start.executions ++ [execution] } = final := by
  change EStateM.Result.ok () { start with executions := start.executions ++ [execution] } =
    .ok result final ↔ _
  simp

@[simp] theorem keepEntry_eq_ok_iff {entry : TraceEntry} {result : Unit} :
    keepEntry entry start = .ok result final ↔
      { start with trace := start.trace ++ [entry] } = final := by
  change EStateM.Result.ok () { start with trace := start.trace ++ [entry] } =
    .ok result final ↔ _
  simp

@[simp] theorem openRecords_eq_ok_iff {recordDebug : Bool} {result : Unit} :
    openRecords recordDebug start = .ok result final ↔ start.opened recordDebug = final := by
  change EStateM.Result.ok () (start.opened recordDebug) = .ok result final ↔ _
  simp

@[simp] theorem takeValueSource_eq_ok_iff {number : Nat} :
    takeValueSource start = .ok number final ↔
      start.nextValueSource = number ∧
        { start with nextValueSource := start.nextValueSource + 1 } = final := by
  change EStateM.Result.ok start.nextValueSource
    { start with nextValueSource := start.nextValueSource + 1 } = .ok number final ↔ _
  simp

theorem eq_ok_of_inquire {inquiry : Inquiry α} {result : Except PlanError α}
    (finds : inquiry.Finds result) {value : α} (h : inquire inquiry start = .ok value final) :
    result = .ok value ∧
      ∃ events, final = { start with report := start.report.noteAll events } := by
  rw [inquire] at h
  cases hrun : inquiry start.report with
  | ok other report =>
      rw [hrun] at h
      cases h
      obtain ⟨found, events, rfl⟩ := finds.eq_ok hrun
      exact ⟨found, events, rfl⟩
  | error error report =>
      rw [hrun] at h
      cases h

theorem inquire_eq_ok {inquiry : Inquiry α} {value : α} (finds : inquiry.Finds (.ok value))
    (start : Session) :
    ∃ events, inquire inquiry start =
      .ok value { start with report := start.report.noteAll events } := by
  obtain ⟨events, hrun⟩ := finds.exists_eq_ok start.report
  exact ⟨events, by rw [inquire, hrun]⟩

end Planning

/-! ## Steps that may fail -/

namespace Planning

variable {α β : Type} {start final : Session} {result : Except PlanError α}

/-- The step has this result, an answer or an error, and leaves this session. -/
def EndsWith (step : Planning α) (start : Session) (result : Except PlanError α)
    (final : Session) : Prop :=
  match result with
  | .ok value => step start = .ok value final
  | .error error => step start = .error error final

theorem exists_endsWith (step : Planning α) (start : Session) :
    ∃ result final, step.EndsWith start result final := by
  cases h : step start with
  | ok value final => exact ⟨.ok value, final, h⟩
  | error error final => exact ⟨.error error, final, h⟩

theorem endsWith_bind_iff {first : Planning β} {next : β → Planning α} :
    Planning.EndsWith (first >>= next) start result final ↔
      (∃ error, result = .error error ∧ first.EndsWith start (.error error) final) ∨
        ∃ value middle, first start = .ok value middle ∧
          (next value).EndsWith middle result final := by
  cases result with
  | ok value => simp [EndsWith, bind_eq_ok_iff]
  | error error =>
      simp only [EndsWith, bind, EStateM.bind]
      cases h : first start with
      | ok value middle =>
          constructor
          · intro hnext
            exact .inr ⟨value, middle, rfl, hnext⟩
          · rintro (⟨_, _, ⟨⟩⟩ | ⟨_, _, ⟨⟩, hnext⟩)
            exact hnext
      | error other middle => simp [eq_comm]

theorem EndsWith.of_bind {first : Planning β} {next : β → Planning α} {value : β}
    {middle : Session} (h : EndsWith (first >>= next) start result final)
    (succeeds : first start = .ok value middle) :
    (next value).EndsWith middle result final := by
  rcases endsWith_bind_iff.mp h with ⟨error, -, failed⟩ | ⟨_, _, succeeded, h⟩
  · rw [EndsWith, succeeds] at failed
    cases failed
  · rw [succeeds] at succeeded
    cases succeeded
    exact h

@[simp] theorem endsWith_pure_iff {value : α} :
    Planning.EndsWith (pure value) start result final ↔ .ok value = result ∧ start = final := by
  cases result with
  | ok other => simp [EndsWith]
  | error error => exact ⟨nofun, nofun⟩

theorem EndsWith.of_inquire {inquiry : Inquiry α} {found : Except PlanError α}
    (finds : inquiry.Finds found) (h : (inquire inquiry).EndsWith start result final) :
    found = result ∧
      ∃ events, final = { start with report := start.report.noteAll events } := by
  cases result with
  | ok value => exact eq_ok_of_inquire finds h
  | error error =>
      rw [EndsWith, inquire] at h
      cases hrun : inquiry start.report with
      | ok value report =>
          rw [hrun] at h
          cases h
      | error other report =>
          rw [hrun] at h
          cases h
          obtain ⟨failed, events, rfl⟩ := finds.eq_error hrun
          exact ⟨failed, events, rfl⟩

theorem EndsWith.of_inquire_bind {inquiry : Inquiry β} {found : Except PlanError β}
    {next : β → Planning α} (h : EndsWith (inquire inquiry >>= next) start result final)
    (finds : inquiry.Finds found) :
    ∃ events, (∃ error, found = .error error ∧ result = .error error ∧
        final = { start with report := start.report.noteAll events }) ∨
      ∃ value, found = .ok value ∧
        (next value).EndsWith { start with report := start.report.noteAll events }
          result final := by
  rcases endsWith_bind_iff.mp h with ⟨error, hresult, failed⟩ | ⟨value, middle, succeeded, h⟩
  · obtain ⟨hfound, events, hfinal⟩ := EndsWith.of_inquire finds failed
    exact ⟨events, .inl ⟨error, hfound, hresult, hfinal⟩⟩
  · obtain ⟨hfound, events, rfl⟩ := eq_ok_of_inquire finds succeeded
    exact ⟨events, .inr ⟨value, hfound, h⟩⟩

theorem edit_eq_ok {step : PlanStep α} {value : α} {plan : Plan}
    (h : step start.plan = .ok value plan) :
    edit step start = .ok value { start with plan := plan } := by
  rw [edit, h]

theorem edit_eq_ok_iff {step : PlanStep α} {value : α} :
    edit step start = .ok value final ↔
      ∃ plan, step start.plan = .ok value plan ∧ { start with plan := plan } = final := by
  rw [edit]
  cases step start.plan <;> simp [and_assoc]

theorem edit_eq_error {step : PlanStep α} {error : PlanError} {plan : Plan}
    (h : step start.plan = .error error plan) :
    edit step start = .error error { start with plan := plan } := by
  rw [edit, h]

theorem EndsWith.of_edit_bind {step : PlanStep β} {next : β → Planning α}
    (h : EndsWith (edit step >>= next) start result final) :
    (∃ error plan, step start.plan = .error error plan ∧ result = .error error ∧
        final = { start with plan := plan }) ∨
      ∃ value plan, step start.plan = .ok value plan ∧
        (next value).EndsWith { start with plan := plan } result final := by
  cases hstep : step start.plan with
  | ok value plan => exact .inr ⟨value, plan, rfl, h.of_bind (edit_eq_ok hstep)⟩
  | error error plan =>
      rcases endsWith_bind_iff.mp h with ⟨other, hresult, failed⟩ | ⟨_, _, succeeded, -⟩
      · rw [EndsWith, edit_eq_error hstep] at failed
        cases failed
        exact .inl ⟨error, plan, rfl, hresult, rfl⟩
      · rw [edit_eq_error hstep] at succeeded
        cases succeeded

end Planning

def Planning.succeeds {α : Type} (step : Planning α) (start : Session)
    (check : α → Session → Bool) : Bool :=
  match step start with
  | .ok value final => check value final
  | .error _ _ => false

theorem Planning.exists_of_succeeds {α : Type} {step : Planning α} {start : Session}
    {check : α → Session → Bool} (h : succeeds step start check = true) :
    ∃ value final, step start = .ok value final ∧ check value final = true := by
  unfold succeeds at h
  cases hrun : step start with
  | ok value final =>
      rw [hrun] at h
      exact ⟨value, final, rfl, h⟩
  | error error final =>
      rw [hrun] at h
      cases h

def Planning.fails {α : Type} (step : Planning α) (start : Session) (error : PlanError) : Bool :=
  match step start with
  | .ok _ _ => false
  | .error other _ => other == error

theorem Planning.exists_of_fails {α : Type} {step : Planning α} {start : Session}
    {error : PlanError} (h : fails step start error = true) :
    ∃ final, step start = .error error final := by
  unfold fails at h
  cases hrun : step start with
  | ok value final =>
      rw [hrun] at h
      cases h
  | error other final =>
      rw [hrun, beq_iff_eq] at h
      exact ⟨final, by rw [h]⟩

def PlanningContext.permissive : PlanningContext where
  federation :=
    { metadata :=
        { modelOf := fun _ => .ok ⟨"pm1"⟩
          fullName := fun model => .ok model.name
          isVirtual := fun _ => .ok false
          searchability := fun _ => .ok .searchable }
      finder := fun _ => .ok none }
  oracle := ⟨fun _ _ => .ok none, fun _ _ _ _ => .ok none, fun _ _ _ _ => .ok 0⟩
  config := {}

end FederatedQuery
