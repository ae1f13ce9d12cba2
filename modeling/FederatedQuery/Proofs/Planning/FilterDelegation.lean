import FederatedQuery.Proofs.Planning.AccessPatterns
import FederatedQuery.Proofs.Planning.FilterChains
import FederatedQuery.Proofs.Pushdown.Validation

/-!
# How filters are split between a source and the plan

Every filter above an access is offered to the source of that access, the lowest one
first.  What a filter meets with depends on nothing but its criteria and the source, so
a chain of filters is split by one pass over it, and a second pass finds nothing to do.
-/

namespace FederatedQuery

namespace NodeKind

def pushAll (kind : NodeKind) (criteria : List Criteria) : NodeKind :=
  match kind with
  | .access payload => .access (payload.pushAll criteria)
  | other => other

def model? (kind : NodeKind) : Option ModelId := kind.access?.bind (·.model)

/-- What criteria above the node meet with: whether they are taken over, or an error. -/
def takes (federation : Federation) (kind : NodeKind) (criteria : Criteria) :
    Except PlanError Bool :=
  match kind.model? with
  | some model => federation.canPush (.criteria criteria) (some model)
  | none => .ok false

def keeps (federation : Federation) (kind : NodeKind) (filter : NodeId × SelectNode) : Bool :=
  match kind.takes federation filter.2.criteria with
  | .ok taken => !taken
  | .error _ => false

def delegated (federation : Federation) (kind : NodeKind) (filters : List (NodeId × SelectNode)) :
    List Criteria :=
  (filters.filter fun filter => !kind.keeps federation filter).map (·.2.criteria)

variable (federation : Federation) (kind : NodeKind)

@[simp] theorem pushAll_nil : kind.pushAll [] = kind := by
  cases kind <;> rfl

theorem pushAll_pushAll (first second : List Criteria) :
    (kind.pushAll first).pushAll second = kind.pushAll (first ++ second) := by
  cases kind with
  | access payload => exact congrArg access (payload.pushAll_append first second).symm
  | _ => rfl

@[simp] theorem model?_pushAll (criteria : List Criteria) :
    (kind.pushAll criteria).model? = kind.model? := by
  cases kind with
  | access payload =>
      induction criteria generalizing payload with
      | nil => rfl
      | cons first rest ih => exact ih (payload.push first)
  | _ => rfl

@[simp] theorem takes_pushAll (pushed : List Criteria) :
    (kind.pushAll pushed).takes federation = kind.takes federation := by
  funext criteria
  rw [takes, takes, model?_pushAll]

@[simp] theorem keeps_pushAll (pushed : List Criteria) :
    (kind.pushAll pushed).keeps federation = kind.keeps federation := by
  funext filter
  rw [keeps, keeps, takes_pushAll]

theorem delegated_append (first rest : List (NodeId × SelectNode)) :
    kind.delegated federation (first ++ rest) =
      kind.delegated federation first ++ kind.delegated federation rest := by
  rw [delegated, List.filter_append, List.map_append]
  rfl

@[simp] theorem delegated_pushAll (pushed : List Criteria) :
    (kind.pushAll pushed).delegated federation = kind.delegated federation := by
  funext filters
  rw [delegated, delegated, keeps_pushAll]

end NodeKind

def Federation.rejects (federation : Federation) (model : ModelId)
    (filter : NodeId × SelectNode) : Bool :=
  match federation.validate (.criteria filter.2.criteria) (some model) with
  | .ok (.rejected _) => true
  | .ok .accepted | .error _ => false

theorem NodeKind.keeps_eq_rejects {federation : Federation} {kind : NodeKind} {model : ModelId}
    (h : kind.model? = some model) : kind.keeps federation = federation.rejects model := by
  funext filter
  simp only [NodeKind.keeps, NodeKind.takes, h, Federation.canPush, Federation.rejects]
  cases federation.validate (.criteria filter.2.criteria) (some model) with
  | error error => rfl
  | ok verdict => cases verdict <;> rfl

theorem NodeKind.takes_of_keeps {federation : Federation} {kind : NodeKind}
    {filter : NodeId × SelectNode} (keeps : kind.keeps federation filter = true) :
    kind.takes federation filter.2.criteria = .ok false := by
  rw [NodeKind.keeps] at keeps
  cases found : kind.takes federation filter.2.criteria with
  | error error => simp [found] at keeps
  | ok taken => simpa [found] using keeps

theorem NodeKind.exists_takes_eq_error_iff {federation : Federation} {kind : NodeKind}
    {criteria : Criteria} :
    (∃ error, kind.takes federation criteria = .error error) ↔ ∃ model, kind.model? = some model ∧
      ∃ error, federation.validate (.criteria criteria) (some model) = .error error := by
  rw [NodeKind.takes]
  cases kind.model? with
  | none => simp
  | some model =>
      simp only [Option.some.injEq, exists_eq_left', Federation.canPush]
      cases federation.validate (.criteria criteria) (some model) <;> simp [Except.map]

theorem AccessNode.exists_pushAll_eq (access : AccessNode) (criteria : List Criteria) :
    ∃ patterns, access.pushAll criteria =
      { access with pushedCriteria := access.pushedCriteria ++ criteria, patterns } := by
  induction criteria using List.reverseRecOn with
  | nil => exact ⟨access.patterns, by rw [List.append_nil]; rfl⟩
  | append_singleton criteria last ih =>
      obtain ⟨patterns, h⟩ := ih
      rw [pushAll_concat, h, push, List.append_assoc]
      exact ⟨_, rfl⟩

/-- The chain after each of its filters has been offered to the source of its access. -/
def FilterChain.delegate (federation : Federation) (chain : FilterChain) : FilterChain :=
  { chain with
    kind := chain.kind.pushAll (chain.kind.delegated federation chain.filters)
    filters := chain.filters.filter (chain.kind.keeps federation) }

/-- How the filters of a chain are split between the plan and the source below them. -/
structure FilterChain.Split (federation : Federation) (old new : FilterChain) : Prop where
  bottom : new.bottom = old.bottom
  inputs : new.inputs = old.inputs
  untouched : old.kind.model? = none → new = old
  divided : ∀ {access model}, old.kind = .access access → access.model = some model →
    new.filters = old.filters.filter (federation.rejects model) ∧
    ∃ patterns, new.kind = .access { access with
      pushedCriteria := access.pushedCriteria ++
        (old.filters.filter fun filter => !federation.rejects model filter).map (·.2.criteria)
      patterns }

theorem FilterChain.split_delegate (federation : Federation) (chain : FilterChain) :
    chain.Split federation (chain.delegate federation) := by
  refine ⟨rfl, rfl, fun none => ?_, fun {access model} kind some => ?_⟩
  · have keeps (filter : NodeId × SelectNode) : chain.kind.keeps federation filter = true := by
      simp only [NodeKind.keeps, NodeKind.takes, none]
      rfl
    have stay : chain.filters.filter (chain.kind.keeps federation) = chain.filters :=
      List.filter_eq_self.mpr fun filter _ => keeps filter
    simp [delegate, NodeKind.delegated, keeps, stay]
  · have keeps : chain.kind.keeps federation = federation.rejects model :=
      NodeKind.keeps_eq_rejects (by rw [kind]; exact some)
    obtain ⟨patterns, pushed⟩ :=
      access.exists_pushAll_eq (chain.kind.delegated federation chain.filters)
    refine ⟨by rw [delegate, keeps], patterns, ?_⟩
    rw [NodeKind.delegated, keeps] at pushed
    rw [← pushed, delegate, NodeKind.delegated, keeps, kind]
    rfl

def FilterChain.attempts (federation : Federation) (chain : FilterChain) :
    List (Except PlanError Bool) :=
  chain.filters.map fun filter => chain.kind.takes federation filter.2.criteria

namespace PushSelect

def outcome : List (Except PlanError Bool) → Except PlanError Bool
  | [] => .ok false
  | first :: rest => do
      let moved ← first
      let others ← outcome rest
      return moved || others

theorem outcome_append (first rest : List (Except PlanError Bool)) :
    outcome (first ++ rest) = do
      let moved ← outcome first
      let others ← outcome rest
      return moved || others := by
  induction first with
  | nil => exact (bind_pure (outcome rest)).symm
  | cons attempt first ih =>
      cases attempt with
      | error error => rfl
      | ok moved =>
          simp only [List.cons_append, outcome, ih, bind_assoc, pure_bind, Bool.or_assoc]

theorem exists_error_outcome_iff {attempts : List (Except PlanError Bool)} :
    (∃ error, outcome attempts = .error error) ↔ ∃ error, .error error ∈ attempts := by
  induction attempts with
  | nil => simp [outcome]
  | cons attempt rest ih =>
      cases attempt with
      | error error => simp [outcome, bind, Except.bind]
      | ok moved =>
          simp only [List.mem_cons, reduceCtorEq, false_or, ← ih]
          cases h : outcome rest <;> simp [outcome, h, bind, Except.bind, pure, Except.pure]

theorem outcome_eq_false {attempts : List (Except PlanError Bool)}
    (silent : ∀ attempt ∈ attempts, attempt = .ok false) : outcome attempts = .ok false := by
  induction attempts with
  | nil => rfl
  | cons attempt rest ih =>
      rw [List.forall_mem_cons] at silent
      rw [outcome, silent.1, ih silent.2]
      rfl

/-! ## Offering the filters -/

theorem pushFilters_append (context : PlanningContext) (first rest : List NodeId) :
    pushFilters context (first ++ rest) = do
      let moved ← pushFilters context first
      let others ← pushFilters context rest
      return moved || others := by
  induction first with
  | nil => simp only [List.nil_append, pushFilters, pure_bind, Bool.false_or, bind_pure]
  | cons id first ih =>
      simp only [List.cons_append, pushFilters, ih, bind_assoc, pure_bind, Bool.or_assoc]

end PushSelect

namespace Plan

variable {plan : Plan} {before after : List FilterChain} {bottom : NodeId} {kind : NodeKind}
  {filters : List (NodeId × SelectNode)} {inputs : List NodeId}

theorem Reads.pushInto {access : AccessNode}
    (reads : plan.Reads (before ++ ⟨bottom, .access access, filters, inputs⟩ :: after))
    (criteria : Criteria) :
    (PushSelect.pushInto plan bottom criteria).Reads
      (before ++ ⟨bottom, .access (access.push criteria), filters, inputs⟩ :: after) := by
  obtain ⟨children, frames, holds, shaped, chains⟩ := reads.exists_bottom
  have found : plan.access? bottom = some access := reads.access?_eq
  have inner := shaped.of_mem (PlanTree.mem_subtrees_within_self _ frames)
  rw [PushSelect.pushInto, found]
  refine ⟨_, holds.setKind _, shaped.replace ?_, chains _ rfl⟩
  rw [PlanTree.wellShaped_node] at inner ⊢
  exact ⟨NodeKind.fits_access _ _, inner.2⟩

end Plan

namespace PushSelect

variable {context : PlanningContext} {start final : Session} {result : Except PlanError Bool}
  {before after : List FilterChain} {bottom : NodeId} {kind : NodeKind}
  {nearer upper : List (NodeId × SelectNode)} {inputs : List NodeId}

/-- A filter is offered to the source of the access at the end of its chain. -/
theorem offer_iff {plan : Plan} {id source : NodeId} {select other : SelectNode} {model : ModelId}
    (reads : plan.Reads
      (before ++ ⟨bottom, kind, nearer ++ (id, select) :: upper, inputs⟩ :: after)) :
    Offer plan id source other model ↔
      bottom = source ∧ select = other ∧ kind.model? = some model := by
  have hselect := reads.select?_eq
  have hbelow := reads.accessBelow?_eq
  have hbottom : plan.access? bottom = kind.access? := reads.access?_eq
  constructor
  · rintro ⟨leads, found, owned⟩
    rw [hbelow] at leads
    rw [hselect] at found
    obtain ⟨-, same⟩ : kind.access?.isSome = true ∧ bottom = source := by simpa using leads
    rw [← same, hbottom] at owned
    exact ⟨same, Option.some.inj found, owned⟩
  · rintro ⟨rfl, rfl, owned⟩
    obtain ⟨access, haccess, -⟩ := Option.bind_eq_some_iff.mp owned
    exact ⟨by rw [hbelow, haccess]; rfl, hselect, by rw [hbottom]; exact owned⟩

theorem pushFilter_reads {id : NodeId} {select : SelectNode}
    (reads : start.plan.Reads
      (before ++ ⟨bottom, kind, nearer ++ (id, select) :: upper, inputs⟩ :: after))
    (h : (pushFilter context id).EndsWith start result final) :
    result = kind.takes context.federation select.criteria ∧
      (result = .ok false → final.plan = start.plan) ∧
      (result = .ok true → final.plan.Reads (before ++
        ⟨bottom, kind.pushAll [select.criteria], nearer ++ upper, inputs⟩ :: after)) := by
  obtain ⟨answer, -⟩ := pushFilter_answers h
  generalize hleft : final.plan = left at answer
  rw [NodeKind.takes]
  cases answer with
  | skipped nowhere =>
      have unowned : kind.model? = none :=
        Option.eq_none_iff_forall_ne_some.mpr fun model owned =>
          nowhere bottom select model ((offer_iff reads).mpr ⟨rfl, rfl, owned⟩)
      simp [unowned]
  | failed offer verdict =>
      obtain ⟨rfl, rfl, owned⟩ := (offer_iff reads).mp offer
      simp [owned, Federation.canPush, verdict, Except.map]
  | rejected offer verdict =>
      obtain ⟨rfl, rfl, owned⟩ := (offer_iff reads).mp offer
      simp [owned, Federation.canPush, verdict, Except.map, Verdict.isAccepted]
  | stuck offer splice =>
      obtain ⟨rest, top, succeeds, -⟩ := reads.exists_spliceOut
      rw [succeeds] at splice
      cases splice
  | pushed offer verdict splice =>
      obtain ⟨rfl, rfl, owned⟩ := (offer_iff reads).mp offer
      obtain ⟨rest, top, succeeds, spliced⟩ := reads.exists_spliceOut
      rw [succeeds] at splice
      cases splice
      cases kind with
      | access access =>
          refine ⟨?_, by simp, fun _ => spliced.pushInto select.criteria⟩
          simp [owned, Federation.canPush, verdict, Except.map, Verdict.isAccepted]
      | _ => cases owned

def Offers (step : Planning Bool) (attempts : List (Except PlanError Bool))
    (old new : List FilterChain) : Prop :=
  ∀ ⦃start final : Session⦄ ⦃result : Except PlanError Bool⦄, start.plan.Reads old →
    step.EndsWith start result final →
      result = outcome attempts ∧ ∀ moved, result = .ok moved → final.plan.Reads new

theorem Offers.seq {first rest : Planning Bool} {attempts others : List (Except PlanError Bool)}
    {old middle new : List FilterChain} (offers : Offers first attempts old middle)
    (offers' : Offers rest others middle new) :
    Offers (do
      let moved ← first
      let more ← rest
      return moved || more) (attempts ++ others) old new := by
  intro start final result reads h
  rw [outcome_append]
  rcases Planning.endsWith_bind_iff.mp h with ⟨error, rfl, hfirst⟩ | ⟨moved, between, hfirst, h⟩
  · obtain ⟨failed, -⟩ := offers reads hfirst
    exact ⟨by rw [← failed]; rfl, by simp⟩
  obtain ⟨found, reads'⟩ :=
    offers reads (show Planning.EndsWith _ _ (.ok moved) _ from hfirst)
  replace reads' := reads' moved rfl
  rw [← found]
  rcases Planning.endsWith_bind_iff.mp h with ⟨error, rfl, hrest⟩ | ⟨more, last, hrest, h⟩
  · obtain ⟨failed, -⟩ := offers' reads' hrest
    exact ⟨by rw [← failed]; rfl, by simp⟩
  · obtain ⟨found', reads''⟩ :=
      offers' reads' (show Planning.EndsWith _ _ (.ok more) _ from hrest)
    obtain ⟨rfl, rfl⟩ := Planning.endsWith_pure_iff.mp h
    exact ⟨by rw [← found']; rfl, fun _ _ => reads'' more rfl⟩

theorem Offers.exists_error_iff {step : Planning Bool} {attempts : List (Except PlanError Bool)}
    {old new : List FilterChain} (offers : Offers step attempts old new)
    (reads : start.plan.Reads old) :
    (∃ error final, step start = .error error final) ↔ ∃ error, .error error ∈ attempts := by
  rw [← exists_error_outcome_iff]
  constructor
  · rintro ⟨error, final, h⟩
    exact ⟨error, (offers reads (show Planning.EndsWith _ _ (.error error) _ from h)).1.symm⟩
  · rintro ⟨error, failed⟩
    obtain ⟨result, final, h⟩ := step.exists_endsWith start
    obtain ⟨rfl, -⟩ := offers reads h
    rw [failed] at h
    exact ⟨error, final, h⟩

theorem offers_pushFilter (id : NodeId) (select : SelectNode) :
    Offers (pushFilter context id) [kind.takes context.federation select.criteria]
      (before ++ ⟨bottom, kind, nearer ++ (id, select) :: upper, inputs⟩ :: after)
      (before ++ ⟨bottom, kind.pushAll (kind.delegated context.federation [(id, select)]),
        nearer ++ [(id, select)].filter (kind.keeps context.federation) ++ upper, inputs⟩ ::
          after) := by
  intro start final result reads h
  obtain ⟨rfl, stays, moves⟩ := pushFilter_reads reads h
  refine ⟨?_, fun moved same => ?_⟩
  · cases kind.takes context.federation select.criteria <;>
      simp [outcome, bind, Except.bind, pure, Except.pure]
  cases moved with
  | false =>
      rw [stays same]
      have keeps : kind.keeps context.federation (id, select) = true := by
        simp [NodeKind.keeps, same]
      simpa [NodeKind.delegated, keeps] using reads
  | true =>
      have keeps : kind.keeps context.federation (id, select) = false := by
        simp [NodeKind.keeps, same]
      simpa [NodeKind.delegated, keeps] using moves same

theorem offers_pushFilters (nearer waiting : List (NodeId × SelectNode)) :
    Offers (pushFilters context (waiting.map Prod.fst))
      (waiting.map fun filter => kind.takes context.federation filter.2.criteria)
      (before ++ ⟨bottom, kind, nearer ++ waiting, inputs⟩ :: after)
      (before ++ ⟨bottom, kind.pushAll (kind.delegated context.federation waiting),
        nearer ++ waiting.filter (kind.keeps context.federation), inputs⟩ :: after) := by
  induction waiting generalizing kind nearer with
  | nil =>
      intro start final result reads h
      obtain ⟨rfl, rfl⟩ := Planning.endsWith_pure_iff.mp h
      exact ⟨rfl, fun _ _ => by simpa [NodeKind.delegated] using reads⟩
  | cons filter rest ih =>
      obtain ⟨id, select⟩ := filter
      have first : Offers (pushFilter context id) _
          (before ++ ⟨bottom, kind, nearer ++ (id, select) :: rest, inputs⟩ :: after) _ :=
        offers_pushFilter id select
      have offers := first.seq (ih _)
      rw [NodeKind.takes_pushAll, NodeKind.keeps_pushAll, NodeKind.delegated_pushAll,
        NodeKind.pushAll_pushAll, ← NodeKind.delegated_append, List.append_assoc,
        ← List.filter_append] at offers
      exact offers

theorem offers_chains (chains after : List FilterChain) :
    Offers (pushFilters context
        (chains.reverse.flatMap fun chain => chain.filters.map Prod.fst))
      (chains.reverse.flatMap (FilterChain.attempts context.federation)) (chains ++ after)
      (chains.map (FilterChain.delegate context.federation) ++ after) := by
  induction chains using List.reverseRecOn generalizing after with
  | nil =>
      intro start final result reads h
      obtain ⟨rfl, rfl⟩ := Planning.endsWith_pure_iff.mp h
      exact ⟨rfl, fun _ _ => reads⟩
  | append_singleton chains chain ih =>
      have last : Offers _ (chain.attempts context.federation) (chains ++ chain :: after)
          (chains ++ chain.delegate context.federation :: after) :=
        offers_pushFilters [] chain.filters
      have offers := last.seq (ih _)
      rw [← pushFilters_append] at offers
      simpa using offers

theorem filters_eq {plan : Plan} {chains : List FilterChain} (reads : plan.Reads chains) :
    filters plan = chains.reverse.flatMap fun chain => chain.filters.map Prod.fst := by
  rw [filters, reads.findAll_select, List.reverse_flatMap]
  refine List.flatMap_congr fun chain _ => ?_
  simp [List.map_reverse]

theorem offers_execute (context : PlanningContext) (chains : List FilterChain) :
    Offers (execute context) (chains.reverse.flatMap (FilterChain.attempts context.federation))
      chains (chains.map (FilterChain.delegate context.federation)) := by
  intro start final result reads h
  replace h := h.of_bind (show Planning.plan start = .ok start.plan start from rfl)
  rw [filters_eq reads] at h
  have offers : Offers (pushFilters context _) _ (chains ++ []) _ := offers_chains chains []
  rw [List.append_nil, List.append_nil] at offers
  exact offers reads h

theorem outcome_attempts_delegate (federation : Federation) (chains : List FilterChain) :
    outcome ((chains.map (FilterChain.delegate federation)).reverse.flatMap
      (FilterChain.attempts federation)) = .ok false := by
  refine outcome_eq_false fun attempt member => ?_
  simp only [List.mem_flatMap, List.mem_reverse, List.mem_map, FilterChain.attempts] at member
  obtain ⟨_, ⟨chain, -, rfl⟩, filter, hfilter, rfl⟩ := member
  rw [FilterChain.delegate, NodeKind.takes_pushAll]
  exact NodeKind.takes_of_keeps (List.mem_filter.mp hfilter).2

theorem execute_again {chains : List FilterChain}
    (reads : start.plan.Reads (chains.map (FilterChain.delegate context.federation))) :
    ∃ again, execute context start = .ok false again ∧ again.plan = start.plan := by
  obtain ⟨result, again, h⟩ := Planning.exists_endsWith (execute context) start
  obtain ⟨silent, -⟩ := offers_execute context _ reads h
  rw [outcome_attempts_delegate] at silent
  subst silent
  obtain ⟨tree, holds, shaped, -⟩ := reads
  obtain ⟨new, pushes⟩ := execute_pushes context holds shaped h
  exact ⟨again, h, (pushes.effect false rfl).still rfl⟩

/-- One execution splits every chain of filters: what the source of the access below rejects
stays in order, the rest is pushed from the lowest filter upwards.  It fails exactly if the
check of some filter fails. -/
theorem execute_delegates (context : PlanningContext) {start : Session}
    (accepted : start.plan.Accepted) :
    (∀ changed final, execute context start = .ok changed final →
      final.plan.Accepted ∧
      List.Forall₂ (FilterChain.Split context.federation) start.plan.chains final.plan.chains ∧
      ∃ again, execute context final = .ok false again ∧ again.plan = final.plan) ∧
    ((∃ error final, execute context start = .error error final) ↔
      ∃ chain ∈ start.plan.chains, ∃ model, chain.kind.model? = some model ∧
        ∃ filter ∈ chain.filters, ∃ error,
          context.federation.validate (.criteria filter.2.criteria) (some model) =
            .error error) := by
  have offers := offers_execute context start.plan.chains
  constructor
  · intro changed final h
    have reads := (offers accepted.reads
      (show Planning.EndsWith _ _ (.ok changed) _ from h)).2 changed rfl
    refine ⟨reads.accepted, ?_, execute_again reads⟩
    rw [reads.chains_eq, List.forall₂_map_right_iff, List.forall₂_same]
    exact fun chain _ => chain.split_delegate _
  · rw [offers.exists_error_iff accepted.reads]
    simp only [List.mem_flatMap, List.mem_reverse, FilterChain.attempts, List.mem_map]
    constructor
    · rintro ⟨error, chain, member, filter, hfilter, failed⟩
      obtain ⟨model, hmodel, invalid⟩ := NodeKind.exists_takes_eq_error_iff.mp ⟨error, failed⟩
      exact ⟨chain, member, model, hmodel, filter, hfilter, invalid⟩
    · rintro ⟨chain, member, model, hmodel, filter, hfilter, invalid⟩
      obtain ⟨error, failed⟩ := NodeKind.exists_takes_eq_error_iff.mpr ⟨model, hmodel, invalid⟩
      exact ⟨error, chain, member, filter, hfilter, failed⟩

def mixedFilters : Plan :=
  let first : Expr := .column ⟨.named "pm1.g1", "id", .int64⟩
  let second : Expr := .column ⟨.named "pm2.g2", "id", .int64⟩
  let is (column : Expr) (value : Int64) : Criteria := .eq column (.literal (.int64 value))
  let join : JoinNode :=
    ⟨.inner, .nestedLoop, [.eq first second], [first], [second], none, none, none⟩
  ⟨[⟨.join join, none, [1, 4]⟩,
    ⟨.select ⟨is first 1, false⟩, some 0, [2]⟩,
    ⟨.select ⟨.or [is first 1, is first 2], false⟩, some 1, [3]⟩,
    ⟨.access { group := .named "pm1.g1", model := some ⟨"pm1"⟩ }, some 2, []⟩,
    ⟨.select ⟨is second 1, false⟩, some 0, [5]⟩,
    ⟨.access { group := .named "pm2.g2" }, some 4, []⟩], 0⟩

def equalityContext : PlanningContext :=
  { PlanningContext.permissive with federation := .equalityOnly }

theorem mixedFilters_delegates :
    ∃ final, execute equalityContext (.start mixedFilters .empty 0) = .ok true final ∧
      final.plan.preorder final.plan.root = [0, 2, 3, 4, 5] ∧
      List.Forall₂ (FilterChain.Split .equalityOnly) mixedFilters.chains final.plan.chains := by
  obtain ⟨changed, final, h, hids⟩ := Planning.exists_of_succeeds (show Planning.succeeds
    (execute equalityContext) (.start mixedFilters .empty 0) (fun changed final =>
      changed && final.plan.preorder final.plan.root == [0, 2, 3, 4, 5]) = true by decide +kernel)
  have accepted : (Session.start mixedFilters .empty 0).plan.Accepted :=
    .of_links (by decide) (by decide) (by decide)
  rw [Bool.and_eq_true, beq_iff_eq] at hids
  obtain ⟨rfl, hids⟩ := hids
  exact ⟨final, h, hids, ((execute_delegates equalityContext accepted).1 true final h).2.1⟩

end PushSelect

end FederatedQuery
