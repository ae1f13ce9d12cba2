import FederatedQuery.Proofs.Pushdown.Subqueries

/-!
More capabilities never reject more.

One record widens another one if it offers whatever the other one offers.  What the
narrower record meets, requirement by requirement, the wider one meets as well; an
induction on the nesting of subqueries carries this over to whole objects.

The capabilities for which this is needed are a parameter, since checks do not ask
for all of them.
-/

namespace FederatedQuery

/-- The second record offers what the first one does, of capabilities only those asked for. -/
structure SourceCapabilities.WidensOn (asked : Capability → Prop)
    (record wider : SourceCapabilities) : Prop where
  supports : ∀ capability, asked capability →
    record.supports capability → wider.supports capability
  functions : ∀ name, record.supportsFunction name → wider.supportsFunction name
  conversions : ∀ source target,
    record.supportsConvert source target → wider.supportsConvert source target
  patterns : ∀ pattern kind,
    record.supportsPattern pattern kind → wider.supportsPattern pattern kind
  connector : ∀ id, record.connectorId? = some id → wider.connectorId? = some id
  listSize : ∀ most, wider.maxInListSize? = some most →
    ∃ least, record.maxInListSize? = some least ∧ least ≤ most

structure Federation.WidensOn (asked : Capability → Prop) (federation wider : Federation) :
    Prop where
  metadata : wider.metadata = federation.metadata
  unknown : ∀ name, federation.finder name = .ok none → wider.finder name = .ok none
  known : ∀ name record, federation.finder name = .ok (some record) →
    ∃ other, wider.finder name = .ok (some other) ∧ record.WidensOn asked other

/-- The second federation offers at least what the first one does, of all capabilities. -/
abbrev Federation.Widens (federation wider : Federation) : Prop :=
  federation.WidensOn (fun _ => True) wider

def Requirement.capabilities : Requirement → List Capability
  | .supported capability => [capability]
  | .aggregate call => call.needs
  | .hosted _ => [.querySubqueriesCorrelated]
  | .pushable _ | .function _ | .listOf _ | .comparable _ | .patternMatched _ | .noXml => []

/-- Nothing but these capabilities is asked for by the table of requirements. -/
def Requirement.AskOnly (asked : Capability → Prop) : Prop :=
  ∀ object : LanguageObject, ∀ requirement ∈ object.requirements,
    ∀ capability ∈ requirement.capabilities, asked capability

theorem FunctionCall.ConfirmedBy.widen {asked : Capability → Prop}
    {record wider : SourceCapabilities} (widens : record.WidensOn asked wider)
    {call : FunctionCall} (confirmed : call.ConfirmedBy record) : call.ConfirmedBy wider where
  conversion converts := SourceCapabilities.supportsConvert_iff.mp
    (widens.conversions _ _ (SourceCapabilities.supportsConvert_iff.mpr
      (confirmed.conversion converts)))
  format formats := SourceCapabilities.supportsPattern_iff.mp
    (widens.patterns _ _ (SourceCapabilities.supportsPattern_iff.mpr (confirmed.format formats)))

namespace Federation

variable {asked : Capability → Prop} {federation wider : Federation} {model : ModelId}

theorem recordOf_eq_ok_iff {record? : Option SourceCapabilities} :
    federation.recordOf model = .ok record? ↔
      federation.metadata.isVirtual model = .ok true ∧ record? = none ∨
        federation.metadata.isVirtual model = .ok false ∧
          ∃ name, federation.metadata.fullName model = .ok name ∧
            federation.finder name = .ok record? := by
  rw [recordOf]
  rcases federation.metadata.isVirtual model with error | _ | _
  · simp [bind, Except.bind]
  · rcases hname : federation.metadata.fullName model with error | name <;>
      simp [bind, Except.bind]
  · simp [bind, Except.bind, pure, Except.pure, eq_comm]

theorem shareConnector_iff {first second : Option SourceCapabilities} :
    shareConnector first second ↔
      ∃ record other id own, first = some record ∧ second = some other ∧
        record.connectorId? = some id ∧ other.connectorId? = some own ∧ id == own := by
  rcases first with _ | record
  · simp [shareConnector]
  rcases second with _ | other
  · simp [shareConnector]
  rcases hid : record.connectorId? with _ | id <;>
    rcases hown : other.connectorId? with _ | own <;>
      simp [shareConnector, hid, hown]

theorem sameConnector_eq_true_iff {other : ModelId} :
    federation.sameConnector model other = .ok true ↔
      federation.metadata.isVirtual model = .ok false ∧
        federation.metadata.isVirtual other = .ok false ∧
          (model = other ∨ ∃ record? other?, federation.recordOf model = .ok record? ∧
            federation.recordOf other = .ok other? ∧ shareConnector record? other?) := by
  rw [sameConnector]
  rcases federation.metadata.isVirtual model with error | _ | _
  · simp [bind, Except.bind]
  · rcases federation.metadata.isVirtual other with error | _ | _
    · simp [bind, Except.bind]
    · by_cases same : model = other
      · simp [same, bind, Except.bind, pure, Except.pure]
      · rcases federation.recordOf model with error | record? <;>
          rcases federation.recordOf other with error | other? <;>
            simp [same, bind, Except.bind, pure, Except.pure]
    · simp [bind, Except.bind, pure, Except.pure]
  · simp [bind, Except.bind, pure, Except.pure]

theorem WidensOn.recordOf_none (widens : federation.WidensOn asked wider)
    (unknown : federation.recordOf model = .ok none) : wider.recordOf model = .ok none := by
  rw [recordOf_eq_ok_iff] at unknown ⊢
  rw [widens.metadata]
  rcases unknown with isVirtual | ⟨physical, name, hname, hrecord⟩
  · exact .inl isVirtual
  · exact .inr ⟨physical, name, hname, widens.unknown name hrecord⟩

theorem WidensOn.recordOf_some (widens : federation.WidensOn asked wider)
    {record : SourceCapabilities} (known : federation.recordOf model = .ok (some record)) :
    ∃ other, wider.recordOf model = .ok (some other) ∧ record.WidensOn asked other := by
  obtain ⟨physical, name, hname, hrecord⟩ := of_recordOf known
  obtain ⟨other, hother, grows⟩ := widens.known name record hrecord
  refine ⟨other, recordOf_eq_ok_iff.mpr (.inr ⟨?_, name, ?_, hother⟩), grows⟩
  · rw [widens.metadata, physical]
  · rw [widens.metadata, hname]

theorem WidensOn.supports (widens : federation.WidensOn asked wider) {capability : Capability}
    (hasked : asked capability) (supported : federation.supports capability model = .ok true) :
    wider.supports capability model = .ok true := by
  obtain ⟨record, known, supports⟩ := supports_eq_true_iff.mp supported
  obtain ⟨other, hother, grows⟩ := widens.recordOf_some known
  exact supports_eq_true_iff.mpr ⟨other, hother, grows.supports capability hasked supports⟩

theorem WidensOn.sameConnector (widens : federation.WidensOn asked wider) {other : ModelId}
    (same : federation.sameConnector model other = .ok true) :
    wider.sameConnector model other = .ok true := by
  rw [sameConnector_eq_true_iff] at same ⊢
  rw [widens.metadata]
  refine ⟨same.1, same.2.1, ?_⟩
  rcases same.2.2 with rfl | ⟨record?, other?, hrecord, hother, shared⟩
  · exact .inl rfl
  obtain ⟨record, own, id, ownId, rfl, rfl, hid, hown, equal⟩ := shareConnector_iff.mp shared
  obtain ⟨wide, hwide, grows⟩ := widens.recordOf_some hrecord
  obtain ⟨wideOwn, hwideOwn, growsOwn⟩ := widens.recordOf_some hother
  exact .inr ⟨wide, wideOwn, hwide, hwideOwn, shareConnector_iff.mpr
    ⟨wide, wideOwn, id, ownId, rfl, rfl, grows.connector id hid, growsOwn.connector ownId hown,
      equal⟩⟩

theorem RunsAt.widen (widens : federation.WidensOn asked wider)
    (correlating : asked .querySubqueriesCorrelated) {subquery : Subquery}
    {model? : Option ModelId} {place : ModelId}
    (parts : ∀ part ∈ subquery.correlatedParts,
      federation.validate part (some place) = .ok .accepted →
        wider.validate part (some place) = .ok .accepted)
    (runs : federation.RunsAt subquery model? place) : wider.RunsAt subquery model? place where
  given := runs.given
  adopted := by simpa only [widens.metadata] using runs.adopted
  connected model group hmodel reads := by
    obtain ⟨own, hown, same⟩ := runs.connected model group hmodel reads
    exact ⟨own, by rw [widens.metadata, hown], widens.sameConnector same⟩
  correlated refers := by
    obtain ⟨supported, accepted⟩ := takesCorrelated_iff.mp (runs.correlated refers)
    exact takesCorrelated_iff.mpr ⟨widens.supports correlating supported,
      fun part member => parts part member (accepted part member)⟩

theorem WidensOn.met (widens : federation.WidensOn asked wider)
    {record other : SourceCapabilities} (grows : record.WidensOn asked other)
    {requirement : Requirement}
    (covered : ∀ capability ∈ requirement.capabilities, asked capability)
    (hosted : ∀ subquery, requirement = .hosted subquery →
      federation.subqueryModel subquery (some model) = .ok (.ok model) →
        wider.subqueryModel subquery (some model) = .ok (.ok model))
    (met : requirement.obstacle? federation ⟨model, record⟩ = none) :
    requirement.obstacle? wider ⟨model, other⟩ = none := by
  have supports (capability : Capability) (hasked : asked capability) :
      record.supports capability → other.supports capability :=
    grows.supports capability hasked
  cases requirement with
  | supported capability =>
      rw [obstacle?_supported_eq_none_iff] at met ⊢
      exact supports capability (covered _ (List.mem_singleton_self _)) met
  | aggregate call =>
      rw [obstacle?_aggregate_eq_none_iff] at met ⊢
      exact fun capability needed =>
        supports capability (covered capability needed) (met capability needed)
  | pushable call => exact met
  | function call =>
      rw [obstacle?_function_eq_none_iff] at met ⊢
      exact met.imp_right fun ⟨listed, confirmed⟩ =>
        ⟨grows.functions _ listed, confirmed.widen grows⟩
  | listOf count =>
      rw [obstacle?_listOf_eq_none_iff] at met ⊢
      intro most hmost
      obtain ⟨least, hleast, fewer⟩ := grows.listSize most hmost
      exact Nat.le_trans (met least hleast) fewer
  | comparable element | patternMatched element =>
      simpa only [Requirement.obstacle?, widens.metadata] using met
  | hosted subquery =>
      rw [obstacle?_hosted_eq_none_iff] at met ⊢
      exact hosted subquery rfl met
  | noXml => cases met

theorem WidensOn.accepted (widens : federation.WidensOn asked wider)
    (complete : Requirement.AskOnly asked) {object : LanguageObject} {model? : Option ModelId}
    (accepted : federation.validate object model? = .ok .accepted) :
    wider.validate object model? = .ok .accepted := by
  induction object using LanguageObject.induction_on_parts generalizing model? with
  | step object ih =>
      cases model? with
      | none => simp [validate_eq_validateWith, validateWith, pure, Except.pure] at accepted
      | some model =>
          rw [accepted_iff] at accepted ⊢
          rw [widens.metadata]
          refine accepted.imp_right ?_
          rintro (unknown | ⟨record, known, passes⟩)
          · exact .inl (widens.recordOf_none unknown)
          obtain ⟨other, hother, grows⟩ := widens.recordOf_some known
          refine .inr ⟨other, hother, fun visited member => ?_⟩
          refine obstacle?_eq_none_iff.mpr fun requirement required => ?_
          refine widens.met grows (complete visited requirement required) ?_
            (obstacle?_eq_none_iff.mp (passes visited member) requirement required)
          rintro subquery rfl runs
          rw [subqueryModel_eq_ok_iff_runsAt] at runs ⊢
          exact runs.widen widens (complete visited _ required _ (List.mem_singleton_self _))
            fun part hpart =>
              ih visited member subquery (subquery?_eq_of_hosted required) part hpart

theorem WidensOn.subqueryModel (widens : federation.WidensOn asked wider)
    (complete : Requirement.AskOnly asked) {subquery : Subquery} {model? : Option ModelId}
    {place : ModelId} (runs : federation.subqueryModel subquery model? = .ok (.ok place)) :
    wider.subqueryModel subquery model? = .ok (.ok place) := by
  have correlating : asked .querySubqueriesCorrelated :=
    complete (.expr (.scalarSubquery subquery)) _ (hosted_mem_requirements rfl) _
      (List.mem_singleton_self _)
  rw [subqueryModel_eq_ok_iff_runsAt] at runs ⊢
  exact runs.widen widens correlating fun _ _ taken => widens.accepted complete taken

/-- Whatever is accepted, and wherever a subquery runs, stays so when every record offers at least
what it offered. -/
theorem accepted_of_widens (widens : federation.Widens wider) :
    (∀ object model?, federation.validate object model? = .ok .accepted →
        wider.validate object model? = .ok .accepted) ∧
      ∀ subquery model? place, federation.subqueryModel subquery model? = .ok (.ok place) →
        wider.subqueryModel subquery model? = .ok (.ok place) := by
  have complete : Requirement.AskOnly fun _ => True := fun _ _ _ _ _ => trivial
  exact ⟨fun object model? => widens.accepted complete,
    fun subquery model? place => widens.subqueryModel complete⟩

def shortLists : SourceCapabilities :=
  (((SourceCapabilities.empty.setSupport .criteriaIn true).setSupport .criteriaInSubquery
    true).setProperty .connectorId (.string "shared")).setProperty .maxInCriteriaSize (.int64 2)

def longLists : SourceCapabilities :=
  (shortLists.setSupport .criteriaNot true).setProperty .maxInCriteriaSize (.int64 5)

theorem shortLists_widens : shortLists.WidensOn (fun _ => True) longLists where
  supports capability _ := by cases capability <;> decide
  functions _ listed := listed
  conversions _ _ converts := converts
  patterns _ _ accepts := accepts
  connector _ declared := declared
  listSize most hmost := by
    have longest : longLists.maxInListSize? = some 5 := by decide
    obtain rfl : 5 = most := Option.some.inj (longest.symm.trans hmost)
    exact ⟨2, by decide, by decide⟩

def behindOneConnector (record : SourceCapabilities) : Federation :=
  ⟨Catalog.twoSources.toMetadata, fun _ => .ok (some record)⟩

def elsewhere : Subquery :=
  (Subquery.ofCommand (.query ((Query.ofSelect [.column ⟨.named "pm2.g1", "id", .int64⟩]).reading
    (.named "pm2.g1")))).plannedAsAccess

def listedTwice : LanguageObject :=
  let id : Expr := .column ⟨.named "pm1.g1", "id", .int64⟩
  .criteria (.and [.inList id [.literal (.int64 1), .literal (.int64 2)] false,
    .inSubquery id elsewhere false])

theorem listedTwice_stays_accepted :
    (behindOneConnector shortLists).Widens (behindOneConnector longLists) ∧
      (behindOneConnector shortLists).validate listedTwice (some ⟨"pm1"⟩) = .ok .accepted ∧
      (behindOneConnector longLists).validate listedTwice (some ⟨"pm1"⟩) = .ok .accepted ∧
      (behindOneConnector longLists).subqueryModel elsewhere none = .ok (.ok ⟨"pm2"⟩) := by
  have widens : (behindOneConnector shortLists).Widens (behindOneConnector longLists) :=
    ⟨rfl, nofun, fun _ _ known => ⟨longLists, rfl, by cases known; exact shortLists_widens⟩⟩
  have accepted : (behindOneConnector shortLists).validate listedTwice (some ⟨"pm1"⟩) =
      .ok .accepted := accepted_of_canPush (by decide +kernel)
  have runs : (behindOneConnector shortLists).subqueryModel elsewhere none =
      .ok (.ok ⟨"pm2"⟩) := rfl
  exact ⟨widens, accepted, (accepted_of_widens widens).1 _ _ accepted,
    (accepted_of_widens widens).2 _ _ _ runs⟩

end Federation

end FederatedQuery
