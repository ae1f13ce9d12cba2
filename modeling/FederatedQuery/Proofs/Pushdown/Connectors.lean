import FederatedQuery.Proofs.Language.Equality
import FederatedQuery.Proofs.Pushdown.Growth

/-!
# Models behind one connector

Among physical models whose records can be looked up, being served by one connector is an
equivalence: a model shares its own connector even without a record, and distinct models are
related by the equality of values, which is symmetric and transitive for all values.
Nothing is shared with a virtual model.
-/

namespace FederatedQuery

namespace Federation

variable {federation : Federation} {first second third : ModelId}

structure Resolves (federation : Federation) (model : ModelId) : Prop where
  physical : federation.metadata.isVirtual model = .ok false
  answered : ∃ record?, federation.recordOf model = .ok record?

theorem shareConnector_comm (record? other? : Option SourceCapabilities) :
    shareConnector record? other? = shareConnector other? record? := by
  rcases hid : record?.bind (·.connectorId?) with _ | id <;>
    rcases hown : other?.bind (·.connectorId?) with _ | own <;>
      simp [shareConnector, hid, hown, BEq.comm]

theorem shareConnector_trans {record? other? last? : Option SourceCapabilities}
    (front : shareConnector record? other?) (back : shareConnector other? last?) :
    shareConnector record? last? := by
  obtain ⟨record, other, id, own, rfl, rfl, hid, hown, same⟩ := shareConnector_iff.mp front
  obtain ⟨_, last, _, lastId, ⟨⟩, rfl, hown', hlast, same'⟩ := shareConnector_iff.mp back
  obtain rfl := Option.some.inj (hown.symm.trans hown')
  exact shareConnector_iff.mpr
    ⟨record, last, id, lastId, rfl, rfl, hid, hlast, PartialEquivBEq.trans same same'⟩

theorem sameConnector_of_physical {record? other? : Option SourceCapabilities}
    (physical : federation.metadata.isVirtual first = .ok false)
    (physical' : federation.metadata.isVirtual second = .ok false)
    (answered : federation.recordOf first = .ok record?)
    (answered' : federation.recordOf second = .ok other?) :
    federation.sameConnector first second =
      .ok (decide (first = second) || shareConnector record? other?) := by
  by_cases same : first = second <;>
    simp [sameConnector, physical, physical', answered, answered', same, bind, Except.bind, pure,
      Except.pure]

theorem sameConnector_of_virtual {isVirtual isVirtual' : Bool}
    (known : federation.metadata.isVirtual first = .ok isVirtual)
    (known' : federation.metadata.isVirtual second = .ok isVirtual')
    (either : isVirtual || isVirtual') : federation.sameConnector first second = .ok false := by
  cases isVirtual <;> cases isVirtual' <;>
    simp_all [sameConnector, bind, Except.bind, pure, Except.pure]

theorem sameConnector_comm (resolves : federation.Resolves first)
    (resolves' : federation.Resolves second) :
    federation.sameConnector second first = federation.sameConnector first second := by
  obtain ⟨physical, record?, answered⟩ := resolves
  obtain ⟨physical', other?, answered'⟩ := resolves'
  rw [sameConnector_of_physical physical' physical answered' answered,
    sameConnector_of_physical physical physical' answered answered', shareConnector_comm]
  simp only [eq_comm]

theorem sameConnector_trans (front : federation.sameConnector first second = .ok true)
    (back : federation.sameConnector second third = .ok true) :
    federation.sameConnector first third = .ok true := by
  obtain ⟨physical, physical', rfl | ⟨record?, other?, hrecord, hother, shared⟩⟩ :=
    sameConnector_eq_true_iff.mp front
  · exact back
  obtain ⟨-, physical'', rfl | ⟨_, last?, hother', hlast, shared'⟩⟩ :=
    sameConnector_eq_true_iff.mp back
  · exact front
  cases hother.symm.trans hother'
  exact sameConnector_eq_true_iff.mpr ⟨physical, physical'', .inr
    ⟨record?, last?, hrecord, hlast, shareConnector_trans shared shared'⟩⟩

/-- The records of both models name their connectors, and by equal values. -/
def NameOneConnector (federation : Federation) (model other : ModelId) : Prop :=
  ∃ record record' id id', federation.recordOf model = .ok (some record) ∧
    federation.recordOf other = .ok (some record') ∧ record.connectorId? = some id ∧
      record'.connectorId? = some id' ∧ id == id'

theorem sameConnector_iff (resolves : federation.Resolves first)
    (resolves' : federation.Resolves second) :
    federation.sameConnector first second = .ok true ↔
      first = second ∨ federation.NameOneConnector first second := by
  rw [sameConnector_eq_true_iff]
  constructor
  · rintro ⟨-, -, same | ⟨record?, other?, answered, answered', shared⟩⟩
    · exact .inl same
    · obtain ⟨record, record', id, id', rfl, rfl, named⟩ := shareConnector_iff.mp shared
      exact .inr ⟨record, record', id, id', answered, answered', named⟩
  · refine fun related => ⟨resolves.physical, resolves'.physical, related.imp_right ?_⟩
    rintro ⟨record, record', id, id', answered, answered', named⟩
    exact ⟨some record, some record', answered, answered',
      shareConnector_iff.mpr ⟨record, record', id, id', rfl, rfl, named⟩⟩

/-- Physical models whose look-ups succeed fall into classes, one for each connector; a virtual
model shares none. -/
theorem sameConnector_equivalence (resolves : federation.Resolves first)
    (resolves' : federation.Resolves second) :
    ((∃ same, federation.sameConnector first second = .ok same) ∧
        (federation.sameConnector first second = .ok true ↔
          first = second ∨ federation.NameOneConnector first second) ∧
        federation.sameConnector first first = .ok true ∧
        federation.sameConnector second first = federation.sameConnector first second ∧
        ∀ third, federation.sameConnector first second = .ok true →
          federation.sameConnector second third = .ok true →
            federation.sameConnector first third = .ok true) ∧
      ∀ model other isVirtual isVirtual', federation.metadata.isVirtual model = .ok isVirtual →
        federation.metadata.isVirtual other = .ok isVirtual' → (isVirtual || isVirtual') →
          federation.sameConnector model other = .ok false := by
  obtain ⟨record?, answered⟩ := resolves.answered
  obtain ⟨other?, answered'⟩ := resolves'.answered
  have told := sameConnector_of_physical resolves.physical resolves'.physical answered answered'
  refine ⟨⟨⟨_, told⟩, sameConnector_iff resolves resolves', ?_, ?_, ?_⟩, ?_⟩
  · exact (sameConnector_iff resolves resolves).mpr (.inl rfl)
  · exact sameConnector_comm resolves resolves'
  · exact fun third => sameConnector_trans
  · intro model other isVirtual isVirtual' known known' either
    exact sameConnector_of_virtual known known' either

def numbered (number : String → Float) : Federation :=
  ⟨(Catalog.twoSources.addModel "pm3" false).toMetadata, fun name =>
    .ok (some (SourceCapabilities.empty.setProperty .connectorId (.float64 (number name))))⟩

def zeroNumbered : Federation := numbered fun name => if name = "pm2" then -0.0 else 0.0

theorem zeroNumbered_connected :
    zeroNumbered.Resolves ⟨"pm1"⟩ ∧ zeroNumbered.Resolves ⟨"pm2"⟩ ∧
      zeroNumbered.sameConnector ⟨"pm1"⟩ ⟨"pm3"⟩ = .ok true ∧
      zeroNumbered.sameConnector ⟨"pm1"⟩ ⟨"vm1"⟩ = .ok false := by
  have first : zeroNumbered.Resolves ⟨"pm1"⟩ := ⟨rfl, _, rfl⟩
  have second : zeroNumbered.Resolves ⟨"pm2"⟩ := ⟨rfl, _, rfl⟩
  obtain ⟨⟨-, -, -, -, trans⟩, virtual⟩ := sameConnector_equivalence first second
  exact ⟨first, second, trans ⟨"pm3"⟩ (by decide +kernel) (by decide +kernel),
    virtual _ _ false true rfl rfl rfl⟩

example : (numbered fun _ => 0.0 / 0.0).sameConnector ⟨"pm1"⟩ ⟨"pm1"⟩ = .ok true ∧
    (numbered fun _ => 0.0 / 0.0).sameConnector ⟨"pm1"⟩ ⟨"pm2"⟩ = .ok false := by
  decide +kernel

end Federation

end FederatedQuery
