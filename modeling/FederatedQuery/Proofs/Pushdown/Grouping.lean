import FederatedQuery.Proofs.Pushdown.Growth

/-!
Grouping is taken for granted.

A query asks a source for what stands in its clauses, and for nothing on account of
GROUP BY and HAVING themselves.  A record may therefore say about these two what it
likes: no answer of a push-down check depends on it.  Only a query with an aggregate
is sure to reach a source that groups, and only if the source's record keeps to the
rule that aggregates bring grouping along.
-/

namespace FederatedQuery

/-! ### Grouping is not asked for -/

def Capability.isGrouping : Capability → Bool
  | .queryGroupBy | .queryHaving => true
  | _ => false

def Requirement.asksGrouping (requirement : Requirement) : Bool :=
  requirement.capabilities.any Capability.isGrouping

theorem Requirement.asksGrouping_aggregate (call : AggregateCall) :
    (Requirement.aggregate call).asksGrouping = false := by
  obtain ⟨function, arg, distinct⟩ := call
  cases function <;> cases arg <;> cases distinct <;> rfl

theorem any_asksGrouping_negation (negated : Bool) :
    (negationRequirements negated).any Requirement.asksGrouping = false := by
  cases negated <;> rfl

theorem any_asksGrouping_elements {wrap : ElementSymbol → Requirement}
    (plain : ∀ element, (wrap element).asksGrouping = false) (elements : List ElementSymbol) :
    (elements.map wrap).any Requirement.asksGrouping = false := by
  simp [plain]

theorem any_asksGrouping_comparable (elements : List ElementSymbol) :
    (elements.map .comparable).any Requirement.asksGrouping = false :=
  any_asksGrouping_elements (fun _ => rfl) elements

theorem any_asksGrouping_membership (negated : Bool) (criteria : Criteria) :
    (membershipRequirements negated criteria).any Requirement.asksGrouping = false := by
  rw [membershipRequirements, List.any_append, List.any_cons, any_asksGrouping_negation,
    any_asksGrouping_comparable]
  rfl

theorem CompareOp.any_asksGrouping (op : CompareOp) :
    op.requirements.any Requirement.asksGrouping = false := by
  cases op <;> rfl

theorem Expr.any_asksGrouping (expr : Expr) :
    expr.requirements.any Requirement.asksGrouping = false := by
  cases expr with
  | aggregate call => simp [requirements, Requirement.asksGrouping_aggregate]
  | function call =>
      rw [requirements]
      split <;> rfl
  | _ => rfl

theorem Criteria.any_asksGrouping (criteria : Criteria) :
    criteria.requirements.any Requirement.asksGrouping = false := by
  cases criteria with
  | not operand => rfl
  | existence subquery negated => rfl
  | compound op operands => cases op <;> rfl
  | compare left op right =>
      rw [requirements, List.any_append, CompareOp.any_asksGrouping, any_asksGrouping_comparable]
      rfl
  | isNull expr negated =>
      rw [requirements, List.any_cons, any_asksGrouping_negation]
      rfl
  | like expr pattern escape negated =>
      have columns (elements : List ElementSymbol) :
          (elements.map .patternMatched).any Requirement.asksGrouping = false :=
        any_asksGrouping_elements (fun _ => rfl) elements
      cases escape <;>
        (simp only [requirements, List.cons_append, List.any_cons, List.any_append,
          any_asksGrouping_negation, columns]
         rfl)
  | dependentSet expr valueSource valueExpr => exact any_asksGrouping_membership false _
  | inList expr values negated =>
      rw [requirements, List.any_append, any_asksGrouping_membership]
      rfl
  | inSubquery expr subquery negated =>
      rw [requirements, List.any_append, any_asksGrouping_membership]
      rfl
  | quantified left op quantifier subquery =>
      cases quantifier <;>
        (simp only [requirements, List.cons_append, List.any_cons, List.any_append,
          CompareOp.any_asksGrouping, any_asksGrouping_comparable]
         rfl)

/-- No object of the language asks a source for GROUP BY or for HAVING. -/
theorem Requirement.askOnly_not_isGrouping :
    AskOnly fun capability => capability.isGrouping = false := by
  intro object requirement required capability asked
  have unasked : object.requirements.any asksGrouping = false := by
    cases object with
    | expr body => exact body.any_asksGrouping
    | criteria body => exact body.any_asksGrouping
    | command _ | namespaces _ | attributes _ => rfl
  have plain : requirement.asksGrouping = false := by
    simpa using List.any_eq_false.mp unasked requirement required
  simpa using List.any_eq_false.mp plain capability asked

/-! ### Other answers about grouping -/

namespace SourceCapabilities

variable {record : SourceCapabilities}

theorem supports_writeFlag {capability probe : Capability} {supported : Bool} :
    (record.writeFlag capability supported).supports probe =
      if probe = capability then supported else record.supports probe := by
  simp only [supports, writeFlag, OrderedMap.get?_insert, Capability.compare_eq_iff]
  split <;> rfl

def regrouped (groups restricts : Bool) (record : SourceCapabilities) : SourceCapabilities :=
  (record.writeFlag .queryGroupBy groups).writeFlag .queryHaving restricts

theorem supports_regrouped {groups restricts : Bool} {capability : Capability}
    (other : capability.isGrouping = false) :
    (record.regrouped groups restricts).supports capability = record.supports capability := by
  have notHaving : capability ≠ .queryHaving := by rintro rfl; cases other
  have notGroupBy : capability ≠ .queryGroupBy := by rintro rfl; cases other
  rw [regrouped, supports_writeFlag, if_neg notHaving, supports_writeFlag, if_neg notGroupBy]

theorem widensOn_regrouped (groups restricts : Bool) :
    record.WidensOn (fun capability => capability.isGrouping = false)
      (record.regrouped groups restricts) where
  supports _ other supported := (supports_regrouped other).trans supported
  functions _ listed := listed
  conversions _ _ converts := converts
  patterns _ _ accepts := accepts
  connector _ declared := declared
  listSize most declared := ⟨most, declared, Nat.le_refl most⟩

theorem regrouped_widensOn (groups restricts : Bool) :
    (record.regrouped groups restricts).WidensOn
      (fun capability => capability.isGrouping = false) record where
  supports _ other supported := (supports_regrouped other).symm.trans supported
  functions _ listed := listed
  conversions _ _ converts := converts
  patterns _ _ accepts := accepts
  connector _ declared := declared
  listSize most declared := ⟨most, declared, Nat.le_refl most⟩

/-- Aggregates come with grouping, as they do where they are switched on. -/
def GroupsAggregates (record : SourceCapabilities) : Prop :=
  record.supports .queryAggregates → record.supports .queryGroupBy ∧ record.supports .queryHaving

end SourceCapabilities

namespace Federation

variable {federation : Federation} {model : ModelId} {record : SourceCapabilities}

def regrouped (groups restricts : Bool) (federation : Federation) : Federation :=
  ⟨federation.metadata, fun name =>
    (federation.finder name).map (Option.map (SourceCapabilities.regrouped groups restricts))⟩

theorem finder_regrouped_eq_ok_iff {groups restricts : Bool} {name : String}
    {record? : Option SourceCapabilities} :
    (federation.regrouped groups restricts).finder name = .ok record? ↔
      ∃ original, federation.finder name = .ok original ∧
        original.map (SourceCapabilities.regrouped groups restricts) = record? := by
  rcases hfound : federation.finder name with error | original <;>
    simp [regrouped, hfound, Except.map]

theorem widensOn_regrouped (federation : Federation) (groups restricts : Bool) :
    federation.WidensOn (fun capability => capability.isGrouping = false)
      (federation.regrouped groups restricts) where
  metadata := rfl
  unknown _ none := finder_regrouped_eq_ok_iff.mpr ⟨_, none, rfl⟩
  known _ record known :=
    ⟨record.regrouped groups restricts, finder_regrouped_eq_ok_iff.mpr ⟨_, known, rfl⟩,
      SourceCapabilities.widensOn_regrouped groups restricts⟩

theorem regrouped_widensOn (federation : Federation) (groups restricts : Bool) :
    (federation.regrouped groups restricts).WidensOn
      (fun capability => capability.isGrouping = false) federation where
  metadata := rfl
  unknown _ none := by
    obtain ⟨original, horiginal, hnone⟩ := finder_regrouped_eq_ok_iff.mp none
    rwa [Option.map_eq_none_iff.mp hnone] at horiginal
  known _ record known := by
    obtain ⟨original?, horiginal, hrecord⟩ := finder_regrouped_eq_ok_iff.mp known
    obtain ⟨original, rfl, rfl⟩ := Option.map_eq_some_iff.mp hrecord
    exact ⟨original, horiginal, SourceCapabilities.regrouped_widensOn groups restricts⟩

/-! ### The clauses of a query -/

structure AcceptsClauses (federation : Federation) (model : ModelId) (query : Query) : Prop where
  exprs : ∀ expr ∈ query.select ++ query.groupBy,
    federation.validate (.expr expr) (some model) = .ok .accepted
  criteria : ∀ criteria, query.criteria = some criteria ∨ query.having = some criteria →
    federation.validate (.criteria criteria) (some model) = .ok .accepted

theorem accepted_query_iff_clauses (known : federation.recordOf model = .ok (some record))
    {query : Query} :
    federation.validate (.command (.query query)) (some model) = .ok .accepted ↔
      federation.AcceptsClauses model query := by
  have unasked : LanguageObject.obstacle? federation ⟨model, record⟩ (.command (.query query)) =
      none := rfl
  rw [accepted_iff_children known, and_iff_right unasked]
  constructor
  · intro accepted
    exact
      ⟨fun expr member =>
          accepted _ (LanguageObject.mem_children_query.mpr (.inl ⟨expr, member, rfl⟩)),
        fun criteria clause =>
          accepted _ (LanguageObject.mem_children_query.mpr (.inr ⟨criteria, clause, rfl⟩))⟩
  · rintro ⟨exprs, criteria⟩ child member
    rcases LanguageObject.mem_children_query.mp member with
      ⟨expr, hexpr, rfl⟩ | ⟨predicate, clause, rfl⟩
    · exact exprs expr hexpr
    · exact criteria predicate clause

/-- A query is accepted for what stands in its clauses, whether the source can group or not; with
an aggregate in it, it is accepted by a source that groups, if aggregates come with grouping. -/
theorem grouping_unasked (groups restricts : Bool) :
    (∀ query model record, federation.recordOf model = .ok (some record) →
        (federation.validate (.command (.query query)) (some model) = .ok .accepted ↔
          federation.AcceptsClauses model query)) ∧
      (∀ object model?,
        (federation.regrouped groups restricts).validate object model? = .ok .accepted ↔
          federation.validate object model? = .ok .accepted) ∧
      (∀ subquery model? place,
        (federation.regrouped groups restricts).subqueryModel subquery model? = .ok (.ok place) ↔
          federation.subqueryModel subquery model? = .ok (.ok place)) ∧
      ∀ query model record call, federation.recordOf model = .ok (some record) →
        federation.validate (.command (.query query)) (some model) = .ok .accepted →
        (LanguageObject.command (.query query)).Examines (.expr (.aggregate call)) →
        record.GroupsAggregates →
          record.supports .queryGroupBy ∧ record.supports .queryHaving := by
  have widens := widensOn_regrouped federation groups restricts
  have narrows := regrouped_widensOn federation groups restricts
  have complete := Requirement.askOnly_not_isGrouping
  refine ⟨fun query model record known => accepted_query_iff_clauses known,
    fun object model? => ?_, fun subquery model? place => ?_,
    fun query model record call known accepted examines cascades => ?_⟩
  · exact ⟨narrows.accepted complete, widens.accepted complete⟩
  · exact ⟨narrows.subqueryModel complete, widens.subqueryModel complete⟩
  · have met : (Requirement.aggregate call).obstacle? federation ⟨model, record⟩ = none :=
      met_of_examines known accepted examines (List.mem_singleton_self _)
    have needed : .queryAggregates ∈ call.needs := List.mem_append_left _ List.mem_cons_self
    exact cascades (obstacle?_aggregate_eq_none_iff.mp met _ needed)

def counted : Query :=
  let id : Expr := .column ⟨.named "pm1.g1", "id", .int64⟩
  (((Query.ofSelect [id]).reading (.named "pm1.g1")).grouped [id]).restricted
    (.compare (.aggregate ⟨.count, none, false⟩) .ge (.literal (.int64 2)))

def countingRecord : SourceCapabilities :=
  [.criteriaCompareOrdered, .queryAggregates, .queryAggregatesCountStar].foldl
    (fun record capability => record.setSupport capability true) .empty

def countingOnly : Federation :=
  ⟨Catalog.twoSources.toMetadata, fun _ => .ok (some countingRecord)⟩

theorem counted_accepted_ungrouped :
    countingOnly.recordOf ⟨"pm1"⟩ = .ok (some countingRecord) ∧
      countingOnly.AcceptsClauses ⟨"pm1"⟩ counted ∧
      (countingOnly.regrouped false false).validate (.command (.query counted)) (some ⟨"pm1"⟩) =
        .ok .accepted ∧
      countingRecord.supports .queryGroupBy ∧ countingRecord.supports .queryHaving := by
  have known : countingOnly.recordOf ⟨"pm1"⟩ = .ok (some countingRecord) := rfl
  have accepted : countingOnly.validate (.command (.query counted)) (some ⟨"pm1"⟩) =
      .ok .accepted := accepted_of_canPush (by decide +kernel)
  have aggregate : (LanguageObject.command (.query counted)).Examines
      (.expr (.aggregate ⟨.count, none, false⟩)) := by
    have clause : .criteria (.compare (.aggregate ⟨.count, none, false⟩) .ge
        (.literal (.int64 2))) ∈ (LanguageObject.command (.query counted)).children :=
      LanguageObject.mem_children_query.mpr (.inr ⟨_, .inr rfl, rfl⟩)
    exact .visits (LanguageObject.mem_preorder_of_child clause
      (LanguageObject.mem_preorder_of_child List.mem_cons_self LanguageObject.self_mem_preorder))
  obtain ⟨clauses, regrouped, -, supported⟩ :=
    @grouping_unasked countingOnly false false
  exact ⟨known, (clauses counted _ _ known).mp accepted, (regrouped _ _).mpr accepted,
    supported counted _ _ _ known accepted aggregate fun _ => ⟨by decide, by decide⟩⟩

def groupedOnce : Query :=
  let id : Expr := .column ⟨.named "pm1.g1", "id", .int64⟩
  (((Query.ofSelect [id]).reading (.named "pm1.g1")).grouped [id]).restricted
    (.compare id .eq (.literal (.int64 1)))

def ungroupedRecord : SourceCapabilities :=
  (SourceCapabilities.empty.setSupport .criteriaCompareEq true).setSupport
    .querySubqueriesCorrelated true

def ungroupedOnly : Federation :=
  ⟨Catalog.twoSources.toMetadata, fun _ => .ok (some ungroupedRecord)⟩

def groupedForRow : Subquery :=
  Subquery.correlatedTo (.ofCommand (.query groupedOnce)) ⟨.named "pm1.g1", "id", .int64⟩
    (.column ⟨.named "pm1.g2", "id", .int64⟩)

theorem groupedOnce_accepted_without_grouping :
    ungroupedOnly.recordOf ⟨"pm1"⟩ = .ok (some ungroupedRecord) ∧
      ungroupedOnly.validate (.command (.query groupedOnce)) (some ⟨"pm1"⟩) = .ok .accepted ∧
      ungroupedOnly.subqueryModel groupedForRow (some ⟨"pm1"⟩) = .ok (.ok ⟨"pm1"⟩) ∧
      groupedOnce.groupBy ≠ [] ∧ groupedOnce.having.isSome ∧
      ¬ ungroupedRecord.supports .queryGroupBy ∧ ¬ ungroupedRecord.supports .queryHaving := by
  have accepted : ungroupedOnly.validate (.command (.query groupedOnce)) (some ⟨"pm1"⟩) =
      .ok .accepted := accepted_of_canPush (by decide +kernel)
  have reference : ungroupedOnly.validate (.expr (.column ⟨.named "pm1.g2", "id", .int64⟩))
      (some ⟨"pm1"⟩) = .ok .accepted := accepted_of_canPush (by decide +kernel)
  have hosts : ungroupedOnly.Hosts ⟨"pm1"⟩ groupedForRow :=
    ⟨nofun, fun _ => ⟨rfl, List.forall_mem_cons.mpr
      ⟨accepted, List.forall_mem_singleton.mpr reference⟩⟩⟩
  exact ⟨rfl, accepted, subqueryModel_eq_ok_iff.mpr ⟨rfl, hosts⟩, List.cons_ne_nil _ _, rfl,
    by decide, by decide⟩

end Federation

end FederatedQuery
