import FederatedQuery.Proofs.Pushdown.Validation

/-!
What acceptance promises of a source.

An accepted object meets the requirements of every object that is looked at for it:
those on its walk and, inside a correlated subquery, those on the walks of the command
and of the outer expressions.  Every negated predicate among them asks for NOT, with
the exception of NOT EXISTS.
-/

namespace FederatedQuery

/-! ### What is looked at -/

/-- The second object is looked at when the first one is validated. -/
inductive LanguageObject.Examines : LanguageObject → LanguageObject → Prop
  | visits {object visited : LanguageObject} (member : visited ∈ object.preorder) :
      Examines object visited
  | enters {object holder part examined : LanguageObject} {subquery : Subquery}
      (member : holder ∈ object.preorder) (held : holder.subquery? = some subquery)
      (correlated : subquery.isCorrelated) (checked : part ∈ subquery.correlatedParts)
      (deeper : Examines part examined) : Examines object examined

theorem hosted_mem_requirements {object : LanguageObject} {subquery : Subquery}
    (held : object.subquery? = some subquery) : .hosted subquery ∈ object.requirements := by
  unfold LanguageObject.subquery? at held
  split at held <;> cases held
  · simp [LanguageObject.requirements, Expr.requirements]
  · simp [LanguageObject.requirements, Criteria.requirements]
  · simp [LanguageObject.requirements, Criteria.requirements]
  · rename_i quantifier
    cases quantifier <;> simp [LanguageObject.requirements, Criteria.requirements]

theorem LanguageObject.self_mem_preorder {object : LanguageObject} : object ∈ object.preorder := by
  rw [preorder_eq]
  exact List.mem_cons_self

theorem LanguageObject.mem_preorder_of_child {object child visited : LanguageObject}
    (hchild : child ∈ object.children) (member : visited ∈ child.preorder) :
    visited ∈ object.preorder := by
  rw [preorder_eq]
  exact List.mem_cons_of_mem _ (List.mem_flatMap.mpr ⟨child, hchild, member⟩)

theorem LanguageObject.mem_children_query {query : Query} {child : LanguageObject} :
    child ∈ (LanguageObject.command (.query query)).children ↔
      (∃ expr ∈ query.select ++ query.groupBy, .expr expr = child) ∨
        ∃ criteria, (query.criteria = some criteria ∨ query.having = some criteria) ∧
          .criteria criteria = child := by
  simp only [children, Command.children, optionalChild, List.mem_append,
    List.mem_map, Option.mem_toList, Option.map_eq_some_iff, or_and_right, exists_or]
  grind

theorem LanguageObject.firstObstacle_of_children_eq_nil (rule : LanguageObject → Check)
    {object : LanguageObject} (leaf : object.children = []) :
    object.firstObstacle rule = rule object := by
  rw [firstObstacle, walk_eq, leaf]
  cases rule object <;> rfl

namespace Federation

variable {federation : Federation} {model : ModelId} {record : SourceCapabilities}
  {object : LanguageObject}

theorem accepted_of_canPush {model? : Option ModelId}
    (told : (federation.canPush object model?).toOption = some true) :
    federation.validate object model? = .ok .accepted := by
  rw [canPush] at told
  rcases hverdict : federation.validate object model? with error | _ | cause
  · simp [hverdict, Except.map, Except.toOption] at told
  · rfl
  · simp [hverdict, Except.map, Except.toOption, Verdict.isAccepted] at told

theorem accepted_iff_of_recordOf (known : federation.recordOf model = .ok (some record)) :
    federation.validate object (some model) = .ok .accepted ↔
      ∀ visited ∈ object.preorder, visited.obstacle? federation ⟨model, record⟩ = none := by
  rw [validate_eq_outcomeOf known, outcomeOf_eq_accepted_iff, List.findSome?_eq_none_iff]

theorem validateWith_of_physical {validator : Validator}
    (physical : federation.metadata.isVirtual model = .ok false) :
    federation.validateWith validator object (some model) =
      federation.recordOf model >>= fun
        | none => .ok .accepted
        | some record => (object.firstObstacle (localRule federation ⟨model, record⟩
            (federation.subqueryRule validator ⟨model, record⟩))).verdict := by
  simp only [validateWith, recordOf, physical]
  rcases federation.metadata.fullName model with error | name
  · rfl
  rcases hrecord : federation.finder name with error | _ | record <;>
    simp [hrecord, bind, Except.bind, pure, Except.pure]

theorem accepted_iff :
    federation.validate object (some model) = .ok .accepted ↔
      federation.metadata.isVirtual model = .ok false ∧
        (federation.recordOf model = .ok none ∨
          ∃ record, federation.recordOf model = .ok (some record) ∧
            ∀ visited ∈ object.preorder,
              visited.obstacle? federation ⟨model, record⟩ = none) := by
  rcases hvirtual : federation.metadata.isVirtual model with error | _ | _
  · simp [validate_eq_validateWith, validateWith, hvirtual, bind, Except.bind]
  · rcases hrecord : federation.recordOf model with error | _ | record
    · simp [validate_eq_validateWith, validateWith_of_physical hvirtual, hrecord, bind,
        Except.bind]
    · simp [validate_eq_validateWith, validateWith_of_physical hvirtual, hrecord, bind,
        Except.bind]
    · simpa using accepted_iff_of_recordOf hrecord
  · simp [validate_eq_validateWith, validateWith, hvirtual, bind, Except.bind, pure, Except.pure]

theorem accepted_iff_children (known : federation.recordOf model = .ok (some record)) :
    federation.validate object (some model) = .ok .accepted ↔
      object.obstacle? federation ⟨model, record⟩ = none ∧
        ∀ child ∈ object.children, federation.validate child (some model) = .ok .accepted := by
  simp only [accepted_iff_of_recordOf known]
  rw [LanguageObject.preorder_eq, List.forall_mem_cons]
  simp only [List.mem_flatMap, forall_exists_index, and_imp]
  exact and_congr_right fun _ =>
    ⟨fun passes child hchild visited member => passes visited child hchild member,
      fun passes visited child hchild member => passes child hchild visited member⟩

/-! ### Requirements that are met -/

theorem obstacle?_eq_none_iff {source : Source} :
    object.obstacle? federation source = none ↔
      ∀ requirement ∈ object.requirements, requirement.obstacle? federation source = none :=
  List.findSome?_eq_none_iff

theorem obstacle?_supported_eq_none_iff {capability : Capability} :
    (Requirement.supported capability).obstacle? federation ⟨model, record⟩ = none ↔
      record.supports capability := by
  simp [Requirement.obstacle?, SourceCapabilities.supports_iff]

theorem obstacle?_aggregate_eq_none_iff {call : AggregateCall} :
    (Requirement.aggregate call).obstacle? federation ⟨model, record⟩ = none ↔
      ∀ capability ∈ call.needs, record.supports capability := by
  simp [Requirement.obstacle?, SourceCapabilities.supports_iff]

theorem obstacle?_function_eq_none_iff {call : FunctionCall} :
    (Requirement.function call).obstacle? federation ⟨model, record⟩ = none ↔
      call.pushdown = .must ∨ record.supportsFunction call.name ∧ call.ConfirmedBy record := by
  simp only [Requirement.obstacle?, ite_eq_left_iff, reduceCtorEq, imp_false, Classical.not_not,
    SourceCapabilities.supportsFunction_iff_lists]

theorem obstacle?_listOf_eq_none_iff {count : Nat} :
    (Requirement.listOf count).obstacle? federation ⟨model, record⟩ = none ↔
      ∀ most, record.maxInListSize? = some most → count ≤ most := by
  rw [← obstacle?_checkListSize, checkListSize]
  cases record.maxInListSize? with
  | none => simp [Check.obstacle?_ok]
  | some most =>
      by_cases exceeded : most < count
      · simp [exceeded, Check.obstacle?_reject]
      · simp [exceeded, Check.obstacle?_ok, Nat.not_lt.mp exceeded]

theorem obstacle?_hosted_eq_none_iff {subquery : Subquery} :
    (Requirement.hosted subquery).obstacle? federation ⟨model, record⟩ = none ↔
      federation.subqueryModel subquery (some model) = .ok (.ok model) := by
  rcases hplace : federation.subqueryModel subquery (some model) with error | cause | place
  · simp [Requirement.obstacle?, obstacleOf, hplace]
  · simp [Requirement.obstacle?, obstacleOf, hplace]
  · obtain ⟨rfl, -⟩ := subqueryModel_eq_ok_iff.mp hplace
    simp [Requirement.obstacle?, obstacleOf, hplace]

theorem hosts_of_accepted (known : federation.recordOf model = .ok (some record))
    (accepted : federation.validate object (some model) = .ok .accepted)
    {holder : LanguageObject} (member : holder ∈ object.preorder) {subquery : Subquery}
    (held : holder.subquery? = some subquery) : federation.Hosts model subquery := by
  have passes := (accepted_iff_of_recordOf known).mp accepted holder member
  have met := obstacle?_eq_none_iff.mp passes _ (hosted_mem_requirements held)
  exact (subqueryModel_eq_ok_iff.mp (obstacle?_hosted_eq_none_iff.mp met)).2

theorem met_of_examines (known : federation.recordOf model = .ok (some record))
    (accepted : federation.validate object (some model) = .ok .accepted)
    {examined : LanguageObject} (examines : object.Examines examined) {requirement : Requirement}
    (required : requirement ∈ examined.requirements) :
    requirement.obstacle? federation ⟨model, record⟩ = none := by
  induction examines with
  | visits member =>
      exact obstacle?_eq_none_iff.mp ((accepted_iff_of_recordOf known).mp accepted _ member) _
        required
  | enters member held correlated checked _ ih =>
      have hosts := hosts_of_accepted known accepted member held
      exact ih ((hosts.correlated correlated).2 _ checked) required

end Federation

/-! ### Negation -/

/-- NOT, a predicate in its negated form, or a comparison that a source evaluates by negating
another one. -/
def Criteria.isNegated : Criteria → Bool
  | .not _ => true
  | .isNull _ negated | .like _ _ _ negated | .inList _ _ negated | .inSubquery _ _ negated
  | .existence _ negated => negated
  | .compare _ op _ | .quantified _ op _ _ => op = .ne || op = .lt || op = .gt
  | .compound _ _ | .dependentSet _ _ _ => false

theorem CompareOp.supported_not_mem_requirements {op : CompareOp}
    (negated : op = .ne || op = .lt || op = .gt) :
    .supported .criteriaNot ∈ op.requirements := by
  cases op <;> simp_all [CompareOp.requirements]

theorem Criteria.supported_not_mem_requirements {criteria : Criteria}
    (negated : criteria.isNegated) :
    (∃ subquery, criteria = .existence subquery true) ∨
      .supported .criteriaNot ∈ criteria.requirements := by
  cases criteria with
  | compound _ _ | dependentSet _ _ _ => cases negated
  | not operand => exact .inr (List.mem_singleton_self _)
  | existence subquery flag =>
      cases flag with
      | false => cases negated
      | true => exact .inl ⟨subquery, rfl⟩
  | isNull _ flag | inList _ _ flag | inSubquery _ _ flag =>
      cases negated
      simp [Criteria.requirements, membershipRequirements, negationRequirements]
  | like _ _ escape flag =>
      cases negated
      cases escape <;> simp [Criteria.requirements, negationRequirements]
  | compare left op right =>
      exact .inr (List.mem_append_left _ (CompareOp.supported_not_mem_requirements negated))
  | quantified left op quantifier subquery =>
      have asked := CompareOp.supported_not_mem_requirements negated
      cases quantifier <;> simp [Criteria.requirements, asked]

namespace Federation

variable {federation : Federation} {model : ModelId} {record : SourceCapabilities}
  {object : LanguageObject}

theorem validate_existence (subquery : Subquery) (negated : Bool) (model? : Option ModelId) :
    federation.validate (.criteria (.existence subquery negated)) model? =
      federation.validate (.criteria (.existence subquery false)) model? := by
  have walked (rule : LanguageObject → Check) (negated : Bool) :
      LanguageObject.firstObstacle rule (.criteria (.existence subquery negated)) =
        rule (.criteria (.existence subquery negated)) :=
    LanguageObject.firstObstacle_of_children_eq_nil rule rfl
  rw [validate_eq_validateWith, validate_eq_validateWith]
  simp only [validateWith, walked]
  rfl

/-- Every negated predicate is covered by NOT, unless it is NOT EXISTS, which is checked like
EXISTS. -/
theorem negation_supported_or_existence (known : federation.recordOf model = .ok (some record))
    (accepted : federation.validate object (some model) = .ok .accepted) :
    (∀ criteria, object.Examines (.criteria criteria) → criteria.isNegated →
        record.supports .criteriaNot ∨ ∃ subquery, criteria = .existence subquery true) ∧
      ∀ subquery model?,
        federation.validate (.criteria (.existence subquery true)) model? =
          federation.validate (.criteria (.existence subquery false)) model? := by
  refine ⟨fun criteria examines negated => ?_, fun subquery => validate_existence subquery true⟩
  rcases Criteria.supported_not_mem_requirements negated with existence | required
  · exact .inr existence
  · exact .inl (obstacle?_supported_eq_none_iff.mp
      (met_of_examines known accepted examines required))

def knownRows : Subquery :=
  let id : Expr := .column ⟨.named "pm1.g2", "id", .int64⟩
  Subquery.correlatedTo
    (.ofCommand (.query (((Query.ofSelect [id]).reading (.named "pm1.g2")).filtered
      (.isNull id true))))
    ⟨.named "pm1.g2", "outer", .int64⟩ (.column ⟨.named "pm1.g1", "id", .int64⟩)

def knownRowsRecord : SourceCapabilities :=
  [.criteriaExists, .querySubqueriesCorrelated, .criteriaIsNull, .criteriaNot].foldl
    (fun record capability => record.setSupport capability true) .empty

def knownRowsOnly : Federation :=
  ⟨Catalog.twoSources.toMetadata, fun _ => .ok (some knownRowsRecord)⟩

theorem knownRows_negation_supported :
    knownRowsOnly.recordOf ⟨"pm1"⟩ = .ok (some knownRowsRecord) ∧
      knownRowsOnly.validate (.criteria (.existence knownRows false)) (some ⟨"pm1"⟩) =
        .ok .accepted ∧
      (LanguageObject.criteria (.existence knownRows false)).Examines (.criteria
        (.isNull (.column ⟨.named "pm1.g2", "id", .int64⟩) true)) ∧
      knownRowsRecord.supports .criteriaNot := by
  have known : knownRowsOnly.recordOf ⟨"pm1"⟩ = .ok (some knownRowsRecord) := rfl
  have accepted : knownRowsOnly.validate (.criteria (.existence knownRows false))
      (some ⟨"pm1"⟩) = .ok .accepted := accepted_of_canPush (by decide +kernel)
  have examines : (LanguageObject.criteria (.existence knownRows false)).Examines (.criteria
      (.isNull (.column ⟨.named "pm1.g2", "id", .int64⟩) true)) := by
    have filter : .criteria (.isNull (.column ⟨.named "pm1.g2", "id", .int64⟩) true) ∈
        (LanguageObject.command knownRows.command).children :=
      LanguageObject.mem_children_query.mpr (.inr ⟨_, .inl rfl, rfl⟩)
    exact .enters LanguageObject.self_mem_preorder rfl rfl List.mem_cons_self
      (.visits (LanguageObject.mem_preorder_of_child filter LanguageObject.self_mem_preorder))
  refine ⟨known, accepted, examines, ?_⟩
  rcases (negation_supported_or_existence known accepted).1 _ examines rfl with supported | ⟨_, ⟨⟩⟩
  exact supported

def existsRecord : SourceCapabilities := SourceCapabilities.empty.setSupport .criteriaExists true

def existsOnly : Federation :=
  ⟨Catalog.twoSources.toMetadata, fun _ => .ok (some existsRecord)⟩

def notExists : Criteria :=
  .existence (.ofCommand (.query
    ((Query.ofSelect [.column ⟨.named "pm1.g2", "e1", .string⟩]).reading (.named "pm1.g2")))) true

theorem notExists_accepted_without_not :
    existsOnly.recordOf ⟨"pm1"⟩ = .ok (some existsRecord) ∧
      existsOnly.validate (.criteria notExists) (some ⟨"pm1"⟩) = .ok .accepted ∧
      .criteria notExists ∈ (LanguageObject.criteria notExists).preorder ∧
      notExists.isNegated ∧ ¬ existsRecord.supports .criteriaNot :=
  ⟨rfl, accepted_of_canPush (by decide +kernel), LanguageObject.self_mem_preorder, rfl,
    by decide⟩

end Federation

end FederatedQuery
