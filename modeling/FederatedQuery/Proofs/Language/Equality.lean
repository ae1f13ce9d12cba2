import FederatedQuery.Language.Equality
import Mathlib

/-!
# Equality of language objects

Equality is not reflexive where a float is not a number, but it is symmetric and
transitive: whatever equals a value compares with all others as that value does.
-/

namespace FederatedQuery

theorem Value.eq_or_float_of_beq {first second : Value} (h : (first == second) = true) :
    first = second ∨ ∃ x y : Float, first = .float64 x ∧ second = .float64 y ∧ (x == y) = true := by
  cases first <;> cases second <;>
    first
    | exact .inl rfl
    | exact .inr ⟨_, _, rfl, rfl, h⟩
    | exact .inl (congrArg _ (LawfulBEq.eq_of_beq h))
    | exact absurd h Bool.false_ne_true

instance : PartialEquivBEq Value where
  symm h := by
    rcases Value.eq_or_float_of_beq h with rfl | ⟨x, y, rfl, rfl, same⟩
    · exact h
    · exact (BEq.symm same : (y == x) = true)
  trans h h' := by
    rcases Value.eq_or_float_of_beq h with rfl | ⟨x, y, rfl, rfl, same⟩
    · exact h'
    · rcases Value.eq_or_float_of_beq h' with rfl | ⟨_, z, ⟨⟩, rfl, same'⟩
      · exact h
      · exact (BEq.trans same same' : (x == z) = true)

def ComparesAt {α : Type} (same : α → α → Bool) (first : α) : Prop :=
  ∀ second, same first second = true →
    same second first = true ∧ ∀ third, same second third = true → same first third = true

namespace ComparesAt

variable {α β : Type} {same : α → α → Bool} {same' : β → β → Bool}

theorem prod {first : α} {first' : β} (h : ComparesAt same first) (h' : ComparesAt same' first') :
    ComparesAt (fun x y : α × β => same x.1 y.1 && same' x.2 y.2) (first, first') := by
  rintro ⟨second, second'⟩ hsecond
  simp only [Bool.and_eq_true] at hsecond ⊢
  obtain ⟨symm, trans⟩ := h second hsecond.1
  obtain ⟨symm', trans'⟩ := h' second' hsecond.2
  exact ⟨⟨symm, symm'⟩, fun third hthird => ⟨trans _ hthird.1, trans' _ hthird.2⟩⟩

/-- What holds of the parts of a value holds of the value that a constructor makes of them. -/
theorem image (make : β → α) {parts : β} (h : ComparesAt same' parts)
    (eq : ∀ x y, same (make x) (make y) = same' x y)
    (made : ∀ x second, same (make x) second = true → ∃ y, second = make y) :
    ComparesAt same (make parts) := by
  intro second hsecond
  obtain ⟨parts', rfl⟩ := made parts second hsecond
  rw [eq] at hsecond
  obtain ⟨symm, trans⟩ := h parts' hsecond
  refine ⟨(eq _ _).trans symm, fun third hthird => ?_⟩
  obtain ⟨parts'', rfl⟩ := made parts' third hthird
  rw [eq] at hthird ⊢
  exact trans parts'' hthird

end ComparesAt

theorem comparesAt_beq {α : Type} [BEq α] [PartialEquivBEq α] (first : α) :
    ComparesAt BEq.beq first :=
  fun _ h => ⟨BEq.symm h, fun _ h' => BEq.trans h h'⟩

theorem comparesAt_unit : ComparesAt (fun _ _ : Unit => true) () :=
  fun _ _ => ⟨rfl, fun _ _ => rfl⟩

-- For each constructor: its parts compare well, and nothing else is equal to what it makes.
mutual

theorem Expr.comparesAt : (value : Expr) → ComparesAt Expr.beq value
  | .column element =>
      .image (fun x => Expr.column x) (comparesAt_beq element)
        (fun _ _ => by rw [Expr.beq]) fun _ second h => by
          cases second <;> unfold Expr.beq at h <;> first | exact ⟨_, rfl⟩ | cases h
  | .literal value =>
      .image (fun x => Expr.literal x) (comparesAt_beq value)
        (fun _ _ => by rw [Expr.beq]) fun _ second h => by
          cases second <;> unfold Expr.beq at h <;> first | exact ⟨_, rfl⟩ | cases h
  | .function call =>
      .image (fun x => Expr.function x) call.comparesAt
        (fun _ _ => by rw [Expr.beq]) fun _ second h => by
          cases second <;> unfold Expr.beq at h <;> first | exact ⟨_, rfl⟩ | cases h
  | .aggregate call =>
      .image (fun x => Expr.aggregate x) call.comparesAt
        (fun _ _ => by rw [Expr.beq]) fun _ second h => by
          cases second <;> unfold Expr.beq at h <;> first | exact ⟨_, rfl⟩ | cases h
  | .case operand branches otherwise =>
      .image (fun x => Expr.case x.1.1 x.1.2 x.2)
        ((operand.comparesAt.prod (CaseBranch.allCompareAt branches)).prod
          (Expr.optionComparesAt otherwise))
        (fun _ _ => by rw [Expr.beq]) fun _ second h => by
          cases second <;> unfold Expr.beq at h <;> first | exact ⟨((_, _), _), rfl⟩ | cases h
  | .searchedCase branches otherwise =>
      .image (fun x => Expr.searchedCase x.1 x.2)
        ((SearchedBranch.allCompareAt branches).prod (Expr.optionComparesAt otherwise))
        (fun _ _ => by rw [Expr.beq]) fun _ second h => by
          cases second <;> unfold Expr.beq at h <;> first | exact ⟨(_, _), rfl⟩ | cases h
  | .scalarSubquery subquery =>
      .image (fun x => Expr.scalarSubquery x) subquery.comparesAt
        (fun _ _ => by rw [Expr.beq]) fun _ second h => by
          cases second <;> unfold Expr.beq at h <;> first | exact ⟨_, rfl⟩ | cases h
  | .xmlElement name namespaces attributes content =>
      .image (fun x => Expr.xmlElement x.1.1.1 x.1.1.2 x.1.2 x.2)
        ((((comparesAt_beq name).prod (comparesAt_beq namespaces)).prod
          (Expr.clauseComparesAt attributes)).prod (Expr.allCompareAt content))
        (fun _ _ => by rw [Expr.beq]) fun _ second h => by
          cases second <;> unfold Expr.beq at h <;> first | exact ⟨(((_, _), _), _), rfl⟩ | cases h
  | .xmlForest namespaces items =>
      .image (fun x => Expr.xmlForest x.1 x.2)
        ((comparesAt_beq namespaces).prod (Expr.allCompareAt items))
        (fun _ _ => by rw [Expr.beq]) fun _ second h => by
          cases second <;> unfold Expr.beq at h <;> first | exact ⟨(_, _), rfl⟩ | cases h

theorem Expr.allCompareAt : (value : List Expr) → ComparesAt Expr.beqAll value
  | [] =>
      .image (fun _ => []) comparesAt_unit
        (fun _ _ => by rw [Expr.beqAll]) fun _ second h => by
          cases second <;> unfold Expr.beqAll at h <;> first | exact ⟨(), rfl⟩ | cases h
  | expr :: rest =>
      .image (fun x => x.1 :: x.2) (expr.comparesAt.prod (Expr.allCompareAt rest))
        (fun _ _ => by rw [Expr.beqAll]) fun _ second h => by
          cases second <;> unfold Expr.beqAll at h <;> first | exact ⟨(_, _), rfl⟩ | cases h

theorem Expr.optionComparesAt : (value : Option Expr) → ComparesAt Expr.beqOption value
  | none =>
      .image (fun _ => none) comparesAt_unit
        (fun _ _ => by rw [Expr.beqOption]) fun _ second h => by
          cases second <;> unfold Expr.beqOption at h <;> first | exact ⟨(), rfl⟩ | cases h
  | some expr =>
      .image (fun x => some x) expr.comparesAt
        (fun _ _ => by rw [Expr.beqOption]) fun _ second h => by
          cases second <;> unfold Expr.beqOption at h <;> first | exact ⟨_, rfl⟩ | cases h

theorem Expr.clauseComparesAt : (value : Option (List Expr)) → ComparesAt Expr.beqClause value
  | none =>
      .image (fun _ => none) comparesAt_unit
        (fun _ _ => by rw [Expr.beqClause]) fun _ second h => by
          cases second <;> unfold Expr.beqClause at h <;> first | exact ⟨(), rfl⟩ | cases h
  | some exprs =>
      .image (fun x => some x) (Expr.allCompareAt exprs)
        (fun _ _ => by rw [Expr.beqClause]) fun _ second h => by
          cases second <;> unfold Expr.beqClause at h <;> first | exact ⟨_, rfl⟩ | cases h

theorem FunctionCall.comparesAt : (value : FunctionCall) → ComparesAt FunctionCall.beq value
  | ⟨name, args, returnType, pushdown, determinism⟩ =>
      .image (fun x => FunctionCall.mk x.1.1.1.1 x.1.1.1.2 x.1.1.2 x.1.2 x.2)
        (((((comparesAt_beq name).prod (Expr.allCompareAt args)).prod
          (comparesAt_beq returnType)).prod (comparesAt_beq pushdown)).prod
            (comparesAt_beq determinism))
        (fun _ _ => by rw [FunctionCall.beq]) fun _ second _ => by
          cases second
          exact ⟨((((_, _), _), _), _), rfl⟩

theorem AggregateCall.comparesAt : (value : AggregateCall) → ComparesAt AggregateCall.beq value
  | ⟨function, arg, distinct⟩ =>
      .image (fun x => AggregateCall.mk x.1.1 x.1.2 x.2)
        (((comparesAt_beq function).prod (Expr.optionComparesAt arg)).prod
          (comparesAt_beq distinct))
        (fun _ _ => by rw [AggregateCall.beq]) fun _ second _ => by
          cases second
          exact ⟨((_, _), _), rfl⟩

theorem CaseBranch.allCompareAt : (value : List CaseBranch) → ComparesAt CaseBranch.beqAll value
  | [] =>
      .image (fun _ => []) comparesAt_unit
        (fun _ _ => by rw [CaseBranch.beqAll]) fun _ second h => by
          rcases second with _ | ⟨⟨_, _⟩, _⟩ <;> unfold CaseBranch.beqAll at h <;>
            first | exact ⟨(), rfl⟩ | cases h
  | ⟨value, result⟩ :: rest =>
      .image (fun x => CaseBranch.mk x.1.1 x.1.2 :: x.2)
        ((value.comparesAt.prod result.comparesAt).prod (CaseBranch.allCompareAt rest))
        (fun _ _ => by rw [CaseBranch.beqAll]) fun _ second h => by
          rcases second with _ | ⟨⟨_, _⟩, _⟩ <;> unfold CaseBranch.beqAll at h <;>
            first | exact ⟨((_, _), _), rfl⟩ | cases h

theorem SearchedBranch.allCompareAt :
    (value : List SearchedBranch) → ComparesAt SearchedBranch.beqAll value
  | [] =>
      .image (fun _ => []) comparesAt_unit
        (fun _ _ => by rw [SearchedBranch.beqAll]) fun _ second h => by
          rcases second with _ | ⟨⟨_, _⟩, _⟩ <;> unfold SearchedBranch.beqAll at h <;>
            first | exact ⟨(), rfl⟩ | cases h
  | ⟨condition, result⟩ :: rest =>
      .image (fun x => SearchedBranch.mk x.1.1 x.1.2 :: x.2)
        ((condition.comparesAt.prod result.comparesAt).prod (SearchedBranch.allCompareAt rest))
        (fun _ _ => by rw [SearchedBranch.beqAll]) fun _ second h => by
          rcases second with _ | ⟨⟨_, _⟩, _⟩ <;> unfold SearchedBranch.beqAll at h <;>
            first | exact ⟨((_, _), _), rfl⟩ | cases h

theorem Criteria.comparesAt : (value : Criteria) → ComparesAt Criteria.beq value
  | .compare left op right =>
      .image (fun x => Criteria.compare x.1.1 x.1.2 x.2)
        ((left.comparesAt.prod (comparesAt_beq op)).prod right.comparesAt)
        (fun _ _ => by rw [Criteria.beq]) fun _ second h => by
          cases second <;> unfold Criteria.beq at h <;> first | exact ⟨((_, _), _), rfl⟩ | cases h
  | .compound op operands =>
      .image (fun x => Criteria.compound x.1 x.2)
        ((comparesAt_beq op).prod (Criteria.allCompareAt operands))
        (fun _ _ => by rw [Criteria.beq]) fun _ second h => by
          cases second <;> unfold Criteria.beq at h <;> first | exact ⟨(_, _), rfl⟩ | cases h
  | .not operand =>
      .image (fun x => Criteria.not x) operand.comparesAt
        (fun _ _ => by rw [Criteria.beq]) fun _ second h => by
          cases second <;> unfold Criteria.beq at h <;> first | exact ⟨_, rfl⟩ | cases h
  | .isNull expr negated =>
      .image (fun x => Criteria.isNull x.1 x.2) (expr.comparesAt.prod (comparesAt_beq negated))
        (fun _ _ => by rw [Criteria.beq]) fun _ second h => by
          cases second <;> unfold Criteria.beq at h <;> first | exact ⟨(_, _), rfl⟩ | cases h
  | .like left pattern escape negated =>
      .image (fun x => Criteria.like x.1.1.1 x.1.1.2 x.1.2 x.2)
        (((left.comparesAt.prod pattern.comparesAt).prod (comparesAt_beq escape)).prod
          (comparesAt_beq negated))
        (fun _ _ => by rw [Criteria.beq]) fun _ second h => by
          cases second <;> unfold Criteria.beq at h <;>
            first | exact ⟨(((_, _), _), _), rfl⟩ | cases h
  | .inList expr values negated =>
      .image (fun x => Criteria.inList x.1.1 x.1.2 x.2)
        ((expr.comparesAt.prod (Expr.allCompareAt values)).prod (comparesAt_beq negated))
        (fun _ _ => by rw [Criteria.beq]) fun _ second h => by
          cases second <;> unfold Criteria.beq at h <;> first | exact ⟨((_, _), _), rfl⟩ | cases h
  | .dependentSet expr valueSource valueExpr =>
      .image (fun x => Criteria.dependentSet x.1.1 x.1.2 x.2)
        ((expr.comparesAt.prod (comparesAt_beq valueSource)).prod valueExpr.comparesAt)
        (fun _ _ => by rw [Criteria.beq]) fun _ second h => by
          cases second <;> unfold Criteria.beq at h <;> first | exact ⟨((_, _), _), rfl⟩ | cases h
  | .inSubquery expr subquery negated =>
      .image (fun x => Criteria.inSubquery x.1.1 x.1.2 x.2)
        ((expr.comparesAt.prod subquery.comparesAt).prod (comparesAt_beq negated))
        (fun _ _ => by rw [Criteria.beq]) fun _ second h => by
          cases second <;> unfold Criteria.beq at h <;> first | exact ⟨((_, _), _), rfl⟩ | cases h
  | .existence subquery negated =>
      .image (fun x => Criteria.existence x.1 x.2)
        (subquery.comparesAt.prod (comparesAt_beq negated))
        (fun _ _ => by rw [Criteria.beq]) fun _ second h => by
          cases second <;> unfold Criteria.beq at h <;> first | exact ⟨(_, _), rfl⟩ | cases h
  | .quantified left op quantifier subquery =>
      .image (fun x => Criteria.quantified x.1.1.1 x.1.1.2 x.1.2 x.2)
        (((left.comparesAt.prod (comparesAt_beq op)).prod (comparesAt_beq quantifier)).prod
          subquery.comparesAt)
        (fun _ _ => by rw [Criteria.beq]) fun _ second h => by
          cases second <;> unfold Criteria.beq at h <;>
            first | exact ⟨(((_, _), _), _), rfl⟩ | cases h

theorem Criteria.allCompareAt : (value : List Criteria) → ComparesAt Criteria.beqAll value
  | [] =>
      .image (fun _ => []) comparesAt_unit
        (fun _ _ => by rw [Criteria.beqAll]) fun _ second h => by
          cases second <;> unfold Criteria.beqAll at h <;> first | exact ⟨(), rfl⟩ | cases h
  | criteria :: rest =>
      .image (fun x => x.1 :: x.2) (criteria.comparesAt.prod (Criteria.allCompareAt rest))
        (fun _ _ => by rw [Criteria.beqAll]) fun _ second h => by
          cases second <;> unfold Criteria.beqAll at h <;> first | exact ⟨(_, _), rfl⟩ | cases h

theorem Criteria.optionComparesAt : (value : Option Criteria) → ComparesAt Criteria.beqOption value
  | none =>
      .image (fun _ => none) comparesAt_unit
        (fun _ _ => by rw [Criteria.beqOption]) fun _ second h => by
          cases second <;> unfold Criteria.beqOption at h <;> first | exact ⟨(), rfl⟩ | cases h
  | some criteria =>
      .image (fun x => some x) criteria.comparesAt
        (fun _ _ => by rw [Criteria.beqOption]) fun _ second h => by
          cases second <;> unfold Criteria.beqOption at h <;> first | exact ⟨_, rfl⟩ | cases h

theorem Query.comparesAt : (value : Query) → ComparesAt Query.beq value
  | ⟨select, sources, criteria, groupBy, having, isXml⟩ =>
      .image (fun x => Query.mk x.1.1.1.1.1 x.1.1.1.1.2 x.1.1.1.2 x.1.1.2 x.1.2 x.2)
        ((((((Expr.allCompareAt select).prod (comparesAt_beq sources)).prod
          (Criteria.optionComparesAt criteria)).prod (Expr.allCompareAt groupBy)).prod
            (Criteria.optionComparesAt having)).prod (comparesAt_beq isXml))
        (fun _ _ => by rw [Query.beq]) fun _ second _ => by
          cases second
          exact ⟨(((((_, _), _), _), _), _), rfl⟩

theorem Command.comparesAt : (value : Command) → ComparesAt Command.beq value
  | .query query =>
      .image (fun x => Command.query x) query.comparesAt
        (fun _ _ => by rw [Command.beq]) fun _ second h => by
          cases second <;> unfold Command.beq at h <;> first | exact ⟨_, rfl⟩ | cases h
  | .other text =>
      .image (fun x => Command.other x) (comparesAt_beq text)
        (fun _ _ => by rw [Command.beq]) fun _ second h => by
          cases second <;> unfold Command.beq at h <;> first | exact ⟨_, rfl⟩ | cases h

theorem Command.optionComparesAt : (value : Option Command) → ComparesAt Command.beqOption value
  | none =>
      .image (fun _ => none) comparesAt_unit
        (fun _ _ => by rw [Command.beqOption]) fun _ second h => by
          cases second <;> unfold Command.beqOption at h <;> first | exact ⟨(), rfl⟩ | cases h
  | some command =>
      .image (fun x => some x) command.comparesAt
        (fun _ _ => by rw [Command.beqOption]) fun _ second h => by
          cases second <;> unfold Command.beqOption at h <;> first | exact ⟨_, rfl⟩ | cases h

theorem SubqueryPlan.optionComparesAt :
    (value : Option SubqueryPlan) → ComparesAt SubqueryPlan.beqOption value
  | none =>
      .image (fun _ => none) comparesAt_unit
        (fun _ _ => by rw [SubqueryPlan.beqOption]) fun _ second h => by
          rcases second with _ | (_ | _ | _) <;> unfold SubqueryPlan.beqOption at h <;>
            first | exact ⟨(), rfl⟩ | cases h
  | some (.access command hasChild) =>
      .image (fun x => some (SubqueryPlan.access x.1 x.2))
        ((Command.optionComparesAt command).prod (comparesAt_beq hasChild))
        (fun _ _ => by rw [SubqueryPlan.beqOption]) fun _ second h => by
          rcases second with _ | (_ | _ | _) <;> unfold SubqueryPlan.beqOption at h <;>
            first | exact ⟨(_, _), rfl⟩ | cases h
  | some SubqueryPlan.relational =>
      .image (fun _ => some SubqueryPlan.relational) comparesAt_unit
        (fun _ _ => by rw [SubqueryPlan.beqOption]) fun _ second h => by
          rcases second with _ | (_ | _ | _) <;> unfold SubqueryPlan.beqOption at h <;>
            first | exact ⟨(), rfl⟩ | cases h
  | some SubqueryPlan.nonRelational =>
      .image (fun _ => some SubqueryPlan.nonRelational) comparesAt_unit
        (fun _ _ => by rw [SubqueryPlan.beqOption]) fun _ second h => by
          rcases second with _ | (_ | _ | _) <;> unfold SubqueryPlan.beqOption at h <;>
            first | exact ⟨(), rfl⟩ | cases h

theorem CorrelatedReference.allCompareAt :
    (value : List CorrelatedReference) → ComparesAt CorrelatedReference.beqAll value
  | [] =>
      .image (fun _ => []) comparesAt_unit
        (fun _ _ => by rw [CorrelatedReference.beqAll]) fun _ second h => by
          rcases second with _ | ⟨⟨_, _⟩, _⟩ <;> unfold CorrelatedReference.beqAll at h <;>
            first | exact ⟨(), rfl⟩ | cases h
  | ⟨element, expr⟩ :: rest =>
      .image (fun x => CorrelatedReference.mk x.1.1 x.1.2 :: x.2)
        (((comparesAt_beq element).prod expr.comparesAt).prod
          (CorrelatedReference.allCompareAt rest))
        (fun _ _ => by rw [CorrelatedReference.beqAll]) fun _ second h => by
          rcases second with _ | ⟨⟨_, _⟩, _⟩ <;> unfold CorrelatedReference.beqAll at h <;>
            first | exact ⟨((_, _), _), rfl⟩ | cases h

theorem Subquery.comparesAt : (value : Subquery) → ComparesAt Subquery.beq value
  | ⟨command, references, plan⟩ =>
      .image (fun x => Subquery.mk x.1.1 x.1.2 x.2)
        ((command.comparesAt.prod (CorrelatedReference.allCompareAt references)).prod
          (SubqueryPlan.optionComparesAt plan))
        (fun _ _ => by rw [Subquery.beq]) fun _ second _ => by
          cases second
          exact ⟨((_, _), _), rfl⟩

end

instance : PartialEquivBEq Criteria where
  symm {first second} h := (first.comparesAt second h).1
  trans {first second third} h h' := (first.comparesAt second h).2 third h'

end FederatedQuery
