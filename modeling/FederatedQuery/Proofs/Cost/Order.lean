import Mathlib.Order.Compare

/-!
# Comparing costs

Costs are floating-point numbers, whose order is partial because of NaN.  Finite
costs can always be compared.
-/

namespace FederatedQuery

open Float.Model

theorem swap_magnitude (e f : Int) (m n : Nat) :
    ((compare e f).then (compare m n)).swap = (compare f e).then (compare n m) := by
  rw [Ordering.swap_then, Int.compare_swap, Nat.compare_swap]

theorem compare_swap (first second : UnpackedFloat) :
    (first.compare second).map Ordering.swap = second.compare first := by
  cases first with
  | notANumber => cases second <;> rfl
  | infinity sign =>
      cases second with
      | infinity other => cases sign <;> cases other <;> rfl
      | _ => cases sign <;> rfl
  | zero sign =>
      cases second with
      | notANumber => rfl
      | zero other => rfl
      | infinity other | finite other => cases other <;> rfl
  | finite sign m e positive =>
      cases second with
      | notANumber => rfl
      | zero other => cases sign <;> rfl
      | infinity other => cases other <;> rfl
      | finite other n f positive' =>
          cases sign <;> cases other
          · exact congrArg (some ·.swap) (swap_magnitude e f m n)
          · rfl
          · rfl
          · exact congrArg some (swap_magnitude e f m n)

def order? (first second : Float) : Option Ordering :=
  first.toModel.unpack.compare second.toModel.unpack

theorem order?_swap (first second : Float) :
    (order? first second).map Ordering.swap = order? second first :=
  compare_swap _ _

theorem lt_iff_order? {first second : Float} :
    first < second ↔ order? first second = some .lt := by
  change decide (first.toModel < second.toModel) = true ↔ _
  rw [decide_eq_true_iff]
  exact beq_iff_eq

theorem le_iff_order? {first second : Float} :
    first ≤ second ↔ (order? first second).any Ordering.isLE = true := by
  change decide (first.toModel ≤ second.toModel) = true ↔ _
  rw [decide_eq_true_iff]
  exact Iff.rfl

theorem exists_order? {first second : Float} (hfirst : first.isFinite = true)
    (hsecond : second.isFinite = true) : ∃ order, order? first second = some order := by
  have comparable : ∀ x y : UnpackedFloat, x.isFinite = true → y.isFinite = true →
      ∃ order, x.compare y = some order := by
    intro x y hx hy
    cases x with
    | notANumber | infinity => cases hx
    | zero sign =>
        cases y with
        | notANumber | infinity => cases hy
        | zero other => exact ⟨_, rfl⟩
        | finite other => cases other <;> exact ⟨_, rfl⟩
    | finite sign =>
        cases y with
        | notANumber | infinity => cases hy
        | zero other => cases sign <;> exact ⟨_, rfl⟩
        | finite other => cases sign <;> cases other <;> exact ⟨_, rfl⟩
  exact comparable _ _ hfirst hsecond

namespace Cost

theorem le_of_lt {first second : Float} (h : first < second) : first ≤ second := by
  rw [le_iff_order?, lt_iff_order?.mp h]
  rfl

theorem not_lt_of_le {first second : Float} (h : first ≤ second) : ¬ second < first := by
  rw [lt_iff_order?, ← order?_swap]
  rw [le_iff_order?] at h
  cases horder : order? first second with
  | none => nofun
  | some order =>
      rw [horder] at h
      cases order with
      | lt => nofun
      | eq => nofun
      | gt => cases h

theorem le_of_not_lt {first second : Float} (hfirst : first.isFinite = true)
    (hsecond : second.isFinite = true) (h : ¬ second < first) : first ≤ second := by
  obtain ⟨order, horder⟩ := exists_order? hfirst hsecond
  rw [lt_iff_order?, ← order?_swap, horder] at h
  rw [le_iff_order?, horder]
  cases order with
  | lt => rfl
  | eq => rfl
  | gt => exact absurd rfl h

theorem le_refl {cost : Float} (finite : cost.isFinite = true) : cost ≤ cost := by
  by_cases h : cost < cost
  · exact le_of_lt h
  · exact le_of_not_lt finite finite h

end Cost

end FederatedQuery
