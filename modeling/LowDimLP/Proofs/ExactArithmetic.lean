import Mathlib.Algebra.Order.Field.Basic
import Mathlib.Algebra.BigOperators.Fin
import Mathlib.Analysis.Real.Sqrt
import Mathlib.Tactic.Linarith
import Mathlib.Tactic.Ring
import LowDimLP.Geometry.Coords
/-!
# Exact arithmetic

The definitions of geometry and solver run over any scalars; what they compute is a matter of the
scalars' laws. `ExactScalar` collects the laws of exact arithmetic: a linearly ordered field with
square roots, all of whose elements are finite. Under them the order of additions is immaterial, so
the sums that fix how doubles round (`Scalar.sum`, `Scalar.blockedSum`) are the sum of the list, and
the position of the largest entry is one whose absolute value no other entry exceeds. The reals are
exact; no law is asked of `Scalar.bottom` and `Scalar.top`, which no run with a bound reads. A run on the
line compares and adds a slack, and there an order that addition keeps is enough (`OrderedScalar`).
-/

namespace LowDimLP

universe u

/-- Scalars in a linear order that addition keeps, all of them finite. -/
class OrderedScalar (α : Type u) extends Scalar α, LinearOrder α where
  isFinite_eq_true : ∀ x : α, Scalar.isFinite x = true
  add_le_add_right : ∀ {x y : α}, x ≤ y → ∀ z, x + z ≤ y + z

/-- Exact arithmetic: the operations of the scalars are those of a linearly ordered field with
square roots. -/
class ExactScalar (α : Type u) extends Scalar α, Field α, LinearOrder α, IsStrictOrderedRing α where
  isFinite_eq_true : ∀ x : α, Scalar.isFinite x = true
  neutral_eq_zero : (Scalar.neutral : α) = 0
  abs_eq_abs : ∀ x : α, Scalar.abs x = |x|
  sqrt_nonneg : ∀ x : α, 0 ≤ Scalar.sqrt x
  sqrt_mul_self : ∀ x : α, 0 ≤ x → Scalar.sqrt x * Scalar.sqrt x = x
  ofScientific_eq_cast : ∀ (m : Nat) (s : Bool) (e : Nat),
    (OfScientific.ofScientific m s e : α) = ((OfScientific.ofScientific m s e : Rat) : α)

instance {α : Type u} [exact : ExactScalar α] : OrderedScalar α where
  __ := exact.toScalar
  __ := exact.toLinearOrder
  isFinite_eq_true := exact.isFinite_eq_true
  add_le_add_right h z := add_le_add_left h z

/-- The reals with their square root. -/
noncomputable instance : ExactScalar ℝ where
  __ := (inferInstance : Field ℝ)
  __ := (inferInstance : LinearOrder ℝ)
  __ := (inferInstance : IsStrictOrderedRing ℝ)
  ofScientific m s e := ((OfScientific.ofScientific m s e : Rat) : ℝ)
  decidableLt := inferInstance
  decidableLe := inferInstance
  sqrt := Real.sqrt
  abs x := |x|
  isFinite _ := true
  neutral := 0
  bottom := 0
  top := 0
  isFinite_eq_true _ := rfl
  neutral_eq_zero := rfl
  abs_eq_abs _ := rfl
  sqrt_nonneg := Real.sqrt_nonneg
  sqrt_mul_self _ := Real.mul_self_sqrt
  ofScientific_eq_cast _ _ _ := rfl

namespace Scalar

variable {α : Type u} [ExactScalar α]

attribute [simp] OrderedScalar.isFinite_eq_true

/-- A decimal literal. -/
theorem decimal_eq (m e : Nat) :
    (Scalar.toOfScientific.ofScientific m true e : α) = (m : α) / 10 ^ e := by
  have fraction : (OfScientific.ofScientific m true e : Rat) = (m : ℚ) / 10 ^ e := by
    show Rat.ofScientific m true e = _
    rw [Rat.ofScientific_true_def, Rat.mkRat_eq_div]
    push_cast
    rfl
  rw [ExactScalar.ofScientific_eq_cast, fraction]
  push_cast
  rfl

theorem ofNat_eq_cast (n : Nat) : (ofNat n : α) = n := by
  have whole : (OfScientific.ofScientific n false 0 : Rat) = (n : ℚ) := by
    show Rat.ofScientific n false 0 = _
    rw [Rat.ofScientific_false_def]
    simp
  rw [ofNat, ExactScalar.ofScientific_eq_cast, whole, Rat.cast_natCast]

theorem sum_eq_sum (xs : List α) : sum xs = xs.sum := by
  rw [sum, ExactScalar.neutral_eq_zero, List.sum_eq_foldl]

theorem foldl_add_eq (a : α) (xs : List α) : xs.foldl (· + ·) a = a + xs.sum := by
  induction xs generalizing a with
  | nil => simp
  | cons x xs ih => rw [List.foldl_cons, ih, List.sum_cons, add_assoc]

/-- The eight running sums together with what is still to be added. -/
theorem blockedSumFrom_eq (a₀ a₁ a₂ a₃ a₄ a₅ a₆ a₇ : α) (xs : List α) :
    blockedSumFrom a₀ a₁ a₂ a₃ a₄ a₅ a₆ a₇ xs =
      a₀ + a₁ + a₂ + a₃ + a₄ + a₅ + a₆ + a₇ + xs.sum := by
  fun_induction blockedSumFrom a₀ a₁ a₂ a₃ a₄ a₅ a₆ a₇ xs with
  | case1 a₀ a₁ a₂ a₃ a₄ a₅ a₆ a₇ x₀ x₁ x₂ x₃ x₄ x₅ x₆ x₇ xs ih =>
    rw [ih]
    simp only [List.sum_cons]
    ring
  | case2 =>
    rw [foldl_add_eq]
    ring

theorem blockedSum_eq_sum (xs : List α) : blockedSum xs = xs.sum := by
  simp [blockedSum, blockedSumFrom_eq]

end Scalar

namespace Coords

variable {α : Type u} [ExactScalar α] {n : Nat}

/-- No entry has a larger absolute value than the one at `argMaxAbs`. -/
theorem abs_le_abs_argMaxAbs (v : Vector α (n + 1)) (i : Fin (n + 1)) :
    |v.get i| ≤ |v.get (argMaxAbs v)| := by
  have scan : ∀ (is : List (Fin (n + 1))) (best : Fin (n + 1)),
      |v.get best| ≤ |v.get (is.foldl
          (fun best i => if Scalar.abs (v.get best) < Scalar.abs (v.get i) then i else best) best)| ∧
        ∀ i ∈ is, |v.get i| ≤ |v.get (is.foldl
          (fun best i => if Scalar.abs (v.get best) < Scalar.abs (v.get i) then i else best) best)| := by
    intro is
    induction is with
    | nil => simp
    | cons j is ih =>
      intro best
      simp only [List.foldl_cons, List.mem_cons, forall_eq_or_imp, ExactScalar.abs_eq_abs] at ih ⊢
      split
      · next larger => exact ⟨larger.le.trans (ih j).1, (ih j).1, (ih j).2⟩
      · next smaller => exact ⟨(ih best).1, (not_lt.mp smaller).trans (ih best).1, (ih best).2⟩
  exact (scan (List.finRange (n + 1)) ⟨0, n.succ_pos⟩).2 i (List.mem_finRange i)

end Coords

end LowDimLP
