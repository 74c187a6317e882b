/-!
# Scalars

The arithmetic of coordinates. Geometry, solver and generator are written once, over any type with
the operations of `Scalar`, and run on doubles. No law belongs to the class: doubles are neither
associative nor totally ordered. What holds of every scalar is proved over the class, and what needs
exact arithmetic is proved at an instance that has it.
-/

namespace LowDimLP

universe u

/-- The operations a coordinate needs; no laws. -/
class Scalar (α : Type u) extends
    Add α, Sub α, Mul α, Div α, Neg α, Zero α, One α, LT α, LE α, OfScientific α where
  decidableLt : DecidableLT α
  decidableLe : DecidableLE α
  /-- Square root. -/
  sqrt : α → α
  /-- Absolute value. -/
  abs : α → α
  /-- Is the value a number, and not an infinity or an undefined result? -/
  isFinite : α → Bool
  /-- The value that changes no sum. In doubles it is negative zero: `0 + (-0)` is `0`. -/
  neutral : α
  /-- What stands for the missing lower end of a range. -/
  bottom : α
  /-- What stands for the missing upper end of a range. -/
  top : α

namespace Scalar

variable {α : Type u} [Scalar α]

instance : DecidableLT α := decidableLt

instance : DecidableLE α := decidableLe

/-- The scalar nearest to a natural number. -/
def ofNat (n : Nat) : α := OfScientific.ofScientific n false 0

/-- Equality as the order sees it: the two zeros of doubles are the same, an undefined value is not
the same as itself. -/
def same (x y : α) : Bool := decide (x ≤ y) && decide (y ≤ x)

/-- Sum from left to right. -/
def sum (xs : List α) : α := xs.foldl (· + ·) neutral

/-- Adds `xs` to eight running sums in turn while eight elements remain, then folds the sums in
halves, and adds what is left one by one. -/
def blockedSumFrom (a₀ a₁ a₂ a₃ a₄ a₅ a₆ a₇ : α) : List α → α
  | x₀ :: x₁ :: x₂ :: x₃ :: x₄ :: x₅ :: x₆ :: x₇ :: xs =>
    blockedSumFrom (a₀ + x₀) (a₁ + x₁) (a₂ + x₂) (a₃ + x₃) (a₄ + x₄) (a₅ + x₅) (a₆ + x₆)
      (a₇ + x₇) xs
  | xs => xs.foldl (· + ·) (0 + (a₀ + a₄) + (a₁ + a₅) + (a₂ + a₆) + (a₃ + a₇))

/-- Sum in blocks of eight; the order of additions fixes how doubles round. -/
def blockedSum (xs : List α) : α := blockedSumFrom 0 0 0 0 0 0 0 0 xs

end Scalar

instance : Scalar Float where
  zero := 0.0
  one := 1.0
  decidableLt := inferInstance
  decidableLe := inferInstance
  sqrt := Float.sqrt
  abs := Float.abs
  isFinite := Float.isFinite
  neutral := -0.0
  bottom := -1.0 / 0.0
  top := 1.0 / 0.0

end LowDimLP
