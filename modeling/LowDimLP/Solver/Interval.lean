import LowDimLP.Solver.Insertion
import LowDimLP.Solver.Solution
/-!
# The line

In dimension one the feasible set is an interval, and every half-space tightens one of its ends. The
optimum is the end on the objective's side; when that side is open, it is the other end.
-/

namespace LowDimLP

universe u

/-- A range of the line; a missing end is open. -/
structure Interval (α : Type u) where
  lower : Option α
  upper : Option α

namespace Interval

variable {α : Type u} [Scalar α]

/-- The whole line. -/
def line : Interval α := ⟨none, none⟩

/-- The lower of an end and a new bound. Of equals the new bound stays, and an undefined bound is ignored. -/
def lowest : Option α → α → Option α
  | none, b => if b ≤ b then some b else none
  | some a, b => some (if b ≤ a then b else a)

/-- The higher of an end and a new bound. Of equals the new bound stays, and an undefined bound is ignored. -/
def highest : Option α → α → Option α
  | none, b => if b ≤ b then some b else none
  | some a, b => some (if a ≤ b then b else a)

/-- The part of the range inside a half-space of the line. -/
def tighten (range : Interval α) (h : HalfSpace α 1) : Interval α :=
  let bound := h.boundary.point.coord 0
  if 0 < h.boundary.normal.coord 0 then { range with upper := lowest range.upper bound }
  else { range with lower := highest range.lower bound }

/-- Is the lower end above the upper end by more than the slack? -/
def isEmpty (range : Interval α) (tol : Tolerance α) : Bool :=
  match range.lower, range.upper with
  | some lo, some hi => decide (hi + tol.feas < lo)
  | _, _ => false

/-- The end, or the other value when the end is open or infinite. -/
def endOr : Option α → α → α
  | some x, other => if Scalar.isFinite x then x else other
  | none, other => other

/-- The end on the side to which the objective `c` falls, or the other end when that side is open. -/
def bestEnd (range : Interval α) (tol : Tolerance α) (c : α) : α :=
  if c < -tol.det then endOr range.upper (range.lower.getD Scalar.bottom)
  else endOr range.lower (range.upper.getD Scalar.top)

/-- The solution on the range. -/
def settle (range : Interval α) (tol : Tolerance α) (c : α) : Solution α 1 :=
  if range.isEmpty tol then .infeasible else .minimum ⟨#v[range.bestEnd tol c]⟩

end Interval

/-- One insertion on the line: the first half-space proposes its boundary point, every later one settles
on the range so far. -/
def Interval.insert {α : Type u} [Scalar α] (tol : Tolerance α) (c : α) :
    Option (Interval α × Solution α 1) → HalfSpace α 1 → Interval α × Solution α 1
  | none, h => (Interval.line.tighten h, .ambiguous h.boundary.point)
  | some (range, _), h => let range := range.tighten h; (range, range.settle tol c)

end LowDimLP
