/-!
# Shortest decimals

A double is `m · 2^q`. The reals that round to it form an interval around it, whose ends belong to it
when `m` is even. The shortest decimal is found on the coarsest grid of powers of ten that has a point in
the interval; of two such points the nearer one is taken, and of two equally near the even one.
-/

namespace LowDimLP

namespace Shortest

/-- `digits · 10^exponent`. -/
structure Decimal where
  digits : Nat
  exponent : Int
  deriving DecidableEq, Repr

/-- Three numbers in a common unit: the ends of a rounding interval and the value inside. -/
structure Window where
  low : Nat
  value : Nat
  high : Nat
  /-- Do the ends belong to it? -/
  closed : Bool

/-- Is `x` in the window? -/
def Window.contains (w : Window) (x : Nat) : Bool :=
  if w.closed then decide (w.low ≤ x) && decide (x ≤ w.high) else decide (w.low < x) && decide (x < w.high)

/-- The point of the grid with the given step that represents the window, as a multiple of the step. -/
def Window.onGrid (w : Window) (step : Nat) : Option Nat :=
  let below := w.value / step
  let above := below + 1
  match w.contains (below * step), w.contains (above * step) with
  | true, false => some below
  | false, true => some above
  | false, false => none
  | true, true =>
    let down := w.value - below * step
    let up := above * step - w.value
    some (if down < up ∨ (down = up ∧ below % 2 = 0) then below else above)

/-- `m · 2^q` and its interval, in units of `2^(q-2)` and after division by `10^t`, over a common
denominator: the window and the step of the grid `10^t`. `narrow` says that the neighbour below is at
half the distance. -/
def window (m : Nat) (q : Int) (narrow : Bool) (t : Int) : Window × Nat :=
  let unit := Nat.pow 10 (-t).toNat <<< (q - 2).toNat
  let step := Nat.pow 10 t.toNat <<< (2 - q).toNat
  (⟨(4 * m - if narrow then 1 else 2) * unit, 4 * m * unit, (4 * m + 2) * unit, m % 2 = 0⟩, step)

/-- Tries the grids `10^t`, `10^(t-1)`, ... -/
def search (m : Nat) (q : Int) (narrow : Bool) : Nat → Int → Option Decimal
  | 0, _ => none
  | tries + 1, t =>
    let (w, step) := window m q narrow t
    match w.onGrid step with
    | some c => some ⟨c, t⟩
    | none => search m q narrow tries (t - 1)

/-- The shortest decimal that rounds to `m · 2^q`. The first grid tried is coarser than the value; the
seventeenth after the value's own magnitude is finer than the interval. -/
def ofBinary (m : Nat) (q : Int) (narrow : Bool) : Decimal :=
  let start := ((Nat.log2 m : Int) + q) * 30103 / 100000 + 2
  (search m q narrow 40 start).getD ⟨0, 0⟩

/-- The shortest decimal of the magnitude of a finite double. -/
def ofFloat (x : Float) : Decimal :=
  let bits : Nat := x.toBits.toNat % (1 <<< 63)
  let field : Nat := bits >>> 52
  let fraction : Nat := bits % (1 <<< 52)
  if field = 0 then
    if fraction = 0 then ⟨0, 0⟩ else ofBinary fraction (-1074) false
  else ofBinary ((1 <<< 52) + fraction) (field - 1075) (fraction = 0 && decide (1 < field))

end Shortest

end LowDimLP
