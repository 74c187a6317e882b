import LowDimLP.Problem
import LowDimLP.Random.ReplayToken
/-!
# Random problems

Seeded instances that are feasible and bounded. Each of `count` half-spaces has a uniformly random unit
normal and touches a sphere around the origin of radius `1 ± jitter`, so the origin is strictly inside;
a box around the origin bounds every instance; the direction is a random unit vector. A unit vector is
drawn by rejection from the cube, which may take any number of draws: the result is `none` when the
patience of the rejection ends first.
-/

namespace LowDimLP

namespace RandomProblem

/-- The shape of random instances. -/
structure Shape (α : Type) where
  dim : Nat
  /-- Random half-spaces, not counting the sides of the box. -/
  count : Nat
  /-- How far a radius may be from one; clamped to `[0, 0.9]`. -/
  radiusJitter : α
  /-- Half the side of the box; at least one. -/
  boxHalfWidth : α

/-- The shape used where no other is given. -/
def Shape.standard {α : Type} [Scalar α] : Shape α := ⟨2, 16, 0.5, 4.0⟩

variable {σ α : Type} [WordSource σ] [Scalar α]

/-- A draw that can fail, or run out of patience. -/
abbrev Draw (σ : Type) := StateT σ (ExceptT GeometryError Option)

/-- Draws one scalar. -/
def draw (f : σ → α × σ) : Draw σ α := fun s => some (.ok (f s))

/-- Draws `n` coordinates of `[-1, 1)`. -/
def drawCube : (n : Nat) → σ → List α × σ
  | 0, s => ([], s)
  | n + 1, s =>
    let (x, s) := WordSource.symmetric s
    let (xs, s) := drawCube n s
    (x :: xs, s)

/-- Euclidean norm of a row of coordinates. -/
def norm (xs : List α) : α := Scalar.sqrt (Scalar.sum (xs.map fun x => x * x))

/-- Draws from the cube until a point lies in the unit ball and not too close to its centre, and scales it
to unit length. -/
def drawUnitWithin (n : Nat) : Nat → σ → Option (List α × σ)
  | 0, _ => none
  | tries + 1, s =>
    let (xs, s) := drawCube n s
    let length : α := norm xs
    if 1e-3 < length ∧ length ≤ 1 then some (xs.map (· / length), s) else drawUnitWithin n tries s

/-- A uniformly random unit vector. -/
def drawUnit (n : Nat) : Draw σ (AnyVec α) := fun s =>
  if n = 0 then some ((Vec.ofList []).map (·, s))
  else (drawUnitWithin n WordSource.patience s).map fun (xs, s) => (Vec.ofList xs).map (·, s)

/-- The value brought into `[0, 0.9]`; an undefined value stays. -/
def clampJitter (x : α) : α := if x < 0 then 0 else if 0.9 < x then 0.9 else x

/-- A random half-space around the origin. -/
def drawHalfSpace (n : Nat) (jitter : α) : Draw σ (AnyHalfSpace α) := do
  let normal ← drawUnit n
  let u ← draw WordSource.fraction
  let radius := 1 + (u * 2.0 - 1) * jitter
  match HalfSpace.ofInequality normal.2 radius with
  | .ok h => return ⟨normal.1, h⟩
  | .error e => throw e

/-- `count` random half-spaces around the origin. -/
def drawHalfSpaces (n : Nat) (jitter : α) : Nat → Draw σ (List (AnyHalfSpace α))
  | 0 => return []
  | count + 1 => do
    let h ← drawHalfSpace n jitter
    return h :: (← drawHalfSpaces n jitter count)

/-- The two sides of the box across one axis, the lower one first. -/
def boxSides (n : Nat) (halfWidth : α) (axis : Fin n) : Except GeometryError (List (AnyHalfSpace α)) := do
  let lower ← HalfSpace.ofInequality (Vec.axis axis).neg halfWidth
  let upper ← HalfSpace.ofInequality (Vec.axis axis) halfWidth
  return [⟨n, lower⟩, ⟨n, upper⟩]

/-- The box `|xᵢ| ≤ halfWidth`, axis by axis. -/
def box (n : Nat) (halfWidth : α) : Except GeometryError (List (AnyHalfSpace α)) := do
  return (← (List.finRange n).mapM (boxSides n halfWidth)).flatten

/-- A feasible and bounded random instance, drawn from a word source. -/
def drawProblem (shape : Shape α) : Draw σ (Problem α) := do
  let around ← drawHalfSpaces shape.dim (clampJitter shape.radiusJitter) shape.count
  match box shape.dim (if 1 < shape.boxHalfWidth then shape.boxHalfWidth else 1) with
  | .error e => throw e
  | .ok sides =>
    let direction ← drawUnit shape.dim
    return ⟨around ++ sides, direction⟩

/-- The instance that a token names. -/
def ofToken (shape : Shape α) (token : ReplayToken) : Option (Except GeometryError (Problem α)) :=
  ((drawProblem shape).run token.stream).run.map (·.map Prod.fst)

end RandomProblem

end LowDimLP
