import LowDimLP.Solver.Interval
import LowDimLP.Solver.Vertices
/-!
# Levels

A level solves a linear program of R^(n+1) by random insertion, with a level of R^n at its service. A
candidate that satisfies the new half-space is kept; otherwise the optimum of everything inserted so
far lies on the new boundary, and the level below finds it there. While the inserted half-spaces do not
yet bound the objective, each insertion first tests whether they do now: the level below looks for a
direction that stays in all of them and along which the objective falls. A run that ends unbounded
settles on the best vertex, if there is one. The lowest level is the line.
-/

namespace LowDimLP

universe u

/-- A solver of linear programs of R^n: half-spaces and a direction to a solution. -/
abbrev SolverOf (σ α : Type) (n : Nat) := List (HalfSpace α n) → Vec α n → Run σ (Solution α n)

namespace Level

variable {σ α : Type} [PickSource σ] [Scalar α] {n : Nat}

/-- The optimum on the boundary of `h` within the accepted half-spaces. `bounded` says that the objective
is bounded over them and `h` together, and makes the answer a minimum. -/
def descend (below : SolverOf σ α n) (tol : Tolerance α) (direction : Vec α (n + 1))
    (accepted : List (HalfSpace α (n + 1))) (h : HalfSpace α (n + 1)) (bounded : Bool) :
    Run σ (Solution α (n + 1)) := do
  let frame := Frame.on h.boundary
  match frame.traces tol accepted with
  | none => return .infeasible
  | some reduced =>
    let found ←
      if reduced.isEmpty then pure (some frame.plane.point)
      else do
        let solution ← below reduced (direction.reduce frame)
        pure (solution.point?.map frame.lift)
    match found with
    | none => return .infeasible
    | some p => return if bounded then .minimum p else .ambiguous p

/-- Is there no direction `d` with `N·d ≤ 0` for every half-space and `direction·d = -1`? The candidates
form a plane, and the half-spaces through the origin leave bounds on it; no common point of these means
that the objective is bounded. -/
def objectiveBounded (below : SolverOf σ α n) (tol : Tolerance α) (direction : Vec α (n + 1))
    (halfSpaces : List (HalfSpace α (n + 1))) : Run σ Bool := do
  if direction.isZero tol.det then return true
  match Plane.ofEquation direction (-direction.length) with
  | .error e => throw (.geometry e)
  | .ok slice =>
    match (Frame.on slice).traces tol (halfSpaces.map HalfSpace.recession) with
    | none => return true
    | some cone =>
      if cone.isEmpty then return false
      let solution ← below cone Vec.zero
      return solution.isInfeasible

/-- An insertion while the objective is not known to be bounded; `p` is feasible so far. -/
def insertUnsettled (below : SolverOf σ α n) (tol : Tolerance α) (direction : Vec α (n + 1))
    (accepted : List (HalfSpace α (n + 1))) (p : Point α (n + 1)) (h : HalfSpace α (n + 1)) :
    Run σ (Solution α (n + 1)) := do
  let settled ←
    if accepted.length = 1 then objectiveBounded below tol direction accepted else pure false
  if settled then
    if h.containsWithin p tol.feas then return .minimum p
    else descend below tol direction accepted h true
  else if ← objectiveBounded below tol direction (accepted ++ [h]) then
    descend below tol direction accepted h true
  else if h.containsWithin p tol.feas then return .ambiguous p
  else descend below tol direction accepted h false

/-- One insertion. -/
def insert (below : SolverOf σ α n) (tol : Tolerance α) (direction : Vec α (n + 1))
    (accepted : List (HalfSpace α (n + 1))) (state : Option (Solution α (n + 1)))
    (h : HalfSpace α (n + 1)) : Run σ (Solution α (n + 1)) :=
  match state with
  | none => return .ambiguous h.boundary.point
  | some .infeasible => return .infeasible
  | some (.minimum p) =>
    if h.containsWithin p tol.feas then return .minimum p
    else descend below tol direction accepted h true
  | some (.ambiguous p) => insertUnsettled below tol direction accepted p h

/-- The last step of a run: an unbounded objective settles on the best vertex. -/
def settle (tol : Tolerance α) (direction : Vec α n) (accepted : List (HalfSpace α n)) :
    Solution α n → Solution α n
  | .ambiguous p =>
    match bestVertex? tol direction accepted with
    | some v => .minimum v
    | none => .ambiguous p
  | solution => solution

/-- Half-spaces in the vector from which they are drawn. -/
def pending {ι : Type} (xs : List ι) : Vector ι xs.length := ⟨xs.toArray, rfl⟩

/-- The run on the line. -/
def solveLine (tol : Tolerance α) : SolverOf σ α 1 := fun halfSpaces direction => do
  let step := fun _ state h => pure (Interval.insert tol (direction.coord 0) state h)
  match (← insertAll step (fun state => state.2.isInfeasible) (pending halfSpaces) [] none).2 with
  | some (_, solution) => return solution
  | none => throw .emptyConstraintSet

/-- The run above the line, with the level below at its service. -/
def solveAbove (below : SolverOf σ α n) (tol : Tolerance α) : SolverOf σ α (n + 1) :=
  fun halfSpaces direction => do
    let (accepted, state) ←
      insertAll (insert below tol direction) Solution.isInfeasible (pending halfSpaces) [] none
    match state with
    | some solution => return settle tol direction accepted solution
    | none => throw .emptyConstraintSet

/-- The run in R^(n+1). A direction that is not finite is refused before the first draw. -/
def solve (tol : Tolerance α) : (n : Nat) → SolverOf σ α (n + 1)
  | 0, halfSpaces, direction =>
    if direction.isFinite then solveLine tol halfSpaces direction else throw .nonFiniteDirection
  | n + 1, halfSpaces, direction =>
    if direction.isFinite then solveAbove (solve tol n) tol halfSpaces direction
    else throw .nonFiniteDirection

end Level

end LowDimLP
