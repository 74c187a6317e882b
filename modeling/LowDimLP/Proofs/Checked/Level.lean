import LowDimLP.Solver.Level
import LowDimLP.Proofs.Solver.Branches
import LowDimLP.Proofs.Checked.Run
import LowDimLP.Proofs.Checked.Vertices
/-!
# Checked levels

A solver as the program has it: its dimension is the length of its direction, and every level validates its
problem before it runs. The level below is asked for a list of half-spaces and a direction of any dimension;
that the list is never empty and the dimensions are always one less is what the agreement with the typed
level shows (`level_agrees`).
-/

namespace LowDimLP

namespace Checked

/-- A solution. -/
inductive SolutionRows (α : Type) where
  | minimum (p : List α)
  | ambiguous (p : List α)
  | infeasible

namespace SolutionRows

variable {α : Type}

def kind : SolutionRows α → ResultKind
  | minimum _ => .minimum
  | ambiguous _ => .ambiguous
  | infeasible => .infeasible

/-- The point found on a boundary, as a minimum if the objective is bounded. -/
def tagged (bounded : Bool) (p : List α) : SolutionRows α := if bounded then minimum p else ambiguous p

def point? : SolutionRows α → Option (List α)
  | minimum p => some p
  | ambiguous p => some p
  | infeasible => none

def isInfeasible : SolutionRows α → Bool
  | infeasible => true
  | _ => false

end SolutionRows

variable {σ α : Type} [Scalar α]

/-! ## The line -/

def tighten (range : Interval α) (h : PlaneRows α) : Interval α :=
  let bound := coord h.point 0
  if 0 < coord h.normal 0 then { range with upper := Interval.lowest range.upper bound }
  else { range with lower := Interval.highest range.lower bound }

def settleRange (range : Interval α) (tol : Tolerance α) (c : α) : SolutionRows α :=
  if range.isEmpty tol then .infeasible else .minimum [range.bestEnd tol c]

/-! ## One insertion -/

/-- A solver for half-spaces and a direction. -/
abbrev SolverOf (σ α : Type) := List (PlaneRows α) → List α → Run σ (SolutionRows α)

/-- One dimension less, of which there must be one. -/
def oneLess : Nat → Except Fault Nat
  | 0 => .error (.outOfRange 0 0)
  | n + 1 => .ok n

/-- The zero vector; there is none of no dimension. -/
def zeros : Nat → Except GeometryError (List α)
  | 0 => .error (.unsupportedDimension .vector 0)
  | n + 1 => .ok (List.replicate (n + 1) 0)

/-- The optimum on the boundary of `h` within the accepted half-spaces. -/
def descend (below : SolverOf σ α) (tol : Tolerance α) (direction : List α)
    (accepted : List (PlaneRows α)) (h : PlaneRows α) (bounded : Bool) : Run σ (SolutionRows α) := do
  match ← Run.check (FrameRows.on h) with
  | .error e => throw (.geometry e)
  | .ok frame =>
    match ← Run.check (frame.traces tol accepted) with
    | none => return .infeasible
    | some [] => return .tagged bounded frame.plane.point
    | some (r :: rs) =>
      let (c, _) ← Run.check (frame.pullBack direction)
      match (← below (r :: rs) c).point? with
      | none => return .infeasible
      | some q => return .tagged bounded (← Run.check (frame.lift q))

/-- Do the half-spaces bound the objective? -/
def objectiveBounded (below : SolverOf σ α) (tol : Tolerance α) (direction : List α)
    (halfSpaces : List (PlaneRows α)) : Run σ Bool := do
  let length ← Run.check (norm direction)
  if length ≤ tol.det then return true
  else
    match ← Run.check (PlaneRows.ofEquation direction (-length)) with
    | .error e => throw (.geometry e)
    | .ok slice =>
      match ← Run.check (FrameRows.on slice) with
      | .error e => throw (.geometry e)
      | .ok frame =>
        match ← Run.check (frame.traces tol (halfSpaces.map PlaneRows.throughOrigin)) with
        | none => return true
        | some [] => return false
        | some (r :: rs) =>
          match zeros (← Run.check (oneLess direction.length)) with
          | .error e => throw (.geometry e)
          | .ok c => return (← below (r :: rs) c).isInfeasible

def keepOrDescend (below : SolverOf σ α) (tol : Tolerance α) (direction : List α)
    (accepted : List (PlaneRows α)) (h : PlaneRows α) (p : List α) (bounded : Bool) :
    Run σ (SolutionRows α) :=
  if h.containsWithin p tol.feas then return .tagged bounded p
  else descend below tol direction accepted h bounded

def insertUnsettled (below : SolverOf σ α) (tol : Tolerance α) (direction : List α)
    (accepted : List (PlaneRows α)) (p : List α) (h : PlaneRows α) : Run σ (SolutionRows α) := do
  let settled ←
    (if accepted.length = 1 then objectiveBounded below tol direction accepted else pure false)
  if settled then keepOrDescend below tol direction accepted h p true
  else
    let bounded ← objectiveBounded below tol direction (accepted ++ [h])
    if bounded then descend below tol direction accepted h true
    else keepOrDescend below tol direction accepted h p false

/-- One insertion. The line is told apart here, before anything is framed. -/
def insert (below : SolverOf σ α) (tol : Tolerance α) (direction : List α) (range : Interval α)
    (accepted : List (PlaneRows α)) (state : Option (SolutionRows α)) (h : PlaneRows α) :
    Run σ (SolutionRows α) :=
  match state with
  | none => return .ambiguous h.point
  | some .infeasible => return .infeasible
  | some (.minimum p) =>
    if direction.length = 1 then return settleRange range tol (coord direction 0)
    else keepOrDescend below tol direction accepted h p true
  | some (.ambiguous p) =>
    if direction.length = 1 then return settleRange range tol (coord direction 0)
    else insertUnsettled below tol direction accepted p h

/-- One insertion with the range of the line, which is tightened on the line only. -/
def turn (below : SolverOf σ α) (tol : Tolerance α) (direction : List α) (accepted : List (PlaneRows α))
    (state : Option (Interval α × SolutionRows α)) (h : PlaneRows α) :
    Run σ (Interval α × SolutionRows α) := do
  let before := (state.map Prod.fst).getD Interval.line
  let range := if direction.length = 1 then tighten before h else before
  return (range, ← insert below tol direction range accepted (state.map Prod.snd) h)

/-! ## A level -/

/-- The last step of a run, above the line. -/
def settle (tol : Tolerance α) (direction : List α) (accepted : List (PlaneRows α)) :
    SolutionRows α → Run σ (SolutionRows α)
  | .ambiguous p => do
    if 1 < direction.length then
      match ← Run.check (bestVertex tol direction accepted) with
      | some v => return .minimum v
      | none => return .ambiguous p
    else return .ambiguous p
  | solution => return solution

/-- Refuses a problem without half-spaces, with a direction that is not finite, or of several dimensions. -/
def validate (halfSpaces : List (PlaneRows α)) (direction : List α) : Run σ Unit :=
  if halfSpaces.isEmpty then throw .emptyConstraintSet
  else if !direction.all Scalar.isFinite then throw .nonFiniteDirection
  else
    match halfSpaces.zipIdx.find? fun h => h.1.dim ≠ direction.length with
    | some (h, index) => throw (.dimensionMismatch index direction.length h.dim)
    | none => return

variable [PickSource σ]

/-- The run of a validated problem. -/
def runValid (below : SolverOf σ α) (tol : Tolerance α) : SolverOf σ α := fun halfSpaces direction => do
  let (accepted, state) ← insertAll (turn below tol direction) (fun state => state.2.isInfeasible)
    halfSpaces.length halfSpaces [] none
  match state with
  | some (_, solution) => settle tol direction accepted solution
  | none => throw .emptyConstraintSet

/-- Validates a problem and runs it, with at most `depth` levels. -/
def level (tol : Tolerance α) : Nat → SolverOf σ α
  | 0, _, _ => Run.check (.error .depth)
  | depth + 1, halfSpaces, direction => do
    validate halfSpaces direction
    runValid (level tol depth) tol halfSpaces direction

/-- The first run of a solver; its levels are as many as its dimension. -/
def firstRun (tol : Tolerance α) (halfSpaces : List (PlaneRows α)) (direction : List α) :
    Run σ (SolutionRows α) := do
  let lower ← Run.check (oneLess direction.length)
  runValid (level tol lower) tol halfSpaces direction

end Checked

variable {α : Type} {n : Nat}

/-- The rows of a solution. -/
def Solution.rows : Solution α n → Checked.SolutionRows α
  | .minimum p => .minimum p.toList
  | .ambiguous p => .ambiguous p.toList
  | .infeasible => .infeasible

@[simp] theorem Solution.isInfeasible_rows (solution : Solution α n) :
    solution.rows.isInfeasible = solution.isInfeasible := by
  cases solution <;> rfl

@[simp] theorem Solution.point?_rows (solution : Solution α n) :
    solution.rows.point? = solution.point?.map Point.toList := by
  cases solution <;> rfl

@[simp] theorem Solution.kind_rows (solution : Solution α n) : solution.rows.kind = solution.kind := by
  cases solution <;> rfl

end LowDimLP
