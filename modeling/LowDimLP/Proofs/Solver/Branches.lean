import LowDimLP.Solver.Level
import LowDimLP.Proofs.Run
/-!
# A level, branch by branch

The equations of one insertion, over any scalars. A descent and a recession test ask the level below only
when the chart has a bound, so only with a list that has a head; every other branch is decided at once.
-/

namespace LowDimLP

theorem Solution.isInfeasible_iff {α : Type} {n : Nat} {solution : Solution α n} :
    solution.isInfeasible = true ↔ solution = .infeasible := by
  cases solution <;> simp [Solution.isInfeasible]

namespace Level

variable {σ α : Type} [Scalar α] {n : Nat} {below : SolverOf σ α n} {tol : Tolerance α}
  {direction : Vec α (n + 1)} {accepted : List (HalfSpace α (n + 1))} {h : HalfSpace α (n + 1)}

/-- The solution that a boundary gives: the point found there, as a minimum if the objective is bounded. -/
def tagged (bounded : Bool) : Option (Point α n) → Solution α n
  | none => .infeasible
  | some p => if bounded then .minimum p else .ambiguous p

/-- Asks the level below about the traces on a plane, unless they answer themselves: the plane is missed,
or nothing bounds the chart. -/
def askBelow {β : Type} (below : SolverOf σ α n) (c : Vec α n) (missed unbounded : β)
    (reading : Solution α n → β) : Option (List (HalfSpace α n)) → Run σ β
  | none => pure missed
  | some [] => pure unbounded
  | some (r :: rs) => below (r :: rs) c >>= fun solution => pure (reading solution)

omit [Scalar α] in
theorem askBelow_ensures {β : Type} {c : Vec α n} {missed unbounded : β} {reading : Solution α n → β}
    {traces : Option (List (HalfSpace α n))} {P : β → Prop} (hmissed : traces = none → P missed)
    (hunbounded : traces = some [] → P unbounded)
    (asks : ∀ reduced, traces = some reduced → reduced ≠ [] →
      (below reduced c).Ensures fun solution => P (reading solution)) :
    (askBelow below c missed unbounded reading traces).Ensures P := by
  match traces with
  | none => exact Run.Ensures.pure' (hmissed rfl)
  | some [] => exact Run.Ensures.pure' (hunbounded rfl)
  | some (r :: rs) =>
    exact Run.Ensures.bind' (asks (r :: rs) rfl (by simp)) fun _ => Run.Ensures.pure'

theorem descend_eq (bounded : Bool) :
    descend below tol direction accepted h bounded =
      askBelow below (direction.reduce (Frame.on h.boundary)) .infeasible
        (tagged bounded (some h.boundary.point))
        (fun solution => tagged bounded (solution.point?.map (Frame.on h.boundary).lift))
        ((Frame.on h.boundary).traces tol accepted) := by
  cases traced : (Frame.on h.boundary).traces tol accepted with
  | none => simp only [descend, traced, askBelow]
  | some reduced =>
    cases reduced with
    | nil =>
      simp only [descend, traced]
      rfl
    | cons r rs =>
      simp only [descend, traced, askBelow, List.isEmpty_cons, Bool.false_eq_true, if_false]
      congr 1
      funext solution
      cases solution.point? <;> rfl

theorem objectiveBounded_eq {halfSpaces : List (HalfSpace α (n + 1))} :
    objectiveBounded below tol direction halfSpaces =
      if direction.isZero tol.det then pure true
      else match Plane.ofEquation direction (-direction.length) with
        | .error e => throw (.geometry e)
        | .ok slice =>
          askBelow below Vec.zero true false Solution.isInfeasible
            ((Frame.on slice).traces tol (halfSpaces.map HalfSpace.recession)) := by
  simp only [objectiveBounded]
  congr 1
  cases Plane.ofEquation direction (-direction.length) with
  | error e => rfl
  | ok slice =>
    cases traced : (Frame.on slice).traces tol (halfSpaces.map HalfSpace.recession) with
    | none => simp only [traced, askBelow]
    | some cone =>
      simp only [traced]
      cases cone <;> rfl

/-- An insertion at a point: the point stays with its tag if the new half-space holds of it. -/
def keepOrDescend (below : SolverOf σ α n) (tol : Tolerance α) (direction : Vec α (n + 1))
    (accepted : List (HalfSpace α (n + 1))) (h : HalfSpace α (n + 1)) (p : Point α (n + 1))
    (bounded : Bool) : Run σ (Solution α (n + 1)) :=
  if h.containsWithin p tol.feas then pure (tagged bounded (some p))
  else descend below tol direction accepted h bounded

/-- A lone half-space is tested late, before the new one is looked at. -/
theorem insertUnsettled_eq (p : Point α (n + 1)) :
    insertUnsettled below tol direction accepted p h =
      (if accepted.length = 1 then objectiveBounded below tol direction accepted else pure false) >>=
        fun settled =>
          if settled then keepOrDescend below tol direction accepted h p true
          else objectiveBounded below tol direction (accepted ++ [h]) >>= fun bounded =>
            if bounded then descend below tol direction accepted h true
            else keepOrDescend below tol direction accepted h p false := by
  rw [insertUnsettled]
  split <;> rfl

end Level

end LowDimLP
