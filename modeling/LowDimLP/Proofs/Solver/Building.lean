import LowDimLP.Proofs.Lists
import LowDimLP.Solver
/-!
# Building solvers

A solver that could be built holds at least one half-space, all of its direction's dimension, and a finite
direction (`eq_of_ofProblem`). One that could not be built is refused for the first of three reasons: there is no
half-space, the direction is not finite, or a half-space has another dimension, and then the first such one is
named (`refusal_of_ofProblem`).
-/

namespace LowDimLP.Solver

variable {α : Type} [Scalar α]

omit [Scalar α] in
theorem eq_of_ofDim? {dim : Nat} {h : AnyHalfSpace α} {typed : HalfSpace α dim}
    (same : h.ofDim? dim = some typed) : h = ⟨dim, typed⟩ := by
  obtain ⟨m, h⟩ := h
  rw [AnyHalfSpace.ofDim?] at same
  split at same
  · next equal =>
    subst equal
    cases same
    rfl
  · cases same

omit [Scalar α] in
theorem eq_map_of_checkDimensions {dim index : Nat} {halfSpaces : List (AnyHalfSpace α)}
    {typed : List (HalfSpace α dim)} (checked : checkDimensions dim index halfSpaces = .ok typed) :
    halfSpaces = typed.map (Sigma.mk dim) := by
  induction halfSpaces generalizing index typed with
  | nil =>
    cases checked
    rfl
  | cons h hs ih =>
    rw [checkDimensions] at checked
    split at checked
    · next first same =>
      cases rest : checkDimensions dim (index + 1) hs with
      | error e =>
        rw [rest] at checked
        cases checked
      | ok others =>
        rw [rest] at checked
        cases checked
        rw [List.map_cons, ← ih rest, eq_of_ofDim? same]
    · cases checked

/-- What a built solver holds. -/
theorem eq_of_ofProblem {halfSpaces : List (AnyHalfSpace α)} {direction : AnyVec α} {solver : Solver α}
    (built : ofProblem halfSpaces direction = .ok solver) :
    halfSpaces = solver.halfSpaces.map (Sigma.mk (solver.n + 1)) ∧
      direction = ⟨solver.n + 1, solver.direction⟩ ∧ solver.halfSpaces ≠ [] ∧
      solver.direction.isFinite = true ∧ solver.status = .ready := by
  obtain ⟨dim, direction⟩ := direction
  simp only [ofProblem] at built
  split at built
  · cases built
  · next nonempty =>
    split at built
    · cases built
    · next finite =>
      cases dim with
      | zero => cases built
      | succ n =>
        cases checked : checkDimensions (n + 1) 0 halfSpaces with
        | error e =>
          simp only [checked] at built
          cases built
        | ok typed =>
          simp only [checked] at built
          cases built
          have same := eq_map_of_checkDimensions checked
          refine ⟨same, rfl, ?_, by simpa using finite, rfl⟩
          intro (empty : typed = [])
          rw [empty] at same
          exact nonempty (by rw [same]; rfl)

omit [Scalar α] in
theorem firstAt_of_checkDimensions {dim index : Nat} {halfSpaces : List (AnyHalfSpace α)} {e : SolverError}
    (refused : checkDimensions dim index halfSpaces = .error e) :
    ∃ position h, FirstAt (fun g : AnyHalfSpace α => g.1 ≠ dim) halfSpaces position h ∧
      e = .dimensionMismatch (index + position) dim h.1 := by
  induction halfSpaces generalizing index with
  | nil => cases refused
  | cons h hs ih =>
    rw [checkDimensions] at refused
    split at refused
    · next typed same =>
      have passed : ¬h.1 ≠ dim := by simp [eq_of_ofDim? same]
      cases rest : checkDimensions dim (index + 1) hs with
      | ok others =>
        rw [rest] at refused
        cases refused
      | error cause =>
        rw [rest] at refused
        cases refused
        obtain ⟨position, g, first, named⟩ := ih rest
        exact ⟨position + 1, g, first.tail passed, by rw [named, Nat.add_right_comm, Nat.add_assoc]⟩
    · next other =>
      cases refused
      refine ⟨0, h, .head (fun same => ?_) hs, rfl⟩
      subst same
      rw [AnyHalfSpace.ofDim?, dif_pos rfl] at other
      cases other

/-- Why no solver could be built, for a direction that has a coordinate. -/
theorem refusal_of_ofProblem {n : Nat} {halfSpaces : List (AnyHalfSpace α)} {direction : Vec α (n + 1)}
    {e : SolverError} (refused : ofProblem halfSpaces ⟨n + 1, direction⟩ = .error e) :
    (halfSpaces = [] ∧ e = .emptyConstraintSet) ∨
      halfSpaces ≠ [] ∧ (direction.isFinite = false ∧ e = .nonFiniteDirection ∨
        direction.isFinite = true ∧ ∃ position h,
          FirstAt (fun g : AnyHalfSpace α => g.1 ≠ n + 1) halfSpaces position h ∧
            e = .dimensionMismatch position (n + 1) h.1) := by
  simp only [ofProblem] at refused
  split at refused
  · next empty =>
    cases refused
    exact .inl ⟨List.isEmpty_iff.mp empty, rfl⟩
  · next nonempty =>
    refine .inr ⟨fun empty => nonempty (List.isEmpty_iff.mpr empty), ?_⟩
    split at refused
    · next infinite =>
      cases refused
      exact .inl ⟨by simpa using infinite, rfl⟩
    · next finite =>
      refine .inr ⟨by simpa using finite, ?_⟩
      cases checked : checkDimensions (n + 1) 0 halfSpaces with
      | ok typed =>
        simp only [checked] at refused
        cases refused
      | error cause =>
        simp only [checked] at refused
        cases refused
        obtain ⟨position, h, first, named⟩ := firstAt_of_checkDimensions checked
        exact ⟨position, h, first, by rw [named, Nat.zero_add]⟩

end LowDimLP.Solver
