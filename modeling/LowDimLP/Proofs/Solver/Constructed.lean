import LowDimLP.Proofs.Geometry.Constructions
import LowDimLP.Proofs.Solver.Asked
import LowDimLP.Proofs.Solver.Correctness
/-!
# Every plane of a run is constructed

A level hands on the traces of its half-spaces on its own boundaries, or of their recessions on the slice of its
direction, and all of these are constructed when the half-spaces given to the run are. So a run in which every level
refuses anything else is the run itself (`Level.solveConstructed_eq`), and so is a search for a common point that
refuses other planes at every depth (`Plane.meetConstructed_eq`). With what holds of constructed planes and frames,
no level works on a plane that is not normalised or divides by a vanishing component
(`Level.constructed_throughout`).
-/

namespace LowDimLP

/-! ## Runs -/

namespace Level

variable {σ α : Type} [Scalar α] {n : Nat} {tol : Tolerance α}

theorem passes_constructed (direction : Vec α (n + 2)) :
    Passes tol direction HalfSpace.Constructed HalfSpace.Constructed where
  boundary on other reduced := .reduce other (.boundary on) rfl reduced
  slice sliced other reduced := .reduce (.recession other) (.ofEquation sliced) rfl reduced

open Classical in
/-- The level, but for problems with a half-space that is not constructed, which it refuses. -/
noncomputable def onConstructed (refusal : SolverError) (level : SolverOf σ α n) : SolverOf σ α n :=
  fun halfSpaces direction =>
    if ∀ h ∈ halfSpaces, h.Constructed then level halfSpaces direction else throw refusal

theorem onConstructed_eq (refusal : SolverError) (level : SolverOf σ α n) {halfSpaces : List (HalfSpace α n)}
    (given : ∀ h ∈ halfSpaces, h.Constructed) (direction : Vec α n) :
    onConstructed refusal level halfSpaces direction = level halfSpaces direction := if_pos given

variable [PickSource σ]

/-- The run in R^(n+1), with the refusal at every level. -/
noncomputable def solveConstructed (refusal : SolverError) (tol : Tolerance α) :
    (n : Nat) → SolverOf σ α (n + 1)
  | 0 => onConstructed refusal (solve tol 0)
  | n + 1 => onConstructed refusal fun halfSpaces direction =>
    if direction.isFinite then solveAbove (solveConstructed refusal tol n) tol halfSpaces direction
    else throw .nonFiniteDirection

/-- No level of a run comes upon a half-space that is not constructed. The induction is on the dimension. -/
theorem solveConstructed_eq (refusal : SolverError) (n : Nat) {halfSpaces : List (HalfSpace α (n + 1))}
    (given : ∀ h ∈ halfSpaces, h.Constructed) (direction : Vec α (n + 1)) :
    (solveConstructed refusal tol n halfSpaces direction : Run σ _) = solve tol n halfSpaces direction := by
  induction n with
  | zero => exact onConstructed_eq refusal _ given direction
  | succ n ih =>
    have below : AgreeOn HalfSpace.Constructed (solveConstructed refusal tol n : SolverOf σ α (n + 1))
        (solve tol n) := fun _ direction _ given => ih given direction
    refine (onConstructed_eq refusal _ given direction).trans ?_
    rw [solveAbove_congr below (passes_constructed direction) given]
    rfl

end Level

/-! ## Common points -/

namespace Plane

variable {α : Type} [Scalar α]

open Classical in
/-- The common point of exactly `n` planes, but none as soon as a plane that is not constructed turns up. -/
noncomputable def meetConstructed (tol : Tolerance α) : {n : Nat} → List (Plane α n) → Option (Point α n)
  | 0, _ => none
  | 0 + 1, planes => if ∀ plane ∈ planes, plane.Constructed then meet tol planes else none
  | _ + 2, [] => none
  | n + 2, first :: rest =>
    if (∀ plane ∈ first :: rest, plane.Constructed) ∧ rest.length = n + 1 then do
      let frame := Frame.on first
      let reduced ← rest.mapM fun plane => plane.reduce frame tol
      let q ← meetConstructed tol reduced
      return frame.lift q
    else none

theorem meetConstructed_eq (tol : Tolerance α) {n : Nat} {planes : List (Plane α n)}
    (given : ∀ plane ∈ planes, plane.Constructed) : meetConstructed tol planes = meet tol planes := by
  match n, planes with
  | 0, _ => rw [meetConstructed, meet]
  | 1, planes => exact if_pos given
  | _ + 2, [] => rw [meetConstructed, meet]
  | n + 2, first :: rest =>
    rw [meetConstructed, meet]
    by_cases count : rest.length = n + 1
    · rw [if_pos ⟨given, count⟩, if_pos count]
      dsimp only [Option.bind_eq_bind]
      refine Option.bind_congr fun reduced charted => ?_
      -- Every one of the reduced planes is the trace of a given one.
      have traces : ∀ r ∈ reduced, r.Constructed := by
        intro r hr
        obtain ⟨plane, other, trace⟩ := exists_of_mem_mapM charted hr
        exact .reduce (given plane (List.mem_cons_of_mem _ other)) (given first List.mem_cons_self) rfl trace
      rw [meetConstructed_eq tol traces]
    · rw [if_neg fun both => count both.2, if_neg count]

end Plane

/-! ## Nothing else in exact arithmetic -/

/-- **Every plane is canonical and every frame divides by a component that is not small.** This holds of whatever is
constructed in any number of steps, and nothing else turns up at any level of a run on constructed half-spaces, nor
at any depth of a search for the common point of constructed planes. -/
theorem Level.constructed_throughout {σ α : Type} [PickSource σ] [ExactScalar α] :
    (∀ {n : Nat} (plane : Plane α n), plane.Constructed → plane.Canonical) ∧
    (∀ {n : Nat} (h : HalfSpace α n), h.Constructed → h.boundary.Canonical) ∧
    (∀ {n : Nat} (frame : Frame α n), frame.Constructed → frame.WellPivoted) ∧
    (∀ (tol : Tolerance α) (n : Nat) (halfSpaces : List (HalfSpace α (n + 1))) (direction : Vec α (n + 1)),
      (∀ h ∈ halfSpaces, h.Constructed) → ∀ refusal : SolverError,
        (solveConstructed refusal tol n halfSpaces direction : Run σ _) = solve tol n halfSpaces direction) ∧
    ∀ (tol : Tolerance α) {n : Nat} (planes : List (Plane α n)), (∀ plane ∈ planes, plane.Constructed) →
      Plane.meetConstructed tol planes = Plane.meet tol planes :=
  ⟨fun _ constructed => constructed.normalised.canonical, fun _ constructed => constructed.normalised.canonical,
    fun _ constructed => constructed.built.wellPivoted,
    fun _ n _ direction given refusal => solveConstructed_eq refusal n given direction,
    fun tol _ _ given => Plane.meetConstructed_eq tol given⟩

theorem Level.constructed_throughout_tilted :
    (HalfSpace.mk tiltedPlane).recession.Constructed ∧ (HalfSpace.mk tiltedPlane).recession.boundary.Canonical ∧
    tiltedPlane.Constructed ∧ tiltedPlane.Canonical ∧
    (Frame.on tiltedPlane).Constructed ∧ (Frame.on tiltedPlane).WellPivoted ∧
    (∀ h ∈ quadrant, h.Constructed) ∧
    ((solveConstructed .emptyConstraintSet Tolerance.exact 1 quadrant ⟨#v[1, 0]⟩ : Run ListedWords _) =
      solve Tolerance.exact 1 quadrant ⟨#v[1, 0]⟩) ∧
    Plane.meetConstructed Tolerance.exact (quadrant.map HalfSpace.boundary) =
      Plane.meet Tolerance.exact (quadrant.map HalfSpace.boundary) := by
  have fromInequality : ∀ {n : Nat} {h : HalfSpace ℝ n}, h.Normalised → h.Constructed :=
    fun normalised => .ofInequality (HalfSpace.ofInequality_of_normalised normalised)
  have tilted : (HalfSpace.mk tiltedPlane).Constructed := fromInequality tiltedPlane_normalised
  have framed : (Frame.on tiltedPlane).Constructed := ⟨.boundary tilted, rfl⟩
  have given : ∀ h ∈ quadrant, h.Constructed := fun h hh => fromInequality (quadrant_normalised h hh)
  have boundaries : ∀ plane ∈ quadrant.map HalfSpace.boundary, plane.Constructed := by
    intro plane hp
    obtain ⟨h, hh, rfl⟩ := List.mem_map.mp hp
    exact .boundary (given h hh)
  obtain ⟨planes, halfSpaces, frames, runs, meets⟩ := constructed_throughout (σ := ListedWords) (α := ℝ)
  exact ⟨.recession tilted, halfSpaces _ (.recession tilted), .boundary tilted, planes _ (.boundary tilted), framed,
    frames _ framed, given, runs _ 1 _ _ given _, meets _ _ boundaries⟩

end LowDimLP
