import LowDimLP.Proofs.LinearProgram
import LowDimLP.Proofs.Run
import LowDimLP.Proofs.Solver.Branches
/-!
# How a run can fail

Over any scalars a run ends with a solution or fails, and it fails in two ways only: the slice of a
recession test has no unit normal, or a reduced direction is not finite. That the list of half-spaces is
never empty, at any level, is part of the induction (`solve_finishes`): a level asks the one below only
when the chart has a bound. What counts as an allowed failure is a parameter, so the same induction says that
over any scalars nothing else goes wrong, and in exact arithmetic nothing at all.
-/

namespace LowDimLP

universe u

/-- The two errors that come from the values of a well-formed problem. -/
def SolverError.FromValues (e : SolverError) : Prop :=
  e = .geometry .degenerateNormal ∨ e = .nonFiniteDirection

namespace Run

variable {σ β γ : Type}

/-- From every source the computation gives a value with the property `P`, or fails with an error in `E`. -/
def Finishes (E : SolverError → Prop) (x : Run σ β) (P : β → Prop) : Prop :=
  ∀ source, (∃ value rest, x source = (.ok value, rest) ∧ P value) ∨
    ∃ e rest, x source = (.error e, rest) ∧ E e

namespace Finishes

variable {E : SolverError → Prop}

theorem pure' {value : β} {P : β → Prop} (h : P value) : Finishes E (pure value : Run σ β) P :=
  fun source => .inl ⟨value, source, rfl, h⟩

theorem throw' {e : SolverError} {P : β → Prop} (h : E e) : Finishes E (throw e : Run σ β) P :=
  fun source => .inr ⟨e, source, rfl, h⟩

theorem bind' {x : Run σ β} {f : β → Run σ γ} {P : β → Prop} {Q : γ → Prop}
    (hx : Finishes E x P) (hf : ∀ value, P value → Finishes E (f value) Q) :
    Finishes E (x >>= f) Q := by
  intro source
  rcases hx source with ⟨value, middle, first, hvalue⟩ | ⟨e, rest, failed, allowed⟩
  · rw [bind_eq_of_ok first]
    exact hf value hvalue middle
  · exact .inr ⟨e, rest, bind_eq_of_error failed, allowed⟩

theorem mono {x : Run σ β} {P Q : β → Prop} (hx : Finishes E x P) (h : ∀ value, P value → Q value) :
    Finishes E x Q := by
  intro source
  rcases hx source with ⟨value, rest, run, hvalue⟩ | failed
  · exact .inl ⟨value, rest, run, h value hvalue⟩
  · exact .inr failed

theorem ite' {c : Prop} [Decidable c] {x y : Run σ β} {P : β → Prop}
    (hx : c → Finishes E x P) (hy : ¬c → Finishes E y P) : Finishes E (if c then x else y) P := by
  by_cases h : c
  · rw [if_pos h]; exact hx h
  · rw [if_neg h]; exact hy h

theorem pick' [PickSource σ] (n : Nat) : Finishes E (pick n : Run σ (Fin (n + 1))) fun _ => True :=
  fun source => .inl ⟨_, _, pick_eq n source, trivial⟩

/-- Where no failure is allowed there is none. -/
theorem ensures {x : Run σ β} {P : β → Prop} (hx : Finishes (fun _ => False) x P) : x.Ensures P := by
  intro source
  rcases hx source with finished | ⟨e, rest, failed, impossible⟩
  · exact finished
  · exact impossible.elim

end Finishes

end Run

/-- The only complaint about an equation is a normal that cannot be made a unit. -/
theorem Plane.eq_degenerateNormal_of_ofEquation {α : Type u} [Scalar α] {n : Nat} {normal : Vec α n}
    {offset : α} {e : GeometryError} (failed : ofEquation normal offset = .error e) :
    e = .degenerateNormal := by
  rw [ofEquation] at failed
  split at failed
  · cases failed
    rfl
  · cases failed

namespace Level

variable {σ α : Type} [Scalar α] {n : Nat} {E : SolverError → Prop} {tol : Tolerance α}

/-- The failures that the values of a run can cause are allowed. -/
structure AllowsValues (E : SolverError → Prop) (tol : Tolerance α) : Prop where
  slice : ∀ {n : Nat} (direction : Vec α n) (e : GeometryError), direction.isZero tol.det = false →
    Plane.ofEquation direction (-direction.length) = .error e → E (.geometry e)
  direction : ∀ {n : Nat} (direction : Vec α n), direction.isFinite = false → E .nonFiniteDirection

/-- A level that finishes on every problem with a half-space. -/
def Finishing (E : SolverError → Prop) (below : SolverOf σ α n) : Prop :=
  ∀ halfSpaces direction, halfSpaces ≠ [] → (below halfSpaces direction).Finishes E fun _ => True

section Above

variable {below : SolverOf σ α n} {direction : Vec α (n + 1)} (finishing : Finishing E below)

include finishing

omit [Scalar α] in
theorem askBelow_finishes {β : Type} (c : Vec α n) (missed unbounded : β) (reading : Solution α n → β)
    (traces : Option (List (HalfSpace α n))) :
    (askBelow below c missed unbounded reading traces).Finishes E fun _ => True := by
  match traces with
  | none => exact Run.Finishes.pure' trivial
  | some [] => exact Run.Finishes.pure' trivial
  | some (r :: rs) =>
    exact Run.Finishes.bind' (finishing (r :: rs) c (by simp)) fun _ _ => Run.Finishes.pure' trivial

theorem descend_finishes (accepted : List (HalfSpace α (n + 1))) (h : HalfSpace α (n + 1))
    (bounded : Bool) :
    (descend below tol direction accepted h bounded).Finishes E fun _ => True := by
  rw [descend_eq]
  exact askBelow_finishes finishing _ _ _ _ _

theorem objectiveBounded_finishes (allows : AllowsValues E tol)
    (halfSpaces : List (HalfSpace α (n + 1))) :
    (objectiveBounded below tol direction halfSpaces).Finishes E fun _ => True := by
  rw [objectiveBounded_eq]
  refine Run.Finishes.ite' (fun _ => Run.Finishes.pure' trivial) fun zero => ?_
  split
  · next e failed => exact Run.Finishes.throw' (allows.slice direction e (by simpa using zero) failed)
  · exact askBelow_finishes finishing _ _ _ _ _

theorem keepOrDescend_finishes (accepted : List (HalfSpace α (n + 1))) (h : HalfSpace α (n + 1))
    (p : Point α (n + 1)) (bounded : Bool) :
    (keepOrDescend below tol direction accepted h p bounded).Finishes E fun _ => True :=
  Run.Finishes.ite' (fun _ => Run.Finishes.pure' trivial)
    fun _ => descend_finishes finishing accepted h bounded

theorem insertUnsettled_finishes (allows : AllowsValues E tol) (accepted : List (HalfSpace α (n + 1)))
    (p : Point α (n + 1)) (h : HalfSpace α (n + 1)) :
    (insertUnsettled below tol direction accepted p h).Finishes E fun _ => True := by
  have tested : ∀ halfSpaces, (objectiveBounded below tol direction halfSpaces).Finishes E
      fun _ => True := objectiveBounded_finishes finishing allows
  rw [insertUnsettled_eq]
  refine Run.Finishes.bind' (P := fun _ => True) ?_ fun settled _ => ?_
  · exact Run.Finishes.ite' (fun _ => tested accepted) fun _ => Run.Finishes.pure' trivial
  · refine Run.Finishes.ite' (fun _ => keepOrDescend_finishes finishing accepted h p true) fun _ => ?_
    refine Run.Finishes.bind' (tested (accepted ++ [h])) fun bounded _ => ?_
    exact Run.Finishes.ite' (fun _ => descend_finishes finishing accepted h true)
      fun _ => keepOrDescend_finishes finishing accepted h p false

theorem insert_finishes (allows : AllowsValues E tol) (accepted : List (HalfSpace α (n + 1)))
    (state : Option (Solution α (n + 1))) (h : HalfSpace α (n + 1)) :
    (insert below tol direction accepted state h).Finishes E fun _ => True := by
  cases state with
  | none => exact Run.Finishes.pure' trivial
  | some solution =>
    cases solution with
    | minimum p => exact keepOrDescend_finishes finishing accepted h p true
    | ambiguous p => exact insertUnsettled_finishes finishing allows accepted p h
    | infeasible => exact Run.Finishes.pure' trivial

end Above

section Loop

variable [PickSource σ]

/-- The loop ends without a state only if it had none and nothing to insert. -/
theorem insertAll_finishes {ι β : Type} {step : List ι → Option β → ι → Run σ β} {stops : β → Bool}
    (finishes : ∀ accepted state x, (step accepted state x).Finishes E fun _ => True) {left : Nat}
    (pending : Vector ι left) (accepted : List ι) (state : Option β) :
    (insertAll step stops pending accepted state).Finishes E
      fun answer => answer.2 = none → left = 0 ∧ state = none := by
  induction left generalizing accepted state with
  | zero => exact Run.Finishes.pure' fun nothing => ⟨rfl, nothing⟩
  | succ left ih =>
    refine Run.Finishes.bind' (Run.Finishes.pick' left) fun i _ => ?_
    refine Run.Finishes.bind' (finishes accepted state (Insertion.takeOut pending i).1) fun next _ => ?_
    refine Run.Finishes.ite' (fun _ => Run.Finishes.pure' (by simp)) fun _ => ?_
    exact (ih _ _ (some next)).mono fun answer later nothing => by simp at later; exact absurd nothing later

theorem solveLine_finishes (tol : Tolerance α) : Finishing E (solveLine tol : SolverOf σ α 1) := by
  intro halfSpaces direction nonempty
  refine Run.Finishes.bind' (insertAll_finishes (fun _ _ _ => Run.Finishes.pure' trivial) _ _ _) ?_
  intro ⟨accepted, last⟩ ends
  cases last with
  | none => exact absurd (List.length_eq_zero_iff.mp (ends rfl).1) nonempty
  | some last => exact Run.Finishes.pure' trivial

theorem solveAbove_finishes {below : SolverOf σ α n} (finishing : Finishing E below)
    (allows : AllowsValues E tol) : Finishing E (solveAbove below tol) := by
  intro halfSpaces direction nonempty
  refine Run.Finishes.bind' (insertAll_finishes (insert_finishes finishing allows) _ _ _) ?_
  intro ⟨accepted, last⟩ ends
  cases last with
  | none => exact absurd (List.length_eq_zero_iff.mp (ends rfl).1) nonempty
  | some last => exact Run.Finishes.pure' trivial

theorem solve_finishes (allows : AllowsValues E tol) (n : Nat) :
    Finishing E (solve tol n : SolverOf σ α (n + 1)) := by
  induction n with
  | zero =>
    intro halfSpaces direction nonempty
    refine Run.Finishes.ite' (fun _ => solveLine_finishes tol halfSpaces direction nonempty) ?_
    exact fun broken => Run.Finishes.throw' (allows.direction direction (by simpa using broken))
  | succ n ih =>
    intro halfSpaces direction nonempty
    refine Run.Finishes.ite' (fun _ => solveAbove_finishes ih allows halfSpaces direction nonempty) ?_
    exact fun broken => Run.Finishes.throw' (allows.direction direction (by simpa using broken))

end Loop

theorem allowsValues_fromValues (tol : Tolerance α) : AllowsValues SolverError.FromValues tol where
  slice _ _ _ failed := .inl (congrArg _ (Plane.eq_degenerateNormal_of_ofEquation failed))
  direction _ _ := .inr rfl

/-- In exact arithmetic a direction that is not taken for zero has a slice, and every direction is
finite. -/
theorem allowsValues_exact {α : Type} [ExactScalar α] {tol : Tolerance α} (det : 0 ≤ tol.det) :
    AllowsValues (fun _ => False) tol where
  slice direction e long failed := by
    have nonzero : direction ≠ Vec.zero := by
      intro zero
      have short : direction.length ≤ tol.det := (Vec.length_le_zero.mpr zero).trans det
      rw [Vec.isZero, decide_eq_true short] at long
      cases long
    rw [Plane.ofEquation_eq_ok nonzero] at failed
    cases failed
  direction direction broken := by simp at broken

end Level

end LowDimLP
