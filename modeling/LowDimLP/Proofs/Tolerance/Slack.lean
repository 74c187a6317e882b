import Mathlib.Data.Nat.Factorial.Basic
import LowDimLP.Proofs.Geometry.Stretch
import LowDimLP.Proofs.Solver.Failure
import LowDimLP.Proofs.Solver.Vertices
import LowDimLP.Proofs.Tolerance.Line
/-!
# How far a reported point is from feasible

A half-space that arrives while a candidate stands is tested against the candidate itself, with the slack
of the tolerances. For the others the distance is inherited from the level below, where it is measured in
the chart, so each descent may stretch it by the chart's factor. On the line it is the slack; in R^n it is
at most `√(n!)` times the slack, from every source and for every order (`Level.solve_within`). No threshold
for parallel normals is used here: a half-space is dropped from a chart only where its distance is constant.
-/

namespace LowDimLP

variable {σ α : Type} [ExactScalar α] {n : Nat} {tol : Tolerance α} {slack wider : α}

namespace Frame

variable {frame : Frame α n} {hs : List (HalfSpace α (n + 1))}

/-- What the traces of a list promise under slacks: a chart point within `slack` of them is, lifted, within
`wider` of the list. -/
structure TracesWithin (frame : Frame α n) (slack wider : α) (hs : List (HalfSpace α (n + 1)))
    (reduced : List (HalfSpace α n)) : Prop where
  normalised : ∀ r ∈ reduced, r.Normalised
  within_lift : ∀ y, (∀ r ∈ reduced, r.containsWithin y slack = true) →
    ∀ h ∈ hs, h.containsWithin (frame.lift y) wider = true

theorem traces_within (steep : frame.Steep) (unit : frame.plane.Normalised) (pivot : frame.pivot ≠ 0)
    (det : tol.det = 0) (nonneg : 0 ≤ slack) (wide : Scalar.sqrt ((n + 1 : Nat) : α) * slack ≤ wider)
    (feas : tol.feas ≤ wider) (normalised : ∀ h ∈ hs, h.Normalised) {reduced : List (HalfSpace α n)}
    (some : frame.traces tol hs = some reduced) : TracesWithin frame slack wider hs reduced := by
  induction hs generalizing reduced with
  | nil =>
    cases some
    exact ⟨by simp, by simp⟩
  | cons h hs ih =>
    obtain ⟨first, others⟩ := List.forall_mem_cons.mp normalised
    have describes := h.reduce_spec unit pivot det
    rw [traces] at some
    cases trace : h.reduce frame tol with
    | bound r =>
      rw [trace] at some describes
      obtain ⟨rest, tail, rfl⟩ := Option.map_eq_some_iff.mp some
      have tail := ih others tail
      have reduced := HalfSpace.boundary_reduce_of_bound trace
      refine ⟨List.forall_mem_cons.mpr ⟨describes.2.1, tail.normalised⟩, fun y within => ?_⟩
      obtain ⟨of_first, of_rest⟩ := List.forall_mem_cons.mp within
      refine List.forall_mem_cons.mpr ⟨?_, tail.within_lift y of_rest⟩
      exact HalfSpace.containsWithin_mono wide
        (HalfSpace.containsWithin_lift steep pivot first nonneg reduced of_first)
    | free =>
      rw [trace] at some describes
      have tail := ih others some
      refine ⟨tail.normalised, fun y within => ?_⟩
      exact List.forall_mem_cons.mpr
        ⟨HalfSpace.containsWithin_mono feas (describes.2 y), tail.within_lift y within⟩
    | empty =>
      rw [trace] at some
      cases some

end Frame

/-- A level whose reported points lie within the slack of every half-space. -/
def SolverOf.Within (slack : α) (level : SolverOf σ α n) : Prop :=
  ∀ halfSpaces direction, halfSpaces ≠ [] → (∀ h ∈ halfSpaces, h.Normalised) →
    (level halfSpaces direction).Ensures (Solution.Within slack halfSpaces)

namespace Level

section Insertion

variable {below : SolverOf σ α n} {direction : Vec α (n + 1)} {accepted : List (HalfSpace α (n + 1))}
  {h : HalfSpace α (n + 1)} {p : Point α (n + 1)}

theorem within_tagged {halfSpaces : List (HalfSpace α n)} {found : Option (Point α n)} (bounded : Bool)
    (within : ∀ p, found = some p → ∀ h ∈ halfSpaces, h.containsWithin p slack = true) :
    (tagged bounded found).Within slack halfSpaces := by
  intro p reported
  cases found with
  | none => cases reported
  | some q => cases bounded <;> exact within p reported

/-- The slacks of a level and the one below it. -/
structure Widens (tol : Tolerance α) (n : Nat) (slack wider : α) : Prop where
  det : tol.det = 0
  nonneg : 0 ≤ slack
  stretch : Scalar.sqrt ((n + 1 : Nat) : α) * slack ≤ wider
  feas : tol.feas ≤ wider
  feas_nonneg : 0 ≤ tol.feas

variable (widens : Widens tol n slack wider) (hbelow : SolverOf.Within slack below)

include widens hbelow

/-- A point found on the boundary of `h` lies on it, and within the wider slack of the others. -/
theorem descend_within (normalised : ∀ g ∈ accepted, g.Normalised) (unit : h.Normalised)
    (bounded : Bool) :
    (descend below tol direction accepted h bounded).Ensures
      (Solution.Within wider (accepted ++ [h])) := by
  have pivot := Frame.pivot_on_ne_zero unit.normal_ne_zero
  have plane : (Frame.on h.boundary).plane.Normalised := unit
  have traced : ∀ reduced, (Frame.on h.boundary).traces tol accepted = some reduced →
      (Frame.on h.boundary).TracesWithin slack wider accepted reduced :=
    fun reduced => Frame.traces_within (Frame.on_steep _) plane pivot widens.det widens.nonneg
      widens.stretch widens.feas normalised
  have lifted : ∀ reduced y, (Frame.on h.boundary).traces tol accepted = some reduced →
      (∀ r ∈ reduced, r.containsWithin y slack = true) →
      ∀ g ∈ accepted ++ [h], g.containsWithin ((Frame.on h.boundary).lift y) wider = true := by
    intro reduced y some within g hg
    rcases List.mem_append.mp hg with old | new
    · exact (traced reduced some).within_lift y within g old
    · rw [List.mem_singleton.mp new]
      exact HalfSpace.containsWithin_of_holds (widens.feas_nonneg.trans widens.feas)
        (HalfSpace.holds_of_boundary (Frame.plane_eval_lift pivot y))
  rw [descend_eq]
  refine askBelow_ensures (fun _ => Solution.within_infeasible _ _) (fun unbounded => ?_) ?_
  · apply within_tagged
    intro p same
    cases same
    obtain ⟨q, at_q⟩ := Frame.exists_lift_eq pivot plane.holds_point
    have within := lifted [] q unbounded (by simp)
    rwa [at_q] at within
  · intro reduced some nonempty
    refine (hbelow reduced _ nonempty (traced reduced some).normalised).mono fun solution within => ?_
    apply within_tagged
    intro p same
    obtain ⟨q, reported, rfl⟩ := Option.map_eq_some_iff.mp same
    exact lifted reduced q some (within q reported)

theorem keepOrDescend_within (normalised : ∀ g ∈ accepted, g.Normalised) (unit : h.Normalised)
    (within : ∀ g ∈ accepted, g.containsWithin p wider = true) (bounded : Bool) :
    (keepOrDescend below tol direction accepted h p bounded).Ensures
      (Solution.Within wider (accepted ++ [h])) := by
  refine Run.Ensures.ite' (fun kept => Run.Ensures.pure' ?_)
    fun _ => descend_within widens hbelow normalised unit bounded
  apply within_tagged
  intro q same
  cases same
  intro g hg
  rcases List.mem_append.mp hg with old | new
  · exact within g old
  · rw [List.mem_singleton.mp new]
    exact HalfSpace.containsWithin_mono widens.feas kept

variable (finishing : Finishing (fun _ => False) below)

include finishing

theorem insertUnsettled_within (normalised : ∀ g ∈ accepted, g.Normalised) (unit : h.Normalised)
    (within : ∀ g ∈ accepted, g.containsWithin p wider = true) :
    (insertUnsettled below tol direction accepted p h).Ensures
      (Solution.Within wider (accepted ++ [h])) := by
  -- Whatever the tests of the objective say, each branch keeps the point or goes to the boundary.
  have tested : ∀ halfSpaces, (objectiveBounded below tol direction halfSpaces).Ensures fun _ => True :=
    fun halfSpaces =>
      (objectiveBounded_finishes finishing (allowsValues_exact widens.det.ge) halfSpaces).ensures
  rw [insertUnsettled_eq]
  refine Run.Ensures.bind' (P := fun _ => True) ?_ fun settled _ => ?_
  · exact Run.Ensures.ite' (fun _ => tested accepted) fun _ => Run.Ensures.pure' trivial
  · refine Run.Ensures.ite'
      (fun _ => keepOrDescend_within widens hbelow normalised unit within true) fun _ => ?_
    refine Run.Ensures.bind' (tested _) fun bounded _ => ?_
    exact Run.Ensures.ite' (fun _ => descend_within widens hbelow normalised unit true)
      fun _ => keepOrDescend_within widens hbelow normalised unit within false

end Insertion

/-- What a run keeps of its state: a candidate lies within the slack of everything accepted. -/
def Near (slack : α) (accepted : List (HalfSpace α n)) : Option (Solution α n) → Prop
  | none => accepted = []
  | some solution => (∀ h ∈ accepted, h.Normalised) ∧ solution.Within slack accepted

section Run

variable {below : SolverOf σ α (n + 1)} {direction : Vec α (n + 2)} {halfSpaces : List (HalfSpace α (n + 2))}
  (widens : Widens tol (n + 1) slack wider) (hbelow : SolverOf.Within slack below)
  (finishing : Finishing (fun _ => False) below)

include widens hbelow finishing

theorem insert_within {accepted : List (HalfSpace α (n + 2))} {state : Option (Solution α (n + 2))}
    {h : HalfSpace α (n + 2)} (near : Near wider accepted state) (unit : h.Normalised) :
    (insert below tol direction accepted state h).Ensures
      fun next => Near wider (accepted ++ [h]) (some next) := by
  cases state with
  | none =>
    obtain rfl : accepted = [] := near
    refine Run.Ensures.pure' ⟨by simpa using unit, ?_⟩
    intro p reported g hg
    cases reported
    obtain rfl := List.mem_singleton.mp hg
    exact HalfSpace.containsWithin_of_holds (widens.feas_nonneg.trans widens.feas)
      (HalfSpace.holds_of_boundary unit.holds_point)
  | some solution =>
    obtain ⟨normalised, within⟩ := near
    have units : ∀ g ∈ accepted ++ [h], g.Normalised :=
      List.forall_mem_append.mpr ⟨normalised, by simpa using unit⟩
    have next : ∀ {x : Run σ (Solution α (n + 2))}, x.Ensures (Solution.Within wider (accepted ++ [h])) →
        x.Ensures fun next => Near wider (accepted ++ [h]) (some next) :=
      fun ensures => ensures.mono fun _ within => ⟨units, within⟩
    cases solution with
    | minimum p => exact next (keepOrDescend_within widens hbelow normalised unit (within p rfl) true)
    | ambiguous p =>
      exact next (insertUnsettled_within widens hbelow finishing normalised unit (within p rfl))
    | infeasible => exact next (Run.Ensures.pure' (Solution.within_infeasible _ _))

theorem solveAbove_within [PickSource σ] (nonempty : halfSpaces ≠ [])
    (normalised : ∀ h ∈ halfSpaces, h.Normalised) :
    (solveAbove below tol halfSpaces direction).Ensures (Solution.Within wider halfSpaces) := by
  have preserves : Insertion.Preserves (insert below tol direction) Solution.isInfeasible
      (pending halfSpaces).toList (Near wider) :=
    fun _ _ h near _ hh => insert_within widens hbelow finishing near (normalised h hh)
  refine Run.Ensures.bind' (Insertion.insertAll_ensures preserves rfl (fun _ near => near) nonempty) ?_
  intro ⟨accepted, state⟩ ⟨last, ended, ⟨_, within⟩, items, all⟩
  obtain rfl : state = _ := ended
  refine Run.Ensures.pure' ?_
  rcases all with perm | stopped
  · refine Solution.Within.of_subset ?_ perm.symm.subset
    cases last with
    | ambiguous p =>
      rw [settle]
      split
      · next v best =>
        -- A vertex is tested against every half-space before it replaces the point.
        intro q reported h hh
        cases reported
        exact HalfSpace.containsWithin_mono widens.feas
          ((mem_vertices.mp (bestVertex?_spec best).1).2 h hh)
      · exact within
    | minimum p => exact within
    | infeasible => exact within
  · rw [Solution.isInfeasible_iff.mp stopped]
    exact Solution.within_infeasible _ _

end Run

/-- From the line up, each dimension multiplies the slack by the square root of its number. -/
theorem widens_factorial (det : tol.det = 0) (feas : 0 ≤ tol.feas) (n : Nat) :
    Widens tol (n + 1) (Scalar.sqrt ((n + 1).factorial : α) * tol.feas)
      (Scalar.sqrt ((n + 2).factorial : α) * tol.feas) where
  det := det
  nonneg := mul_nonneg (ExactScalar.sqrt_nonneg _) feas
  stretch := by
    rw [← mul_assoc, ← Scalar.sqrt_mul (Nat.cast_nonneg _) (Nat.cast_nonneg _), ← Nat.cast_mul]
    rfl
  feas := by
    refine le_mul_of_one_le_left feas (Scalar.one_le_sqrt ?_)
    exact Nat.one_le_cast.mpr (Nat.factorial_pos _)
  feas_nonneg := feas

/-- A reported point lies within `√(n!)` slacks, by induction on the dimension. -/
theorem solve_within [PickSource σ] (det : tol.det = 0) (feas : 0 ≤ tol.feas) (n : Nat) :
    SolverOf.Within (Scalar.sqrt ((n + 1).factorial : α) * tol.feas)
      (solve tol n : SolverOf σ α (n + 1)) := by
  induction n with
  | zero =>
    intro halfSpaces direction nonempty normalised
    have one : Scalar.sqrt ((0 + 1).factorial : α) = 1 := by
      simpa using Scalar.sqrt_mul_self_eq (zero_le_one : (0 : α) ≤ 1)
    rw [one, one_mul, solve, if_pos direction.isFinite_eq_true]
    exact (solveLine_answersLine nonempty normalised feas).mono fun _ answers => answers.within
  | succ n ih =>
    intro halfSpaces direction nonempty normalised
    rw [solve, if_pos direction.isFinite_eq_true]
    exact solveAbove_within (widens_factorial det feas n) ih
      (solve_finishes (allowsValues_exact det.ge) n) nonempty normalised

end Level

end LowDimLP
