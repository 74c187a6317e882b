import LowDimLP.Proofs.Solver.Correctness
import LowDimLP.Proofs.Tolerance.Planar
import LowDimLP.Proofs.Tolerance.Steady
/-!
# Verdicts under tolerances

Without tolerances the kind of an answer is judged by the problem alone (`Level.solve_kind`), so neither the
order of the half-spaces nor the picks matter. A run is steady, so this stands for every problem under all
tolerances that are small enough for it: a feasible problem is not rejected (`solve_accepts_feasible`), a
reported point is feasible within the slack (`solve_reports_near_feasible`), and all orders and sources
agree on the kind (`solve_kind_of_perm`). On the line any tolerances are small enough. Above the line no
tolerance is small enough for all problems: a wedge whose sides are apart by the slack is rejected or not,
depending on the order (`narrowWedge`), and a point may be reported beyond the slack: by the factor of a chart
(`wideFan`), or by far where a boundary is taken for parallel (`tiltedFloor`).
-/

namespace LowDimLP

variable {σ α : Type} [ExactScalar α] {n : Nat}

/-! ## The kind of an answer -/

/-- The objective stays unsettled on a lone half-space, and where it descends and there is no vertex. -/
def Unsettled (halfSpaces : List (HalfSpace α n)) (direction : Vec α n) : Prop :=
  halfSpaces.length = 1 ∨ HasDescent halfSpaces direction ∧ ∀ v, ¬IsVertex halfSpaces v

theorem unsettled_perm {halfSpaces others : List (HalfSpace α n)} (perm : halfSpaces.Perm others)
    {direction : Vec α n} : Unsettled halfSpaces direction ↔ Unsettled others direction := by
  have vertices : (∀ v, ¬IsVertex halfSpaces v) ↔ ∀ v, ¬IsVertex others v :=
    forall_congr' fun v => not_congr ⟨fun vertex => vertex.perm perm, fun vertex => vertex.perm perm.symm⟩
  rw [Unsettled, Unsettled, perm.length_eq, hasDescent_perm perm, vertices]

/-- Nothing is feasible for either order, or something for both. -/
theorem empty_perm {halfSpaces others : List (HalfSpace α n)} (perm : halfSpaces.Perm others) :
    (∀ x, ¬Feasible halfSpaces x) ↔ ∀ x, ¬Feasible others x :=
  forall_congr' fun _ => not_congr (feasible_perm perm)

namespace Level

variable {tol : Tolerance α}

/-- The settled candidate has the kind that the accepted half-spaces judge. -/
theorem settle_kind (det : tol.det = 0) (feas : tol.feas = 0) {accepted : List (HalfSpace α (n + 2))}
    {direction : Vec α (n + 2)} {last : Solution α (n + 2)} (normalised : ∀ h ∈ accepted, h.Normalised)
    (candidate : Candidate direction accepted (some last)) :
    (settle tol direction accepted last).kind =
      .judged (∀ x, ¬Feasible accepted x) (Unsettled accepted direction) := by
  cases candidate with
  | @lone h unit =>
    have inside : Feasible [h] h.boundary.point := by
      simpa [Feasible] using HalfSpace.holds_of_boundary unit.holds_point
    rw [settle, bestVertex?_lone, ResultKind.judged_of_unsettled (fun none => none _ inside) (.inl rfl)]
    rfl
  | @unbounded _ p many feasible descent =>
    rcases settle_ambiguous det feas normalised direction p with
      ⟨v, settled, vertex, -⟩ | ⟨kept, none⟩
    · have settled' : ¬Unsettled accepted direction := by
        rintro (lone | ⟨-, none⟩)
        · omega
        · exact none v vertex
      rw [settled, ResultKind.judged_of_settled (fun none => none p feasible) settled']
      rfl
    · rw [kept, ResultKind.judged_of_unsettled (fun none => none p feasible) (.inr ⟨descent, none⟩)]
      rfl
  | @settled _ p many optimal =>
    have settled : ¬Unsettled accepted direction := by
      rintro (lone | ⟨descent, -⟩)
      · omega
      · exact optimal.not_hasDescent descent
    rw [settle, ResultKind.judged_of_settled (fun none => none p optimal.feasible) settled]
    · rfl
    · simp
  | empty none =>
    rw [settle, ResultKind.judged_of_empty none]
    · rfl
    · simp

/-- The kind of an answer without tolerances is judged by the problem, above the line. -/
theorem solve_kind [PickSource σ] (det : tol.det = 0) (feas : tol.feas = 0)
    {halfSpaces : List (HalfSpace α (n + 2))} (direction : Vec α (n + 2)) (nonempty : halfSpaces ≠ [])
    (normalised : ∀ h ∈ halfSpaces, h.Normalised) :
    (solve tol (n + 1) halfSpaces direction : Run σ _).Ensures fun solution =>
      solution.kind = .judged (∀ x, ¬Feasible halfSpaces x) (Unsettled halfSpaces direction) := by
  refine (solve_settles det feas direction nonempty normalised).mono ?_
  intro solution ⟨accepted, last, settled, candidate, items, all⟩
  subst settled
  have units : ∀ h ∈ accepted, h.Normalised := fun h hh => normalised h (items.subset hh)
  rcases all with perm | rfl
  · rw [settle_kind det feas units candidate,
      ResultKind.judged_congr (empty_perm perm) (unsettled_perm perm)]
  · cases candidate with
    | empty none =>
      have missed : ∀ x, ¬Feasible halfSpaces x := fun x hx => none x fun h hh => hx h (items.subset hh)
      rw [ResultKind.judged_of_empty missed]
      rfl

theorem solve_line_kind [PickSource σ] (feas : 0 ≤ tol.feas) {halfSpaces : List (HalfSpace α 1)}
    (direction : Vec α 1) (nonempty : halfSpaces ≠ []) (normalised : ∀ h ∈ halfSpaces, h.Normalised) :
    (solve tol 0 halfSpaces direction : Run σ _).Ensures (Solution.AnswersLine tol halfSpaces) := by
  rw [solve, if_pos direction.isFinite_eq_true]
  exact solveLine_answersLine nonempty normalised feas

/-- Any order of the half-spaces is judged alike. -/
theorem exists_kind_of_perm [PickSource σ] {halfSpaces : List (HalfSpace α (n + 1))}
    (direction : Vec α (n + 1)) (nonempty : halfSpaces ≠ [])
    (normalised : ∀ h ∈ halfSpaces, h.Normalised) :
    ∃ kind, ∀ others, halfSpaces.Perm others →
      (solve Tolerance.exact n others direction : Run σ _).Ensures fun solution => solution.kind = kind := by
  have units : ∀ {others}, halfSpaces.Perm others → ∀ h ∈ others, h.Normalised :=
    fun perm h hh => normalised h (perm.mem_iff.mpr hh)
  have some_item : ∀ {others}, halfSpaces.Perm others → others ≠ [] :=
    fun perm none => nonempty (List.perm_nil.mp (none ▸ perm))
  cases n with
  | zero =>
    refine ⟨.judged (Crosses 0 halfSpaces) (halfSpaces.length = 1), fun others perm => ?_⟩
    refine (solve_line_kind le_rfl direction (some_item perm) (units perm)).mono fun solution answers => ?_
    exact answers.kind_perm perm.symm
  | succ n =>
    refine ⟨.judged (∀ x, ¬Feasible halfSpaces x) (Unsettled halfSpaces direction), fun others perm => ?_⟩
    refine (solve_kind rfl rfl direction (some_item perm) (units perm)).mono fun solution kind => ?_
    rw [kind, ResultKind.judged_congr (empty_perm perm) (unsettled_perm perm)]

end Level

/-! ## Problems that the standard tolerances are too large for -/

section Standard

theorem Tolerance.standard_det : (standard : Tolerance α).det = 1 / 10 ^ 10 :=
  (ExactScalar.ofScientific_eq_cast 1 true 10).trans (by norm_num)

theorem Tolerance.standard_feas : (standard : Tolerance α).feas = 1 / 10 ^ 9 :=
  (ExactScalar.ofScientific_eq_cast 1 true 9).trans (by norm_num)

theorem Vec.isZero_zero {eps : α} (nonneg : 0 ≤ eps) : (Vec.zero : Vec α n).isZero eps = true :=
  decide_eq_true ((Vec.length_le_zero.mpr rfl).trans nonneg)

theorem Tolerance.standard_det_nonneg : 0 ≤ (standard : Tolerance α).det := by
  rw [standard_det]
  positivity

theorem Tolerance.standard_feas_nonneg : 0 ≤ (standard : Tolerance α).feas := by
  rw [standard_feas]
  positivity

/-- Whether a half-plane holds of another one's boundary point, under the standard slack. -/
theorem containsWithin_standard_iff {a b d c e f : α} :
    (halfPlane a b d).containsWithin (halfPlane c e f).boundary.point Tolerance.standard.feas = true ↔
      a * (c * f) + b * (e * f) ≤ d + 1 / 10 ^ 9 := by
  rw [containsWithin_halfPlane_iff, coord_halfPlane_point.1, coord_halfPlane_point.2,
    Tolerance.standard_feas]

/-- A base, and two sides that end just beyond its boundary point. -/
noncomputable def narrowWedge : List (HalfSpace ℝ 2) :=
  [halfPlane 0 (-1) 0, halfPlane (-3 / 5) (4 / 5) (-11 / 10 ^ 10), halfPlane (-7 / 25) (24 / 25) (-1 / 10 ^ 9)]

theorem narrowWedge_normalised : ∀ h ∈ narrowWedge, h.Normalised := by
  simp only [narrowWedge, List.forall_mem_cons]
  refine ⟨halfPlane_normalised ?_, halfPlane_normalised ?_, halfPlane_normalised ?_, by simp⟩ <;> norm_num

theorem mem_narrowWedge : Feasible narrowWedge ⟨#v[1, 0]⟩ := by
  simp [Feasible, narrowWedge, halfPlane, HalfSpace.Holds, Vec.eval_eq_sum le_rfl, Vec.coord, Point.coord,
    Coords.get]
  norm_num

/-- The base's boundary point is within the slack of the second side, but not of the first one, on whose
boundary the base leaves a lower bound that lies above the upper one of the second side by more than the
slack. -/
theorem solve_narrowWedge :
    ∃ rest, solve (narrowWedge.map (Sigma.mk 2)) ⟨2, Vec.zero⟩ Tolerance.standard (⟨[]⟩ : ListedWords) =
      (.ok ⟨2, .infeasible⟩, rest) := by
  have det := Tolerance.standard_det_nonneg (α := ℝ)
  have low : |(-3 / 5 : ℝ)| < |4 / 5| := by norm_num [abs_of_pos, abs_of_neg]
  obtain ⟨r, base, unit, below, start⟩ := reduce_halfPlane (a := (0 : ℝ)) (b := -1) (d := 0)
    (f := -11 / 10 ^ 10) low det (by rw [Tolerance.standard_det]; norm_num [abs_of_neg])
  obtain ⟨s, side, unit', above, stop⟩ := reduce_halfPlane (a := (-7 / 25 : ℝ)) (b := 24 / 25)
    (d := -1 / 10 ^ 9) (f := -11 / 10 ^ 10) low det
    (by rw [Tolerance.standard_det]; norm_num [abs_of_pos])
  have traces := Frame.traces_cons_bound base (Frame.traces_cons_bound side Frame.traces_nil)
  have crosses : Crosses (Tolerance.standard : Tolerance ℝ).feas [r, s] := by
    refine ⟨s, by simp, r, by simp, above.mpr (by norm_num), fun h => ?_, ?_⟩
    · have := below.mp h
      norm_num at this
    · rw [start, stop, Tolerance.standard_feas]
      norm_num
  obtain ⟨_, rest, moved, rfl⟩ := Level.descend_crosses (σ := ListedWords) Vec.zero
    Tolerance.standard_feas_nonneg traces (by simp [unit, unit']) crosses ⟨[]⟩
  refine ⟨rest, solve_eq_of_level (by simp [narrowWedge]) ?_⟩
  refine Level.solve_moved pick_noWords (Vec.isZero_zero det) ?_ rfl ?_ moved
  · rw [List.forall_mem_singleton, containsWithin_standard_iff]
    norm_num
  · rw [containsWithin_standard_iff]
    norm_num

/-- The same half-planes, the first side first. -/
noncomputable def turnedWedge : List (HalfSpace ℝ 2) :=
  [halfPlane (-3 / 5) (4 / 5) (-11 / 10 ^ 10), halfPlane 0 (-1) 0, halfPlane (-7 / 25) (24 / 25) (-1 / 10 ^ 9)]

/-- The first side's boundary point is within the slack of both others. -/
theorem solve_turnedWedge :
    ∃ p, solve (turnedWedge.map (Sigma.mk 2)) ⟨2, Vec.zero⟩ Tolerance.standard (⟨[]⟩ : ListedWords) =
      (.ok ⟨2, .minimum p⟩, ⟨[]⟩) := by
  have kept : ∀ h ∈ [halfPlane (-7 / 25) (24 / 25) (-1 / 10 ^ 9), halfPlane 0 (-1) 0],
      h.containsWithin (halfPlane (-3 / 5 : ℝ) (4 / 5) (-11 / 10 ^ 10)).boundary.point
        Tolerance.standard.feas = true := by
    refine List.forall_mem_cons.mpr ⟨?_, List.forall_mem_singleton.mpr ?_⟩ <;>
      rw [containsWithin_standard_iff] <;> norm_num
  exact ⟨_, solve_eq_of_level (by simp [turnedWedge])
    (Level.solve_kept pick_noWords (Vec.isZero_zero Tolerance.standard_det_nonneg) kept rfl)⟩

/-- A run that keeps the first boundary point up to the last half-plane ends, on the boundary of that one, at the
lower of the bounds that the others leave there. -/
theorem solve_moves_to (halfPlanes : List (HalfSpace ℝ 2)) {first second last : HalfSpace ℝ 2}
    {keeps : List (HalfSpace ℝ 2)} {r s : HalfSpace ℝ 1}
    (order : Insertion.firstOrder (Level.pending halfPlanes) = first :: second :: keeps ++ [last])
    (kept : ∀ h ∈ second :: keeps, h.containsWithin first.boundary.point Tolerance.standard.feas = true)
    (violated : ¬last.containsWithin first.boundary.point Tolerance.standard.feas = true)
    (traces : (Frame.on last.boundary).traces Tolerance.standard (first :: second :: keeps) = some [r, s])
    (meets : Meets Tolerance.standard.feas r s) :
    ∃ rest, solve (halfPlanes.map (Sigma.mk 2)) ⟨2, Vec.zero⟩ Tolerance.standard (⟨[]⟩ : ListedWords) =
      (.ok ⟨2, .minimum ((Frame.on last.boundary).lift ⟨#v[s.bound]⟩)⟩, rest) := by
  have det := Tolerance.standard_det_nonneg (α := ℝ)
  have nonempty : halfPlanes ≠ [] := by
    rintro rfl
    cases order
  obtain ⟨_, rest, moved, rfl⟩ := Level.descend_meets (σ := ListedWords) det traces meets ⟨[]⟩
  exact ⟨rest, solve_eq_of_level nonempty
    (Level.solve_moved pick_noWords (Vec.isZero_zero det) kept order violated moved)⟩

/-- Under the standard tolerances a run reports a point beyond the slack of a half-plane, on a problem with feasible
points. -/
structure ReportsBeyond (slack : ℝ) (halfPlanes : List (HalfSpace ℝ 2)) : Prop where
  nonempty : halfPlanes ≠ []
  normalised : ∀ h ∈ halfPlanes, h.Normalised
  feasible : ∃ x, Feasible halfPlanes x
  reported : ∃ p rest, solve (halfPlanes.map (Sigma.mk 2)) ⟨2, Vec.zero⟩ Tolerance.standard
      (⟨[]⟩ : ListedWords) = (.ok ⟨2, .minimum p⟩, rest) ∧
    ∃ h ∈ halfPlanes, h.containsWithin p slack = false

/-- Two half-planes that end just beyond the boundary point of a third one, and one more along the third. -/
noncomputable def wideFan : List (HalfSpace ℝ 2) :=
  [halfPlane (3 / 5) (-4 / 5) 0, halfPlane (3 / 5) (-4 / 5) (-14 / 10 ^ 10),
    halfPlane (-7 / 25) (-24 / 25) (-95 / 10 ^ 11), halfPlane (4 / 5) (3 / 5) (-95 / 10 ^ 11)]

theorem wideFan_normalised : ∀ h ∈ wideFan, h.Normalised := by
  simp only [wideFan, List.forall_mem_cons]
  refine ⟨halfPlane_normalised ?_, halfPlane_normalised ?_, halfPlane_normalised ?_,
    halfPlane_normalised ?_, by simp⟩ <;> norm_num

theorem mem_wideFan : Feasible wideFan ⟨#v[-10, 10]⟩ := by
  simp [Feasible, wideFan, halfPlane, HalfSpace.Holds, Vec.eval_eq_sum le_rfl, Vec.coord, Point.coord,
    Coords.get]
  norm_num

/-- The last inserted half-plane moves the point along its own boundary, where the two others leave bounds
that cross by less than the slack; lifted from the chart, the distance to one of them exceeds it. -/
theorem reportsBeyond_wideFan : ReportsBeyond Tolerance.standard.feas wideFan := by
  have det := Tolerance.standard_det_nonneg (α := ℝ)
  have low : |(3 / 5 : ℝ)| < |-4 / 5| := by norm_num [abs_of_pos, abs_of_neg]
  have along : (halfPlane (3 / 5) (-4 / 5) 0).reduce
      (Frame.on (halfPlane (3 / 5 : ℝ) (-4 / 5) (-14 / 10 ^ 10)).boundary) Tolerance.standard = .free := by
    refine HalfSpace.reduce_planar_free ?_ ?_
    · rw [slope_halfPlane low]
      norm_num [det]
    · refine containsWithin_standard_iff.mpr ?_
      norm_num
  obtain ⟨r, s, upper, lower, meets, start⟩ := reduce_halfPlanes_meet
    (a := (4 / 5 : ℝ)) (b := 3 / 5) (d := -95 / 10 ^ 11) (f := -14 / 10 ^ 10)
    (x := -7 / 25) (y := -24 / 25) (z := -95 / 10 ^ 11) low det
    (by rw [Tolerance.standard_det]; norm_num) (by rw [Tolerance.standard_det]; norm_num)
    (by rw [Tolerance.standard_feas]; norm_num)
  have traces := (Frame.traces_cons_free along).trans
    (Frame.traces_cons_bound upper (Frame.traces_cons_bound lower Frame.traces_nil))
  obtain ⟨rest, moved⟩ := solve_moves_to wideFan rfl
    (List.forall_mem_cons.mpr ⟨containsWithin_standard_iff.mpr (by norm_num),
      List.forall_mem_singleton.mpr (containsWithin_standard_iff.mpr (by norm_num))⟩)
    (containsWithin_standard_iff.not.mpr (by norm_num)) traces meets
  refine ⟨by simp [wideFan], wideFan_normalised, ⟨_, mem_wideFan⟩, _, rest, moved, ?_⟩
  refine ⟨halfPlane (4 / 5) (3 / 5) (-95 / 10 ^ 11), by simp [wideFan], decide_eq_false ?_⟩
  rw [signedDistance_lift_halfPlane low, Point.coord_line, start, Tolerance.standard_feas]
  norm_num

/-- A strip of the plane above two floors, of which one is tilted by too little to count as tilted. -/
noncomputable def tiltedFloor : List (HalfSpace ℝ 2) :=
  [halfPlane 1 0 0, halfPlane 0 (-1) (-1),
    halfPlane (-10 ^ 11 / (25 * 10 ^ 20 + 1)) (-(25 * 10 ^ 20 - 1) / (25 * 10 ^ 20 + 1)) 0,
    halfPlane (-1) 0 (10 ^ 12)]

theorem tiltedFloor_normalised : ∀ h ∈ tiltedFloor, h.Normalised := by
  simp only [tiltedFloor, List.forall_mem_cons]
  refine ⟨halfPlane_normalised ?_, halfPlane_normalised ?_, halfPlane_normalised ?_,
    halfPlane_normalised ?_, by simp⟩ <;> norm_num

theorem mem_tiltedFloor : Feasible tiltedFloor ⟨#v[0, 1]⟩ := by
  simp [Feasible, tiltedFloor, halfPlane, HalfSpace.Holds, Vec.eval_eq_sum le_rfl, Vec.coord, Point.coord,
    Coords.get]
  norm_num

/-- On the level floor the tilted one is dropped, since it holds of the point that is closest to the origin. The
far end of the level floor, which becomes the minimum, is deep below the tilted one. -/
theorem reportsBeyond_tiltedFloor : ReportsBeyond (10 ^ 10 * Tolerance.standard.feas) tiltedFloor := by
  have det := Tolerance.standard_det_nonneg (α := ℝ)
  have low : |(0 : ℝ)| < |-1| := by norm_num
  have tilted : (halfPlane (-10 ^ 11 / (25 * 10 ^ 20 + 1)) (-(25 * 10 ^ 20 - 1) / (25 * 10 ^ 20 + 1)) 0).reduce
      (Frame.on (halfPlane (0 : ℝ) (-1) (-1)).boundary) Tolerance.standard = .free := by
    refine HalfSpace.reduce_planar_free ?_ ?_
    · rw [slope_halfPlane low, Tolerance.standard_det]
      norm_num [abs_of_neg]
    · refine containsWithin_standard_iff.mpr ?_
      norm_num
  obtain ⟨r, s, upper, lower, meets, start⟩ := reduce_halfPlanes_meet (a := (1 : ℝ)) (b := 0) (d := 0) (f := -1)
    (x := -1) (y := 0) (z := 10 ^ 12) low det
    (by rw [Tolerance.standard_det]; norm_num) (by rw [Tolerance.standard_det]; norm_num)
    (by rw [Tolerance.standard_feas]; norm_num)
  have traces := Frame.traces_cons_bound upper (Frame.traces_cons_bound lower
    ((Frame.traces_cons_free tilted).trans Frame.traces_nil))
  obtain ⟨rest, moved⟩ := solve_moves_to tiltedFloor rfl
    (List.forall_mem_cons.mpr ⟨containsWithin_standard_iff.mpr (by norm_num),
      List.forall_mem_singleton.mpr (containsWithin_standard_iff.mpr (by norm_num))⟩)
    (containsWithin_standard_iff.not.mpr (by norm_num)) traces meets
  refine ⟨by simp [tiltedFloor], tiltedFloor_normalised, ⟨_, mem_tiltedFloor⟩, _, rest, moved, ?_⟩
  refine ⟨_, .tail _ (.tail _ (.head _)), decide_eq_false ?_⟩
  rw [signedDistance_lift_halfPlane low, Point.coord_line, start, Tolerance.standard_feas]
  norm_num

end Standard

/-! ## Tolerances that are small enough -/

section Small

variable [PickSource σ] {halfSpaces : List (HalfSpace α (n + 1))} {direction : Vec α (n + 1)}

/-- What a level ensures at the threshold, `solve` ensures under all tolerances close above it. -/
theorem eventually_solve_ensures {feas : α} {P : Solution α (n + 1) → Prop} (nonempty : halfSpaces ≠ [])
    (ensures : (Level.solve ⟨0, feas⟩ n halfSpaces direction : Run σ _).Ensures P) :
    ∀ᶠ tol in Tolerance.above feas,
      (solve (halfSpaces.map (Sigma.mk (n + 1))) ⟨n + 1, direction⟩ tol : Run σ (AnySolution α)).Ensures
        fun answer => ∃ solution, answer = ⟨n + 1, solution⟩ ∧ P solution := by
  have steady : Run.Steady feas fun tol => (Level.solve tol n halfSpaces direction : Run σ _) :=
    Level.solve_steady n halfSpaces direction
  filter_upwards [steady.same] with tol same
  refine solve_ensures nonempty ?_
  rw [same]
  exact ensures

theorem eventually_solve_answers (nonempty : halfSpaces ≠ []) (normalised : ∀ h ∈ halfSpaces, h.Normalised)
    (direction : Vec α (n + 1)) :
    ∀ᶠ tol in Tolerance.above (0 : α),
      (solve (halfSpaces.map (Sigma.mk (n + 1))) ⟨n + 1, direction⟩ tol : Run σ (AnySolution α)).Ensures
        fun answer => ∃ solution, answer = ⟨n + 1, solution⟩ ∧
          Solution.Answers halfSpaces direction solution :=
  eventually_solve_ensures nonempty (Level.solve_answers rfl rfl n direction nonempty normalised)

/-- **A feasible problem is not rejected.** On the line under any tolerances, and in every dimension under
all tolerances below a bound of the problem, a run of a problem with a feasible point does not answer that
there is none. -/
theorem solve_accepts_feasible (nonempty : halfSpaces ≠ []) (normalised : ∀ h ∈ halfSpaces, h.Normalised)
    (direction : Vec α (n + 1)) (feasible : ∃ x, Feasible halfSpaces x) :
    (n = 0 → ∀ tol : Tolerance α, 0 ≤ tol.det → 0 ≤ tol.feas →
      (solve (halfSpaces.map (Sigma.mk (n + 1))) ⟨n + 1, direction⟩ tol : Run σ (AnySolution α)).Ensures
        fun answer => answer.2.kind ≠ .infeasible) ∧
    ∃ η : α, 0 < η ∧ ∀ tol : Tolerance α, 0 ≤ tol.det → tol.det < η → 0 ≤ tol.feas → tol.feas < η →
      (solve (halfSpaces.map (Sigma.mk (n + 1))) ⟨n + 1, direction⟩ tol : Run σ (AnySolution α)).Ensures
        fun answer => answer.2.kind ≠ .infeasible := by
  obtain ⟨x, hx⟩ := feasible
  refine ⟨fun line tol _ feas => ?_, ?_⟩
  · subst line
    refine (solve_ensures nonempty (Level.solve_line_kind feas direction nonempty normalised)).mono ?_
    rintro _ ⟨solution, rfl, answers⟩ rejected
    have crosses := ResultKind.judged_eq_infeasible_iff.mp (answers.kind.symm.trans rejected)
    exact crosses.not_feasible feas normalised x hx
  · apply Tolerance.exists_of_eventually_above_zero
    refine (eventually_solve_answers nonempty normalised direction).mono fun tol ensures => ensures.mono ?_
    rintro _ ⟨solution, rfl, answers⟩ rejected
    cases solution with
    | infeasible => exact answers.empty rfl x hx
    | minimum p => cases rejected
    | ambiguous p => cases rejected

theorem solve_quadrant_accepts_feasible :
    quadrant ≠ [] ∧ (∀ h ∈ quadrant, h.Normalised) ∧ (∃ x, Feasible quadrant x) ∧
      ∃ η : ℝ, 0 < η ∧ ∀ tol : Tolerance ℝ, 0 ≤ tol.det → tol.det < η → 0 ≤ tol.feas → tol.feas < η →
        (solve (quadrant.map (Sigma.mk 2)) ⟨2, ⟨#v[1, 0]⟩⟩ tol : Run ListedWords (AnySolution ℝ)).Ensures
          fun answer => answer.2.kind ≠ .infeasible :=
  have nonempty : quadrant ≠ [] := by simp [quadrant]
  ⟨nonempty, quadrant_normalised, ⟨_, origin_mem_quadrant⟩,
    (solve_accepts_feasible nonempty quadrant_normalised ⟨#v[1, 0]⟩ ⟨_, origin_mem_quadrant⟩).2⟩

/-- Under the standard tolerances a feasible problem is rejected: above the base, the sides of the narrow
wedge meet the candidate within the slack one by one, and on the second side's boundary they leave bounds
that cross by more. -/
theorem narrowWedge_rejected :
    narrowWedge ≠ [] ∧ (∀ h ∈ narrowWedge, h.Normalised) ∧ (∃ x, Feasible narrowWedge x) ∧
      ∃ rest, solve (narrowWedge.map (Sigma.mk 2)) ⟨2, Vec.zero⟩ Tolerance.standard (⟨[]⟩ : ListedWords) =
        (.ok ⟨2, .infeasible⟩, rest) :=
  ⟨by simp [narrowWedge], narrowWedge_normalised, ⟨_, mem_narrowWedge⟩, solve_narrowWedge⟩

/-- **The slack of a reported point.** On the line a reported point lies within the slack of every
half-space. In R^n it lies within `√(n!)` times the slack, as long as the threshold for parallel normals is
below a bound of the problem, and within the slack itself if both are. -/
theorem solve_reports_near_feasible (nonempty : halfSpaces ≠ [])
    (normalised : ∀ h ∈ halfSpaces, h.Normalised) (direction : Vec α (n + 1)) :
    (n = 0 → ∀ tol : Tolerance α, 0 ≤ tol.det → 0 ≤ tol.feas →
      (solve (halfSpaces.map (Sigma.mk (n + 1))) ⟨n + 1, direction⟩ tol : Run σ (AnySolution α)).Ensures
        fun answer => ∃ solution, answer = ⟨n + 1, solution⟩ ∧ solution.Within tol.feas halfSpaces) ∧
    (∀ feas : α, 0 ≤ feas → ∃ η : α, 0 < η ∧ ∀ det : α, 0 ≤ det → det < η →
      (solve (halfSpaces.map (Sigma.mk (n + 1))) ⟨n + 1, direction⟩ ⟨det, feas⟩ :
        Run σ (AnySolution α)).Ensures fun answer => ∃ solution, answer = ⟨n + 1, solution⟩ ∧
          solution.Within (Scalar.sqrt ((n + 1).factorial : α) * feas) halfSpaces) ∧
    ∃ η : α, 0 < η ∧ ∀ tol : Tolerance α, 0 ≤ tol.det → tol.det < η → 0 ≤ tol.feas → tol.feas < η →
      (solve (halfSpaces.map (Sigma.mk (n + 1))) ⟨n + 1, direction⟩ tol : Run σ (AnySolution α)).Ensures
        fun answer => ∃ solution, answer = ⟨n + 1, solution⟩ ∧ solution.Within tol.feas halfSpaces := by
  refine ⟨fun line tol _ feas => ?_, fun feas nonneg => ?_, ?_⟩
  · subst line
    refine (solve_ensures nonempty (Level.solve_line_kind feas direction nonempty normalised)).mono ?_
    intro answer ⟨solution, reported, answers⟩
    exact ⟨solution, reported, answers.within⟩
  · have within : (Level.solve ⟨0, feas⟩ n halfSpaces direction : Run σ _).Ensures
        (Solution.Within (Scalar.sqrt ((n + 1).factorial : α) * feas) halfSpaces) :=
      Level.solve_within rfl nonneg n halfSpaces direction nonempty normalised
    exact Tolerance.exists_det_of_eventually_above (eventually_solve_ensures nonempty within)
  · obtain ⟨η, positive, close⟩ := Tolerance.exists_of_eventually_above_zero
      (eventually_solve_answers (σ := σ) nonempty normalised direction)
    refine ⟨η, positive, fun tol det small feas near => (close tol det small feas near).mono ?_⟩
    intro answer ⟨solution, reported, answers⟩
    refine ⟨solution, reported, fun p point h hh => ?_⟩
    exact HalfSpace.containsWithin_of_holds feas (answers.feasible p point h hh)

theorem solve_quadrant_reports_near_feasible :
    quadrant ≠ [] ∧ (∀ h ∈ quadrant, h.Normalised) ∧
      (∀ feas : ℝ, 0 ≤ feas → ∃ η : ℝ, 0 < η ∧ ∀ det : ℝ, 0 ≤ det → det < η →
        (solve (quadrant.map (Sigma.mk 2)) ⟨2, ⟨#v[1, 0]⟩⟩ ⟨det, feas⟩ :
          Run ListedWords (AnySolution ℝ)).Ensures fun answer => ∃ solution, answer = ⟨2, solution⟩ ∧
            solution.Within (Scalar.sqrt ((1 + 1).factorial : ℝ) * feas) quadrant) ∧
      ∃ η : ℝ, 0 < η ∧ ∀ tol : Tolerance ℝ, 0 ≤ tol.det → tol.det < η → 0 ≤ tol.feas → tol.feas < η →
        (solve (quadrant.map (Sigma.mk 2)) ⟨2, ⟨#v[1, 0]⟩⟩ tol : Run ListedWords (AnySolution ℝ)).Ensures
          fun answer => ∃ solution, answer = ⟨2, solution⟩ ∧ solution.Within tol.feas quadrant :=
  have nonempty : quadrant ≠ [] := by simp [quadrant]
  ⟨nonempty, quadrant_normalised,
    (solve_reports_near_feasible nonempty quadrant_normalised ⟨#v[1, 0]⟩).2⟩

/-- Under the standard tolerances the factor is needed, and so is the bound on the threshold for parallel normals: a
point is reported beyond the slack of a side of the wide fan, and beyond ten billion times the slack of the tilted
floor. -/
theorem wideFan_tiltedFloor_exceed_slack :
    ReportsBeyond Tolerance.standard.feas wideFan ∧
      ReportsBeyond (10 ^ 10 * Tolerance.standard.feas) tiltedFloor :=
  ⟨reportsBeyond_wideFan, reportsBeyond_tiltedFloor⟩

/-- **The verdict does not depend on order or picks.** On the line under any tolerances, and in every
dimension under all tolerances below a bound of the problem, there is one kind that every run of every
permutation of the half-spaces answers. -/
theorem solve_kind_of_perm (nonempty : halfSpaces ≠ []) (normalised : ∀ h ∈ halfSpaces, h.Normalised)
    (direction : Vec α (n + 1)) :
    (n = 0 → ∀ tol : Tolerance α, 0 ≤ tol.det → 0 ≤ tol.feas →
      ∃ kind, ∀ others, halfSpaces.Perm others →
        (solve (others.map (Sigma.mk (n + 1))) ⟨n + 1, direction⟩ tol : Run σ (AnySolution α)).Ensures
          fun answer => answer.2.kind = kind) ∧
    ∃ η : α, 0 < η ∧ ∀ tol : Tolerance α, 0 ≤ tol.det → tol.det < η → 0 ≤ tol.feas → tol.feas < η →
      ∃ kind, ∀ others, halfSpaces.Perm others →
        (solve (others.map (Sigma.mk (n + 1))) ⟨n + 1, direction⟩ tol : Run σ (AnySolution α)).Ensures
          fun answer => answer.2.kind = kind := by
  have some_item : ∀ {others}, halfSpaces.Perm others → others ≠ [] :=
    fun perm none => nonempty (List.perm_nil.mp (none ▸ perm))
  refine ⟨fun line tol _ feas => ?_, ?_⟩
  · subst line
    refine ⟨.judged (Crosses tol.feas halfSpaces) (halfSpaces.length = 1), fun others perm => ?_⟩
    have units : ∀ h ∈ others, h.Normalised := fun h hh => normalised h (perm.mem_iff.mpr hh)
    refine (solve_ensures (some_item perm)
      (Level.solve_line_kind feas direction (some_item perm) units)).mono ?_
    rintro _ ⟨solution, rfl, answers⟩
    exact answers.kind_perm perm.symm
  · obtain ⟨kind, exact⟩ := Level.exists_kind_of_perm (σ := σ) direction nonempty normalised
    apply Tolerance.exists_of_eventually_above_zero
    -- There are finitely many permutations, and each has its own bound.
    have orders : ∀ᶠ tol in Tolerance.above (0 : α), ∀ others ∈ halfSpaces.permutations,
        (solve (others.map (Sigma.mk (n + 1))) ⟨n + 1, direction⟩ tol : Run σ (AnySolution α)).Ensures
          fun answer => ∃ solution, answer = ⟨n + 1, solution⟩ ∧ solution.kind = kind :=
      Tolerance.eventually_forall_mem _ fun others order =>
        have perm := (List.mem_permutations.mp order).symm
        eventually_solve_ensures (some_item perm) (exact others perm)
    filter_upwards [orders] with tol orders
    refine ⟨kind, fun others perm => (orders others (List.mem_permutations.mpr perm.symm)).mono ?_⟩
    rintro _ ⟨solution, rfl, same⟩
    exact same

theorem solve_quadrant_kind_of_perm :
    quadrant ≠ [] ∧ (∀ h ∈ quadrant, h.Normalised) ∧
      ∃ η : ℝ, 0 < η ∧ ∀ tol : Tolerance ℝ, 0 ≤ tol.det → tol.det < η → 0 ≤ tol.feas → tol.feas < η →
        ∃ kind, ∀ others, quadrant.Perm others →
          (solve (others.map (Sigma.mk 2)) ⟨2, ⟨#v[1, 0]⟩⟩ tol : Run ListedWords (AnySolution ℝ)).Ensures
            fun answer => answer.2.kind = kind :=
  have nonempty : quadrant ≠ [] := by simp [quadrant]
  ⟨nonempty, quadrant_normalised, (solve_kind_of_perm nonempty quadrant_normalised ⟨#v[1, 0]⟩).2⟩

/-- Under the standard tolerances the narrow wedge is infeasible in one order and has a minimum in another. -/
theorem narrowWedge_kind_depends_on_order :
    narrowWedge ≠ [] ∧ (∀ h ∈ narrowWedge, h.Normalised) ∧ narrowWedge.Perm turnedWedge ∧
      (∃ rest, solve (narrowWedge.map (Sigma.mk 2)) ⟨2, Vec.zero⟩ Tolerance.standard (⟨[]⟩ : ListedWords) =
        (.ok ⟨2, .infeasible⟩, rest)) ∧
      ∃ p rest, solve (turnedWedge.map (Sigma.mk 2)) ⟨2, Vec.zero⟩ Tolerance.standard
        (⟨[]⟩ : ListedWords) = (.ok ⟨2, .minimum p⟩, rest) := by
  obtain ⟨p, run⟩ := solve_turnedWedge
  exact ⟨by simp [narrowWedge], narrowWedge_normalised, List.Perm.swap _ _ _, solve_narrowWedge, p, _, run⟩

end Small

end LowDimLP
