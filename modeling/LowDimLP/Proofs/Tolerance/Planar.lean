import LowDimLP.Proofs.Tolerance.Slack
import LowDimLP.Proofs.Solver.Branches
import LowDimLP.Proofs.Solver.Insertion
/-!
# Runs in the plane along a flat objective

In the plane the level below is the line, so a descent compares two bounds: a half-plane leaves on the
boundary of another one the bound where the boundaries meet (`HalfSpace.reduce_planar`). With a flat
objective nothing descends, and a run keeps the boundary point of the first half-space as its minimum for as
long as the half-spaces that arrive hold of it within the slack (`Level.insertAll_settled`): to its end
(`Level.solve_kept`), or until the last one moves it (`Level.solve_moved`). Here every pick is the first
pending item; its place is taken by the last one.
-/

namespace LowDimLP

variable {σ α : Type} [ExactScalar α]

theorem Vec.length_line (v : Vec α 1) : v.length = |v.coord 0| := by
  rw [length, dot_line, ← abs_mul_abs_self, Scalar.sqrt_mul_self_eq (abs_nonneg _)]

@[simp] theorem Point.coord_line (x : α) : (⟨#v[x]⟩ : Point α 1).coord 0 = x := rfl

theorem Coords.argMaxAbs_planar (v : Vector α 2) :
    argMaxAbs v = if |v[0]| < |v[1]| then 1 else 0 := by
  simp only [argMaxAbs, List.finRange_succ, List.finRange_zero, List.map_cons, List.map_nil, List.foldl_cons,
    List.foldl_nil, ExactScalar.abs_eq_abs]
  simp
  rfl

/-- A half-plane whose boundary meets the frame's at a slope `x` that counts leaves the bound of the meeting
point, from above if the slope is positive and from below if it is negative. -/
theorem HalfSpace.reduce_planar {frame : Frame α 1} {h : HalfSpace α 2} {tol : Tolerance α} {x : α}
    (slope : (frame.pullBack h.boundary.normal).coord 0 = x) (det : 0 ≤ tol.det) (steep : tol.det < |x|) :
    ∃ r, h.reduce frame tol = .bound r ∧ r.Normalised ∧ (r.BoundsAbove ↔ 0 < x) ∧
      r.bound = (h.boundary.offset - frame.ratio h.boundary.normal * frame.plane.offset) / x := by
  have length : (frame.pullBack h.boundary.normal).length = |x| := by rw [Vec.length_line, slope]
  have positive : 0 < |x| := det.trans_lt steep
  have nonzero : frame.pullBack h.boundary.normal ≠ Vec.zero :=
    fun zero => absurd (Vec.length_le_zero.mpr zero) (by rw [length]; exact not_le.mpr positive)
  have counts : (frame.pullBack h.boundary.normal).isZero tol.det = false :=
    decide_eq_false (by rw [length]; exact not_le.mpr steep)
  have built := Plane.ofEquation_eq_ok nonzero
    (h.boundary.offset - frame.ratio h.boundary.normal * frame.plane.offset)
  have normalised := Plane.normalised_of_ofEquation built
  refine ⟨⟨_⟩, ?_, normalised, ?_, ?_⟩
  · rw [reduce, Plane.reduce, counts, built]
    rfl
  · show 0 < ((frame.pullBack h.boundary.normal).scaled _).coord 0 ↔ 0 < x
    rw [Vec.coord_scaled, slope, length]
    exact mul_pos_iff_of_pos_right (one_div_pos.mpr positive)
  · rw [bound_eq normalised, Vec.coord_scaled, slope, length]
    have squared : |x| * |x| = x * x := abs_mul_abs_self x
    have x_ne_zero : x ≠ 0 := abs_pos.mp positive
    field_simp
    rw [pow_two, pow_two, squared]

/-- A half-plane that meets the frame's boundary at a slope that does not count leaves everything if it holds of
the sample, however far the boundary goes on. -/
theorem HalfSpace.reduce_planar_free {frame : Frame α 1} {h : HalfSpace α 2} {tol : Tolerance α}
    (slight : |(frame.pullBack h.boundary.normal).coord 0| ≤ tol.det)
    (sample : h.containsWithin frame.plane.point tol.feas = true) : h.reduce frame tol = .free := by
  have flat : (frame.pullBack h.boundary.normal).isZero tol.det = true :=
    decide_eq_true (by rwa [Vec.length_line])
  rw [reduce, Plane.reduce, flat]
  exact if_pos sample

namespace Frame

variable {frame : Frame α 1} {tol : Tolerance α} {h : HalfSpace α 2} {hs : List (HalfSpace α 2)}

theorem traces_nil : frame.traces tol [] = some [] := rfl

theorem traces_cons_bound {r : HalfSpace α 1} {rs : List (HalfSpace α 1)}
    (first : h.reduce frame tol = .bound r) (others : frame.traces tol hs = some rs) :
    frame.traces tol (h :: hs) = some (r :: rs) := by
  rw [traces, first, others]
  rfl

theorem traces_cons_free (first : h.reduce frame tol = .free) :
    frame.traces tol (h :: hs) = frame.traces tol hs := by
  rw [traces, first]

end Frame

/-! ## Half-planes by their coefficients -/

/-- The half-plane `a·x + b·y ≤ d`. -/
def halfPlane (a b d : α) : HalfSpace α 2 := ⟨⟨⟨#v[a, b]⟩, d, ⟨#v[a * d, b * d]⟩⟩⟩

section HalfPlanes

variable {a b c d e f : α}

theorem halfPlane_normalised (unit : a * a + b * b = 1) : (halfPlane a b d).Normalised where
  unit := by simpa [halfPlane, Vec.dot_eq_sum, Vec.coord, Coords.get] using unit
  point_eq := by simp [halfPlane]

theorem containsWithin_halfPlane_iff {x : Point α 2} {eps : α} :
    (halfPlane a b d).containsWithin x eps = true ↔ a * x.coord 0 + b * x.coord 1 ≤ d + eps := by
  rw [HalfSpace.containsWithin_iff]
  simp [halfPlane, Vec.eval_eq_sum le_rfl, Vec.coord, Coords.get]

theorem coord_halfPlane_point :
    (halfPlane a b d).boundary.point.coord 0 = a * d ∧ (halfPlane a b d).boundary.point.coord 1 = b * d := by
  simp [halfPlane, Point.coord, Coords.get]

/-- A boundary that is closer to the first axis than to the second is charted by the first coordinate. -/
theorem axis_on_halfPlane (low : |c| < |e|) : (Frame.on (halfPlane c e f).boundary).axis = 1 := by
  rw [Frame.on, Coords.argMaxAbs_planar]
  exact if_pos low

theorem ratio_halfPlane (low : |c| < |e|) :
    (Frame.on (halfPlane c e f).boundary).ratio (halfPlane a b d).boundary.normal = b / e := by
  rw [Frame.ratio, ← Frame.coord_normal_axis, axis_on_halfPlane low]
  rfl

theorem slope_halfPlane (low : |c| < |e|) :
    ((Frame.on (halfPlane c e f).boundary).pullBack (halfPlane a b d).boundary.normal).coord 0 =
      a - b / e * c := by
  have entry := (Frame.on (halfPlane c e f).boundary).coord_pullBack (halfPlane a b d).boundary.normal 0
  rw [ratio_halfPlane low, axis_on_halfPlane low] at entry
  exact entry

theorem signedDistance_lift_halfPlane (low : |c| < |e|) (q : Point α 1) :
    (halfPlane a b d).boundary.signedDistance ((Frame.on (halfPlane c e f).boundary).lift q) =
      (a - b / e * c) * q.coord 0 + b / e * f - d := by
  have pivot : (Frame.on (halfPlane c e f).boundary).pivot ≠ 0 := by
    rw [← Frame.coord_normal_axis, axis_on_halfPlane low]
    exact abs_pos.mp ((abs_nonneg c).trans_lt low)
  rw [Plane.signedDistance, Frame.eval_lift pivot le_rfl, Vec.eval_line, slope_halfPlane low,
    ratio_halfPlane low]
  rfl

theorem reduce_halfPlane {tol : Tolerance α} (low : |c| < |e|) (det : 0 ≤ tol.det)
    (steep : tol.det < |a - b / e * c|) :
    ∃ r, (halfPlane a b d).reduce (Frame.on (halfPlane c e f).boundary) tol = .bound r ∧ r.Normalised ∧
      (r.BoundsAbove ↔ 0 < a - b / e * c) ∧ r.bound = (d - b / e * f) / (a - b / e * c) := by
  obtain ⟨r, bound, unit, side, ends⟩ :=
    HalfSpace.reduce_planar (h := halfPlane a b d) (slope_halfPlane low) det steep
  rw [ratio_halfPlane low] at ends
  exact ⟨r, bound, unit, side, ends⟩

end HalfPlanes

/-! ## Bounds that meet -/

/-- One bound from above and one from below, which meet within the slack. -/
structure Meets (slack : α) (r s : HalfSpace α 1) : Prop where
  above : r.BoundsAbove
  below : ¬s.BoundsAbove
  close : s.bound ≤ r.bound + slack

theorem Meets.not_crosses {slack : α} {r s : HalfSpace α 1} (meets : Meets slack r s) :
    ¬Crosses slack [r, s] := by
  intro ⟨g, hg, h, hh, g_above, h_below, apart⟩
  obtain rfl : g = r := (List.mem_pair.mp hg).resolve_right fun same => meets.below (same ▸ g_above)
  obtain rfl : h = s := (List.mem_pair.mp hh).resolve_left fun same => h_below (same ▸ meets.above)
  exact not_le.mpr apart meets.close

/-- On a boundary, a half-plane that rises along it and one that falls leave bounds that meet, if they are no
further apart than the slack. -/
theorem reduce_halfPlanes_meet {tol : Tolerance α} {a b c d e f x y z : α} (low : |c| < |e|) (det : 0 ≤ tol.det)
    (rises : tol.det < a - b / e * c) (falls : tol.det < -(x - y / e * c))
    (close : (z - y / e * f) / (x - y / e * c) ≤ (d - b / e * f) / (a - b / e * c) + tol.feas) :
    ∃ r s, (halfPlane a b d).reduce (Frame.on (halfPlane c e f).boundary) tol = .bound r ∧
      (halfPlane x y z).reduce (Frame.on (halfPlane c e f).boundary) tol = .bound s ∧
      Meets tol.feas r s ∧ s.bound = (z - y / e * f) / (x - y / e * c) := by
  obtain ⟨r, upper, -, above, stop⟩ := reduce_halfPlane (d := d) (f := f) low det (rises.trans_le (le_abs_self _))
  obtain ⟨s, lower, -, below, start⟩ := reduce_halfPlane (d := z) (f := f) low det (falls.trans_le (neg_le_abs _))
  have falling : ¬0 < x - y / e * c := not_lt.mpr (neg_nonneg.mp (det.trans falls.le))
  refine ⟨r, s, upper, lower, ⟨above.mpr (det.trans_lt rises), below.not.mpr falling, ?_⟩, start⟩
  rw [start, stop]
  exact close

/-! ## Picks of the first pending item -/

namespace Insertion

variable {ι β : Type}

/-- The first item, every time. -/
def firstPicks : (n : Nat) → Picks n
  | 0 => ()
  | n + 1 => (0, firstPicks n)

/-- The order in which the items leave when every pick is the first one. -/
abbrev firstOrder {n : Nat} (items : Vector ι n) : List ι := order items (firstPicks n)

variable [PickSource σ] {step : List ι → Option β → ι → Run σ β} {accepted : List ι} {state : Option β}
  {next : β} {source rest : σ} {n : Nat}

/-- The turn that takes the first pending item: the loop goes on with what comes after it in order. -/
theorem insertAll_first (stops : β → Bool) {pending : Vector ι n} {x : ι} {later : List ι}
    (order : firstOrder pending = x :: later) (pick : ∀ n, PickSource.pick source n = (0, source))
    (stepped : step accepted state x source = (.ok next, rest)) :
    ∃ k, ∃ others : Vector ι k, firstOrder others = later ∧
      insertAll step stops pending accepted state source =
        if stops next then (.ok (accepted ++ [x], some next), rest)
        else insertAll step stops others (accepted ++ [x]) (some next) rest := by
  cases n with
  | zero => cases order
  | succ k =>
    obtain ⟨rfl, others⟩ := List.cons.inj order
    refine ⟨k, (takeOut pending 0).2, others, ?_⟩
    have turn : step accepted state (takeOut pending (PickSource.pick source k).1).1
        (PickSource.pick source k).2 = (.ok next, rest) := by
      rw [pick]
      exact stepped
    rw [run_eq_of_step turn, pick]
    rfl

end Insertion

/-- When the words run out every pick is the first item. -/
theorem pick_noWords (n : Nat) : PickSource.pick (⟨[]⟩ : ListedWords) n = (0, ⟨[]⟩) := by
  have accepts : WordSource.accepts 0 n = true := by
    apply decide_eq_true
    rw [WordSource.acceptBelow, Nat.shiftLeft_eq]
    simp
  have scale : WordSource.scale 0 n = 0 := by
    apply Fin.ext
    simp [WordSource.scale]
  show WordSource.pickWithin n (WordSource.patience - 1 + 1) (⟨[]⟩ : ListedWords) = _
  rw [WordSource.pickWithin]
  show (if WordSource.accepts 0 n then (WordSource.scale 0 n, (⟨[]⟩ : ListedWords)) else _) = _
  rw [if_pos accepts, scale]

/-! ## Insertions along a flat objective -/

namespace Level

variable {n : Nat} {below : SolverOf σ α n} {tol : Tolerance α} {direction : Vec α (n + 1)} {source : σ}
  {rest : σ} {accepted : List (HalfSpace α (n + 1))} {g h : HalfSpace α (n + 1)} {p : Point α (n + 1)}

/-- Along a flat objective the first point is optimal, as the second insertion finds out. -/
theorem insert_second (flat : direction.isZero tol.det = true) (kept : h.containsWithin p tol.feas = true) :
    insert below tol direction [g] (some (.ambiguous p)) h source = (.ok (.minimum p), source) := by
  rw [insert, insertUnsettled_eq, if_pos List.length_singleton, objectiveBounded_eq, if_pos flat]
  show keepOrDescend below tol direction [g] h p true source = _
  rw [keepOrDescend, if_pos kept]
  rfl

theorem insert_kept (kept : h.containsWithin p tol.feas = true) :
    insert below tol direction accepted (some (.minimum p)) h source = (.ok (.minimum p), source) := by
  rw [insert, if_pos kept]
  rfl

theorem insert_moved (violated : ¬h.containsWithin p tol.feas = true) :
    insert below tol direction accepted (some (.minimum p)) h source =
      descend below tol direction accepted h true source := by
  rw [insert, if_neg violated]

/-- The half-spaces that hold of the minimum are accepted one by one. -/
theorem insertAll_kept [PickSource σ] (pick : ∀ n, PickSource.pick source n = (0, source))
    {keeps later : List (HalfSpace α (n + 1))} (kept : ∀ h ∈ keeps, h.containsWithin p tol.feas = true)
    {k : Nat} {pending : Vector (HalfSpace α (n + 1)) k}
    (order : Insertion.firstOrder pending = keeps ++ later) :
    ∃ k, ∃ others : Vector (HalfSpace α (n + 1)) k, Insertion.firstOrder others = later ∧
      insertAll (insert below tol direction) Solution.isInfeasible pending accepted (some (.minimum p))
          source =
        insertAll (insert below tol direction) Solution.isInfeasible others (accepted ++ keeps)
          (some (.minimum p)) source := by
  induction keeps generalizing accepted k pending with
  | nil => exact ⟨k, pending, order, by rw [List.append_nil]⟩
  | cons h keeps ih =>
    obtain ⟨first, others⟩ := List.forall_mem_cons.mp kept
    obtain ⟨_, pending, order, turn⟩ :=
      Insertion.insertAll_first Solution.isInfeasible order pick (insert_kept first)
    obtain ⟨k, remaining, order, run⟩ := ih others order
    refine ⟨k, remaining, order, turn.trans ?_⟩
    rw [List.append_cons accepted h keeps]
    exact run

section Runs

variable [PickSource σ] {halfSpaces keeps : List (HalfSpace α (n + 2))} {direction : Vec α (n + 2)}
  {first second last : HalfSpace α (n + 2)} (pick : ∀ n, PickSource.pick source n = (0, source))
  (flat : direction.isZero tol.det = true)
  (kept : ∀ h ∈ second :: keeps, h.containsWithin first.boundary.point tol.feas = true)

include pick flat kept

/-- After the first half-space and those that keep its boundary point, the loop holds that point as its
minimum. -/
theorem insertAll_settled {later : List (HalfSpace α (n + 2))}
    (order : Insertion.firstOrder (pending halfSpaces) = first :: second :: keeps ++ later) :
    ∃ k, ∃ others : Vector (HalfSpace α (n + 2)) k, Insertion.firstOrder others = later ∧
      insertAll (insert (solve tol n) tol direction) Solution.isInfeasible (pending halfSpaces) [] none
          source =
        insertAll (insert (solve tol n) tol direction) Solution.isInfeasible others
          (first :: second :: keeps) (some (.minimum first.boundary.point)) source := by
  obtain ⟨of_second, others⟩ := List.forall_mem_cons.mp kept
  have proposes : insert (solve tol n) tol direction [] none first source =
      (.ok (.ambiguous first.boundary.point), source) := rfl
  obtain ⟨_, _, order, turn⟩ :=
    Insertion.insertAll_first Solution.isInfeasible order pick proposes
  obtain ⟨_, _, order, turn'⟩ :=
    Insertion.insertAll_first Solution.isInfeasible order pick (insert_second flat of_second)
  obtain ⟨k, remaining, order, run⟩ := insertAll_kept pick others order
  exact ⟨k, remaining, order, (turn.trans turn').trans run⟩

theorem solve_kept (order : Insertion.firstOrder (pending halfSpaces) = first :: second :: keeps) :
    solve tol (n + 1) halfSpaces direction source = (.ok (.minimum first.boundary.point), source) := by
  obtain ⟨k, others, order, run⟩ := insertAll_settled pick flat kept
    (order.trans (List.append_nil _).symm)
  cases k with
  | succ k => cases order
  | zero =>
    rw [solve, if_pos direction.isFinite_eq_true]
    exact Run.bind_eq_of_ok run

/-- The last half-space moves the minimum to its boundary. -/
theorem solve_moved (order : Insertion.firstOrder (pending halfSpaces) = first :: second :: keeps ++ [last])
    (violated : ¬last.containsWithin first.boundary.point tol.feas = true)
    {solution : Solution α (n + 2)}
    (moved : descend (solve tol n) tol direction (first :: second :: keeps) last true source =
      (.ok solution, rest)) :
    solve tol (n + 1) halfSpaces direction source =
      (.ok (settle tol direction (first :: second :: keeps ++ [last]) solution), rest) := by
  obtain ⟨_, _, order, run⟩ := insertAll_settled pick flat kept order
  obtain ⟨k, others, order, turn⟩ :=
    Insertion.insertAll_first Solution.isInfeasible order pick ((insert_moved violated).trans moved)
  cases k with
  | succ k => cases order
  | zero =>
    rw [solve, if_pos direction.isFinite_eq_true]
    have loop := run.trans (turn.trans (ite_id _))
    exact Run.bind_eq_of_ok loop

end Runs

/-- On the boundary of `h` the accepted half-planes leave bounds that cross. -/
theorem descend_crosses [PickSource σ] (direction : Vec α 2) {accepted : List (HalfSpace α 2)}
    {h : HalfSpace α 2} {reduced : List (HalfSpace α 1)} (feas : 0 ≤ tol.feas)
    (traces : (Frame.on h.boundary).traces tol accepted = some reduced)
    (normalised : ∀ r ∈ reduced, r.Normalised) (crosses : Crosses tol.feas reduced) :
    (descend (solve tol 0) tol direction accepted h true : Run σ _).Ensures (· = .infeasible) := by
  have nonempty : reduced ≠ [] := by
    obtain ⟨g, hg, -⟩ := crosses
    exact List.ne_nil_of_mem hg
  rw [descend_eq]
  refine askBelow_ensures (fun _ => rfl) (fun none => ?_) fun rs same _ => ?_
  · rw [traces] at none
    exact absurd (Option.some.inj none) nonempty
  · rw [traces] at same
    obtain rfl := Option.some.inj same
    rw [solve, if_pos (Vec.isFinite_eq_true _)]
    refine (solveLine_answersLine nonempty normalised feas).mono fun solution answers => ?_
    have kind := answers.kind.trans (ResultKind.judged_of_empty crosses)
    cases solution <;> cases kind
    rfl

/-- Between two bounds that meet, a minimum along a flat objective is at the lower bound. -/
theorem solveLine_meets [PickSource σ] {r s : HalfSpace α 1} {direction : Vec α 1} (meets : Meets tol.feas r s)
    (rises : ¬direction.coord 0 < -tol.det) :
    (solveLine tol [r, s] direction : Run σ _).Ensures (· = .minimum ⟨#v[s.bound]⟩) := by
  refine (solveLine_ensures (List.cons_ne_nil _ _)).mono ?_
  intro solution ⟨range, reached⟩
  cases reached with
  | ranged _ spans =>
    obtain ⟨lo, lower, greatest⟩ := spans.lower.exists_of_mem ⟨s, by simp, meets.below, rfl⟩
    obtain ⟨h, hh, below, rfl⟩ := greatest.1
    obtain rfl : h = s := (List.mem_pair.mp hh).resolve_left fun same => below (same ▸ meets.above)
    have ranges : ¬range.isEmpty tol = true := fun empty =>
      meets.not_crosses (spans.crosses_iff.mpr (Interval.isEmpty_iff.mp empty))
    rw [Interval.settle, if_neg ranges, Interval.bestEnd_eq_lower rises lower]

/-- On the boundary of `h` the accepted half-planes leave two bounds that meet. -/
theorem descend_meets [PickSource σ] {accepted : List (HalfSpace α 2)} {h : HalfSpace α 2} {r s : HalfSpace α 1}
    (det : 0 ≤ tol.det) (traces : (Frame.on h.boundary).traces tol accepted = some [r, s])
    (meets : Meets tol.feas r s) :
    (descend (solve tol 0) tol Vec.zero accepted h true : Run σ _).Ensures
      (· = .minimum ((Frame.on h.boundary).lift ⟨#v[s.bound]⟩)) := by
  have flat : ¬((Vec.zero : Vec α 2).reduce (Frame.on h.boundary)).coord 0 < -tol.det := by
    have entry := (Frame.on h.boundary).coord_pullBack (Vec.zero : Vec α 2) 0
    rw [Frame.ratio, Vec.coord_zero, Vec.coord_zero, zero_div, zero_mul, sub_zero] at entry
    rw [Vec.reduce, not_lt]
    exact (neg_nonpos.mpr det).trans entry.ge
  rw [descend_eq]
  refine askBelow_ensures (fun none => ?_) (fun none => ?_) fun rs same _ => ?_
  · rw [traces] at none
    cases none
  · rw [traces] at none
    cases none
  · rw [traces] at same
    obtain rfl := Option.some.inj same
    rw [solve, if_pos (Vec.isFinite_eq_true _)]
    refine (solveLine_meets meets flat).mono ?_
    rintro solution rfl
    rfl

end Level

end LowDimLP
