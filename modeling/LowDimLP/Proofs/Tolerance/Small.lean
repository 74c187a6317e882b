import Mathlib.Order.Filter.Finite
import LowDimLP.Proofs.ExactArithmetic
import LowDimLP.Solver.Interval
import LowDimLP.Solver.Vertices
/-!
# Small tolerances

A tolerance enters a computation only through comparisons, and of a fixed value a comparison decides the
same for all thresholds close enough above the given one. `Tolerance.above feas` is the filter of the
tolerances whose `det` is close above zero and whose `feas` is close above `feas`; a function of the
tolerance is `Steady` if it is constant there. Every comparison is steady, and so is everything that the
geometry, the scan for vertices and the line make of finitely many of them. How close is close enough
depends on the values compared: it is a threshold of the problem, not of the program.
-/

namespace LowDimLP

universe u v

variable {α : Type u} [ExactScalar α]

namespace Tolerance

/-- The tolerances close above zero for lengths and close above `feas` for distances. -/
def above (feas : α) : Filter (Tolerance α) where
  sets := {s | ∃ η, 0 < η ∧ ∀ tol : Tolerance α, 0 ≤ tol.det → tol.det < η → feas ≤ tol.feas →
    tol.feas < feas + η → tol ∈ s}
  univ_sets := ⟨1, one_pos, fun _ _ _ _ _ => Set.mem_univ _⟩
  sets_of_superset := by
    intro s t ⟨η, positive, close⟩ sub
    exact ⟨η, positive, fun tol h₁ h₂ h₃ h₄ => sub (close tol h₁ h₂ h₃ h₄)⟩
  inter_sets := by
    intro s t ⟨η, positive, close⟩ ⟨ε, positive', close'⟩
    refine ⟨min η ε, lt_min positive positive', fun tol det small feas near => ⟨?_, ?_⟩⟩
    · exact close tol det (small.trans_le (min_le_left _ _)) feas
        (near.trans_le (add_le_add_right (min_le_left _ _) _))
    · exact close' tol det (small.trans_le (min_le_right _ _)) feas
        (near.trans_le (add_le_add_right (min_le_right _ _) _))

variable {feas : α}

theorem eventually_above_iff {P : Tolerance α → Prop} :
    (∀ᶠ tol in above feas, P tol) ↔ ∃ η, 0 < η ∧ ∀ tol : Tolerance α, 0 ≤ tol.det →
      tol.det < η → feas ≤ tol.feas → tol.feas < feas + η → P tol := Iff.rfl

theorem exists_of_eventually_above_zero {P : Tolerance α → Prop} (h : ∀ᶠ tol in above (0 : α), P tol) :
    ∃ η : α, 0 < η ∧ ∀ tol : Tolerance α, 0 ≤ tol.det → tol.det < η → 0 ≤ tol.feas → tol.feas < η →
      P tol := by
  obtain ⟨η, positive, close⟩ := eventually_above_iff.mp h
  refine ⟨η, positive, fun tol det small feas near => close tol det small feas ?_⟩
  rwa [zero_add]

theorem exists_det_of_eventually_above {P : Tolerance α → Prop} (h : ∀ᶠ tol in above feas, P tol) :
    ∃ η : α, 0 < η ∧ ∀ det : α, 0 ≤ det → det < η → P ⟨det, feas⟩ := by
  obtain ⟨η, positive, close⟩ := eventually_above_iff.mp h
  exact ⟨η, positive, fun det nonneg small =>
    close ⟨det, feas⟩ nonneg small le_rfl (lt_add_of_pos_right feas positive)⟩

/-- What holds close above holds at the threshold itself. -/
theorem of_eventually_above {P : Tolerance α → Prop} (h : ∀ᶠ tol in above feas, P tol) :
    P ⟨0, feas⟩ := by
  obtain ⟨η, positive, close⟩ := eventually_above_iff.mp h
  exact close ⟨0, feas⟩ le_rfl positive le_rfl (lt_add_of_pos_right feas positive)

theorem eventually_forall_mem {ι : Type v} (xs : List ι) {P : ι → Tolerance α → Prop}
    (h : ∀ x ∈ xs, ∀ᶠ tol in above feas, P x tol) : ∀ᶠ tol in above feas, ∀ x ∈ xs, P x tol :=
  (Filter.eventually_all_finite xs.finite_toSet).mpr h

theorem eventually_le_det_iff (x : α) : ∀ᶠ tol in above feas, (x ≤ tol.det ↔ x ≤ 0) := by
  by_cases positive : 0 < x
  · refine ⟨x, positive, fun tol _ small _ _ => ?_⟩
    exact iff_of_false (not_le.mpr small) (not_le.mpr positive)
  · refine ⟨1, one_pos, fun tol det _ _ _ => ?_⟩
    exact iff_of_true ((not_lt.mp positive).trans det) (not_lt.mp positive)

theorem eventually_lt_neg_det_iff (c : α) : ∀ᶠ tol in above feas, (c < -tol.det ↔ c < -0) := by
  filter_upwards [eventually_le_det_iff (-c)] with tol decides
  have exceeds := not_congr decides
  rw [not_le, not_le] at exceeds
  exact lt_neg.trans (exceeds.trans lt_neg.symm)

theorem eventually_le_feas_iff (x : α) : ∀ᶠ tol in above feas, (x ≤ tol.feas ↔ x ≤ feas) := by
  by_cases beyond : feas < x
  · refine ⟨x - feas, sub_pos.mpr beyond, fun tol _ _ _ near => ?_⟩
    rw [add_sub_cancel] at near
    exact iff_of_false (not_le.mpr near) (not_le.mpr beyond)
  · refine ⟨1, one_pos, fun tol _ _ larger _ => ?_⟩
    exact iff_of_true ((not_lt.mp beyond).trans larger) (not_lt.mp beyond)

end Tolerance

/-- The value does not change between the threshold and the tolerances close above it. -/
def Steady {β : Sort v} (feas : α) (f : Tolerance α → β) : Prop :=
  ∀ᶠ tol in Tolerance.above feas, f tol = f ⟨0, feas⟩

variable {n : Nat} {feas : α}

theorem Steady.const {β : Sort v} (b : β) : Steady feas fun _ : Tolerance α => b :=
  Filter.Eventually.of_forall fun _ => rfl

/-- A function that close above the threshold agrees with a steady one. -/
theorem Steady.congr {β : Sort v} {f g : Tolerance α → β} (hg : Steady feas g)
    (agree : ∀ᶠ tol in Tolerance.above feas, f tol = g tol) : Steady feas f := by
  have same := Tolerance.of_eventually_above agree
  filter_upwards [hg, agree] with tol constant agrees
  rw [agrees, constant, same]

/-! ## Geometry -/

section Geometry

theorem Vec.isZero_steady (v : Vec α n) : Steady feas fun tol => v.isZero tol.det := by
  filter_upwards [Tolerance.eventually_le_det_iff v.length] with tol decides
  exact decide_eq_decide.mpr decides

theorem HalfSpace.containsWithin_steady (h : HalfSpace α n) (p : Point α n) :
    Steady feas fun tol => h.containsWithin p tol.feas := by
  filter_upwards [Tolerance.eventually_le_feas_iff (h.boundary.signedDistance p)] with tol decides
  exact decide_eq_decide.mpr decides

variable (frame : Frame α n)

theorem Plane.reduce_steady (plane : Plane α (n + 1)) :
    Steady feas fun tol => plane.reduce frame tol := by
  filter_upwards [(frame.pullBack plane.normal).isZero_steady] with tol same
  simp only [reduce, same]

theorem HalfSpace.reduce_steady (h : HalfSpace α (n + 1)) :
    Steady feas fun tol => h.reduce frame tol := by
  filter_upwards [h.boundary.reduce_steady frame, h.containsWithin_steady frame.plane.point] with
    tol trace sample
  rw [reduce, reduce, trace, sample]

theorem Frame.traces_steady (hs : List (HalfSpace α (n + 1))) :
    Steady feas fun tol => frame.traces tol hs := by
  induction hs with
  | nil => exact Steady.const _
  | cons h hs ih =>
    filter_upwards [h.reduce_steady frame, ih] with tol first others
    rw [traces, traces, first, others]

theorem Plane.mapM_reduce_steady (planes : List (Plane α (n + 1))) :
    Steady feas fun tol => planes.mapM fun plane => plane.reduce frame tol := by
  induction planes with
  | nil => exact Steady.const _
  | cons plane planes ih =>
    filter_upwards [plane.reduce_steady frame, ih] with tol first others
    rw [List.mapM_cons, List.mapM_cons, first, others]

/-- The induction is on the dimension: the planes of the chart are those found without a tolerance. -/
theorem Plane.meet_steady (planes : List (Plane α n)) : Steady feas fun tol => meet tol planes := by
  induction n with
  | zero => exact Steady.const none
  | succ n ih =>
    match n, planes with
    | _, [] => exact Steady.const none
    | 0, first :: rest => exact Steady.const (if rest.isEmpty then some first.point else none)
    | n + 1, first :: rest =>
      cases trace : rest.mapM fun plane => plane.reduce (Frame.on first) (⟨0, feas⟩ : Tolerance α) with
      | none =>
        filter_upwards [mapM_reduce_steady (Frame.on first) rest] with tol traces
        simp only [meet, traces, trace, Option.bind_eq_bind, Option.bind_none]
      | some reduced =>
        filter_upwards [mapM_reduce_steady (Frame.on first) rest, ih reduced] with tol traces met
        simp only [meet, traces, trace, Option.bind_eq_bind, Option.bind_some, met]

end Geometry

/-! ## Vertices and the line -/

theorem vertices_steady (halfSpaces : List (HalfSpace α n)) :
    Steady feas fun tol => vertices tol halfSpaces := by
  -- The meeting points come first: which ones are tested must not depend on the tolerance.
  have meets : ∀ᶠ tol in Tolerance.above feas, ∀ chosen ∈ choices n halfSpaces,
      Plane.meet tol (chosen.map HalfSpace.boundary) =
        Plane.meet ⟨0, feas⟩ (chosen.map HalfSpace.boundary) :=
    Tolerance.eventually_forall_mem _ fun chosen _ => Plane.meet_steady _
  have inside : ∀ᶠ tol in Tolerance.above feas, ∀ chosen ∈ choices n halfSpaces,
      ∀ v ∈ (Plane.meet ⟨0, feas⟩ (chosen.map HalfSpace.boundary)).toList, ∀ h ∈ halfSpaces,
        h.containsWithin v tol.feas = h.containsWithin v feas :=
    Tolerance.eventually_forall_mem _ fun chosen _ => Tolerance.eventually_forall_mem _ fun v _ =>
      Tolerance.eventually_forall_mem _ fun h _ => h.containsWithin_steady v
  filter_upwards [meets, inside] with tol meets inside
  refine List.filterMap_congr fun chosen choice => ?_
  rw [meets chosen choice]
  cases met : Plane.meet (⟨0, feas⟩ : Tolerance α) (chosen.map HalfSpace.boundary) with
  | none => rfl
  | some v =>
    have same := inside chosen choice v (by simp [met])
    have all : (halfSpaces.all fun h => h.containsWithin v tol.feas) =
        halfSpaces.all fun h => h.containsWithin v feas := by
      rw [Bool.eq_iff_iff, List.all_eq_true, List.all_eq_true]
      exact forall₂_congr fun h hh => by rw [same h hh]
    simp only [Option.bind_eq_bind, Option.bind_some, all]

theorem bestVertex?_steady (direction : Vec α n) (halfSpaces : List (HalfSpace α n)) :
    Steady feas fun tol => bestVertex? tol direction halfSpaces := by
  filter_upwards [vertices_steady halfSpaces] with tol same
  rw [bestVertex?, bestVertex?, same]

namespace Interval

variable (range : Interval α) (c : α)

theorem isEmpty_steady : Steady feas fun tol => range.isEmpty tol := by
  obtain ⟨lower, upper⟩ := range
  match lower, upper with
  | none, _ => exact Steady.const false
  | some lo, none => exact Steady.const false
  | some lo, some hi =>
    -- Only two bounded ends are compared, and the distance between them is a fixed value.
    filter_upwards [Tolerance.eventually_le_feas_iff (lo - hi)] with tol decides
    have apart : hi + tol.feas < lo ↔ hi + feas < lo := by
      rw [← lt_sub_iff_add_lt', ← lt_sub_iff_add_lt', ← not_le, ← not_le, decides]
    exact decide_eq_decide.mpr apart

theorem bestEnd_steady : Steady feas fun tol => range.bestEnd tol c := by
  filter_upwards [Tolerance.eventually_lt_neg_det_iff c] with tol decides
  simp only [bestEnd, decides]

theorem settle_steady : Steady feas fun tol => range.settle tol c := by
  filter_upwards [range.isEmpty_steady, range.bestEnd_steady c] with tol empty best
  rw [settle, settle, empty, best]

theorem insert_steady (state : Option (Interval α × Solution α 1)) (h : HalfSpace α 1) :
    Steady feas fun tol => insert tol c state h := by
  match state with
  | none => exact Steady.const _
  | some (range, _) =>
    filter_upwards [(range.tighten h).settle_steady c] with tol same
    rw [insert, insert, same]

end Interval

end LowDimLP
