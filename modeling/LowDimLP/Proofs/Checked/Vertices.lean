import LowDimLP.Solver.Vertices
import LowDimLP.Proofs.Checked.Geometry
import LowDimLP.Proofs.Choices
/-!
# The checked scan for the best vertex

Meeting planes and trying all choices of boundaries, with the accepted half-spaces asked for by their
position. The positions of a choice are below the number of half-spaces, and every reduction on the way to a
meeting point stays in one dimension, so the scan finds what the typed scan finds (`bestVertex_rows`).
-/

namespace LowDimLP

namespace Checked

variable {α : Type} [Scalar α] {n : Nat}

/-- The trace of a plane in the chart of another, where both have one dimension, above the line. -/
def common (first plane : PlaneRows α) (tol : Tolerance α) : Except Fault (Option (PlaneRows α)) := do
  if first.dim ≠ plane.dim then return none
  else
    match ← FrameRows.on first with
    | .error _ => return none
    | .ok frame => plane.reduce frame tol

/-- The traces of planes in the chart of another; none as soon as one has none. -/
def charted (first : PlaneRows α) (tol : Tolerance α) :
    List (PlaneRows α) → Except Fault (Option (List (PlaneRows α)))
  | [] => return some []
  | plane :: planes => do
    match ← common first plane tol with
    | none => return none
    | some r => return (← charted first tol planes).map (r :: ·)

/-- The common point of as many planes as there are dimensions, at most `depth` of them. -/
def meet (tol : Tolerance α) : Nat → List (PlaneRows α) → Except Fault (Option (List α))
  | _, [] => return none
  | 0, _ :: _ => .error .depth
  | depth + 1, first :: rest => do
    if rest.length + 1 ≠ first.dim then return none
    else if rest.isEmpty then return some first.point
    else
      match ← charted first tol rest with
      | none => return none
      | some reduced =>
        match ← meet tol depth reduced with
        | none => return none
        | some q =>
          match ← FrameRows.on first with
          | .error _ => return none
          | .ok frame => return some (← frame.lift q)

/-- Keeps the first of the points with the smallest value so far. -/
def keepBetter (direction : List α) : Option (List α × α) → List α → Option (List α × α)
  | none, v => some (v, eval direction v)
  | some (best, value), v =>
    let new := eval direction v
    if new < value then some (v, new) else some (best, value)

/-- Looks at the half-spaces at the chosen positions. -/
def consider (tol : Tolerance α) (direction : List α) (accepted : List (PlaneRows α))
    (best : Option (List α × α)) (chosen : List Nat) : Except Fault (Option (List α × α)) := do
  let planes ← chosen.mapM (entry accepted)
  match ← meet tol direction.length planes with
  | none => return best
  | some v =>
    return if accepted.all fun h => h.containsWithin v tol.feas then keepBetter direction best v else best

/-- The first vertex with the smallest value. -/
def bestVertex (tol : Tolerance α) (direction : List α) (accepted : List (PlaneRows α)) :
    Except Fault (Option (List α)) := do
  let positions := choices direction.length (List.range accepted.length)
  return (← positions.foldlM (consider tol direction accepted) none).map Prod.fst

/-! ## Meeting -/

theorem common_rows (first plane : Plane α (n + 2)) (tol : Tolerance α) :
    common first.rows plane.rows tol = .ok ((plane.reduce (Frame.on first) tol).map Plane.rows) := by
  rw [common, Plane.dim_rows, Plane.dim_rows, if_neg (by simp), on_rows, ok_bind]
  exact reduce_rows plane (Frame.on first) tol

theorem charted_rows (first : Plane α (n + 2)) (tol : Tolerance α) (planes : List (Plane α (n + 2))) :
    charted first.rows tol (planes.map Plane.rows) =
      .ok ((planes.mapM fun plane => Plane.reduce plane (Frame.on first) tol).map (List.map Plane.rows)) := by
  induction planes with
  | nil => rfl
  | cons plane planes ih =>
    rw [List.map_cons, charted, common_rows, ok_bind, List.mapM_cons]
    cases plane.reduce (Frame.on first) tol with
    | none => rfl
    | some r =>
      simp only [Option.map_some, ih, ok_bind]
      cases planes.mapM fun plane => Plane.reduce plane (Frame.on first) tol <;> rfl

theorem meet_rows (tol : Tolerance α) (planes : List (Plane α (n + 1))) :
    meet tol (n + 1) (planes.map Plane.rows) = .ok ((Plane.meet tol planes).map Point.toList) := by
  induction n with
  | zero =>
    cases planes with
    | nil => rfl
    | cons first rest =>
      cases rest <;> simp [meet, Plane.meet]
  | succ n ih =>
    cases planes with
    | nil => rfl
    | cons first rest =>
      rw [List.map_cons, meet, Plane.dim_rows, List.length_map, Plane.meet]
      by_cases count : rest.length = n + 1
      -- As many planes as dimensions, two at least: the others are charted, and one dimension is gone.
      · have more : ¬rest.isEmpty = true := by simp [← List.length_eq_zero_iff, count]
        rw [if_neg (by omega), if_pos count, List.isEmpty_map, if_neg more, charted_rows]
        simp only [ok_bind, Option.bind_eq_bind]
        cases rest.mapM fun plane => Plane.reduce plane (Frame.on first) tol with
        | none => rfl
        | some reduced =>
          simp only [Option.map_some, ih, ok_bind, Option.bind_some]
          cases Plane.meet tol reduced with
          | none => rfl
          | some q =>
            simp only [Option.map_some, on_rows, ok_bind, lift_rows, Option.bind_some]
            rfl
      · rw [if_pos (by omega), if_neg count]
        rfl

/-! ## Scanning -/

theorem keepBetter_rows (direction : Vec α n) (best : Option (Point α n × α)) (v : Point α n) :
    keepBetter direction.toList (best.map (Prod.map Point.toList id)) v.toList =
      (LowDimLP.keepBetter direction best v).map (Prod.map Point.toList id) := by
  cases best with
  | none => simp [keepBetter, LowDimLP.keepBetter, eval_toList]
  | some best =>
    obtain ⟨p, value⟩ := best
    simp only [keepBetter, LowDimLP.keepBetter, Option.map_some, Prod.map, eval_toList, id_eq]
    split <;> rfl

/-- What the scan keeps after a choice: the better of the kept vertex and the one of the choice. -/
def kept (tol : Tolerance α) (direction : Vec α n) (accepted : List (HalfSpace α n))
    (best : Option (Point α n × α)) (chosen : List (HalfSpace α n)) : Option (Point α n × α) :=
  match Plane.meet tol (chosen.map HalfSpace.boundary) with
  | none => best
  | some v =>
    if accepted.all fun h => h.containsWithin v tol.feas then LowDimLP.keepBetter direction best v else best

theorem bestVertex?_eq_foldl (tol : Tolerance α) (direction : Vec α n) (accepted : List (HalfSpace α n)) :
    bestVertex? tol direction accepted =
      ((choices n accepted).foldl (kept tol direction accepted) none).map Prod.fst := by
  rw [bestVertex?, vertices, List.foldl_filterMap]
  congr 2
  funext best chosen
  rw [kept]
  cases Plane.meet tol (chosen.map HalfSpace.boundary) with
  | none => rfl
  | some v =>
    simp only [Option.bind_eq_bind, Option.bind_some]
    by_cases inside : accepted.all fun h => h.containsWithin v tol.feas
    · simp only [inside, if_true]
      rfl
    · simp only [inside, Bool.false_eq_true, if_false]

theorem consider_rows (tol : Tolerance α) (direction : Vec α (n + 1))
    (accepted : List (HalfSpace α (n + 1))) (best : Option (Point α (n + 1) × α))
    (chosen : List (Fin accepted.length)) :
    consider tol direction.toList (accepted.map HalfSpace.rows) (best.map (Prod.map Point.toList id))
        (chosen.map Fin.val) =
      .ok ((kept tol direction accepted best (chosen.map accepted.get)).map
        (Prod.map Point.toList id)) := by
  have planes : (chosen.map Fin.val).mapM (entry (accepted.map HalfSpace.rows)) =
      .ok (((chosen.map accepted.get).map HalfSpace.boundary).map Plane.rows) := by
    rw [List.map_map, List.map_map]
    refine mapM_map_eq_pure Fin.val fun i _ => ?_
    rw [entry_eq_ok (by simp)]
    simp [HalfSpace.rows]
  rw [consider, planes, ok_bind, length_vec, meet_rows, ok_bind, kept]
  cases Plane.meet tol ((chosen.map accepted.get).map HalfSpace.boundary) with
  | none => rfl
  | some v =>
    simp only [Option.map_some, List.all_map, Function.comp_def, containsWithin_rows, keepBetter_rows,
      pure_eq_ok]
    split <;> rfl

theorem bestVertex_rows (tol : Tolerance α) (direction : Vec α (n + 1))
    (accepted : List (HalfSpace α (n + 1))) :
    bestVertex tol direction.toList (accepted.map HalfSpace.rows) =
      .ok ((bestVertex? tol direction accepted).map Point.toList) := by
  -- Positions and half-spaces are both images of the indices, so their choices go together.
  have positions : choices (n + 1) (List.range (accepted.map HalfSpace.rows).length) =
      (choices (n + 1) (List.finRange accepted.length)).map (List.map Fin.val) := by
    rw [List.length_map, ← List.map_coe_finRange_eq_range, choices_map]
  have scan : ((choices (n + 1) (List.finRange accepted.length)).map (List.map Fin.val)).foldlM
      (consider tol direction.toList (accepted.map HalfSpace.rows)) none = _ :=
    foldlM_map_eq_pure (Option.map (Prod.map Point.toList id)) (List.map Fin.val) _
      (fun best chosen _ => consider_rows tol direction accepted best chosen) none
  have same : (choices (n + 1) (List.finRange accepted.length)).map (List.map accepted.get) =
      choices (n + 1) accepted := by
    rw [← choices_map, List.map_get_finRange]
  rw [bestVertex, length_vec, bestVertex?_eq_foldl, ← same, List.foldl_map]
  simp only [positions, scan, ok_bind, pure_eq_ok, Option.map_map]
  rfl

end Checked

end LowDimLP
