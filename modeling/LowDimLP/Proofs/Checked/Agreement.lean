import LowDimLP.Proofs.Solver.Branches
import LowDimLP.Proofs.Checked.Level
/-!
# Checked levels agree with typed ones

On the rows of half-spaces and a direction of one dimension, a checked level ends without a fault in what the
typed level gives (`runValid_agrees`), by induction on the dimension. The level below is asked only with a
chart's bounds, so with a list that has a head, and on the line it is never asked: the bound on the recursion is
the dimension.
-/

namespace LowDimLP.Checked

variable {σ α : Type} [Scalar α] {n : Nat} {tol : Tolerance α}

/-- A level of the program does for a problem of R^n with a half-space what the typed level does. -/
def Follows (below' : SolverOf σ α) (below : LowDimLP.SolverOf σ α n) : Prop :=
  ∀ (halfSpaces : List (HalfSpace α n)) (direction : Vec α n), halfSpaces ≠ [] →
    (below' (halfSpaces.map HalfSpace.rows) direction.toList).Agrees Solution.rows
      (below halfSpaces direction)

omit [Scalar α] in
theorem tagged_rows (bounded : Bool) (p : Point α n) :
    (Level.tagged bounded (some p)).rows = SolutionRows.tagged bounded p.toList := by
  cases bounded <;> rfl

section Above

variable {below' : SolverOf σ α} {below : LowDimLP.SolverOf σ α (n + 1)} {direction : Vec α (n + 2)}
  (follows : Follows below' below)

include follows

theorem descend_agrees (accepted : List (HalfSpace α (n + 2))) (h : HalfSpace α (n + 2)) (bounded : Bool) :
    (descend below' tol direction.toList (accepted.map HalfSpace.rows) h.rows bounded).Agrees
      Solution.rows (Level.descend below tol direction accepted h bounded) := by
  rw [Level.descend_eq]
  refine Run.Agrees.check' (on_rows h.boundary) ?_
  refine Run.Agrees.check' (traces_rows (Frame.on h.boundary) tol accepted) ?_
  match (Frame.on h.boundary).traces tol accepted with
  | none => exact Run.Agrees.pure' rfl
  | some [] => exact Run.Agrees.pure' (tagged_rows bounded _)
  | some (r :: rs) =>
    -- Only here is the level below asked, and the list that it gets has a head.
    refine Run.Agrees.check' (pullBack_rows (Frame.on h.boundary) direction) ?_
    refine Run.Agrees.bind' (follows (r :: rs) _ (by simp)) fun solution => ?_
    simp only [Solution.point?_rows]
    cases solution.point? with
    | none => exact Run.Agrees.pure' rfl
    | some q => exact Run.Agrees.check' (lift_rows _ q) (Run.Agrees.pure' (tagged_rows bounded _))

theorem objectiveBounded_agrees (halfSpaces : List (HalfSpace α (n + 2))) :
    (objectiveBounded below' tol direction.toList (halfSpaces.map HalfSpace.rows)).Agrees id
      (Level.objectiveBounded below tol direction halfSpaces) := by
  have recessions : (halfSpaces.map HalfSpace.rows).map PlaneRows.throughOrigin =
      (halfSpaces.map HalfSpace.recession).map HalfSpace.rows := by
    simp [HalfSpace.rows, throughOrigin_rows, HalfSpace.recession]
  simp only [Level.objectiveBounded_eq, Vec.isZero, decide_eq_true_eq]
  refine Run.Agrees.check' (norm_toList direction) ?_
  refine Run.Agrees.ite' (fun _ => Run.Agrees.pure' rfl) fun _ => ?_
  refine Run.Agrees.check' (ofEquation_toList direction _) ?_
  cases Plane.ofEquation direction (-direction.length) with
  | error e => exact Run.Agrees.throw' _
  | ok slice =>
    refine Run.Agrees.check' (on_rows slice) ?_
    rw [recessions]
    refine Run.Agrees.check' (traces_rows (Frame.on slice) tol _) ?_
    dsimp only
    rcases (Frame.on slice).traces tol (halfSpaces.map HalfSpace.recession) with _ | _ | ⟨r, rs⟩
    · exact Run.Agrees.pure' rfl
    · exact Run.Agrees.pure' rfl
    · -- The direction has a coordinate to give up, and one more for the zero vector of the chart.
      have lower : oneLess direction.toList.length = .ok (n + 1) := by rw [length_vec]; rfl
      refine Run.Agrees.check' lower ?_
      have origin : List.replicate (n + 1) 0 = (Vec.zero : Vec α (n + 1)).toList := by
        simp [Vec.zero, Vec.toList]
      simp only [zeros, origin]
      refine Run.Agrees.bind' (follows (r :: rs) Vec.zero (by simp)) fun solution => ?_
      exact Run.Agrees.pure' (Solution.isInfeasible_rows solution).symm

theorem keepOrDescend_agrees (accepted : List (HalfSpace α (n + 2))) (h : HalfSpace α (n + 2))
    (p : Point α (n + 2)) (bounded : Bool) :
    (keepOrDescend below' tol direction.toList (accepted.map HalfSpace.rows) h.rows p.toList bounded).Agrees
      Solution.rows (Level.keepOrDescend below tol direction accepted h p bounded) := by
  rw [keepOrDescend, containsWithin_rows]
  exact Run.Agrees.ite' (fun _ => Run.Agrees.pure' (tagged_rows bounded p))
    fun _ => descend_agrees follows accepted h bounded

theorem insertUnsettled_agrees (accepted : List (HalfSpace α (n + 2))) (p : Point α (n + 2))
    (h : HalfSpace α (n + 2)) :
    (insertUnsettled below' tol direction.toList (accepted.map HalfSpace.rows) p.toList h.rows).Agrees
      Solution.rows (Level.insertUnsettled below tol direction accepted p h) := by
  have longer : accepted.map HalfSpace.rows ++ [h.rows] = (accepted ++ [h]).map HalfSpace.rows := by simp
  rw [Level.insertUnsettled_eq, insertUnsettled, List.length_map, longer]
  have tested : (if accepted.length = 1 then
        objectiveBounded below' tol direction.toList (accepted.map HalfSpace.rows) else pure false).Agrees id
      (if accepted.length = 1 then Level.objectiveBounded below tol direction accepted else pure false) :=
    Run.Agrees.ite' (fun _ => objectiveBounded_agrees follows accepted) fun _ => Run.Agrees.pure' rfl
  refine Run.Agrees.bind' tested fun settled => ?_
  refine Run.Agrees.ite' (fun _ => keepOrDescend_agrees follows accepted h p true) fun _ => ?_
  refine Run.Agrees.bind' (objectiveBounded_agrees follows (accepted ++ [h])) fun bounded => ?_
  exact Run.Agrees.ite' (fun _ => descend_agrees follows accepted h true)
    fun _ => keepOrDescend_agrees follows accepted h p false

theorem insert_agrees (accepted : List (HalfSpace α (n + 2))) (state : Option (Solution α (n + 2)))
    (h : HalfSpace α (n + 2)) (range : Interval α) :
    (insert below' tol direction.toList range (accepted.map HalfSpace.rows) (state.map Solution.rows)
        h.rows).Agrees Solution.rows (Level.insert below tol direction accepted state h) := by
  have above : direction.toList.length ≠ 1 := by simp
  cases state with
  | none => exact Run.Agrees.pure' rfl
  | some solution =>
    cases solution with
    | minimum p =>
      simp only [insert, Option.map_some, Solution.rows, if_neg above]
      exact keepOrDescend_agrees follows accepted h p true
    | ambiguous p =>
      simp only [insert, Option.map_some, Solution.rows, if_neg above]
      exact insertUnsettled_agrees follows accepted p h
    | infeasible => exact Run.Agrees.pure' rfl

/-- Above the line the range stays the whole line. -/
theorem turn_agrees (accepted : List (HalfSpace α (n + 2))) (state : Option (Solution α (n + 2)))
    (h : HalfSpace α (n + 2)) :
    (turn below' tol direction.toList (accepted.map HalfSpace.rows)
        (state.map fun solution => (Interval.line, solution.rows)) h.rows).Agrees
      (fun solution => (Interval.line, solution.rows)) (Level.insert below tol direction accepted state h) := by
  have above : direction.toList.length ≠ 1 := by simp
  have whole : ((state.map fun solution => (Interval.line (α := α), solution.rows)).map Prod.fst).getD
      Interval.line = Interval.line := by
    cases state <;> rfl
  have last : (state.map fun solution => (Interval.line (α := α), solution.rows)).map Prod.snd =
      state.map Solution.rows := by
    cases state <;> rfl
  rw [turn, if_neg above, whole, last]
  exact (insert_agrees follows accepted state h Interval.line).map' _

end Above

section Line

variable (below' : SolverOf σ α) (direction : Vec α 1)

/-- On the line nothing is framed, so the level below is not asked. -/
theorem insert_line (range : Interval α) (accepted : List (PlaneRows α)) (solution : Solution α 1)
    (h : PlaneRows α) (going : solution.isInfeasible = false) :
    insert below' tol direction.toList range accepted (some solution.rows) h =
      pure (range.settle tol (direction.coord 0)).rows := by
  have line : direction.toList.length = 1 := by simp
  have settled : settleRange range tol (coord direction.toList 0) =
      (range.settle tol (direction.coord 0)).rows := by
    rw [coord_vec, settleRange, Interval.settle]
    split <;> rfl
  cases solution with
  | minimum p => simp only [insert, Solution.rows, if_pos line, settled]
  | ambiguous p => simp only [insert, Solution.rows, if_pos line, settled]
  | infeasible => cases going

theorem turn_agrees_line (accepted : List (PlaneRows α)) (state : Option (Interval α × Solution α 1))
    (h : HalfSpace α 1) (going : ∀ last ∈ state, last.2.isInfeasible = false) :
    (turn below' tol direction.toList accepted (state.map (Prod.map id Solution.rows)) h.rows).Agrees
      (Prod.map id Solution.rows)
      (pure (Interval.insert tol (direction.coord 0) state h) : LowDimLP.Run σ _) := by
  have tightened (range : Interval α) : tighten range h.rows = range.tighten h := by
    simp [tighten, Interval.tighten, HalfSpace.rows]
  rw [turn, if_pos (by simp)]
  cases state with
  | none =>
    simp only [Option.map_none, Option.getD_none, insert, tightened]
    exact Run.Agrees.pure' rfl
  | some last =>
    have inserted (range : Interval α) :
        insert below' tol direction.toList range accepted (some last.2.rows) h.rows = _ :=
      insert_line below' direction range accepted last.2 h.rows (going last rfl)
    simp only [Option.map_some, Option.getD_some, Prod.map, id_eq, tightened, inserted]
    exact Run.Agrees.pure' rfl

end Line

/-! ## A level -/

/-- Above the line the last step looks for a vertex. -/
theorem settle_agrees (direction : Vec α (n + 2)) (accepted : List (HalfSpace α (n + 2)))
    (solution : Solution α (n + 2)) :
    (settle tol direction.toList (accepted.map HalfSpace.rows) solution.rows).Agrees Solution.rows
      (pure (Level.settle tol direction accepted solution) : LowDimLP.Run σ _) := by
  cases solution with
  | minimum p => exact Run.Agrees.pure' rfl
  | infeasible => exact Run.Agrees.pure' rfl
  | ambiguous p =>
    have above : 1 < direction.toList.length := by simp
    simp only [settle, Solution.rows, if_pos above, Level.settle]
    refine Run.Agrees.check' (bestVertex_rows tol direction accepted) ?_
    cases bestVertex? tol direction accepted <;> exact Run.Agrees.pure' rfl

/-- On the line it looks for none. -/
theorem settle_agrees_line (direction : Vec α 1) (accepted : List (PlaneRows α)) (solution : Solution α 1) :
    (settle tol direction.toList accepted solution.rows).Agrees Solution.rows
      (pure solution : LowDimLP.Run σ _) := by
  cases solution with
  | minimum p => exact Run.Agrees.pure' rfl
  | infeasible => exact Run.Agrees.pure' rfl
  | ambiguous p =>
    have line : ¬1 < direction.toList.length := by simp
    simp only [settle, Solution.rows, if_neg line]
    exact Run.Agrees.pure' rfl

variable [PickSource σ]

theorem runValid_agrees_line (below' : SolverOf σ α) (halfSpaces : List (HalfSpace α 1))
    (direction : Vec α 1) :
    (runValid below' tol (halfSpaces.map HalfSpace.rows) direction.toList).Agrees Solution.rows
      (Level.solveLine tol halfSpaces direction) := by
  have loop : (insertAll (turn below' tol direction.toList) (fun state => state.2.isInfeasible)
      (halfSpaces.map HalfSpace.rows).length (halfSpaces.map HalfSpace.rows) [] none).Agrees
      (Prod.map (List.map HalfSpace.rows) (Option.map (Prod.map id Solution.rows)))
      (LowDimLP.insertAll (σ := σ) (fun _ state h => pure (Interval.insert tol (direction.coord 0) state h))
        (fun state => state.2.isInfeasible) (Level.pending halfSpaces) [] none) := by
    rw [List.length_map]
    exact insertAll_agrees
      (fun accepted state h going => turn_agrees_line below' direction _ state h going)
      (fun state => Solution.isInfeasible_rows state.2) (Level.pending halfSpaces) [] none (by simp)
  refine Run.Agrees.bind' loop fun ⟨accepted, state⟩ => ?_
  cases state with
  | none => exact Run.Agrees.throw' _
  | some last => exact settle_agrees_line direction _ last.2

theorem runValid_agrees_above {below' : SolverOf σ α} {below : LowDimLP.SolverOf σ α (n + 1)}
    (follows : Follows below' below) (halfSpaces : List (HalfSpace α (n + 2)))
    (direction : Vec α (n + 2)) :
    (runValid below' tol (halfSpaces.map HalfSpace.rows) direction.toList).Agrees Solution.rows
      (Level.solveAbove below tol halfSpaces direction) := by
  have loop : (insertAll (turn below' tol direction.toList) (fun state => state.2.isInfeasible)
      (halfSpaces.map HalfSpace.rows).length (halfSpaces.map HalfSpace.rows) [] none).Agrees
      (Prod.map (List.map HalfSpace.rows)
        (Option.map fun solution : Solution α (n + 2) => (Interval.line, solution.rows)))
      (LowDimLP.insertAll (Level.insert below tol direction) Solution.isInfeasible
        (Level.pending halfSpaces) [] none) := by
    rw [List.length_map]
    exact insertAll_agrees (fun accepted state h _ => turn_agrees follows accepted state h)
      Solution.isInfeasible_rows (Level.pending halfSpaces) [] none (by simp)
  refine Run.Agrees.bind' loop fun ⟨accepted, state⟩ => ?_
  cases state with
  | none => exact Run.Agrees.throw' _
  | some last => exact settle_agrees direction accepted last

omit [PickSource σ] in
theorem validate_rows {halfSpaces : List (HalfSpace α n)} (nonempty : halfSpaces ≠ [])
    (direction : Vec α n) :
    (validate (halfSpaces.map HalfSpace.rows) direction.toList : Run σ Unit) =
      if direction.isFinite then pure () else throw .nonFiniteDirection := by
  -- A typed half-space has as many rows as the direction, so no index is reported.
  have fits : ((halfSpaces.map HalfSpace.rows).zipIdx.find?
      fun h => h.1.dim ≠ direction.toList.length) = none := by
    rw [List.find?_eq_none]
    intro ⟨h, index⟩ member
    obtain ⟨typed, -, same⟩ := List.mem_map.mp (List.fst_mem_of_mem_zipIdx member)
    subst same
    simp [HalfSpace.rows]
  have some_row : (halfSpaces.map HalfSpace.rows).isEmpty = false := by simpa using nonempty
  have numbers : direction.toList.all Scalar.isFinite = direction.isFinite := rfl
  simp only [validate, some_row, Bool.false_eq_true, if_false, fits, numbers]
  cases direction.isFinite <;> rfl

/-- Validating asks for nothing but a finite direction once the problem is typed. -/
theorem level_follows {depth : Nat} {run : LowDimLP.SolverOf σ α n}
    (agrees : ∀ halfSpaces direction, direction.isFinite = true →
      (runValid (level tol depth) tol (halfSpaces.map HalfSpace.rows) direction.toList).Agrees
        Solution.rows (run halfSpaces direction))
    (refuses : ∀ halfSpaces direction, direction.isFinite = false →
      run halfSpaces direction = throw .nonFiniteDirection) :
    Follows (level tol (depth + 1)) run := by
  intro halfSpaces direction nonempty
  rw [level, validate_rows nonempty]
  cases finite : direction.isFinite with
  | true => exact agrees halfSpaces direction finite
  | false =>
    rw [refuses halfSpaces direction finite]
    exact Run.Agrees.throw' _

/-- The run of a valid problem agrees at every dimension. -/
theorem runValid_agrees (n : Nat) (halfSpaces : List (HalfSpace α (n + 1))) (direction : Vec α (n + 1))
    (finite : direction.isFinite = true) :
    (runValid (level tol n) tol (halfSpaces.map HalfSpace.rows) direction.toList : Run σ _).Agrees
      Solution.rows (Level.solve tol n halfSpaces direction) := by
  induction n with
  | zero =>
    rw [Level.solve, if_pos finite]
    exact runValid_agrees_line _ halfSpaces direction
  | succ n ih =>
    rw [Level.solve, if_pos finite]
    refine runValid_agrees_above (level_follows ih fun halfSpaces direction infinite => ?_) halfSpaces direction
    cases n <;> simp [Level.solve, infinite]

end LowDimLP.Checked
