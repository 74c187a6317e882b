import LowDimLP.Proofs.Solver.Building
import LowDimLP.Proofs.Solver.Correctness
import LowDimLP.Proofs.Solver.Held
/-!
# One run, and a failed one leaves nothing

The users of a solver run it, with any source of randomness and as often as they like, change its tolerances and read
its results, in any order. As an object it stays as it was made until its first run, but for the tolerances
(`Held.AsMade.afterAll`), and from then on nothing but its tolerances changes (`Held.afterAll_of_started`). So its
results are for ever those of the first run, none if that run failed, and no later run draws
(`Solver.first_run_settles`). The solver that each call replaces, in place of changing it, answers the same
(`Held.toSolver_run`, `Held.toSolver_afterAll`).
-/

namespace LowDimLP

/-- What users do with a solver. A run comes with the source that drives it. -/
inductive Solver.Call (α : Type) : Type 1 where
  | run {σ : Type} [PickSource σ] (source : σ)
  | withTolerance (tol : Tolerance α)
  | results

/-- Is it a run? -/
def Solver.Call.isRun {α : Type} : Call α → Bool
  | run _ => true
  | _ => false

variable {σ α : Type} [PickSource σ] [Scalar α] {n : Nat}

namespace Held

/-- The object after a call. -/
def after (held : Held α n) : Solver.Call α → Held α n
  | @Solver.Call.run _ _ _ source => (held.run source).2.1
  | .withTolerance tol => { held with tolerance := tol }
  | .results => held

/-- The object after calls in order. -/
def afterAll (held : Held α n) (calls : List (Solver.Call α)) : Held α n := calls.foldl after held

/-- All accessors show this result. -/
structure Shows (held : Held α n) (result : Option (Solution α (n + 1))) : Prop where
  kind : held.kind? = result.map Solution.kind
  point : held.point? = result.bind Solution.point?
  solution : held.solution? = result

/-- As the object was made, but for its tolerances. -/
structure AsMade (halfSpaces : List (HalfSpace α (n + 1))) (direction : Vec α (n + 1)) (held : Held α n) : Prop where
  pending : held.pending = halfSpaces
  accepted : held.accepted = []
  direction : held.direction = direction
  range : held.range = .line
  state : held.state = none
  started : held.started = false

variable {held : Held α n} {halfSpaces : List (HalfSpace α (n + 1))} {direction : Vec α (n + 1)}

omit [Scalar α] in
theorem shows_of_state {result : Option (Solution α (n + 1))} (state : held.state = result) : held.Shows result := by
  subst state
  exact ⟨rfl, rfl, rfl⟩

omit [Scalar α] in
theorem AsMade.eq_make (made : held.AsMade halfSpaces direction) : held = make halfSpaces direction held.tolerance := by
  obtain ⟨pending, accepted, along, tolerance, range, state, started⟩ := held
  obtain ⟨rfl, rfl, rfl, rfl, rfl, rfl⟩ := made
  rfl

theorem AsMade.after (made : held.AsMade halfSpaces direction) {call : Solver.Call α} (unrun : call.isRun = false) :
    (held.after call).AsMade halfSpaces direction := by
  cases call with
  | run source => cases unrun
  | withTolerance tol => exact ⟨made.pending, made.accepted, made.direction, made.range, made.state, made.started⟩
  | results => exact made

theorem AsMade.afterAll (made : held.AsMade halfSpaces direction) {calls : List (Solver.Call α)}
    (unrun : ∀ call ∈ calls, call.isRun = false) : (held.afterAll calls).AsMade halfSpaces direction := by
  induction calls generalizing held with
  | nil => exact made
  | cons call calls ih =>
    exact ih (made.after (unrun call List.mem_cons_self)) fun later hlater =>
      unrun later (List.mem_cons_of_mem _ hlater)

theorem run_of_started (started : held.started = true) (source : σ) :
    held.run source = (.error .alreadyRun, held, source) := if_pos started

theorem after_of_started (started : held.started = true) (call : Solver.Call α) :
    ∃ tol, held.after call = { held with tolerance := tol } := by
  cases call with
  | run source => exact ⟨held.tolerance, congrArg (·.2.1) (run_of_started started source)⟩
  | withTolerance tol => exact ⟨tol, rfl⟩
  | results => exact ⟨held.tolerance, rfl⟩

theorem afterAll_of_started (started : held.started = true) (calls : List (Solver.Call α)) :
    ∃ tol, held.afterAll calls = { held with tolerance := tol } := by
  induction calls generalizing held with
  | nil => exact ⟨held.tolerance, rfl⟩
  | cons call calls ih =>
    obtain ⟨now, step⟩ := after_of_started started call
    have still : (held.after call).started = true := (congrArg Held.started step).trans started
    obtain ⟨tol, later⟩ := ih still
    refine ⟨tol, later.trans ?_⟩
    rw [step]

/-- The first run answers as the level of the problem, under the tolerances of that moment. -/
theorem run_of_asMade (made : held.AsMade halfSpaces direction) (finite : direction.isFinite = true) (source : σ) :
    Answers held (Level.solve held.tolerance n halfSpaces direction source) (held.run source) := by
  have answers := run_make halfSpaces held.tolerance finite source
  rw [← made.eq_make] at answers
  exact answers

/-! ## The solver that is replaced -/

/-- Where the object stands. -/
def status (held : Held α n) : Status α (n + 1) :=
  if held.started then
    match held.state with
    | some solution => .finished solution
    | none => .failed
  else .ready

/-- The solver of the problem at the same point. -/
def toSolver (halfSpaces : List (HalfSpace α (n + 1))) (held : Held α n) : Solver α :=
  ⟨n, halfSpaces, held.direction, held.tolerance, held.status⟩

/-- An object is as it was made, or it has been run. -/
def Reached (halfSpaces : List (HalfSpace α (n + 1))) (direction : Vec α (n + 1)) (held : Held α n) : Prop :=
  held.AsMade halfSpaces direction ∨ held.started = true

end Held

namespace Solver

/-- The solver after a call. -/
def after (solver : Solver α) : Call α → Solver α
  | @Call.run _ _ _ source => (solver.run source).2.1
  | .withTolerance tol => solver.withTolerance tol
  | .results => solver

/-- The solver after calls in order. -/
def afterAll (solver : Solver α) (calls : List (Call α)) : Solver α := calls.foldl after solver

end Solver

namespace Held

variable {held : Held α n} {halfSpaces : List (HalfSpace α (n + 1))} {direction : Vec α (n + 1)}

omit [PickSource σ] [Scalar α] in
theorem toSolver_of_answers {answer : Except SolverError (Solution α (n + 1)) × σ}
    {ran : Except SolverError ResultKind × Held α n × σ} (answers : Answers held answer ran) :
    ran.2.1.toSolver halfSpaces = ⟨n, halfSpaces, held.direction, held.tolerance,
      match answer.1 with
      | .ok solution => .finished solution
      | .error _ => .failed⟩ := by
  rw [toSolver, status, if_pos answers.started, answers.state, answers.direction, answers.tolerance]
  cases answer.1 <;> rfl

omit [Scalar α] in
theorem Reached.solution?_toSolver (reached : held.Reached halfSpaces direction) :
    (held.toSolver halfSpaces).solution? = held.state := by
  rcases reached with made | started
  · simp [Solver.solution?, toSolver, status, made.started, made.state]
  · cases found : held.state <;> simp [Solver.solution?, toSolver, status, started, found]

/-- A run of the object is a run of the solver at the same point: the same answer, the same draws, and the same point
after it. -/
theorem toSolver_run (finite : direction.isFinite = true) (reached : held.Reached halfSpaces direction) (source : σ) :
    (held.toSolver halfSpaces).run source =
      ((held.run source).1, (held.run source).2.1.toSolver halfSpaces, (held.run source).2.2) := by
  rcases reached with made | started
  · have answers := run_of_asMade made finite source
    have ready : held.status = .ready := if_neg (by simp [made.started])
    rw [toSolver_of_answers answers, answers.kind, answers.source]
    simp only [Solver.run, toSolver, ready, made.direction]
    generalize Level.solve held.tolerance n halfSpaces direction source = answer
    obtain ⟨outcome, rest⟩ := answer
    cases outcome <;> rfl
  · rw [run_of_started started]
    cases found : held.state <;> simp [Solver.run, toSolver, status, started, found]

theorem Reached.after (finite : direction.isFinite = true) (reached : held.Reached halfSpaces direction)
    (call : Solver.Call α) : (held.after call).Reached halfSpaces direction := by
  rcases reached with made | started
  · cases call with
    | run source => exact .inr (run_of_asMade made finite source).started
    | withTolerance tol => exact .inl (made.after rfl)
    | results => exact .inl made
  · obtain ⟨tol, same⟩ := after_of_started started call
    exact .inr ((congrArg Held.started same).trans started)

theorem toSolver_afterAll (finite : direction.isFinite = true) (reached : held.Reached halfSpaces direction)
    (calls : List (Solver.Call α)) : (held.afterAll calls).Reached halfSpaces direction ∧
      (held.afterAll calls).toSolver halfSpaces = (held.toSolver halfSpaces).afterAll calls := by
  induction calls generalizing held with
  | nil => exact ⟨reached, rfl⟩
  | cons call calls ih =>
    have step : (held.after call).toSolver halfSpaces = (held.toSolver halfSpaces).after call := by
      cases call with
      | run source => exact (congrArg (·.2.1) (toSolver_run finite reached source)).symm
      | withTolerance tol => rfl
      | results => rfl
    obtain ⟨later, same⟩ := ih (reached.after finite call)
    refine ⟨later, same.trans ?_⟩
    rw [step]
    rfl

end Held

namespace Solver

/-- The object of a new solver. -/
def held (solver : Solver α) : Held α solver.n := .make solver.halfSpaces solver.direction solver.tolerance

/-- **One run, and a failed one leaves nothing.** Until its first run a solver shows no result. The first run ends as
the level of the problem does, wherever that fails; whatever is done with the solver then, it shows the solution of
the first run, or none if that failed, and refuses every run without a draw or a change. The solvers that calls
replace show and answer the same. -/
theorem first_run_settles {halfSpaces : List (AnyHalfSpace α)} {direction : AnyVec α} {solver : Solver α}
    (built : ofProblem halfSpaces direction = .ok solver) :
    (∀ before : List (Call α), (∀ call ∈ before, call.isRun = false) →
      (solver.held.afterAll before).Shows none ∧
      ∀ {σ : Type} [PickSource σ] (source : σ),
        let ready := solver.held.afterAll before
        let ended := Level.solve ready.tolerance solver.n solver.halfSpaces solver.direction source
        (ready.run source).1 = ended.1.map Solution.kind ∧ (ready.run source).2.2 = ended.2 ∧
        ∀ calls : List (Call α),
          let later := (ready.run source).2.1.afterAll calls
          later.Shows ended.1.toOption ∧
          ∀ {σ : Type} [PickSource σ] (source : σ), later.run source = (.error .alreadyRun, later, source)) ∧
    ∀ calls : List (Call α),
      (solver.held.afterAll calls).toSolver solver.halfSpaces = solver.afterAll calls ∧
      (solver.held.afterAll calls).Shows ((solver.held.afterAll calls).toSolver solver.halfSpaces).solution? ∧
      ∀ {σ : Type} [PickSource σ] (source : σ),
        ((solver.afterAll calls).run source).1 = ((solver.held.afterAll calls).run source).1 ∧
        ((solver.afterAll calls).run source).2.2 = ((solver.held.afterAll calls).run source).2.2 := by
  obtain ⟨-, -, -, finite, ready⟩ := eq_of_ofProblem built
  have made : solver.held.AsMade solver.halfSpaces solver.direction :=
    ⟨rfl, rfl, rfl, rfl, rfl, rfl⟩
  have same : solver.held.toSolver solver.halfSpaces = solver := by
    obtain ⟨n, halfSpaces, direction, tolerance, status⟩ := solver
    obtain rfl : status = .ready := ready
    rfl
  constructor
  · intro before unrun
    have waiting := made.afterAll unrun
    refine ⟨Held.shows_of_state waiting.state, fun {σ} _ source => ?_⟩
    have answers := Held.run_of_asMade waiting finite source
    refine ⟨answers.kind, answers.source, fun calls => ?_⟩
    -- From here on the flag is set, so only the tolerances can change.
    obtain ⟨tol, later⟩ := Held.afterAll_of_started answers.started calls
    refine ⟨Held.shows_of_state ?_, fun source => Held.run_of_started ?_ source⟩
    · exact (congrArg Held.state later).trans answers.state
    · exact (congrArg Held.started later).trans answers.started
  · intro calls
    obtain ⟨reached, along⟩ := Held.toSolver_afterAll finite (.inl made) calls
    rw [same] at along
    refine ⟨along, ?_, fun {σ} _ source => ?_⟩
    · exact Held.shows_of_state reached.solution?_toSolver.symm
    · rw [← along, Held.toSolver_run finite reached]
      exact ⟨rfl, rfl⟩

end Solver

/-- A direction that has no slice but does not count as zero makes the run fail at the second half-space. -/
theorem Level.solve_fails_unsliced {tol : Tolerance α} {direction : Vec α (n + 2)} {e : GeometryError}
    (finite : direction.isFinite = true) (long : direction.isZero tol.det = false)
    (unsliced : Plane.ofEquation direction (-direction.length) = .error e) (g h : HalfSpace α (n + 2))
    (others : List (HalfSpace α (n + 2))) (source : σ) :
    ∃ rest, solve tol (n + 1) (g :: h :: others) direction source = (.error (.geometry e), rest) := by
  -- The first half-space cannot fail; with one accepted, the second is tested along the direction.
  let drawn := Insertion.takeOut (pending (g :: h :: others)) (PickSource.pick source (others.length + 1)).1
  let middle := (PickSource.pick source (others.length + 1)).2
  let second := (Insertion.takeOut drawn.2 (PickSource.pick middle others.length).1).1
  let after := (PickSource.pick middle others.length).2
  have fails : insert (solve tol n) tol direction [drawn.1] (some (.ambiguous drawn.1.boundary.point)) second after =
      (.error (.geometry e), after) := by
    show insertUnsettled (solve tol n) tol direction [drawn.1] _ second after = _
    rw [insertUnsettled_eq, List.length_singleton, if_pos rfl, objectiveBounded_eq]
    simp only [long, unsliced, Bool.false_eq_true, if_false]
    rfl
  have stops : insertAll (insert (solve tol n) tol direction) Solution.isInfeasible (pending (g :: h :: others)) []
      none source = (.error (.geometry e), after) := by
    have first : insert (solve tol n) tol direction [] none drawn.1 middle =
        (.ok (.ambiguous drawn.1.boundary.point), middle) := rfl
    exact (Insertion.run_eq_of_step first).trans (Insertion.run_eq_of_fails ⟨fails⟩)
  refine ⟨after, ?_⟩
  rw [solve, if_pos finite]
  exact Run.bind_eq_of_error stops

/-- With a tolerance that lets no direction count as zero, the zero direction makes a run fail, and nothing brings a
result. -/
theorem Solver.first_run_of_zero_settles :
    ∃ solver : Solver ℝ, ofProblem (quadrant.map (Sigma.mk 2)) ⟨2, Vec.zero⟩ = .ok solver ∧
      (∀ call ∈ [Call.withTolerance (⟨-1, 0⟩ : Tolerance ℝ)], call.isRun = false) ∧
      let ready := solver.held.afterAll [.withTolerance ⟨-1, 0⟩]
      ready.Shows none ∧ (ready.run (⟨[]⟩ : ListedWords)).1 = .error (.geometry .degenerateNormal) ∧
      let later := (ready.run (⟨[]⟩ : ListedWords)).2.1.afterAll
        [.withTolerance Tolerance.exact, .run (⟨[1]⟩ : ListedWords), .results]
      later.Shows none ∧ later.run (⟨[2]⟩ : ListedWords) = (.error .alreadyRun, later, ⟨[2]⟩) := by
  have built : ofProblem (quadrant.map (Sigma.mk 2)) ⟨2, Vec.zero⟩ =
      .ok ⟨1, quadrant, Vec.zero, Tolerance.standard, .ready⟩ := ofProblem_map (by simp [quadrant]) Vec.zero
  have unrun : ∀ call ∈ [Call.withTolerance (⟨-1, 0⟩ : Tolerance ℝ)], call.isRun = false := by simp [Call.isRun]
  have no_length : (Vec.zero : Vec ℝ 2).length ≤ 0 := Vec.length_le_zero.mpr rfl
  have some_length : 0 ≤ (Vec.zero : Vec ℝ 2).length := Vec.length_nonneg _
  obtain ⟨rest, failed⟩ : ∃ rest, Level.solve (⟨-1, 0⟩ : Tolerance ℝ) 1 quadrant Vec.zero (⟨[]⟩ : ListedWords) =
      (.error (.geometry .degenerateNormal), rest) := by
    refine Level.solve_fails_unsliced (by simp) ?_ ?_ _ _ [] _
    · rw [Vec.isZero, decide_eq_false]
      show ¬_ ≤ (-1 : ℝ)
      linarith
    · rw [Plane.ofEquation, if_pos (by simp [no_length])]
  obtain ⟨before, first⟩ := (first_run_settles built).1 _ unrun
  obtain ⟨reported, -, settled⟩ := first (⟨[]⟩ : ListedWords)
  obtain ⟨shown, refused⟩ := settled [.withTolerance Tolerance.exact, .run (⟨[1]⟩ : ListedWords), .results]
  have none : (Level.solve (⟨-1, 0⟩ : Tolerance ℝ) 1 quadrant Vec.zero (⟨[]⟩ : ListedWords)).1.toOption = none := by
    rw [failed]
    rfl
  refine ⟨_, built, unrun, before, ?_, ?_, refused _⟩
  · exact reported.trans (congrArg (fun ended => ended.1.map Solution.kind) failed)
  · rw [← none]
    exact shown

end LowDimLP
