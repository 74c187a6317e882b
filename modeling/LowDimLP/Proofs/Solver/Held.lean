import LowDimLP.Solver
import LowDimLP.Proofs.Solver.Asked
import LowDimLP.Proofs.Solver.Insertion
/-!
# Solvers that change in place

`Held` is a solver as an object: a run takes its half-spaces out of the pending ones, takes its state out before each
insertion and puts the next one back only if the insertion succeeds, and the levels below are objects of their own,
made for one run each. A run that fails anywhere leaves the object as it is at that moment. Turn by turn the loop of
an object does what `insertAll` does (`Held.loop_ends`), so a new object answers as the level of its problem and
is left with the solution of that level, or with none (`Held.run_make`).
-/

namespace LowDimLP

/-- A solver of a program of R^(n+1): what a run changes, and whether one was started. -/
structure Held (α : Type) (n : Nat) where
  pending : List (HalfSpace α (n + 1))
  accepted : List (HalfSpace α (n + 1))
  direction : Vec α (n + 1)
  tolerance : Tolerance α
  /-- What the accepted half-spaces leave of the line; above the line it stays whole. -/
  range : Interval α
  /-- What the accepted half-spaces have led to; none before the first insertion and during every one. -/
  state : Option (Solution α (n + 1))
  started : Bool

namespace Held

variable {σ α : Type} [Scalar α] {n : Nat}

/-- A new solver. -/
def make (halfSpaces : List (HalfSpace α (n + 1))) (direction : Vec α (n + 1)) (tol : Tolerance α) : Held α n :=
  ⟨halfSpaces, [], direction, tol, .line, none, false⟩

/-- The kind of the result. -/
def kind? (held : Held α n) : Option ResultKind := held.state.map Solution.kind

/-- The point of the result. -/
def point? (held : Held α n) : Option (Point α (n + 1)) := held.state.bind Solution.point?

/-- The result. -/
def solution? (held : Held α n) : Option (Solution α (n + 1)) := held.state

/-- The range with one more half-space. -/
def tightened : {n : Nat} → Interval α → HalfSpace α (n + 1) → Interval α
  | 0, range, h => range.tighten h
  | _ + 1, range, _ => range

/-- What the half-space makes of the state that was taken out. -/
def insertion : {n : Nat} → SolverOf σ α n → Held α n → Option (Solution α (n + 1)) → HalfSpace α (n + 1) →
    Run σ (Solution α (n + 1))
  | 0, _, _, none, h => return .ambiguous h.boundary.point
  | 0, _, _, some .infeasible, _ => return .infeasible
  | 0, _, held, some _, _ => return held.range.settle held.tolerance (held.direction.coord 0)
  | _ + 1, below, held, state, h => Level.insert below held.tolerance held.direction held.accepted state h

/-- What the loop settles on: above the line, the best vertex in place of an unbounded objective. -/
def settled : {n : Nat} → Tolerance α → Vec α (n + 1) → List (HalfSpace α (n + 1)) → Solution α (n + 1) →
    Solution α (n + 1)
  | 0, _, _, _, solution => solution
  | _ + 1, tol, direction, accepted, solution => Level.settle tol direction accepted solution

/-- The object during an insertion: the half-space is no longer pending, and there is no state. -/
def taken (held : Held α n) (h : HalfSpace α (n + 1)) (rest : List (HalfSpace α (n + 1))) : Held α n :=
  { held with pending := rest, range := tightened held.range h, state := none }

/-- The object after the insertion. -/
def inserted (held : Held α n) (h : HalfSpace α (n + 1)) (next : Solution α (n + 1)) : Held α n :=
  { held with accepted := held.accepted ++ [h], state := some next }

/-- The end of a run: the loop's error, or the kind of what the loop settles on. -/
def conclude : Except SolverError Unit × Held α n × σ → Except SolverError ResultKind × Held α n × σ
  | (.error e, held, source) => (.error e, held, source)
  | (.ok (), held, source) =>
    let held := { held with state := held.state.map (settled held.tolerance held.direction held.accepted) }
    match held.kind? with
    | some kind => (.ok kind, held, source)
    | none => (.error .emptyConstraintSet, held, source)

variable [PickSource σ]

/-- The loop over the pending half-spaces, with the objects of the level below. -/
def loop (below : SolverOf σ α n) : {left : Nat} → Vector (HalfSpace α (n + 1)) left → Held α n → σ →
    Except SolverError Unit × Held α n × σ
  | 0, _, held, source => (.ok (), held, source)
  | left + 1, pending, held, source =>
    let (i, source) := PickSource.pick source left
    let (h, rest) := Insertion.takeOut pending i
    let during := held.taken h rest.toList
    match during.insertion below held.state h source with
    | (.error e, source) => (.error e, during, source)
    | (.ok next, source) =>
      if next.isInfeasible then (.ok (), during.inserted h next, source)
      else loop below rest (during.inserted h next) source

/-- One run, with the objects of the level below: the kind of the result or an error, the object after the run, and
the source after its draws. The flag is set before the first draw. -/
def runOver (below : SolverOf σ α n) (held : Held α n) (source : σ) :
    Except SolverError ResultKind × Held α n × σ :=
  if held.started then (.error .alreadyRun, held, source)
  else conclude (loop below (Level.pending held.pending) { held with started := true } source)

/-- The problems of R^n, each solved by an object made for it. There is none of dimension zero. -/
def level (tol : Tolerance α) : (n : Nat) → SolverOf σ α n
  | 0, _, _ => throw (.geometry (.unsupportedDimension .vector 0))
  | n + 1, halfSpaces, direction => fun source =>
    if halfSpaces.isEmpty then (.error .emptyConstraintSet, source)
    else if !direction.isFinite then (.error .nonFiniteDirection, source)
    else
      match (make halfSpaces direction tol).runOver (level tol n) source with
      | (.error e, _, source) => (.error e, source)
      | (.ok _, held, source) =>
        match held.solution? with
        | some solution => (.ok solution, source)
        | none => (.error .emptyConstraintSet, source)

/-- One run. -/
def run (held : Held α n) (source : σ) : Except SolverError ResultKind × Held α n × σ :=
  held.runOver (level held.tolerance n) source

/-! ## The loop, turn by turn -/

/-- The object inserts as `step` does, when what `step` goes by shows as a state of the object and as its range. -/
structure Mirrors {β : Type} (below : SolverOf σ α n) (tol : Tolerance α) (direction : Vec α (n + 1))
    (step : List (HalfSpace α (n + 1)) → Option β → HalfSpace α (n + 1) → Run σ β)
    (solution : β → Solution α (n + 1)) (range : Option β → Interval α) : Prop where
  insertion : ∀ {held : Held α n} {state : Option β} {h : HalfSpace α (n + 1)}, held.tolerance = tol →
    held.direction = direction → held.range = tightened (range state) h →
    (∀ s, state = some s → (solution s).isInfeasible = false) →
    held.insertion below (state.map solution) h =
      step held.accepted state h >>= fun next => pure (solution next)
  range : ∀ {accepted : List (HalfSpace α (n + 1))} {state : Option β} {h : HalfSpace α (n + 1)} {source rest : σ}
    {next : β}, step accepted state h source = (.ok next, rest) → range (some next) = tightened (range state) h

/-- How the loop of an object ends, beside random insertion: with the last state, or, when a step fails, with
none. -/
inductive Ends {β : Type} (held : Held α n) (solution : β → Solution α (n + 1)) :
    Except SolverError (List (HalfSpace α (n + 1)) × Option β) × σ → Except SolverError Unit × Held α n × σ →
      Prop where
  | done {accepted : List (HalfSpace α (n + 1))} {last : Option β} {rest : σ}
      (waiting : List (HalfSpace α (n + 1))) (range : Interval α) :
      Ends held solution (.ok (accepted, last), rest)
        (.ok (), { held with pending := waiting, accepted, range, state := last.map solution }, rest)
  | failed {e : SolverError} {rest : σ} (waiting accepted : List (HalfSpace α (n + 1))) (range : Interval α) :
      Ends held solution (.error e, rest)
        (.error e, { held with pending := waiting, accepted, range, state := none }, rest)

section Loop

variable {β : Type} {below : SolverOf σ α n} {tol : Tolerance α} {direction : Vec α (n + 1)}
  {step : List (HalfSpace α (n + 1)) → Option β → HalfSpace α (n + 1) → Run σ β}
  {solution : β → Solution α (n + 1)} {range : Option β → Interval α}

omit [PickSource σ] in
theorem Ends.of_inserted {held : Held α n} {h : HalfSpace α (n + 1)} {rest : List (HalfSpace α (n + 1))}
    {next : Solution α (n + 1)} {random : Except SolverError (List (HalfSpace α (n + 1)) × Option β) × σ}
    {looped : Except SolverError Unit × Held α n × σ}
    (ends : Ends ((held.taken h rest).inserted h next) solution random looped) :
    Ends held solution random looped := by
  cases ends with
  | done waiting range => exact .done waiting range
  | failed waiting accepted range => exact .failed waiting accepted range

/-- The state is gone during an insertion, and only a successful one puts a state back. The induction is on the
number of pending half-spaces. -/
theorem loop_ends (mirrors : Mirrors below tol direction step solution range) {left : Nat}
    (pending : Vector (HalfSpace α (n + 1)) left) {held : Held α n} {state : Option β} (source : σ)
    (tolerance : held.tolerance = tol) (along : held.direction = direction) (ranged : held.range = range state)
    (shown : held.state = state.map solution)
    (going : ∀ s, state = some s → (solution s).isInfeasible = false) :
    Ends held solution
      (insertAll step (fun s => (solution s).isInfeasible) pending held.accepted state source)
      (held.loop below pending source) := by
  induction left generalizing held state source with
  | zero =>
    have same : held.loop below pending source =
        (.ok (), { held with state := state.map solution }, source) := by rw [← shown]; rfl
    rw [same]
    exact .done held.pending held.range
  | succ left ih =>
    let i := (PickSource.pick source left).1
    let h := (Insertion.takeOut pending i).1
    let others := (Insertion.takeOut pending i).2
    let during := held.taken h others.toList
    have inserts : during.insertion below held.state h =
        step held.accepted state h >>= fun next => pure (solution next) := by
      rw [shown]
      exact mirrors.insertion tolerance along (congrArg (tightened · h) ranged) going
    match stepped : step held.accepted state h (PickSource.pick source left).2 with
    | (.error e, rest) =>
      have random : insertAll step (fun s => (solution s).isInfeasible) pending held.accepted state source =
          (.error e, rest) := Insertion.run_eq_of_fails ⟨stepped⟩
      have looped : held.loop below pending source = (.error e, during, rest) := by
        simp only [loop, during, h, others, i] at inserts ⊢
        rw [inserts, Run.bind_eq_of_error stepped]
      -- The error leaves the object as it is during the insertion, without a state.
      rw [random, looped]
      exact .failed others.toList held.accepted (tightened held.range h)
    | (.ok next, rest) =>
      have looped : held.loop below pending source =
          if (solution next).isInfeasible then (.ok (), during.inserted h (solution next), rest)
          else loop below others (during.inserted h (solution next)) rest := by
        simp only [loop, during, h, others, i] at inserts ⊢
        rw [inserts, Run.bind_eq_of_ok stepped]
        rfl
      rw [looped, Insertion.run_eq_of_step stepped]
      by_cases stops : (solution next).isInfeasible = true
      · rw [if_pos stops, if_pos stops]
        exact .done others.toList (tightened held.range h)
      · rw [if_neg stops, if_neg stops]
        have narrowed : range (some next) = tightened held.range h := by
          rw [ranged]
          exact mirrors.range stepped
        refine .of_inserted (ih others rest tolerance along narrowed.symm rfl ?_)
        rintro s ⟨⟩
        simpa using stops

end Loop

omit [PickSource σ] in
/-- Above the line the object inserts as the level does. -/
theorem mirrors_above (below : SolverOf σ α (n + 1)) (tol : Tolerance α) (direction : Vec α (n + 2)) :
    Mirrors below tol direction (Level.insert below tol direction) id fun _ => .line where
  insertion := by
    rintro held state h rfl rfl - -
    rw [Option.map_id, id]
    exact (bind_pure _).symm
  range _ := rfl

omit [PickSource σ] in
/-- On the line the range of the object is the one that the insertions narrow. -/
theorem mirrors_line (below : SolverOf σ α 0) (tol : Tolerance α) (direction : Vec α 1) :
    Mirrors below tol direction (fun _ state h => pure (Interval.insert tol (direction.coord 0) state h)) Prod.snd
      fun state => (state.map Prod.fst).getD .line where
  insertion := by
    rintro held state h rfl rfl ranged going
    cases state with
    | none => rfl
    | some last =>
      obtain ⟨before, solution⟩ := last
      have narrowed : held.range = before.tighten h := ranged
      have feasible := going _ rfl
      cases solution with
      | infeasible => cases feasible
      | minimum p =>
        show (pure (held.range.settle held.tolerance (held.direction.coord 0)) : Run σ _) = _
        rw [narrowed]
        rfl
      | ambiguous p =>
        show (pure (held.range.settle held.tolerance (held.direction.coord 0)) : Run σ _) = _
        rw [narrowed]
        rfl
  range {accepted state h source rest next} stepped := by
    cases stepped
    cases state <;> rfl

/-! ## One run of a new object -/

/-- A level over another one, which the line does not need. -/
def levelOver : {n : Nat} → SolverOf σ α n → Tolerance α → SolverOf σ α (n + 1)
  | 0, _, tol => Level.solveLine tol
  | _ + 1, below, tol => Level.solveAbove below tol

/-- What a run leaves of a new object: the result, if there is one, and the mark of having been started. -/
structure Answers (held : Held α n) (answer : Except SolverError (Solution α (n + 1)) × σ)
    (ran : Except SolverError ResultKind × Held α n × σ) : Prop where
  kind : ran.1 = answer.1.map Solution.kind
  source : ran.2.2 = answer.2
  state : ran.2.1.state = answer.1.toOption
  started : ran.2.1.started = true
  direction : ran.2.1.direction = held.direction
  tolerance : ran.2.1.tolerance = held.tolerance

section Run

variable {β : Type} {below : SolverOf σ α n} {tol : Tolerance α} {direction : Vec α (n + 1)}
  {step : List (HalfSpace α (n + 1)) → Option β → HalfSpace α (n + 1) → Run σ β}
  {solution : β → Solution α (n + 1)} {range : Option β → Interval α}

/-- A new object reports what random insertion leads to, and keeps it as its state. -/
theorem runOver_answers (mirrors : Mirrors below tol direction step solution range)
    (whole : range none = .line) {halfSpaces : List (HalfSpace α (n + 1))} {answer : Run σ (Solution α (n + 1))}
    (concluded : answer =
      insertAll step (fun s => (solution s).isInfeasible) (Level.pending halfSpaces) [] none >>= fun ended =>
        match ended.2 with
        | some last => pure (settled tol direction ended.1 (solution last))
        | none => throw .emptyConstraintSet)
    (source : σ) :
    Answers (make halfSpaces direction tol) (answer source)
      ((make halfSpaces direction tol).runOver below source) := by
  let begun : Held α n := { make halfSpaces direction tol with started := true }
  have ends : Ends begun solution
      (insertAll step (fun s => (solution s).isInfeasible) (Level.pending halfSpaces) [] none source)
      (begun.loop below (Level.pending halfSpaces) source) :=
    loop_ends mirrors _ source rfl rfl whole.symm rfl (by simp)
  subst concluded
  show Answers _ _ (conclude (begun.loop below (Level.pending halfSpaces) source))
  generalize begun.loop below (Level.pending halfSpaces) source = looped at ends ⊢
  match random : insertAll step (fun s => (solution s).isInfeasible) (Level.pending halfSpaces) [] none source with
  | (.error e, rest) =>
    rw [random] at ends
    rw [Run.bind_eq_of_error random]
    obtain - | ⟨waiting, accepted, range⟩ := ends
    exact ⟨rfl, rfl, rfl, rfl, rfl, rfl⟩
  | (.ok (accepted, last), rest) =>
    rw [random] at ends
    rw [Run.bind_eq_of_ok random]
    obtain ⟨waiting, range⟩ := ends
    cases last with
    | none => exact ⟨rfl, rfl, rfl, rfl, rfl, rfl⟩
    | some last => exact ⟨rfl, rfl, rfl, rfl, rfl, rfl⟩

end Run

variable {halfSpaces : List (HalfSpace α (n + 1))} {direction : Vec α (n + 1)}

theorem runOver_make (below : SolverOf σ α n) (tol : Tolerance α) (halfSpaces : List (HalfSpace α (n + 1)))
    (direction : Vec α (n + 1)) (source : σ) :
    Answers (make halfSpaces direction tol) (levelOver below tol halfSpaces direction source)
      ((make halfSpaces direction tol).runOver below source) := by
  cases n with
  | zero =>
    refine runOver_answers (mirrors_line below tol direction) rfl (bind_congr fun ⟨accepted, last⟩ => ?_) source
    cases last <;> rfl
  | succ n =>
    refine runOver_answers (mirrors_above below tol direction) rfl (bind_congr fun ⟨accepted, last⟩ => ?_) source
    cases last <;> rfl

/-- A level of objects is a level over the objects below. -/
theorem level_eq_levelOver (tol : Tolerance α) (nonempty : halfSpaces ≠ []) (finite : direction.isFinite = true) :
    (level tol (n + 1) halfSpaces direction : Run σ _) = levelOver (level tol n) tol halfSpaces direction := by
  funext source
  have answers := runOver_make (level tol n) tol halfSpaces direction source
  have given : halfSpaces.isEmpty = false := by simpa using nonempty
  simp only [level, given, finite, Bool.not_true, Bool.false_eq_true, if_false]
  generalize (make halfSpaces direction tol).runOver (level tol n) source = ran at answers ⊢
  generalize levelOver (level tol n) tol halfSpaces direction source = answer at answers ⊢
  obtain ⟨reported, held, rest⟩ := ran
  obtain ⟨outcome, after⟩ := answer
  obtain ⟨kind, source, state, -, -, -⟩ := answers
  dsimp only at kind source
  subst kind source
  cases outcome with
  | error e => rfl
  | ok solution =>
    have found : held.solution? = some solution := state
    simp only [found, Except.map]

theorem level_of_not_isFinite (tol : Tolerance α) (nonempty : halfSpaces ≠ []) (broken : direction.isFinite = false) :
    (level tol (n + 1) halfSpaces direction : Run σ _) = throw .nonFiniteDirection := by
  have given : halfSpaces.isEmpty = false := by simpa using nonempty
  funext source
  simp only [level, given, broken, Bool.not_false, Bool.false_eq_true, if_false, if_true]
  rfl

/-- The objects of a level give what the level gives, on every problem with a half-space. The induction is on the
dimension: the objects below agree with the levels below on all that they are asked. -/
theorem levelOver_level (tol : Tolerance α) (finite : direction.isFinite = true) :
    (levelOver (level tol n) tol halfSpaces direction : Run σ _) = Level.solve tol n halfSpaces direction := by
  induction n with
  | zero =>
    rw [Level.solve, if_pos finite]
    rfl
  | succ n ih =>
    have below : Level.AgreeOn (fun _ => True) (level tol (n + 1) : SolverOf σ α (n + 1)) (Level.solve tol n) := by
      intro halfSpaces direction nonempty _
      -- A direction that is not finite is refused by both before the first draw.
      cases finite : direction.isFinite with
      | true => rw [level_eq_levelOver tol nonempty finite, ih finite]
      | false =>
        rw [level_of_not_isFinite tol nonempty finite]
        cases n <;> simp [Level.solve, finite]
    rw [Level.solve, if_pos finite]
    exact Level.solveAbove_congr below ⟨fun _ _ _ => trivial, fun _ _ _ => trivial⟩ fun _ _ => trivial

/-- A new object answers as the level of its problem, and is left with the solution of the level or with none. -/
theorem run_make (halfSpaces : List (HalfSpace α (n + 1))) (tol : Tolerance α) (finite : direction.isFinite = true)
    (source : σ) :
    Answers (make halfSpaces direction tol) (Level.solve tol n halfSpaces direction source)
      ((make halfSpaces direction tol).run source) := by
  have answers := runOver_make (level tol n) tol halfSpaces direction source
  rw [levelOver_level tol finite] at answers
  exact answers

end Held

end LowDimLP
