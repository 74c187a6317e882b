import LowDimLP.Proofs.CommandLine.Publishing
import LowDimLP.Proofs.Solver.Building
/-!
# Faulty problem files

A file passes two checks on its way to a solver: it is turned into a problem, and a solver is built for the
problem. Each of them looks for some of the faults that a file can have. Together they accept the well-formed files
and no others, and of the faults of a file they report the first one, in an order that does not depend on which
check finds it: the direction is empty, a row states no half-space, there is no row, the direction is not finite,
a row has another dimension (`solver_reports_first_fault`). Nothing is asked of the scalars, so a length is positive
if it is a number and not at most zero.
-/

namespace LowDimLP

variable {α : Type} [Scalar α]

/-! ## Rows -/

namespace ConstraintRow

/-- The normal of the row. -/
def vec (row : ConstraintRow α) : Vec α row.normal.length := ⟨⟨row.normal.toArray, rfl⟩⟩

/-- The row states a half-space. -/
structure Proper (row : ConstraintRow α) : Prop where
  nonempty : row.normal ≠ []
  finite_length : Scalar.isFinite row.vec.length = true
  positive_length : ¬row.vec.length ≤ 0
  finite_offset : Scalar.isFinite row.offset = true

/-- Why the row states no half-space. -/
inductive Bad (row : ConstraintRow α) : GeometryError → Prop where
  | empty (empty : row.normal = []) : Bad row (.unsupportedDimension .vector 0)
  | degenerate (nonempty : row.normal ≠ [])
      (flaw : Scalar.isFinite row.vec.length = false ∨ row.vec.length ≤ 0 ∨ Scalar.isFinite row.offset = false) :
      Bad row .degenerateNormal

variable {row : ConstraintRow α} {cause other : GeometryError}

theorem Bad.not_proper (bad : row.Bad cause) : ¬row.Proper := by
  intro proper
  cases bad with
  | empty empty => exact proper.nonempty empty
  | degenerate _ flaw =>
    rcases flaw with infinite | small | infinite
    · exact Bool.false_ne_true (infinite.symm.trans proper.finite_length)
    · exact proper.positive_length small
    · exact Bool.false_ne_true (infinite.symm.trans proper.finite_offset)

theorem Bad.unique (bad : row.Bad cause) (bad' : row.Bad other) : cause = other := by
  cases bad with
  | empty empty =>
    cases bad' with
    | empty => rfl
    | degenerate nonempty => exact absurd empty nonempty
  | degenerate nonempty =>
    cases bad' with
    | empty empty => exact absurd empty nonempty
    | degenerate => rfl

/-- A row builds a half-space of as many dimensions as it has coordinates, or it is refused for what is wrong
with it. -/
theorem ofInequality_cases (row : ConstraintRow α) :
    (row.Proper ∧ ∃ h : HalfSpace α row.normal.length,
      AnyHalfSpace.ofInequality row.normal row.offset = .ok ⟨row.normal.length, h⟩) ∨
    ∃ cause, row.Bad cause ∧ AnyHalfSpace.ofInequality row.normal row.offset = .error cause := by
  by_cases empty : row.normal = []
  · refine .inr ⟨_, .empty empty, ?_⟩
    rw [empty]
    rfl
  · have built : AnyHalfSpace.ofInequality row.normal row.offset =
        (HalfSpace.ofInequality row.vec row.offset).map (Sigma.mk row.normal.length) := by
      rw [AnyHalfSpace.ofInequality, Vec.ofList, if_neg (by simpa using empty)]
      show (HalfSpace.ofInequality row.vec row.offset).bind (fun h => .ok (⟨_, h⟩ : AnyHalfSpace α)) = _
      cases HalfSpace.ofInequality row.vec row.offset <;> rfl
    rw [built, HalfSpace.ofInequality, Plane.ofEquation]
    split
    · next flawed =>
      refine .inr ⟨_, .degenerate empty ?_, rfl⟩
      simpa [or_assoc] using flawed
    · next proper =>
      simp only [Bool.not_eq_true, Bool.or_eq_false_iff, Bool.not_eq_false', decide_eq_false_iff_not] at proper
      exact .inl ⟨⟨empty, proper.1.1, proper.1.2, proper.2⟩, _, rfl⟩

end ConstraintRow

namespace ProblemFile

open ConstraintRow (ofInequality_cases)
open CommandLine (Failure SolveOptions)

/-- The rows are turned into half-spaces of their dimensions, or the first bad one is reported. -/
theorem halfSpacesFrom_cases (index : Nat) (rows : List (ConstraintRow α)) :
    (∃ halfSpaces, halfSpacesFrom index rows = .ok halfSpaces ∧
      List.Forall₂ (fun row h => row.Proper ∧ row.normal.length = h.1) rows halfSpaces) ∨
    ∃ position row cause, FirstAt (fun row => ∃ cause, row.Bad cause) rows position row ∧ row.Bad cause ∧
      halfSpacesFrom index rows = .error (.constraint (index + position) cause) := by
  induction rows generalizing index with
  | nil => exact .inl ⟨[], rfl, .nil⟩
  | cons row rows ih =>
    rw [halfSpacesFrom]
    rcases ofInequality_cases row with ⟨proper, h, built⟩ | ⟨cause, bad, refused⟩
    · rw [built]
      show (∃ halfSpaces, (halfSpacesFrom (index + 1) rows).bind _ = _ ∧ _) ∨
        ∃ position row cause, _ ∧ _ ∧ (halfSpacesFrom (index + 1) rows).bind _ = _
      rcases ih (index + 1) with ⟨halfSpaces, rest, each⟩ | ⟨position, other, cause, first, bad, refused⟩
      · rw [rest]
        exact .inl ⟨_, rfl, .cons ⟨proper, rfl⟩ each⟩
      · rw [refused]
        refine .inr ⟨position + 1, other, cause, first.tail fun ⟨_, bad⟩ => bad.not_proper proper, bad, ?_⟩
        rw [Nat.add_right_comm, Nat.add_assoc]
        rfl
    · rw [refused]
      exact .inr ⟨0, row, cause, .head ⟨cause, bad⟩ rows, bad, rfl⟩

/-! ## Files -/

/-- The solver of the problem that a file holds. -/
def solver (file : ProblemFile α) : Except Failure (Solver α) := do
  let problem ← file.toProblem.mapError .problem
  (Solver.ofProblem problem.halfSpaces problem.direction).mapError .solver

/-- A program is stated by the file: there are rows, each of them states a half-space, and all of them have the
dimension of the direction, which is finite. -/
structure WellFormed (file : ProblemFile α) : Prop where
  direction_nonempty : file.direction ≠ []
  direction_finite : ∀ x ∈ file.direction, Scalar.isFinite x = true
  constraints_nonempty : file.constraints ≠ []
  proper : ∀ row ∈ file.constraints, row.Proper
  same_dim : ∀ row ∈ file.constraints, row.normal.length = file.direction.length

/-- What can be wrong with a file. -/
inductive Fault where
  | noDirection
  | badRow (index : Nat) (cause : GeometryError)
  | noRow
  | infiniteDirection
  /-- The row at `index` has `found` coordinates and the direction has `expected`. -/
  | otherDimension (index expected found : Nat)

namespace Fault

/-- The file has the fault. -/
def AppliesTo (file : ProblemFile α) : Fault → Prop
  | noDirection => file.direction = []
  | badRow index cause => ∃ row, file.constraints[index]? = some row ∧ row.Bad cause
  | noRow => file.constraints = []
  | infiniteDirection => ∃ x ∈ file.direction, Scalar.isFinite x = false
  | otherDimension index expected found => expected = file.direction.length ∧ found ≠ expected ∧
      ∃ row, file.constraints[index]? = some row ∧ row.normal.length = found

/-- The rank of a kind of fault. -/
def kind : Fault → Nat
  | noDirection => 0
  | badRow _ _ => 1
  | noRow => 2
  | infiniteDirection => 3
  | otherDimension _ _ _ => 4

/-- The row at fault, for a fault of rows. -/
def row : Fault → Nat
  | badRow index _ => index
  | otherDimension index _ _ => index
  | _ => 0

/-- Faults are ranked by their kind, and those of one kind by the row. -/
def Precedes (first second : Fault) : Prop :=
  first.kind < second.kind ∨ first.kind = second.kind ∧ first.row < second.row

/-- The first fault that the file has. -/
structure IsFirst (file : ProblemFile α) (fault : Fault) : Prop where
  applies : fault.AppliesTo file
  least : ∀ other : Fault, other.AppliesTo file → ¬other.Precedes fault

/-- How the fault is reported. -/
def failure : Fault → Failure
  | noDirection => .problem (.direction (.unsupportedDimension .vector 0))
  | badRow index cause => .problem (.constraint index cause)
  | noRow => .solver .emptyConstraintSet
  | infiniteDirection => .solver .nonFiniteDirection
  | otherDimension index expected found => .solver (.dimensionMismatch index expected found)

variable {file : ProblemFile α} {fault other : Fault}

/-- A fault is the first one if none of a smaller kind applies, and of its kind none in an earlier row. -/
theorem isFirst_of_ranks (applies : fault.AppliesTo file)
    (kinds : ∀ other : Fault, other.AppliesTo file → fault.kind ≤ other.kind)
    (rows : ∀ other : Fault, other.AppliesTo file → other.kind = fault.kind → fault.row ≤ other.row) :
    fault.IsFirst file := by
  refine ⟨applies, fun other applies precedes => ?_⟩
  rcases precedes with smaller | ⟨same, earlier⟩
  · exact absurd (kinds other applies) (Nat.not_le.mpr smaller)
  · exact absurd (rows other applies same) (Nat.not_le.mpr earlier)

/-- The rank of a fault tells which one it is. -/
theorem AppliesTo.eq_of_ranks (applies : fault.AppliesTo file) (applies' : other.AppliesTo file)
    (kind : fault.kind = other.kind) (row : fault.row = other.row) : fault = other := by
  cases fault with
  | noDirection | noRow | infiniteDirection =>
    cases other <;> first | rfl | cases kind
  | badRow index cause =>
    cases other with
    | badRow index' cause' =>
      obtain rfl : index = index' := row
      obtain ⟨here, found, bad⟩ := applies
      obtain ⟨here', found', bad'⟩ := applies'
      cases found.symm.trans found'
      rw [bad.unique bad']
    | _ => cases kind
  | otherDimension index expected found =>
    cases other with
    | otherDimension index' expected' found' =>
      obtain rfl : index = index' := row
      obtain ⟨rfl, -, row, here, rfl⟩ := applies
      obtain ⟨rfl, -, row', here', rfl⟩ := applies'
      cases here.symm.trans here'
      rfl
    | _ => cases kind

/-- A file has at most one first fault. -/
theorem IsFirst.unique (first : fault.IsFirst file) (first' : other.IsFirst file) : fault = other := by
  have after := first.least other first'.applies
  have before := first'.least fault first.applies
  simp only [Precedes] at after before
  exact first.applies.eq_of_ranks first'.applies (by omega) (by omega)

/-! Which kinds of faults a file cannot have. -/

theorem AppliesTo.kind_ne_zero (applies : fault.AppliesTo file) (nonempty : file.direction ≠ []) :
    fault.kind ≠ 0 := by
  cases fault with
  | noDirection => exact absurd applies nonempty
  | _ => exact Nat.succ_ne_zero _

theorem AppliesTo.kind_ne_one (applies : fault.AppliesTo file) (proper : ∀ row ∈ file.constraints, row.Proper) :
    fault.kind ≠ 1 := by
  cases fault with
  | badRow index cause =>
    obtain ⟨row, here, bad⟩ := applies
    exact absurd (proper row (List.mem_of_getElem? here)) bad.not_proper
  | _ => simp [kind]

theorem AppliesTo.kind_ne_two (applies : fault.AppliesTo file) (nonempty : file.constraints ≠ []) :
    fault.kind ≠ 2 := by
  cases fault with
  | noRow => exact absurd applies nonempty
  | _ => simp [kind]

theorem AppliesTo.kind_ne_three (applies : fault.AppliesTo file)
    (finite : ∀ x ∈ file.direction, Scalar.isFinite x = true) : fault.kind ≠ 3 := by
  cases fault with
  | infiniteDirection =>
    obtain ⟨x, member, infinite⟩ := applies
    exact absurd (infinite.symm.trans (finite x member)) Bool.false_ne_true
  | _ => simp [kind]

end Fault

variable {file : ProblemFile α} {fault : Fault}

/-- A well-formed file has no fault. -/
theorem WellFormed.not_applies (formed : file.WellFormed) : ¬fault.AppliesTo file := by
  intro applies
  cases fault with
  | noDirection => exact formed.direction_nonempty applies
  | badRow index cause =>
    obtain ⟨row, here, bad⟩ := applies
    exact bad.not_proper (formed.proper row (List.mem_of_getElem? here))
  | noRow => exact formed.constraints_nonempty applies
  | infiniteDirection =>
    obtain ⟨x, member, infinite⟩ := applies
    exact Bool.false_ne_true (infinite.symm.trans (formed.direction_finite x member))
  | otherDimension index expected found =>
    obtain ⟨rfl, other, row, here, rfl⟩ := applies
    exact other (formed.same_dim row (List.mem_of_getElem? here))

/-! ## From a file to a solver -/

/-- The problem is what the file states: it has the direction of the file, and a half-space for each row, of the
dimension of the row. -/
structure States (file : ProblemFile α) (problem : Problem α) : Prop where
  nonempty : file.direction ≠ []
  direction : problem.direction.2.toList = file.direction
  rows : List.Forall₂ (fun row h => row.Proper ∧ row.normal.length = h.1) file.constraints problem.halfSpaces

/-- A file is turned into the problem that it states, or the first fault of its direction and its rows is
reported. -/
theorem toProblem_cases (file : ProblemFile α) :
    (∃ problem, file.toProblem = .ok problem ∧ file.States problem) ∨
      ∃ (fault : Fault) (e : ProblemError), fault.IsFirst file ∧ file.toProblem = .error e ∧
        fault.failure = .problem e := by
  by_cases empty : file.direction = []
  · refine .inr ⟨.noDirection, _, Fault.isFirst_of_ranks empty (fun _ _ => Nat.zero_le _)
      fun _ _ _ => Nat.zero_le _, ?_, rfl⟩
    rw [toProblem, empty]
    rfl
  let direction : Vec α file.direction.length := ⟨⟨file.direction.toArray, rfl⟩⟩
  have held : file.toProblem = (halfSpacesFrom 0 file.constraints).map fun read => ⟨read, ⟨_, direction⟩⟩ := by
    rw [toProblem, Vec.ofList, if_neg (by simpa using empty)]
    show (halfSpacesFrom 0 file.constraints).bind (fun read => .ok (⟨read, ⟨_, direction⟩⟩ : Problem α)) = _
    cases halfSpacesFrom 0 file.constraints <;> rfl
  rcases halfSpacesFrom_cases 0 file.constraints with
    ⟨halfSpaces, read, each⟩ | ⟨position, row, cause, first, bad, refused⟩
  · exact .inl ⟨⟨halfSpaces, ⟨_, direction⟩⟩, by rw [held, read]; rfl, empty, rfl, each⟩
  · refine .inr ⟨.badRow position cause, _, Fault.isFirst_of_ranks ⟨row, first.here, bad⟩ (fun other applies => ?_)
      fun other applies same => ?_, by rw [held, refused, Nat.zero_add]; rfl, rfl⟩
    · exact Nat.one_le_iff_ne_zero.mpr (applies.kind_ne_zero empty)
    · cases other with
      | badRow index cause' =>
        obtain ⟨row', here, bad'⟩ := applies
        exact Nat.not_lt.mp fun less => first.before index less row' here ⟨cause', bad'⟩
      | _ => cases same

/-- A solver that is built for what a file states shows the file to be well-formed. -/
theorem States.wellFormed {problem : Problem α} {solver : Solver α} (states : file.States problem)
    (built : Solver.ofProblem problem.halfSpaces problem.direction = .ok solver) : file.WellFormed := by
  obtain ⟨n, typed, direction, tol, status⟩ := solver
  obtain ⟨halfSpaces, given⟩ := problem
  obtain ⟨same, named, nonempty, finite, -⟩ := Solver.eq_of_ofProblem built
  dsimp only at same named finite
  obtain rfl := same
  obtain rfl := named
  have coordinates : direction.toList = file.direction := states.direction
  have length : n + 1 = file.direction.length := by
    rw [← coordinates]
    exact direction.coords.length_toList.symm
  refine ⟨states.nonempty, ?_, fun empty => ?_, ((List.forall₂_and_left ..).mp states.rows).1, ?_⟩
  · rw [← coordinates]
    exact List.all_eq_true.mp finite
  · have rows := states.rows.length_eq
    rw [empty, List.length_map] at rows
    exact nonempty (List.length_eq_zero_iff.mp rows.symm)
  · rw [← length]
    refine (forall_mem_iff_of_forall₂ states.rows fun row h related => by rw [related.2]).mpr fun h member => ?_
    obtain ⟨typed, -, rfl⟩ := List.mem_map.mp member
    rfl

/-- No solver is built for what a file states because of the first fault of the file. -/
theorem States.exists_isFirst {problem : Problem α} {e : SolverError} (states : file.States problem)
    (refused : Solver.ofProblem problem.halfSpaces problem.direction = .error e) :
    ∃ fault : Fault, fault.IsFirst file ∧ fault.failure = .solver e := by
  obtain ⟨halfSpaces, dim, direction⟩ := problem
  have coordinates : direction.toList = file.direction := states.direction
  have length : dim = file.direction.length := by
    rw [← coordinates]
    exact direction.coords.length_toList.symm
  have proper : ∀ row ∈ file.constraints, row.Proper := ((List.forall₂_and_left ..).mp states.rows).1
  have none_iff : file.constraints = [] ↔ halfSpaces = [] := by
    rw [← List.length_eq_zero_iff, ← List.length_eq_zero_iff, states.rows.length_eq]
  -- The faults that turning the file into a problem has looked for come before those that are left.
  have two_le : ∀ other : Fault, other.AppliesTo file → 2 ≤ other.kind := by
    intro other applies
    have direction_ne := applies.kind_ne_zero states.nonempty
    have rows_ne := applies.kind_ne_one proper
    omega
  cases dim with
  | zero => exact absurd (List.length_eq_zero_iff.mp length.symm) states.nonempty
  | succ n =>
    rcases Solver.refusal_of_ofProblem refused with ⟨empty, rfl⟩ | ⟨nonempty, later⟩
    · exact ⟨.noRow, Fault.isFirst_of_ranks (none_iff.mpr empty) two_le fun _ _ _ => Nat.zero_le _, rfl⟩
    have three_le : ∀ other : Fault, other.AppliesTo file → 3 ≤ other.kind := by
      intro other applies
      have none_ne := applies.kind_ne_two fun none => nonempty (none_iff.mp none)
      exact Nat.lt_of_le_of_ne (two_le other applies) none_ne.symm
    rcases later with ⟨infinite, rfl⟩ | ⟨finite, position, h, first, rfl⟩
    · refine ⟨.infiniteDirection, Fault.isFirst_of_ranks ?_ three_le fun _ _ _ => Nat.zero_le _, rfl⟩
      rw [Vec.isFinite, coordinates, List.all_eq_false] at infinite
      simpa [Fault.AppliesTo] using infinite
    · obtain ⟨row, first, same⟩ := first.of_forall₂ (P := fun row => row.normal.length ≠ n + 1) states.rows
        fun row h related => by rw [related.2]
      have applies : (Fault.otherDimension position (n + 1) h.1).AppliesTo file :=
        ⟨length, same.2 ▸ first.holds, row, first.here, same.2⟩
      refine ⟨.otherDimension position (n + 1) h.1, Fault.isFirst_of_ranks applies (fun other applies => ?_)
        fun other applies same => ?_, rfl⟩
      · have finite_ne := applies.kind_ne_three (by rw [← coordinates]; exact List.all_eq_true.mp finite)
        exact Nat.lt_of_le_of_ne (three_le other applies) finite_ne.symm
      · cases other with
        | otherDimension index expected found =>
          obtain ⟨expected_eq, other, row', here, found_eq⟩ := applies
          refine Nat.not_lt.mp fun less => first.before index less row' here ?_
          rw [found_eq, length, ← expected_eq]
          exact other
        | _ => cases same

/-- A solver is built for a well-formed file, and for another one its first fault is reported. -/
theorem solver_cases (file : ProblemFile α) :
    (file.WellFormed ∧ ∃ solver, file.solver = .ok solver) ∨
      ∃ fault : Fault, fault.IsFirst file ∧ file.solver = .error fault.failure := by
  rcases toProblem_cases file with ⟨problem, held, states⟩ | ⟨fault, e, first, refused, named⟩
  · have asked : file.solver = (Solver.ofProblem problem.halfSpaces problem.direction).mapError .solver := by
      rw [solver, held]
      rfl
    rw [asked]
    cases built : Solver.ofProblem problem.halfSpaces problem.direction with
    | ok solver => exact .inl ⟨states.wellFormed built, solver, rfl⟩
    | error e =>
      obtain ⟨fault, first, named⟩ := states.exists_isFirst built
      exact .inr ⟨fault, first, congrArg Except.error named.symm⟩
  · exact .inr ⟨fault, first, by rw [solver, refused, named]; rfl⟩

/-- A solve of a file that is refused fails with the refusal. -/
theorem report_of_refused [NumberText α] {options : SolveOptions α} {dir : Directory} {seed : UInt64}
    {failure : Failure} (loaded : load dir options.input options.direction = .ok file)
    (refused : file.solver = .error failure) : options.report dir seed = .error failure := by
  cases held : file.toProblem with
  | error e =>
    rw [solver, held] at refused
    cases refused
    rw [SolveOptions.report_of_loaded loaded, held]
    rfl
  | ok problem =>
    have asked : (Solver.ofProblem problem.halfSpaces problem.direction).mapError .solver = .error failure := by
      rw [solver, held] at refused
      exact refused
    cases built : Solver.ofProblem problem.halfSpaces problem.direction with
    | ok solver =>
      rw [built] at asked
      cases asked
    | error e =>
      rw [built] at asked
      cases asked
      have told : Report.ofProblem problem options.tolerance seed = .error e := by
        simp only [Report.ofProblem, LowDimLP.solve, built]
        rfl
      rw [SolveOptions.report_of_built loaded held, told]
      rfl

/-- **Validation accepts the well-formed files and reports the first fault of the others.** -/
theorem solver_reports_first_fault (file : ProblemFile α) :
    ((∃ solver, file.solver = .ok solver) ↔ file.WellFormed) ∧
      ∀ failure, file.solver = .error failure ↔ ∃ fault : Fault, fault.IsFirst file ∧ fault.failure = failure := by
  rcases solver_cases file with ⟨formed, solver, built⟩ | ⟨fault, first, refused⟩
  · refine ⟨⟨fun _ => formed, fun _ => ⟨solver, built⟩⟩, fun failure => ⟨fun refused => ?_, ?_⟩⟩
    · cases built.symm.trans refused
    · rintro ⟨fault, first, -⟩
      exact absurd first.applies formed.not_applies
  · refine ⟨⟨?_, fun formed => absurd first.applies formed.not_applies⟩, fun failure => ⟨fun refused' => ?_, ?_⟩⟩
    · rintro ⟨solver, built⟩
      cases built.symm.trans refused
    · exact ⟨fault, first, Except.error.inj (refused.symm.trans refused')⟩
    · rintro ⟨other, first', rfl⟩
      rw [first'.unique first, refused]

end ProblemFile

end LowDimLP
