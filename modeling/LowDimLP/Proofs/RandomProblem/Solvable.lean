import LowDimLP.Proofs.RandomProblem.Draw
import LowDimLP.Proofs.Solver.Correctness
/-!
# Random problems are solvable

Every half-space of a random problem has its boundary a tenth or more away from the origin, so the origin,
and each point a tenth from it, is feasible. The sides of the box bound every coordinate, so the objective
is bounded as well. A run therefore reports a minimum, and the point a tenth against the direction shows that
it is no larger than `-1/10` (`Solvable`). This stands for every source of words, and so for the stream of a token
(`ofToken_solvable`).
-/

namespace LowDimLP.RandomProblem

variable {σ α : Type} [ExactScalar α] {n : Nat}

/-! ## The box -/

/-- The sides of the box, axis by axis. -/
def boxHalfSpaces (n : Nat) (halfWidth : α) : List (HalfSpace α n) :=
  (List.finRange n).flatMap fun axis =>
    [.ofUnit (Vec.axis axis).neg halfWidth, .ofUnit (Vec.axis axis) halfWidth]

theorem boxSides_eq (halfWidth : α) (axis : Fin n) :
    boxSides n halfWidth axis = .ok ([.ofUnit (Vec.axis axis).neg halfWidth,
      .ofUnit (Vec.axis axis) halfWidth].map (Sigma.mk n)) := by
  have unit : (Vec.axis axis : Vec α n).dot (Vec.axis axis) = 1 := Vec.axis_unit axis
  rw [boxSides, HalfSpace.ofInequality_unit ((Vec.neg_dot_neg _).trans unit),
    HalfSpace.ofInequality_unit unit]
  rfl

theorem box_eq (n : Nat) (halfWidth : α) :
    box n halfWidth = .ok ((boxHalfSpaces n halfWidth).map (Sigma.mk n)) := by
  have sides : boxSides n halfWidth = fun axis => pure ([HalfSpace.ofUnit (Vec.axis axis).neg halfWidth,
      .ofUnit (Vec.axis axis) halfWidth].map (Sigma.mk n)) := funext fun axis => boxSides_eq halfWidth axis
  rw [box, sides, List.mapM_pure, boxHalfSpaces, List.map_flatMap, List.flatMap_def]
  rfl

theorem length_boxHalfSpaces (n : Nat) (halfWidth : α) : (boxHalfSpaces n halfWidth).length = 2 * n := by
  simp [boxHalfSpaces, List.length_flatMap]
  omega

theorem surrounds_of_mem_box {halfWidth : α} (wide : 1 ≤ halfWidth) {h : HalfSpace α n}
    (hh : h ∈ boxHalfSpaces n halfWidth) : Surrounds h := by
  have tenth : 1 / 10 ≤ halfWidth := le_trans (by norm_num) wide
  obtain ⟨axis, -, side⟩ := List.mem_flatMap.mp hh
  have unit : (Vec.axis axis : Vec α n).dot (Vec.axis axis) = 1 := Vec.axis_unit axis
  rcases List.mem_pair.mp side with rfl | rfl
  · exact surrounds_ofUnit ((Vec.neg_dot_neg _).trans unit) tenth
  · exact surrounds_ofUnit unit tenth

/-- The box bounds every coordinate. -/
theorem abs_coord_le_of_feasible {halfWidth : α} {x : Point α n}
    (feasible : Feasible (boxHalfSpaces n halfWidth) x) (i : Fin n) : |x.coord i| ≤ halfWidth := by
  have sides : ∀ h ∈ [HalfSpace.ofUnit (Vec.axis i).neg halfWidth, .ofUnit (Vec.axis i) halfWidth],
      h.Holds x := fun h hh => feasible h (List.mem_flatMap.mpr ⟨i, List.mem_finRange i, hh⟩)
  have lower : (Vec.axis i).neg.eval x ≤ halfWidth := sides _ List.mem_cons_self
  have upper : (Vec.axis i).eval x ≤ halfWidth := sides _ (List.mem_cons_of_mem _ List.mem_cons_self)
  rw [Vec.neg_eval, Vec.axis_eval] at lower
  rw [Vec.axis_eval] at upper
  exact abs_le.mpr ⟨neg_le.mp lower, upper⟩

/-! ## Half-spaces around the origin -/

section Around

variable {halfSpaces : List (HalfSpace α n)} {direction : Vec α n}

/-- The point at a distance from the origin, against the direction. -/
def against (direction : Vec α n) (distance : α) : Point α n :=
  Point.origin.translate (direction.scaled (-distance))

theorem eval_against (v direction : Vec α n) (distance : α) :
    v.eval (against direction distance) = v.dot direction * -distance := by
  rw [against, Vec.eval_translate, Vec.eval_origin, Vec.dot_scaled, zero_add]

theorem feasible_against (surround : ∀ h ∈ halfSpaces, Surrounds h) (unit : direction.dot direction = 1) :
    Feasible halfSpaces (against direction (1 / 10)) := by
  intro h hh
  have far := (surround h hh).tenth_le_offset
  have opposite := Vec.neg_one_le_dot (surround h hh).normalised.unit unit
  rw [HalfSpace.Holds, eval_against]
  linarith

/-- A functional is bounded where all coordinates are. -/
theorem boundedBelow_of_coords {width : α}
    (coords : ∀ x, Feasible halfSpaces x → ∀ i : Fin n, |x.coord i| ≤ width) (direction : Vec α n) :
    BoundedBelow halfSpaces direction := by
  refine ⟨∑ i : Fin n, -(|direction.coord i| * width), fun x hx => ?_⟩
  rw [Vec.eval_eq_sum le_rfl]
  refine Finset.sum_le_sum fun i _ => ?_
  calc -(|direction.coord i| * width)
      _ ≤ -(|direction.coord i| * |x.coord i|) :=
        neg_le_neg (mul_le_mul_of_nonneg_left (coords x hx i) (abs_nonneg _))
      _ = -|direction.coord i * x.coord i| := by rw [abs_mul]
      _ ≤ direction.coord i * x.coord i := neg_abs_le _

/-- A run reports a minimum, which is at most a tenth below zero. -/
theorem solve_surrounded [PickSource σ] {halfSpaces : List (HalfSpace α (n + 1))}
    {direction : Vec α (n + 1)} (many : 2 ≤ halfSpaces.length)
    (surround : ∀ h ∈ halfSpaces, Surrounds h) (unit : direction.dot direction = 1)
    (bounded : BoundedBelow halfSpaces direction) :
    (solve (halfSpaces.map (Sigma.mk (n + 1))) ⟨n + 1, direction⟩ Tolerance.exact :
      Run σ (AnySolution α)).Ensures fun answer =>
        ∃ p, answer = ⟨n + 1, .minimum p⟩ ∧ direction.eval p ≤ -(1 / 10) := by
  have nonempty : halfSpaces ≠ [] := List.ne_nil_of_length_pos (by omega)
  have feasible := feasible_against surround unit
  refine (solve_exact_answers direction nonempty fun h hh => (surround h hh).normalised).mono ?_
  rintro _ ⟨solution, rfl, answers⟩
  obtain ⟨p, rfl, optimal⟩ := answers.exists_minimum many feasible (bounded.not_hasDescent feasible)
  refine ⟨p, rfl, ?_⟩
  calc direction.eval p
      _ ≤ direction.eval (against direction (1 / 10)) := optimal.le_eval _ feasible
      _ = -(1 / 10) := by rw [eval_against, unit, one_mul]

end Around

/-! ## What is drawn -/

/-- What a random problem of a shape is: as many half-spaces as asked for and the sides of the box, the origin a
tenth or more inside each of them, all feasible points in the box, and a direction of length one. Every run reports
a minimum that is at most a tenth below zero. -/
structure Solvable (shape : Shape α) (halfSpaces : List (HalfSpace α (n + 1)))
    (direction : Vec α (n + 1)) : Prop where
  length : halfSpaces.length = shape.count + 2 * shape.dim
  origin_inside : ∀ h ∈ halfSpaces, h.boundary.signedDistance (Point.origin : Point α (n + 1)) ≤ -(1 / 10)
  boxed : ∀ x, Feasible halfSpaces x → ∀ i : Fin (n + 1), |x.coord i| ≤ max shape.boxHalfWidth 1
  unit : direction.length = 1
  minimum : ∀ (σ : Type) [PickSource σ],
    (solve (halfSpaces.map (Sigma.mk (n + 1))) ⟨n + 1, direction⟩ Tolerance.exact :
      Run σ (AnySolution α)).Ensures fun answer =>
        ∃ p, answer = ⟨n + 1, .minimum p⟩ ∧ direction.eval p ≤ -(1 / 10)

/-- Half-spaces around the origin that bound all coordinates are solved in every direction of length one. -/
theorem solvable_of_surrounds {shape : Shape α} {halfSpaces : List (HalfSpace α (n + 1))} {direction : Vec α (n + 1)}
    (dim : shape.dim = n + 1) (length : halfSpaces.length = shape.count + 2 * shape.dim)
    (surround : ∀ h ∈ halfSpaces, Surrounds h)
    (boxed : ∀ x, Feasible halfSpaces x → ∀ i : Fin (n + 1), |x.coord i| ≤ max shape.boxHalfWidth 1)
    (unit : direction.dot direction = 1) : Solvable shape halfSpaces direction where
  length := length
  origin_inside h hh := (surround h hh).signedDistance_origin
  boxed := boxed
  unit := Vec.length_eq_one_iff.mpr unit
  minimum _ _ := solve_surrounded (by omega) surround unit (boundedBelow_of_coords boxed direction)

theorem drawProblem_yields [WordSource σ] {shape : Shape α} (dim : shape.dim = n + 1) :
    (drawProblem shape : Draw σ (Problem α)).Yields fun problem =>
      ∃ (around : List (HalfSpace α (n + 1))) (direction : Vec α (n + 1)),
        problem = ⟨(around ++ boxHalfSpaces (n + 1) (max shape.boxHalfWidth 1)).map (Sigma.mk (n + 1)),
          ⟨n + 1, direction⟩⟩ ∧
        around.length = shape.count ∧ (∀ h ∈ around, Surrounds h) ∧ direction.dot direction = 1 := by
  have width : (if 1 < shape.boxHalfWidth then shape.boxHalfWidth else 1) = max shape.boxHalfWidth 1 := by
    split
    · next wide => exact (max_eq_left wide.le).symm
    · next narrow => exact (max_eq_right (not_lt.mp narrow)).symm
  rw [drawProblem, dim]
  refine (drawHalfSpaces_yields n shape.radiusJitter shape.count).bind' ?_
  rintro _ ⟨around, rfl, length, surround⟩
  rw [width, box_eq]
  refine (drawUnit_yields n).bind' ?_
  rintro _ ⟨direction, rfl, unit⟩
  exact Draw.Yields.pure' ⟨around, direction, by rw [List.map_append], length, surround, unit⟩

theorem drawProblem_ends [WordSource σ] {shape : Shape α} {source middle rest : σ}
    (around : (drawHalfSpaces shape.dim (clampJitter shape.radiusJitter) shape.count :
      Draw σ (List (AnyHalfSpace α))).Ends source middle)
    (direction : (drawUnit shape.dim : Draw σ (AnyVec α)).Ends middle rest) :
    (drawProblem shape : Draw σ (Problem α)).Ends source rest := by
  refine around.bind' fun halfSpaces _ => ?_
  rw [box_eq]
  exact direction.bind' fun v _ => ⟨_, rfl⟩

/-- A drawing gives a solvable problem, from any source of words. -/
theorem drawProblem_solvable [WordSource σ] {shape : Shape α} (dim : shape.dim = n + 1) :
    (drawProblem shape : Draw σ (Problem α)).Yields fun problem =>
      ∃ (halfSpaces : List (HalfSpace α (n + 1))) (direction : Vec α (n + 1)),
        problem = ⟨halfSpaces.map (Sigma.mk (n + 1)), ⟨n + 1, direction⟩⟩ ∧
          Solvable shape halfSpaces direction := by
  refine (drawProblem_yields dim).mono ?_
  rintro _ ⟨around, direction, rfl, count, random, unit⟩
  have length : (around ++ boxHalfSpaces (n + 1) (max shape.boxHalfWidth 1)).length =
      shape.count + 2 * shape.dim := by
    rw [List.length_append, count, length_boxHalfSpaces, dim]
  have surround : ∀ h ∈ around ++ boxHalfSpaces (n + 1) (max shape.boxHalfWidth 1), Surrounds h := by
    intro h hh
    rcases List.mem_append.mp hh with drawn | side
    · exact random h drawn
    · exact surrounds_of_mem_box (le_max_right _ _) side
  have boxed : ∀ x, Feasible (around ++ boxHalfSpaces (n + 1) (max shape.boxHalfWidth 1)) x →
      ∀ i : Fin (n + 1), |x.coord i| ≤ max shape.boxHalfWidth 1 := fun x hx =>
    abs_coord_le_of_feasible fun h hh => hx h (List.mem_append_right _ hh)
  exact ⟨_, direction, rfl, solvable_of_surrounds dim length surround boxed unit⟩

/-- **Random problems are solvable.** From whatever source the words come, a drawing that comes to an end gives no
error but a solvable problem of the shape. So the instance of a token, drawn from the token's stream, is one. -/
theorem ofToken_solvable {shape : Shape α} (dim : shape.dim = n + 1) :
    (∀ (σ : Type) [WordSource σ], (drawProblem shape : Draw σ (Problem α)).Yields fun problem =>
      ∃ (halfSpaces : List (HalfSpace α (n + 1))) (direction : Vec α (n + 1)),
        problem = ⟨halfSpaces.map (Sigma.mk (n + 1)), ⟨n + 1, direction⟩⟩ ∧
          Solvable shape halfSpaces direction) ∧
    ∀ (token : ReplayToken) (answer : Except GeometryError (Problem α)), ofToken shape token = some answer →
      ∃ (halfSpaces : List (HalfSpace α (n + 1))) (direction : Vec α (n + 1)),
        answer = .ok ⟨halfSpaces.map (Sigma.mk (n + 1)), ⟨n + 1, direction⟩⟩ ∧
          Solvable shape halfSpaces direction := by
  refine ⟨fun _ _ => drawProblem_solvable dim, fun token answer returned => ?_⟩
  obtain ⟨outcome, ended, rfl⟩ := Option.map_eq_some_iff.mp returned
  obtain ⟨_, rest, rfl, halfSpaces, direction, rfl, solvable⟩ :=
    drawProblem_solvable dim token.stream outcome ended
  exact ⟨halfSpaces, direction, rfl, solvable⟩

/-- One half-space around the origin of the plane. -/
noncomputable def oneHalfPlane : Shape ℝ := { Shape.standard with count := 1 }

theorem words_oneHalfPlane :
    (WordSource.take 5 (ReplayToken.stream ⟨2, 0⟩)).map (fun w => w.toNat >>> 12) =
      [1466341414539759, 3916189756386297, 3755783875508020, 3147341468328134, 1128931189530879] := by
  decide +kernel

theorem symmetric_eq [WordSource σ] {source : σ} {k : ℕ}
    (leading : (WordSource.next source).1.toNat >>> 12 = k) :
    (WordSource.symmetric source : ℝ × σ) = ((k : ℝ) / 2 ^ 52 * 2 - 1, (WordSource.next source).2) := by
  have value : (Scalar.ofNat ((WordSource.next source).1.toNat >>> 12) / Scalar.ofNat (1 <<< 52) *
      (Scalar.toOfScientific.ofScientific 20 true 1) - 1 : ℝ) = k / 2 ^ 52 * 2 - 1 := by
    rw [Scalar.ofNat_eq_cast, Scalar.ofNat_eq_cast, Scalar.decimal_eq, leading, Nat.one_shiftLeft]
    norm_num
  exact congrArg (·, (WordSource.next source).2) value

theorem drawUnit_plane_ends [WordSource σ] {source middle rest : σ} {x y : ℝ}
    (first : WordSource.symmetric source = (x, middle)) (second : WordSource.symmetric middle = (y, rest))
    (large : 1 / 10 ^ 6 < x * x + y * y) (small : x * x + y * y ≤ 1) :
    (drawUnit 2 : Draw σ (AnyVec ℝ)).Ends source rest := by
  have cube : (drawCube 2 source : List ℝ × σ) = ([x, y], rest) := by
    simp only [drawCube, first, second]
  have squares : (((drawCube 2 source : List ℝ × σ).1).map fun x => x * x).sum = x * x + y * y := by
    rw [cube]
    simp
  have ends := drawUnit_ends (n := 1) (squares ▸ large) (squares ▸ small)
  rwa [cube] at ends

theorem ofToken_oneHalfPlane : ∃ answer, ofToken oneHalfPlane ⟨2, 0⟩ = some answer := by
  have words := words_oneHalfPlane
  suffices ends : ∃ rest, (drawProblem oneHalfPlane : Draw ChaCha (Problem ℝ)).Ends
      (ReplayToken.stream ⟨2, 0⟩) rest by
    obtain ⟨rest, problem, drawn⟩ := ends
    exact ⟨.ok problem, congrArg (Option.map (Except.map Prod.fst)) drawn⟩
  generalize ReplayToken.stream ⟨2, 0⟩ = source at words ⊢
  simp only [WordSource.take, List.map_cons, List.cons.injEq] at words
  obtain ⟨w₁, w₂, -, w₄, w₅, -⟩ := words
  have normal := drawUnit_plane_ends (symmetric_eq w₁) (symmetric_eq w₂) (by norm_num) (by norm_num)
  have direction := drawUnit_plane_ends (symmetric_eq w₄) (symmetric_eq w₅) (by norm_num) (by norm_num)
  have around : (drawHalfSpaces 2 (clampJitter oneHalfPlane.radiusJitter) 1 :
      Draw ChaCha (List (AnyHalfSpace ℝ))).Ends source _ :=
    (drawHalfSpace_ends _ normal).bind' fun h _ => ⟨[h], rfl⟩
  exact ⟨_, drawProblem_ends around direction⟩

theorem ofToken_oneHalfPlane_solvable : ∃ answer, oneHalfPlane.dim = 2 ∧
    ofToken oneHalfPlane ⟨2, 0⟩ = some answer ∧
    ∃ (halfSpaces : List (HalfSpace ℝ 2)) (direction : Vec ℝ 2),
      answer = .ok ⟨halfSpaces.map (Sigma.mk 2), ⟨2, direction⟩⟩ ∧
        Solvable oneHalfPlane halfSpaces direction := by
  obtain ⟨answer, returned⟩ := ofToken_oneHalfPlane
  exact ⟨answer, rfl, returned, (ofToken_solvable (n := 1) rfl).2 _ answer returned⟩

end LowDimLP.RandomProblem
