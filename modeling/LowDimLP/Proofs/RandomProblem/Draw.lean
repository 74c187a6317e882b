import LowDimLP.Proofs.LinearProgram
import LowDimLP.RandomProblem
/-!
# What the generator draws

`Draw.Yields x P`: whatever the source, a draw that comes to an end gives a value with the property `P`, and
no error. The rejection that draws a unit vector may not come to an end; when it does, it has divided a row
of coordinates by its positive norm. So every drawn half-space has a unit normal, and its boundary keeps a
distance of a tenth from the origin, whatever jitter is asked for.
-/

namespace LowDimLP.RandomProblem

variable {σ α β γ : Type}

namespace Draw

/-- A draw that comes to an end gives a value with the property `P`. -/
def Yields (x : Draw σ β) (P : β → Prop) : Prop :=
  ∀ source outcome, x source = some outcome → ∃ value rest, outcome = .ok (value, rest) ∧ P value

namespace Yields

theorem pure' {value : β} {P : β → Prop} (h : P value) : Yields (pure value : Draw σ β) P := by
  intro source outcome ended
  cases ended
  exact ⟨value, source, rfl, h⟩

theorem bind' {x : Draw σ β} {f : β → Draw σ γ} {P : β → Prop} {Q : γ → Prop} (hx : Yields x P)
    (hf : ∀ value, P value → Yields (f value) Q) : Yields (x >>= f) Q := by
  intro source outcome ended
  obtain ⟨first, drawn, next⟩ := Option.bind_eq_some_iff.mp
    (show Option.bind (x source) (ExceptT.bindCont fun p => f p.1 p.2) = some outcome from ended)
  obtain ⟨value, rest, rfl, holds⟩ := hx source first drawn
  exact hf value holds rest outcome next

theorem mono {x : Draw σ β} {P Q : β → Prop} (hx : Yields x P) (h : ∀ value, P value → Q value) :
    Yields x Q := by
  intro source outcome ended
  obtain ⟨value, rest, given, holds⟩ := hx source outcome ended
  exact ⟨value, rest, given, h value holds⟩

end Yields

/-- From one source a draw gives a value and leaves the other. -/
def Ends (x : Draw σ β) (source rest : σ) : Prop := ∃ value, x source = some (.ok (value, rest))

theorem Ends.bind' {x : Draw σ β} {f : β → Draw σ γ} {source middle rest : σ} (hx : x.Ends source middle)
    (hf : ∀ value, x source = some (.ok (value, middle)) → (f value).Ends middle rest) :
    (x >>= f).Ends source rest := by
  obtain ⟨value, drawn⟩ := hx
  obtain ⟨result, next⟩ := hf value drawn
  refine ⟨result, ?_⟩
  show Option.bind (x source) (ExceptT.bindCont fun p => f p.1 p.2) = _
  rw [drawn]
  exact next

end Draw

theorem draw_yields {f : σ → α × σ} {P : α → Prop} (h : ∀ source, P (f source).1) :
    (draw f).Yields P := by
  intro source outcome ended
  cases ended
  exact ⟨(f source).1, (f source).2, rfl, h source⟩

/-! ## Unit vectors -/

section Units

variable [WordSource σ] [ExactScalar α] {n : Nat}

theorem length_drawCube (n : Nat) (source : σ) : (drawCube n source : List α × σ).1.length = n := by
  induction n generalizing source with
  | zero => rfl
  | succ n ih => exact congrArg Nat.succ (ih _)

theorem norm_mul_self (xs : List α) : norm xs * norm xs = (xs.map fun x => x * x).sum := by
  have nonneg : 0 ≤ (xs.map fun x => x * x).sum :=
    List.sum_nonneg fun y hy => by
      obtain ⟨x, -, rfl⟩ := List.mem_map.mp hy
      exact mul_self_nonneg x
  rw [norm, Scalar.sum_eq_sum, ExactScalar.sqrt_mul_self _ nonneg]

/-- Dividing a row by its norm leaves squares that sum to one. -/
theorem sum_squares_map_div {xs : List α} (positive : 0 < norm xs) :
    ((xs.map (· / norm xs)).map fun x => x * x).sum = 1 := by
  have scaled : ((xs.map (· / norm xs)).map fun x => x * x) =
      xs.map fun x => x * x * (norm xs * norm xs)⁻¹ := by
    rw [List.map_map]
    exact List.map_congr_left fun x _ => (div_mul_div_comm x _ x _).trans (div_eq_mul_inv _ _)
  rw [scaled, List.sum_map_mul_right, ← norm_mul_self]
  exact mul_inv_cancel₀ (mul_pos positive positive).ne'

theorem dot_self_ofRow (xs : List α) :
    (⟨⟨xs.toArray, rfl⟩⟩ : Vec α xs.length).dot ⟨⟨xs.toArray, rfl⟩⟩ = (xs.map fun x => x * x).sum := by
  rw [Vec.dot, Coords.inner, Scalar.blockedSum_eq_sum]
  congr 1
  apply List.ext_getElem
  · simp
  · simp

/-- A list of `n + 1` coordinates whose squares sum to one is a unit vector. -/
theorem ofList_eq_unit {xs : List α} (length : xs.length = n + 1)
    (squares : (xs.map fun x => x * x).sum = 1) :
    ∃ u : Vec α (n + 1), Vec.ofList xs = .ok ⟨n + 1, u⟩ ∧ u.dot u = 1 := by
  have some_coordinate : xs.isEmpty = false := by
    cases xs with
    | nil => cases length
    | cons => rfl
  have unit := (dot_self_ofRow xs).trans squares
  have built : Vec.ofList xs = .ok ⟨xs.length, ⟨⟨xs.toArray, rfl⟩⟩⟩ := by simp [Vec.ofList, some_coordinate]
  rw [built]
  generalize (⟨⟨xs.toArray, rfl⟩⟩ : Vec α xs.length) = u at unit ⊢
  revert u
  rw [length]
  intro u unit
  exact ⟨u, rfl, unit⟩

theorem drawUnitWithin_unit (tries : Nat) {source rest : σ} {xs : List α}
    (drawn : drawUnitWithin n tries source = some (xs, rest)) :
    xs.length = n ∧ (xs.map fun x => x * x).sum = 1 := by
  induction tries generalizing source with
  | zero => cases drawn
  | succ tries ih =>
    simp only [drawUnitWithin] at drawn
    split at drawn
    · next accepted =>
      obtain ⟨large, -⟩ := accepted
      rw [Scalar.decimal_eq] at large
      cases drawn
      refine ⟨?_, sum_squares_map_div (lt_trans (by positivity) large)⟩
      rw [List.length_map]
      exact length_drawCube n source
    · exact ih drawn

theorem drawUnit_yields (n : Nat) : (drawUnit (n + 1) : Draw σ (AnyVec α)).Yields fun v =>
    ∃ u : Vec α (n + 1), v = ⟨n + 1, u⟩ ∧ u.dot u = 1 := by
  intro source outcome ended
  obtain ⟨⟨xs, rest⟩, drawn, given⟩ := Option.map_eq_some_iff.mp ended
  obtain ⟨length, squares⟩ := drawUnitWithin_unit _ drawn
  obtain ⟨u, built, unit⟩ := ofList_eq_unit length squares
  refine ⟨⟨n + 1, u⟩, rest, ?_, u, rfl, unit⟩
  rw [← given]
  show (Vec.ofList xs).map (·, rest) = _
  rw [built]
  rfl

/-- A row that is accepted ends the rejection. -/
theorem drawUnitWithin_accepted {tries : Nat} {source : σ} (positive : 0 < tries)
    (accepted : (Scalar.toOfScientific.ofScientific 1 true 3 : α) < norm (drawCube n source : List α × σ).1 ∧
      norm (drawCube n source : List α × σ).1 ≤ 1) :
    drawUnitWithin n tries source =
      some ((drawCube n source).1.map (· / norm (drawCube n source : List α × σ).1),
        (drawCube n source : List α × σ).2) := by
  cases tries with
  | zero => cases positive
  | succ tries => exact if_pos accepted

/-- A first row whose squares have a sum at which it is accepted ends the draw. -/
theorem drawUnit_ends {source : σ}
    (large : 1 / 10 ^ 6 < (((drawCube (n + 1) source : List α × σ).1).map fun x => x * x).sum)
    (small : (((drawCube (n + 1) source : List α × σ).1).map fun x => x * x).sum ≤ 1) :
    (drawUnit (n + 1) : Draw σ (AnyVec α)).Ends source (drawCube (n + 1) source : List α × σ).2 := by
  have nonneg : 0 ≤ norm (drawCube (n + 1) source : List α × σ).1 := ExactScalar.sqrt_nonneg _
  rw [← norm_mul_self] at large small
  have accepted : (Scalar.toOfScientific.ofScientific 1 true 3 : α) <
      norm (drawCube (n + 1) source : List α × σ).1 ∧ norm (drawCube (n + 1) source : List α × σ).1 ≤ 1 := by
    rw [Scalar.decimal_eq]
    refine ⟨lt_of_mul_self_lt_mul_self₀ nonneg (lt_of_eq_of_lt (by norm_num) large), ?_⟩
    exact (mul_self_le_mul_self_iff nonneg zero_le_one).mpr (by rwa [mul_one])
  have patient : 0 < WordSource.patience := by decide
  have drawn := drawUnitWithin_accepted patient accepted
  obtain ⟨length, squares⟩ := drawUnitWithin_unit _ drawn
  obtain ⟨u, built, -⟩ := ofList_eq_unit length squares
  refine ⟨⟨n + 1, u⟩, ?_⟩
  show Option.map _ (drawUnitWithin (n + 1) WordSource.patience source) = _
  rw [drawn]
  show some ((Vec.ofList _).map _) = _
  rw [built]
  rfl

end Units

/-! ## Half-spaces -/

section HalfSpaces

variable [WordSource σ] [ExactScalar α] {n : Nat}

theorem fraction_nonneg (source : σ) : 0 ≤ (WordSource.fraction source : α × σ).1 := by
  have quotient : ∀ a b : ℕ, 0 ≤ (Scalar.ofNat a : α) / Scalar.ofNat b := by
    intro a b
    rw [Scalar.ofNat_eq_cast, Scalar.ofNat_eq_cast]
    positivity
  exact quotient _ _

/-- The jitter is brought into its range, from wherever it is. -/
theorem clampJitter_mem (x : α) : 0 ≤ clampJitter x ∧ clampJitter x ≤ 9 / 10 := by
  rw [clampJitter, Scalar.decimal_eq]
  split
  · exact ⟨le_rfl, by positivity⟩
  · next nonneg =>
    split
    · exact ⟨by positivity, by norm_num⟩
    · next small => exact ⟨not_lt.mp nonneg, (not_lt.mp small).trans (by norm_num)⟩

/-- No radius is less than a tenth. -/
theorem tenth_le_radius {u jitter : α} (hu : 0 ≤ u) (nonneg : 0 ≤ jitter) (small : jitter ≤ 9 / 10) :
    1 / 10 ≤ 1 + (u * 2 - 1) * jitter := by
  have moved : 0 ≤ u * 2 * jitter := by positivity
  linarith

/-- A half-space around the origin, whose boundary is a tenth away or more. -/
structure Surrounds (h : HalfSpace α n) : Prop where
  normalised : h.Normalised
  tenth_le_offset : 1 / 10 ≤ h.boundary.offset

theorem Surrounds.signedDistance_origin {h : HalfSpace α n} (surrounds : Surrounds h) :
    h.boundary.signedDistance (Point.origin : Point α n) ≤ -(1 / 10) := by
  rw [Plane.signedDistance, Vec.eval_origin, zero_sub]
  exact neg_le_neg surrounds.tenth_le_offset

theorem surrounds_ofUnit {normal : Vec α n} {offset : α} (unit : normal.dot normal = 1)
    (tenth : 1 / 10 ≤ offset) : Surrounds (HalfSpace.ofUnit normal offset) :=
  ⟨HalfSpace.normalised_ofUnit unit offset, tenth⟩

theorem drawHalfSpace_yields (n : Nat) (jitter : α) :
    (drawHalfSpace (n + 1) (clampJitter jitter) : Draw σ (AnyHalfSpace α)).Yields fun drawn =>
      ∃ h : HalfSpace α (n + 1), drawn = ⟨n + 1, h⟩ ∧ Surrounds h := by
  obtain ⟨nonneg, small⟩ := clampJitter_mem jitter
  refine (drawUnit_yields n).bind' ?_
  rintro _ ⟨normal, rfl, unit⟩
  refine (draw_yields fraction_nonneg).bind' fun u hu => ?_
  have two : (Scalar.toOfScientific.ofScientific 20 true 1 : α) = 2 :=
    (Scalar.decimal_eq 20 1).trans (by norm_num)
  dsimp only
  rw [two, HalfSpace.ofInequality_unit unit]
  exact Draw.Yields.pure' ⟨_, rfl, surrounds_ofUnit unit (tenth_le_radius hu nonneg small)⟩

theorem drawHalfSpace_ends (jitter : α) {source middle : σ}
    (unit : (drawUnit (n + 1) : Draw σ (AnyVec α)).Ends source middle) :
    (drawHalfSpace (n + 1) jitter : Draw σ (AnyHalfSpace α)).Ends source
      (WordSource.fraction middle : α × σ).2 := by
  refine unit.bind' fun value drawn => ?_
  obtain ⟨_, _, given, normal, rfl, unit⟩ := drawUnit_yields n source _ drawn
  cases given
  refine Draw.Ends.bind' ⟨_, rfl⟩ fun u _ => ?_
  dsimp only
  rw [HalfSpace.ofInequality_unit unit]
  exact ⟨_, rfl⟩

theorem drawHalfSpaces_yields (n : Nat) (jitter : α) (count : Nat) :
    (drawHalfSpaces (n + 1) (clampJitter jitter) count : Draw σ (List (AnyHalfSpace α))).Yields fun drawn =>
      ∃ halfSpaces : List (HalfSpace α (n + 1)), drawn = halfSpaces.map (Sigma.mk (n + 1)) ∧
        halfSpaces.length = count ∧ ∀ h ∈ halfSpaces, Surrounds h := by
  induction count with
  | zero => exact Draw.Yields.pure' ⟨[], rfl, rfl, by simp⟩
  | succ count ih =>
    refine (drawHalfSpace_yields n jitter).bind' ?_
    rintro _ ⟨h, rfl, first⟩
    refine ih.bind' ?_
    rintro _ ⟨others, rfl, length, rest⟩
    exact Draw.Yields.pure' ⟨h :: others, rfl, congrArg Nat.succ length, List.forall_mem_cons.mpr ⟨first, rest⟩⟩

end HalfSpaces

end LowDimLP.RandomProblem
