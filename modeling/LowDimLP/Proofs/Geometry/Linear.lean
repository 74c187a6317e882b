import LowDimLP.Proofs.ExactArithmetic
import LowDimLP.Geometry.Vec
/-!
# Linear functionals in exact arithmetic

Inner products and values of functionals as sums over the coordinates, and what follows: both are
linear, a point moves along a vector by the vector's value, and a vector of length zero is zero.
`Point.displacement` is the displacement between two points of one dimension; rays and segments are made of it.
-/

namespace LowDimLP

universe u

variable {α : Type u} {m n : Nat}

@[simp] theorem Vec.isFinite_eq_true [OrderedScalar α] (v : Vec α n) : v.isFinite = true := by
  simp [isFinite]

variable [ExactScalar α]

namespace Coords

@[simp] theorem get_fin (v : Vector α n) (i : Fin n) : get v i = v[i] := by
  simp [get]

theorem get_of_le (v : Vector α n) {i : Nat} (h : n ≤ i) : get v i = 0 := by
  simp [get, Vector.getElem?_eq_none h]

theorem get_map (v : Vector α n) (f : α → α) (hf : f 0 = 0) (i : Nat) :
    get (v.map f) i = f (get v i) := by
  by_cases h : i < n
  · exact (get_fin (v.map f) ⟨i, h⟩).trans (by rw [get_fin v ⟨i, h⟩]; simp)
  · rw [get_of_le _ (not_lt.mp h), get_of_le _ (not_lt.mp h), hf]

theorem get_ofFn (f : Fin n → α) (i : Fin n) : get (Vector.ofFn f) i = f i := by
  simp

theorem inner_eq_sum (u v : Vector α n) : inner u v = ∑ i : Fin n, u[i] * v[i] := by
  have terms : (Vector.zipWith (· * ·) u v).toList = List.ofFn fun i : Fin n => u[i] * v[i] := by
    rw [← Vector.toList_ofFn]
    congr 1
    ext i hi
    simp
  rw [inner, Scalar.blockedSum_eq_sum, terms, List.sum_ofFn]

end Coords

namespace Vec

theorem ext_coord {u v : Vec α n} (h : ∀ i : Fin n, u.coord i = v.coord i) : u = v := by
  obtain ⟨u⟩ := u
  obtain ⟨v⟩ := v
  congr 1
  ext i hi
  have entry := h ⟨i, hi⟩
  rwa [coord, coord, Coords.get_fin, Coords.get_fin] at entry

@[simp] theorem coord_ofFn (f : Fin n → α) (i : Fin n) : (Vec.mk (Vector.ofFn f)).coord i = f i :=
  Coords.get_ofFn f i

@[simp] theorem coord_zero (i : Fin n) : (zero : Vec α n).coord i = 0 := by
  simp [zero, coord]

@[simp] theorem coord_scaled (v : Vec α n) (s : α) (i : Nat) :
    (v.scaled s).coord i = v.coord i * s :=
  Coords.get_map v.coords (· * s) (zero_mul s) i

theorem dot_eq_sum (u v : Vec α n) : u.dot v = ∑ i : Fin n, u.coord i * v.coord i := by
  simp only [dot, Coords.inner_eq_sum, coord, Coords.get_fin]

theorem dot_comm (u v : Vec α n) : u.dot v = v.dot u := by
  simp only [dot_eq_sum, mul_comm]

/-- The shorter operand counts as padded with zeros, so the sum may stop at the point's end. -/
theorem eval_eq_sum (h : m ≤ n) (v : Vec α m) (p : Point α n) :
    v.eval p = ∑ i : Fin n, v.coord i * p.coord i := by
  rw [eval, Scalar.sum_eq_sum, Coords.padded, max_eq_right h, ← Finset.sum_range
    (fun i => v.coord i * p.coord i)]
  rfl

theorem dot_line (u v : Vec α 1) : u.dot v = u.coord 0 * v.coord 0 := by
  rw [dot_eq_sum, Fin.sum_univ_one]
  rfl

theorem eval_line (v : Vec α 1) (p : Point α 1) : v.eval p = v.coord 0 * p.coord 0 := by
  rw [eval_eq_sum le_rfl, Fin.sum_univ_one]
  rfl

@[simp] theorem dot_scaled (u v : Vec α n) (s : α) : u.dot (v.scaled s) = u.dot v * s := by
  simp only [dot_eq_sum, coord_scaled, Finset.sum_mul, mul_assoc]

@[simp] theorem scaled_dot (u v : Vec α n) (s : α) : (u.scaled s).dot v = u.dot v * s := by
  simp only [dot_eq_sum, coord_scaled, Finset.sum_mul, mul_right_comm]

@[simp] theorem scaled_eval (v : Vec α n) (s : α) (p : Point α n) :
    (v.scaled s).eval p = v.eval p * s := by
  simp only [eval_eq_sum le_rfl, coord_scaled, Finset.sum_mul, mul_right_comm]

/-! ## Axes and opposites -/

@[simp] theorem axis_dot (k : Fin n) (v : Vec α n) : (axis k).dot v = v.coord k := by
  rw [dot_eq_sum, Finset.sum_eq_single k]
  · simp [axis]
  · intro i _ other
    simp [axis, other]
  · simp

@[simp] theorem axis_eval (k : Fin n) (x : Point α n) : (axis k).eval x = x.coord k := by
  rw [eval_eq_sum le_rfl, Finset.sum_eq_single k]
  · simp [axis]
  · intro i _ other
    simp [axis, other]
  · simp

theorem coord_neg (v : Vec α n) (i : Fin n) : v.neg.coord i = -v.coord i :=
  Coords.get_map v.coords (- ·) neg_zero i

theorem neg_dot_neg (v : Vec α n) : v.neg.dot v.neg = v.dot v := by
  simp [dot_eq_sum, coord_neg]

theorem neg_eval (v : Vec α n) (x : Point α n) : v.neg.eval x = -v.eval x := by
  simp only [eval_eq_sum le_rfl, coord_neg, neg_mul, Finset.sum_neg_distrib]

theorem axis_unit (k : Fin n) : (axis k : Vec α n).dot (axis k) = 1 := by
  rw [axis_dot]
  simp [axis]

/-! ## Length -/

theorem dot_self_nonneg (v : Vec α n) : 0 ≤ v.dot v := by
  rw [dot_eq_sum]
  exact Finset.sum_nonneg fun i _ => mul_self_nonneg _

theorem dot_self_eq_zero {v : Vec α n} : v.dot v = 0 ↔ v = zero := by
  constructor
  · intro h
    rw [dot_eq_sum, Finset.sum_eq_zero_iff_of_nonneg fun i _ => mul_self_nonneg _] at h
    exact ext_coord fun i => by simpa using h i (Finset.mem_univ i)
  · intro zero_vec
    subst zero_vec
    simp [dot_eq_sum]

theorem length_nonneg (v : Vec α n) : 0 ≤ v.length := ExactScalar.sqrt_nonneg _

theorem length_mul_self (v : Vec α n) : v.length * v.length = v.dot v :=
  ExactScalar.sqrt_mul_self _ v.dot_self_nonneg

theorem length_le_zero {v : Vec α n} : v.length ≤ 0 ↔ v = zero := by
  rw [← dot_self_eq_zero, ← length_mul_self, mul_self_eq_zero]
  exact ⟨fun h => le_antisymm h v.length_nonneg, le_of_eq⟩

theorem length_pos {v : Vec α n} (h : v ≠ zero) : 0 < v.length :=
  not_le.mp fun hle => h (length_le_zero.mp hle)

theorem length_eq_one_iff {v : Vec α n} : v.length = 1 ↔ v.dot v = 1 := by
  rw [← length_mul_self, mul_self_eq_one_iff]
  exact ⟨.inl, fun h => h.resolve_right fun negative =>
    absurd v.length_nonneg (by rw [negative]; simp)⟩

/-- The inner product of unit vectors is at least minus one. -/
theorem neg_one_le_dot {u v : Vec α n} (hu : u.dot u = 1) (hv : v.dot v = 1) : -1 ≤ u.dot v := by
  rw [dot_eq_sum] at hu hv ⊢
  have squares : 0 ≤ ∑ i : Fin n, (u.coord i + v.coord i) * (u.coord i + v.coord i) :=
    Finset.sum_nonneg fun i _ => mul_self_nonneg _
  have expanded : ∑ i : Fin n, (u.coord i + v.coord i) * (u.coord i + v.coord i) =
      (∑ i : Fin n, u.coord i * u.coord i) + 2 * (∑ i : Fin n, u.coord i * v.coord i) +
        ∑ i : Fin n, v.coord i * v.coord i := by
    rw [Finset.mul_sum, ← Finset.sum_add_distrib, ← Finset.sum_add_distrib]
    exact Finset.sum_congr rfl fun i _ => by ring
  rw [expanded, hu, hv] at squares
  linarith

@[simp] theorem isZero_zero_iff {v : Vec α n} : v.isZero 0 = true ↔ v = zero := by
  simp [isZero, length_le_zero]

end Vec

namespace Point

theorem ext_coord {p q : Point α n} (h : ∀ i : Fin n, p.coord i = q.coord i) : p = q := by
  obtain ⟨p⟩ := p
  obtain ⟨q⟩ := q
  congr 1
  ext i hi
  have entry := h ⟨i, hi⟩
  rwa [coord, coord, Coords.get_fin, Coords.get_fin] at entry

@[simp] theorem coord_ofFn (f : Fin n → α) (i : Fin n) :
    (Point.mk (Vector.ofFn f)).coord i = f i :=
  Coords.get_ofFn f i

/-- The displacement that takes `p` to `q`. -/
def displacement (p q : Point α n) : Vec α n := ⟨Vector.ofFn fun i => q.coord i - p.coord i⟩

/-- It is the vector that `Vec.between` gives for points of one dimension. -/
theorem between_eq_displacement (p q : Point α n) : Vec.between p q = .ok (p.displacement q) := by
  simp [Vec.between, displacement]

/-- The point at `t` on the line through `p` and `q`: `p` at 0 and `q` at 1. -/
def toward (p q : Point α n) (t : α) : Point α n := p.translate ((p.displacement q).scaled t)

end Point

namespace Vec

@[simp] theorem eval_origin (v : Vec α n) : v.eval (Point.origin : Point α n) = 0 := by
  simp [eval_eq_sum le_rfl, Point.origin, Point.coord]

@[simp] theorem eval_translate (v : Vec α n) (p : Point α n) (d : Vec α n) :
    v.eval (p.translate d) = v.eval p + v.dot d := by
  simp only [eval_eq_sum le_rfl, dot_eq_sum, Point.translate, Point.coord_ofFn, mul_add,
    Finset.sum_add_distrib]
  rfl

@[simp] theorem dot_displacement (v : Vec α n) (p q : Point α n) :
    v.dot (p.displacement q) = v.eval q - v.eval p := by
  simp only [eval_eq_sum le_rfl, dot_eq_sum, Point.displacement, coord_ofFn, mul_sub,
    Finset.sum_sub_distrib]

theorem eval_toward (v : Vec α n) (p q : Point α n) (t : α) :
    v.eval (p.toward q t) = v.eval p + (v.eval q - v.eval p) * t := by
  simp [Point.toward]

/-- The points of the line through the origin along `u`. -/
theorem eval_multiple (v u : Vec α n) (s : α) :
    v.eval (⟨u.coords.map (· * s)⟩ : Point α n) = v.dot u * s := by
  have coords : ∀ i : Nat, (⟨u.coords.map (· * s)⟩ : Point α n).coord i = u.coord i * s :=
    Coords.get_map u.coords (· * s) (zero_mul s)
  simp only [eval_eq_sum le_rfl, dot_eq_sum, coords, Finset.sum_mul, mul_assoc]

end Vec

end LowDimLP
