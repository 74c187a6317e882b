import Mathlib.Data.List.FinRange
import LowDimLP.Proofs.Lists
import LowDimLP.Geometry.Vec
/-!
# Checked rows

The program stores coordinates in lists whose length is known only when it runs, and stops at once when an
index or a shape is wrong. The operations here do the same: they take plain lists and end in a `Fault` where
the program would stop. On the coordinates of a vector of known dimension none of them does, and each gives
what the typed operation gives.
-/

namespace LowDimLP

namespace Checked

/-- What stops a run at once, as opposed to an error that it reports. -/
inductive Fault where
  /-- A row, coordinate or pending item was asked for beyond the end. -/
  | outOfRange (index length : Nat)
  /-- Two operands that the program asserts to be of one dimension are not. -/
  | dimensions (left right : Nat)
  /-- A recursion went on beyond its bound. -/
  | depth
  deriving DecidableEq, Repr

variable {ι κ β γ α : Type}

/-! ## Sequences of checks -/

@[simp] theorem ok_bind (x : ι) (f : ι → Except Fault κ) : (Except.ok x >>= f) = f x := rfl

@[simp] theorem pure_eq_ok (x : ι) : (pure x : Except Fault ι) = .ok x := rfl

/-! ## Items by their index -/

/-- Item `i`, which must exist. -/
def entry (items : List ι) (i : Nat) : Except Fault ι :=
  match items[i]? with
  | some x => .ok x
  | none => .error (.outOfRange i items.length)

/-- The items without item `i`, which must exist. -/
def removeAt (items : List ι) (i : Nat) : Except Fault (List ι) :=
  if i < items.length then .ok (items.eraseIdx i) else .error (.outOfRange i items.length)

/-- The items with `x` put before item `i` or at the end. -/
def insertAt (items : List ι) (i : Nat) (x : ι) : Except Fault (List ι) :=
  if i ≤ items.length then .ok (items.insertIdx i x) else .error (.outOfRange i items.length)

/-- The items with `x` in place of item `i`, which must exist. -/
def setAt (items : List ι) (i : Nat) (x : ι) : Except Fault (List ι) :=
  if i < items.length then .ok (items.set i x) else .error (.outOfRange i items.length)

/-- Takes item `i` out; the last item fills the gap. -/
def swapRemove (items : List ι) (i : Nat) : Except Fault (ι × List ι) := do
  let x ← entry items i
  let last ← entry items (items.length - 1)
  return (x, (items.set i last).dropLast)

theorem entry_eq_ok {items : List ι} {i : Nat} (h : i < items.length) : entry items i = .ok items[i] := by
  simp [entry, h]

variable {n : Nat}

@[simp] theorem entry_toList (v : Vector ι n) (i : Fin n) : entry v.toList i = .ok (v.get i) := by
  have stored : v.get i = v[i.val] := rfl
  simp [entry, stored]

theorem removeAt_toList (v : Vector ι (n + 1)) (i : Fin (n + 1)) :
    removeAt v.toList i = .ok (v.eraseIdx i i.isLt).toList := by
  rw [removeAt, if_pos (v.length_toList.symm ▸ i.isLt)]
  simp [Vector.toList, Vector.eraseIdx]

theorem insertAt_toList (v : Vector ι n) (i : Fin (n + 1)) (x : ι) :
    insertAt v.toList i x = .ok (v.insertIdx i x (Nat.le_of_lt_succ i.isLt)).toList := by
  rw [insertAt, if_pos (v.length_toList.symm ▸ Nat.le_of_lt_succ i.isLt)]
  simp [Vector.toList, Vector.insertIdx]

theorem setAt_toList (v : Vector ι n) (i : Fin n) (x : ι) :
    setAt v.toList i x = .ok (v.set i x i.isLt).toList := by
  rw [setAt, if_pos (v.length_toList.symm ▸ i.isLt)]
  simp [Vector.toList, Vector.set]

/-! ## Coordinates -/

@[simp] theorem length_vec (v : Vec α n) : v.toList.length = n := v.coords.length_toList

@[simp] theorem length_point (p : Point α n) : p.toList.length = n := p.coords.length_toList

section Coordinates

variable [Scalar α]

/-- Stops unless two dimensions are one. -/
def assertSame (left right : Nat) : Except Fault Unit :=
  if left = right then .ok () else .error (.dimensions left right)

/-- Coordinate `i`, zero beyond the end. -/
def coord (row : List α) (i : Nat) : α := row[i]?.getD 0

/-- Inner product of rows of one length. -/
def inner (u v : List α) : Except Fault α := do
  assertSame u.length v.length
  return Scalar.blockedSum (List.zipWith (· * ·) u v)

/-- Euclidean length. -/
def norm (row : List α) : Except Fault α := do
  return Scalar.sqrt (← inner row row)

/-- Value of the functional `v` at `p`, the shorter of the two padded with zeros. -/
def eval (v p : List α) : α :=
  Scalar.sum ((List.range (max v.length p.length)).map fun i => coord v i * coord p i)

/-- The first position with the largest absolute value; there must be one. -/
def argMaxAbs (row : List α) : Except Fault Nat := do
  let _ ← entry row 0
  (List.range row.length).foldlM (fun best i => do
    return if Scalar.abs (← entry row best) < Scalar.abs (← entry row i) then i else best) 0

@[simp] theorem assertSame_self (m : Nat) : assertSame m m = .ok () := if_pos rfl

@[simp] theorem coord_vec (v : Vec α n) (i : Nat) : coord v.toList i = v.coord i := by
  simp [coord, Vec.toList, Vec.coord, Coords.get]

@[simp] theorem coord_point (p : Point α n) (i : Nat) : coord p.toList i = p.coord i := by
  simp [coord, Point.toList, Point.coord, Coords.get]

theorem inner_toList (u v : Vector α n) : inner u.toList v.toList = .ok (Coords.inner u v) := by
  simp [inner, Coords.inner]

theorem norm_toList (v : Vec α n) : norm v.toList = .ok v.length := by
  simp [norm, Vec.toList, inner_toList, Vec.length, Vec.dot]

theorem eval_toList {m : Nat} (v : Vec α m) (p : Point α n) : eval v.toList p.toList = v.eval p := by
  simp [eval, Vec.eval, Coords.padded, Vec.coord, Point.coord]

theorem argMaxAbs_toList (v : Vector α (n + 1)) :
    argMaxAbs v.toList = .ok (Coords.argMaxAbs v : Nat) := by
  have positions : List.range v.toList.length = (List.finRange (n + 1)).map Fin.val := by
    rw [List.map_coe_finRange_eq_range, Vector.length_toList]
  have first : entry v.toList 0 = .ok v[0] := entry_toList v 0
  rw [argMaxAbs, positions, Coords.argMaxAbs, first, ok_bind]
  refine foldlM_map_eq_pure Fin.val Fin.val _ (fun best i _ => ?_) (0 : Fin (n + 1))
  rw [entry_toList, entry_toList, ok_bind, ok_bind, apply_ite Fin.val]

end Coordinates

end Checked

end LowDimLP
