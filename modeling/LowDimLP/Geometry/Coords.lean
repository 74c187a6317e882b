import LowDimLP.Scalar
/-!
# Coordinates

The rows of `n` scalars that vectors and points are made of: reading with zeros beyond the end, the
inner product, and the position of the largest entry.
-/

namespace LowDimLP

universe u

namespace Coords

variable {α : Type u} [Scalar α] {m n : Nat}

/-- Entry `i`, zero beyond the end. -/
def get (v : Vector α n) (i : Nat) : α := v[i]?.getD 0

/-- Inner product of two rows of one length, summed in blocks. -/
def inner (u v : Vector α n) : α := Scalar.blockedSum (Vector.zipWith (· * ·) u v).toList

/-- The terms `f uᵢ vᵢ` over the longer of the two dimensions, in index order. -/
def padded (f : α → α → α) (u : Vector α m) (v : Vector α n) : List α :=
  (List.range (max m n)).map fun i => f (get u i) (get v i)

/-- The first position with the largest absolute value. -/
def argMaxAbs (v : Vector α (n + 1)) : Fin (n + 1) :=
  (List.finRange (n + 1)).foldl
    (fun best i => if Scalar.abs (v.get best) < Scalar.abs (v.get i) then i else best) ⟨0, n.succ_pos⟩

/-- Equal length and entries equal in the order of scalars. -/
def same (u : Vector α m) (v : Vector α n) : Bool :=
  decide (m = n) && (List.zipWith Scalar.same u.toList v.toList).all id

end Coords

end LowDimLP
