import LowDimLP.Geometry.Meet
/-!
# Vertices

A vertex of an intersection of half-spaces of R^n is a feasible point where `n` of the boundaries meet.
The best one is found by trying all `n`-element choices of boundaries in lexicographic order; a later
vertex replaces an earlier one only if its value is smaller.
-/

namespace LowDimLP

universe u

/-- All ways to choose `k` items, in the order of the list, lexicographically by position; there is no
choice of zero items. -/
def choices {ι : Type u} : Nat → List ι → List (List ι)
  | 0, _ => []
  | 1, xs => xs.map fun x => [x]
  | _ + 2, [] => []
  | k + 2, x :: xs => (choices (k + 1) xs).map (x :: ·) ++ choices (k + 2) xs

variable {α : Type u} [Scalar α] {n : Nat}

/-- The feasible meeting points of the boundaries. -/
def vertices (tol : Tolerance α) (halfSpaces : List (HalfSpace α n)) : List (Point α n) :=
  (choices n halfSpaces).filterMap fun chosen => do
    let v ← Plane.meet tol (chosen.map HalfSpace.boundary)
    if halfSpaces.all fun h => h.containsWithin v tol.feas then return v else none

/-- Keeps the first of the points with the smallest value so far. -/
def keepBetter (direction : Vec α n) : Option (Point α n × α) → Point α n → Option (Point α n × α)
  | none, v => some (v, direction.eval v)
  | some (best, value), v =>
    let new := direction.eval v
    if new < value then some (v, new) else some (best, value)

/-- The first vertex with the smallest value. -/
def bestVertex? (tol : Tolerance α) (direction : Vec α n) (halfSpaces : List (HalfSpace α n)) :
    Option (Point α n) :=
  ((vertices tol halfSpaces).foldl (keepBetter direction) none).map Prod.fst

end LowDimLP
