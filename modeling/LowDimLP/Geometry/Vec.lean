import LowDimLP.Error
import LowDimLP.Geometry.Coords
/-!
# Vectors and points

Free vectors and positions of R^n. Coordinates past the dimension read as zero, so functionals and
distances accept operands of different dimensions and treat the shorter one as padded with zeros.
A list of coordinates of unknown length becomes a vector or point of some dimension by `ofList`, which
refuses the empty list.
-/

namespace LowDimLP

universe u

/-- Free vector in R^n. -/
structure Vec (α : Type u) (n : Nat) where
  coords : Vector α n

/-- Position in R^n. -/
structure Point (α : Type u) (n : Nat) where
  coords : Vector α n

/-- A vector of some dimension. -/
abbrev AnyVec (α : Type u) := (n : Nat) × Vec α n

/-- A point of some dimension. -/
abbrev AnyPoint (α : Type u) := (n : Nat) × Point α n

variable {α : Type u} {m n : Nat}

namespace Point

/-- The coordinates in order. -/
def toList (p : Point α n) : List α := p.coords.toList

/-- The point with the listed coordinates; there must be one. -/
def ofList (xs : List α) : Except GeometryError (AnyPoint α) :=
  if xs.isEmpty then .error (.unsupportedDimension .point 0)
  else .ok ⟨xs.length, ⟨⟨xs.toArray, rfl⟩⟩⟩

variable [Scalar α]

/-- Coordinate `i`, zero beyond the dimension. -/
def coord (p : Point α n) (i : Nat) : α := Coords.get p.coords i

/-- The origin. -/
def origin : Point α n := ⟨Vector.replicate n 0⟩

/-- The point moved by `v`, in the point's own dimension. -/
def translate (p : Point α m) (v : Vec α n) : Point α m :=
  ⟨Vector.ofFn fun i => p.coord i + Coords.get v.coords i⟩

/-- Euclidean distance. -/
def distance (p : Point α m) (q : Point α n) : α :=
  Scalar.sqrt (Scalar.sum (Coords.padded (fun x y => (x - y) * (x - y)) p.coords q.coords))

/-- Same dimension and coordinates. -/
def same (p : Point α m) (q : Point α n) : Bool := Coords.same p.coords q.coords

end Point

namespace Vec

/-- The coordinates in order. -/
def toList (v : Vec α n) : List α := v.coords.toList

/-- The vector with the listed coordinates; there must be one. -/
def ofList (xs : List α) : Except GeometryError (AnyVec α) :=
  if xs.isEmpty then .error (.unsupportedDimension .vector 0)
  else .ok ⟨xs.length, ⟨⟨xs.toArray, rfl⟩⟩⟩

variable [Scalar α]

/-- Coordinate `i`, zero beyond the dimension. -/
def coord (v : Vec α n) (i : Nat) : α := Coords.get v.coords i

/-- The zero vector. -/
def zero : Vec α n := ⟨Vector.replicate n 0⟩

/-- The unit vector along an axis. -/
def axis (k : Fin n) : Vec α n := ⟨Vector.ofFn fun i => if i = k then 1 else 0⟩

/-- Inner product. -/
def dot (u v : Vec α n) : α := Coords.inner u.coords v.coords

/-- Inner product of vectors whose dimensions are compared first. -/
def dot? (u : Vec α m) (v : Vec α n) : Except GeometryError α :=
  if h : n = m then .ok (u.dot ⟨v.coords.cast h⟩) else .error (.dimensionMismatch m n)

/-- Euclidean length. -/
def length (v : Vec α n) : α := Scalar.sqrt (v.dot v)

/-- Is the length at most `eps`? -/
def isZero (v : Vec α n) (eps : α) : Bool := decide (v.length ≤ eps)

/-- Are all coordinates numbers? -/
def isFinite (v : Vec α n) : Bool := v.toList.all Scalar.isFinite

/-- Value of the linear functional `v` at `p`. -/
def eval (v : Vec α m) (p : Point α n) : α :=
  Scalar.sum (Coords.padded (· * ·) v.coords p.coords)

/-- All coordinates negated. -/
def neg (v : Vec α n) : Vec α n := ⟨v.coords.map (- ·)⟩

/-- All coordinates multiplied by `s`. -/
def scaled (v : Vec α n) (s : α) : Vec α n := ⟨v.coords.map (· * s)⟩

/-- Sum, in the larger dimension. -/
def add (u : Vec α m) (v : Vec α n) : Vec α (max m n) :=
  ⟨Vector.ofFn fun i => u.coord i + v.coord i⟩

/-- Difference, in the larger dimension. -/
def sub (u : Vec α m) (v : Vec α n) : Vec α (max m n) :=
  ⟨Vector.ofFn fun i => u.coord i - v.coord i⟩

/-- Quarter turn counterclockwise of the first two coordinates; a line has none and stays. -/
def rotate90 (v : Vec α n) : Vec α n :=
  if 1 < n then
    ⟨Vector.ofFn fun i => if i.val = 0 then -v.coord 1 else if i.val = 1 then v.coord 0 else v.coord i⟩
  else v

/-- Cross product in R^3, where vectors of fewer dimensions lie with trailing zeros. -/
def cross (u : Vec α m) (v : Vec α n) : Except GeometryError (Vec α 3) :=
  if 3 < max m n then .error (.unsupportedDimension .crossProduct (max m n))
  else .ok ⟨#v[u.coord 1 * v.coord 2 - u.coord 2 * v.coord 1,
               u.coord 2 * v.coord 0 - u.coord 0 * v.coord 2,
               u.coord 0 * v.coord 1 - u.coord 1 * v.coord 0]⟩

/-- The vector from `p` to `q`. -/
def between (p : Point α m) (q : Point α n) : Except GeometryError (Vec α n) :=
  if m = n then .ok ⟨Vector.ofFn fun i => q.coord i - p.coord i⟩ else .error (.dimensionMismatch m n)

/-- Same dimension and coordinates. -/
def same (u : Vec α m) (v : Vec α n) : Bool := Coords.same u.coords v.coords

end Vec

end LowDimLP
