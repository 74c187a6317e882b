/-!
# Paths

A path is a text, read as names between slashes. A segment that is empty or a single point names nothing,
except in front: there an empty one starts at the root and a point is the working directory. Segments that
name nothing are dropped only where a path is cut, so the rest keeps the way it was written.
-/

namespace LowDimLP

namespace Path

/-! ## Segments -/

/-- The texts between the slashes; there is at least one. -/
def split : List Char → List (List Char)
  | [] => [[]]
  | c :: cs =>
    if c = '/' then [] :: split cs
    else
      match split cs with
      | segment :: segments => (c :: segment) :: segments
      | [] => [[c]]

/-- The text of segments. -/
def join : List (List Char) → List Char
  | [] => []
  | [segment] => segment
  | segment :: segments => segment ++ '/' :: join segments

/-- Does the segment name nothing? -/
def isVoid (segment : List Char) : Bool := segment.isEmpty || segment == ['.']

/-- The outer folder. -/
def isUp (segment : List Char) : Bool := segment == ['.', '.']

/-- The segments without those at the end that name nothing. -/
def trim (segments : List (List Char)) : List (List Char) := (segments.reverse.dropWhile isVoid).reverse

/-- The text of a trimmed row of segments after the first one. -/
def textOf (first : List Char) (rest : List (List Char)) : String :=
  if first.isEmpty && rest.isEmpty then "/" else String.ofList (join (first :: rest))

/-! ## Parts -/

/-- The path of the folder, empty for the working directory; the root and the empty path have none. -/
def parent? (path : String) : Option String :=
  match split path.toList with
  | [] => none
  | first :: rest =>
    match (trim rest).reverse with
    | [] => if first.isEmpty then none else some ""
    | _ :: outer => some (textOf first (trim outer.reverse))

/-- The last name. -/
def fileName? (path : String) : Option (List Char) :=
  match split path.toList with
  | [] => none
  | first :: rest =>
    match (trim rest).reverse with
    | [] => if isVoid first || isUp first then none else some first
    | name :: _ => if isUp name then none else some name

/-- A name before and after its last point. A name without a point, or with none but the first character,
has no extension. -/
def splitName (name : List Char) : List Char × Option (List Char) :=
  match name.reverse.dropWhile (· ≠ '.') with
  | [] | [_] => (name, none)
  | _ :: stem => (stem.reverse, some (name.reverse.takeWhile (· ≠ '.')).reverse)

/-- The extension of the last name. -/
def extension? (path : String) : Option String := do
  return String.ofList (← (splitName (← fileName? path)).2)

/-- The last name without its extension. -/
def stem? (path : String) : Option String := (fileName? path).map fun name => String.ofList (splitName name).1

/-- The path of a name in a folder. -/
def inFolder (folder name : String) : String :=
  if folder.isEmpty then name
  else if folder.toList.getLast? = some '/' then folder ++ name
  else folder ++ "/" ++ name

/-- The path with another last name, put behind a path that has none. -/
def withFileName (path name : String) : String :=
  inFolder (if (fileName? path).isSome then (parent? path).getD "" else path) name

end Path

end LowDimLP
