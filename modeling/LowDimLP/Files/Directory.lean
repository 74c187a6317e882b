import LowDimLP.Text.Bytes
import LowDimLP.Files.Path
/-!
# Directories

The files a program can reach from its working directory. A place is the row of names that leads to a file
or folder, the innermost first; the names `..` and `/` at its far end lead out of the working directory.
Following a path passes through folders only. A file is read and written at the place its path leads to; a
place that is a folder holds no file.
-/

namespace LowDimLP

/-- Where a file or folder is: the names that lead there from the working directory, the last one first. -/
abbrev Place := List (List Char)

namespace Place

/-- The root of all files. -/
def root : Place := [['/']]

/-- Is the name one that leads out? -/
def leadsOut (name : List Char) : Bool := Path.isUp name || name == ['/']

/-- Is the place certain to be a folder? The working directory, the folders around it and the root are. -/
def isOuter (place : Place) : Bool := place.all leadsOut

/-- Is the place below the working directory? -/
def isBelow (place : Place) : Bool := !place.any leadsOut

/-- The place one folder further out. -/
def outer : Place → Place
  | [] => [['.', '.']]
  | name :: place =>
    if name = ['/'] then name :: place
    else if Path.isUp name then name :: name :: place
    else place

/-- The place inside another. -/
def isInside (inner folder : Place) : Bool := folder.isSuffixOf inner && decide (folder ≠ inner)

/-- The path of a place. -/
def path (place : Place) : String := String.ofList (Path.join place.reverse)

end Place

/-- Files by place, and the folders known to exist. -/
structure Directory where
  files : List (Place × Bytes)
  folders : List Place

/-- Why a file cannot be written. -/
inductive SaveError where
  | creating (folder : String)
  | writing (path : String)
  deriving DecidableEq, Repr

def SaveError.message : SaveError → String
  | creating folder => "creating " ++ folder
  | writing path => "writing " ++ path

namespace Directory

/-- The directory without files. -/
def empty : Directory := ⟨[], []⟩

/-- The contents of the file at a place. -/
def file? (dir : Directory) (place : Place) : Option Bytes := dir.files.lookup place

/-- Is there a folder at the place? -/
def hasFolder (dir : Directory) (place : Place) : Bool :=
  place.isOuter || dir.folders.contains place || dir.folders.any (·.isInside place) ||
    dir.files.any (·.1.isInside place)

/-! ## Following paths -/

/-- The place where a segment leads to from a place. -/
def step (place : Place) (segment : List Char) : Place :=
  if Path.isVoid segment then place else if Path.isUp segment then place.outer else segment :: place

/-- The folder that segments lead to through folders. -/
def enter? (dir : Directory) : Place → List (List Char) → Option Place
  | place, [] => some place
  | place, segment :: segments =>
    let place := step place segment
    if dir.hasFolder place then dir.enter? place segments else none

/-- Where a path starts, and the segments after it. -/
def start (path : String) : Place × List (List Char) :=
  match Path.split path.toList with
  | [] :: segment :: segments => (Place.root, segment :: segments)
  | segments => ([], segments)

/-- The place a path leads to, if its last segment is a name. -/
def locate? (dir : Directory) (path : String) : Option Place := do
  let (place, segments) := start path
  let name ← segments.getLast?
  if Path.isVoid name || Path.isUp name then none
  else return name :: (← dir.enter? place segments.dropLast)

/-! ## Reading and writing -/

/-- The contents of the file that a path leads to. -/
def read? (dir : Directory) (path : String) : Option Bytes := do dir.file? (← dir.locate? path)

/-- The directory with a file at a place, whatever was there. -/
def put (dir : Directory) (place : Place) (contents : Bytes) : Directory :=
  { dir with files := (place, contents) :: dir.files.filter (·.1 ≠ place) }

/-- Writes the file that a path leads to. -/
def write? (dir : Directory) (path : String) (contents : Bytes) : Option Directory := do
  let place ← dir.locate? path
  if dir.hasFolder place then none else return dir.put place contents

/-- Creates the folders that segments lead through; a file is in the way of a folder. -/
def createThrough? (dir : Directory) : Place → List (List Char) → Option Directory
  | _, [] => some dir
  | place, segment :: segments =>
    let place := step place segment
    if (dir.file? place).isSome then none
    else if dir.hasFolder place then dir.createThrough? place segments
    else { dir with folders := place :: dir.folders }.createThrough? place segments

/-- Creates the folder of a path and all folders on the way. -/
def createFolder? (dir : Directory) (path : String) : Option Directory :=
  let (place, segments) := start path
  dir.createThrough? place segments

/-- Writes a file and creates the folders that lead to it. -/
def save (dir : Directory) (path : String) (contents : Bytes) : Except SaveError Directory := do
  let folder := (Path.parent? path).getD ""
  let dir ←
    match if folder.isEmpty then some dir else dir.createFolder? folder with
    | some dir => pure dir
    | none => throw (.creating folder)
  match dir.write? path contents with
  | some dir => return dir
  | none => throw (.writing path)

/-- The files that another directory does not hold with the same contents. -/
def changesSince (dir before : Directory) : List (Place × Bytes) :=
  dir.files.filter fun (place, contents) => before.file? place ≠ some contents

end Directory

end LowDimLP
