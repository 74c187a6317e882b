import LowDimLP.CommandLine.Run
/-!
# The program

Carries out a run on real files. The file that the command reads is fetched before the run, the files that
the run has changed are written after it, and the verdict is told on the standard streams and by the exit
code.
-/

namespace LowDimLP

namespace Main

open CommandLine

/-- The file that a command reads. -/
def inputPath? : Command Float → Option String
  | .solve options => some options.input
  | _ => none

/-- The directory with the file that a command line needs, as far as it is there. -/
def fetch (args : List String) : IO Directory := do
  match (Command.ofArgs? args).bind inputPath? with
  | none => return Directory.empty
  | some path =>
    try
      let contents ← IO.FS.readBinFile path
      return (Directory.empty.save path contents.toList).toOption.getD Directory.empty
    catch _ => return Directory.empty

/-- An action whose failure is told as that of a save. -/
def orSaveError (action : IO Unit) (cause : SaveError) : IO Unit :=
  try action catch _ => throw (IO.userError cause.message)

/-- Writes a file and creates the folders that lead to it. -/
def store (place : Place) (contents : Bytes) : IO Unit := do
  let path := place.path
  let folder := (Path.parent? path).getD ""
  if !folder.isEmpty then orSaveError (IO.FS.createDirAll folder) (.creating folder)
  orSaveError (IO.FS.writeBinFile path ⟨contents.toArray⟩) (.writing path)

/-- A seed nobody chose. -/
def freshSeed : IO UInt64 := do
  return (← IO.getRandomBytes 8).foldl (fun seed b => seed * 256 + b.toUInt64) 0

/-- Tells a failure and gives its exit code. -/
def tellFailure (message : String) : IO UInt32 := do
  IO.eprintln ("Error: " ++ message)
  return 1

/-- Tells the verdict and gives its exit code. -/
def tell : Verdict → IO UInt32
  | .printed document => do
    IO.println ((Utf8.decode? document).getD "")
    return 0
  | .failed failure => tellFailure failure.message
  | .misused => do
    IO.eprintln "usage: solve --input FILE [--direction X,..] [--seed N] [--eps-feas X] [--out FILE]"
    IO.eprintln "       gen --out FILE [--dim N] [--count N] [--seed N] [--index N]"
    IO.eprintln "       report"
    return 2
  | .silent => return 0

/-- Runs a command line; gives the exit code. -/
def run (args : List String) : IO UInt32 := do
  let before ← fetch args
  let env := ⟨← IO.getEnv "GIT_COMMIT", ← freshSeed⟩
  let outcome := CommandLine.run Float env args before
  try
    for (place, contents) in (outcome.directory.changesSince before).reverse do
      store place contents
    tell outcome.verdict
  catch e => tellFailure (toString e)

end Main

end LowDimLP

def main (args : List String) : IO UInt32 := LowDimLP.Main.run args
