import LowDimLP.Files.Path
import LowDimLP.Json.Value
/-!
# Provenance

A written artifact has a sidecar: a document next to it that tells what wrote it, by which command, from
which seed and parameters. A sidecar is named after its artifact, without the artifact's extension.
-/

namespace LowDimLP

/-- What wrote an artifact. -/
structure Provenance where
  command : String
  seed : UInt64
  params : Json
  /-- The path of the artifact. -/
  output : String

namespace Provenance

/-- The version of the program. -/
def version : String := "0.1.0"

/-- The revision of the code, if it is known and not empty. -/
def revisionName (revision : Option String) : String :=
  match revision with
  | some revision => if revision.isEmpty then "unknown" else revision
  | none => "unknown"

/-- The members that name the program. -/
def headerMembers (revision : Option String) : List (String × Json) :=
  [("code_rev", Json.ofString (revisionName revision)), ("crate_version", Json.ofString version)]

/-- The document that names the program. -/
def header (revision : Option String) : Json := Json.record (headerMembers revision)

/-- The document of a sidecar, but for the member `callsite`: the file and the line of the code that asks for it are
fixed when the program is built, and no command reads them. -/
def toJson (revision : Option String) (p : Provenance) : Json :=
  Json.record (headerMembers revision ++
    [("command", Json.ofString p.command), ("seed", Json.ofNat p.seed.toNat), ("params", p.params),
      ("outputs", .array [Json.ofString p.output])])

/-- The path of the sidecar of an artifact. -/
def sidecarPath (artifact : String) : String :=
  Path.withFileName artifact ((Path.stem? artifact).getD "artifact" ++ ".provenance.json")

end Provenance

end LowDimLP
