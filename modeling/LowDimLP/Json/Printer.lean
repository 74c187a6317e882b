import LowDimLP.Json.Value
/-!
# Writing documents

Documents are written with two blanks of indentation per level, one item or member per line, and empty
arrays and objects on one line.
-/

namespace LowDimLP

namespace Json

/-- The start of a line at a level. -/
def newline (depth : Nat) : Bytes := byte '\n' :: List.replicate (2 * depth) (byte ' ')

mutual

/-- The text of a value that stands at a level. -/
def write (depth : Nat) : Json → Bytes
  | .null => Utf8.encode "null"
  | .bool true => Utf8.encode "true"
  | .bool false => Utf8.encode "false"
  | .number token => token
  | .string written => byte '"' :: (written ++ [byte '"'])
  | .array [] => [byte '[', byte ']']
  | .array (item :: items) =>
    byte '[' :: (newline (depth + 1) ++ write (depth + 1) item ++ writeItems (depth + 1) items ++
      newline depth ++ [byte ']'])
  | .object [] => [byte '\x7b', byte '\x7d']
  | .object ((key, value) :: members) =>
    byte '\x7b' :: (newline (depth + 1) ++ writeKey key ++ write (depth + 1) value ++
      writeMembers (depth + 1) members ++ newline depth ++ [byte '\x7d'])

/-- The items after the first. -/
def writeItems (depth : Nat) : List Json → Bytes
  | [] => []
  | item :: items => byte ',' :: (newline depth ++ write depth item ++ writeItems depth items)

/-- The members after the first. -/
def writeMembers (depth : Nat) : List (Bytes × Json) → Bytes
  | [] => []
  | (key, value) :: members =>
    byte ',' :: (newline depth ++ writeKey key ++ write depth value ++ writeMembers depth members)

/-- A key with its colon. -/
def writeKey (key : Bytes) : Bytes := byte '"' :: (key ++ [byte '"', byte ':', byte ' '])

end

/-- The document that holds a value. -/
def pretty (value : Json) : Bytes := write 0 value

end Json

end LowDimLP
