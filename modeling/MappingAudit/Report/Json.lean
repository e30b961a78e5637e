/-
# Values as JSON text

A value is written over several lines, each level two blanks further to the right;
empty lists and objects stay on one line.  The fields of an object are written in the
order in which they are given.
-/

import MappingAudit.Text.Pieces

namespace MappingAudit

/-- A JSON value. -/
inductive JsonValue where
  | null
  | flag (b : Bool)
  | number (n : Nat)
  | text (s : String)
  | list (xs : List JsonValue)
  | object (fields : List (String × JsonValue))
  deriving Repr, Inhabited

namespace JsonValue

/-- The hexadecimal digit of a number below sixteen. -/
def hexDigit (n : Nat) : Char := ("0123456789abcdef".toList)[n]?.getD '0'

/-- A character within quotes. -/
def escape (c : Char) : List Char :=
  if c = '"' then ['\\', '"']
  else if c = '\\' then ['\\', '\\']
  else if c = '\n' then ['\\', 'n']
  else if c = '\r' then ['\\', 'r']
  else if c = '\t' then ['\\', 't']
  else if c = '\x08' then ['\\', 'b']
  else if c = '\x0c' then ['\\', 'f']
  else if c.toNat < 0x20 then
    ['\\', 'u', '0', '0', hexDigit (c.toNat / 16), hexDigit (c.toNat % 16)]
  else [c]

/-- A text within quotes. -/
def quote (s : String) : String := "\"" ++ String.ofList (s.toList.flatMap escape) ++ "\""

/-- The start of a line at a level. -/
def newLine (level : Nat) : String := "\n" ++ String.ofList (List.replicate (2 * level) ' ')

/-- Written parts between brackets, each on a line of its own. -/
def bracket (opening closing : String) (level : Nat) (parts : List String) : String :=
  if parts.isEmpty then opening ++ closing
  else
    opening ++ Pieces.join "," (parts.map fun p => newLine (level + 1) ++ p) ++ newLine level ++
      closing

mutual

/-- A value, written at a level. -/
def write (level : Nat) : JsonValue → String
  | null => "null"
  | flag b => if b then "true" else "false"
  | number n => toString n
  | text s => quote s
  | list xs => bracket "[" "]" level (writeAll (level + 1) xs)
  | object fields => bracket "\x7b" "\x7d" level (writeFields (level + 1) fields)

/-- The values of a list, written at a level. -/
def writeAll (level : Nat) : List JsonValue → List String
  | [] => []
  | x :: xs => write level x :: writeAll level xs

/-- The fields of an object, written at a level. -/
def writeFields (level : Nat) : List (String × JsonValue) → List String
  | [] => []
  | (k, v) :: rest => (quote k ++ ": " ++ write level v) :: writeFields level rest

end

/-- The value as text. -/
def render (v : JsonValue) : String := write 0 v

end JsonValue
end MappingAudit
