/-
# Words of a name

The words of a name such as `CustomerHTTPName` start at its capitals; a run of
capitals is one word, except that its last capital belongs to the small letter
after it.  Underscores separate words and are part of none.

A name is scanned from left to right.  Whether a word starts at a capital hangs on
the characters around it, which are read by their positions.
-/

import MappingAudit.Text.CharClass

namespace MappingAudit
namespace Words

/-- What is known in the middle of a name. -/
structure Scan where
  /-- The words that have ended. -/
  words : List (List Char) := []
  /-- The word at hand. -/
  current : List Char := []
  deriving Repr, DecidableEq

/-- A word starts at a capital between the characters before and after it. -/
def turns (before : Char) (after : Option Char) : Bool :=
  CharClass.small before || before.isDigit || after.any CharClass.small

/-- The character before a position; there is none before the first. -/
def before? (name : List Char) (i : Nat) : Option Char := if i = 0 then none else name[i - 1]?

namespace Scan

/-- The words up to here, with the word at hand. -/
def ended (s : Scan) : List (List Char) :=
  if s.current.isEmpty then s.words else s.words ++ [s.current]

/-- A new word starts at the character `c` at position `i`.  There is no answer if it hangs on
a character before the name. -/
def startsAt? (name : List Char) (s : Scan) (i : Nat) (c : Char) : Option Bool :=
  if CharClass.capital c && !s.current.isEmpty then
    (before? name i).map fun before => turns before name[i + 1]?
  else some false

/-- Goes on to the next character. -/
def step? (name : List Char) (s : Scan) (i : Nat) (c : Char) : Option Scan :=
  (s.startsAt? name i c).map fun starts =>
    if c = '_' then ⟨s.ended, []⟩
    else if starts then ⟨s.ended, [c]⟩
    else ⟨s.words, s.current ++ [c]⟩

/-- Goes on to the end of a name, of which the characters from position `i` on are left. -/
def run? (name : List Char) (s : Scan) (i : Nat) : List Char → Option Scan
  | [] => some s
  | c :: rest => (s.step? name i c).bind fun s' => s'.run? name (i + 1) rest

end Scan

/-- The words of a name, unless a character before the name is asked for. -/
def ofChars? (name : List Char) : Option (List (List Char)) :=
  (Scan.run? name {} 0 name).map Scan.ended

/-- The words of a name. -/
def ofName (name : String) : List String :=
  ((ofChars? name.toList).getD []).map String.ofList

end Words
end MappingAudit
