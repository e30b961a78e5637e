/-
# Classes of characters

Names of types and members may hold letters of any script, so the classes below
follow the Unicode character properties and not only ASCII.  The ASCII part of a
class is decided directly, the rest by the tables of `CharTable`.
-/

import MappingAudit.Text.CharTable

namespace MappingAudit
namespace CharClass

/-- The characters below U+0080. -/
def ascii (c : Char) : Bool := c.toNat < 0x80

/-- The `White_Space` property. -/
def blank (c : Char) : Bool :=
  let n := c.toNat
  (9 ≤ n && n ≤ 13) || n == 0x20 || n == 0x85 || n == 0xA0 || n == 0x1680 ||
    (0x2000 ≤ n && n ≤ 0x200A) || n == 0x2028 || n == 0x2029 || n == 0x202F ||
    n == 0x205F || n == 0x3000

/-- The `Alphabetic` property. -/
def alphabetic (c : Char) : Bool :=
  if ascii c then c.isAlpha
  else (CharTable.has CharTable.letters c && !CharTable.has CharTable.nonAlphabeticLetters c) ||
    CharTable.has CharTable.marks c

/-- Alphabetic characters, digits and other numbers. -/
def alphanumeric (c : Char) : Bool :=
  if ascii c then c.isAlphanum else alphabetic c || CharTable.has CharTable.numbers c

/-- Characters of a plain name segment: alphanumeric or an underscore. -/
def segment (c : Char) : Bool := alphanumeric c || c == '_'

/-- Segment characters without the numbers that are not digits (`²`, `½`). -/
def word (c : Char) : Bool :=
  segment c && (ascii c || !CharTable.has CharTable.nonWordNumbers c)

/-- Characters that may start an identifier. -/
def identifierStart (c : Char) : Bool :=
  if ascii c then c.isAlpha || c == '_' else CharTable.has CharTable.letters c

/-- Characters that may continue an identifier. -/
def identifierPart (c : Char) : Bool :=
  if ascii c then c.isAlphanum || c == '_'
  else identifierStart c ||
    ((alphanumeric c || CharTable.has CharTable.joiners c) &&
      !CharTable.has CharTable.nonNameAlphanumerics c)

/-- The `Uppercase` property. -/
def capital (c : Char) : Bool :=
  if ascii c then c.isUpper else CharTable.has CharTable.capitals c

/-- The `Lowercase` property. -/
def small (c : Char) : Bool :=
  if ascii c then c.isLower else CharTable.has CharTable.smalls c

/-- Alphanumeric characters that attach to the character before them. -/
def extender (c : Char) : Bool :=
  !ascii c && CharTable.has CharTable.extenders c

end CharClass
end MappingAudit
