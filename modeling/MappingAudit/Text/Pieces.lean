/-
# Taking texts apart

Texts are cut at characters, at blanks and at byte offsets.  The functions work
on lists of characters, where cutting and joining are plain list operations;
those that end in `Text` wrap them for strings.
-/

import MappingAudit.Text.CharClass

namespace MappingAudit
namespace Pieces

/-- The pieces between the characters that satisfy `sep`; at least one piece. -/
def splitAt (sep : Char → Bool) : List Char → List (List Char)
  | [] => [[]]
  | c :: cs =>
    if sep c then [] :: splitAt sep cs
    else match splitAt sep cs with
      | [] => [[c]]
      | p :: ps => (c :: p) :: ps

/-- The pieces of a text between occurrences of a character. -/
def splitText (sep : Char) (s : String) : List String :=
  (splitAt (· == sep) s.toList).map String.ofList

/-- The non-empty pieces between blanks. -/
def words (cs : List Char) : List (List Char) :=
  (splitAt CharClass.blank cs).filter (!·.isEmpty)

/-- The characters after leading ones that satisfy `p`. -/
def trimStart (p : Char → Bool) (cs : List Char) : List Char := cs.dropWhile p

/-- The characters before trailing ones that satisfy `p`. -/
def trimEnd (p : Char → Bool) (cs : List Char) : List Char :=
  (cs.reverse.dropWhile p).reverse

/-- A list of characters without the blanks around it. -/
def trim (cs : List Char) : List Char :=
  trimEnd CharClass.blank (trimStart CharClass.blank cs)

/-- A text without the blanks around it. -/
def trimText (s : String) : String := String.ofList (trim s.toList)

/-- The rest after a leading `head`. -/
def dropHead? : List Char → List Char → Option (List Char)
  | [], cs => some cs
  | _ :: _, [] => none
  | h :: hs, c :: cs => if h = c then dropHead? hs cs else none

/-- The text before and after the first occurrence of `mark`. -/
def splitOnce? (mark : List Char) : List Char → Option (List Char × List Char)
  | [] => if mark.isEmpty then some ([], []) else none
  | c :: cs =>
    match dropHead? mark (c :: cs) with
    | some rest => some ([], rest)
    | none => (splitOnce? mark cs).map fun (a, b) => (c :: a, b)

/-- The number of bytes of a list of characters. -/
def byteLength : List Char → Nat
  | [] => 0
  | c :: cs => c.utf8Size + byteLength cs

/-- Cuts after the first `n` bytes; `none` when that splits a character or runs
past the end. -/
def cut? : Nat → List Char → Option (List Char × List Char)
  | 0, cs => some ([], cs)
  | _ + 1, [] => none
  | n + 1, c :: cs =>
    if c.utf8Size ≤ n + 1 then
      (cut? (n + 1 - c.utf8Size) cs).map fun (a, b) => (c :: a, b)
    else none

/-- The piece after the last character that satisfies `sep`. -/
def lastPiece (sep : Char → Bool) (cs : List Char) : List Char :=
  (splitAt sep cs).getLastD []

/-- The pieces of a text joined with `sep` between them. -/
def join (sep : String) (parts : List String) : String := sep.intercalate parts

/-- Equality of names that ignores the case of ASCII letters. -/
def sameName (a b : String) : Bool :=
  a.toList.map Char.toLower == b.toList.map Char.toLower

end Pieces
end MappingAudit
