/-
# Edits of texts

An edit puts a text in place of a stretch of another.  Edits that do not overlap are
made together: the stretches between them stay, whatever the order in which the edits
are given.
-/

import MappingAudit.Text.Pieces

namespace MappingAudit

/-- Puts `replacement` in place of the bytes from `start` to `stop` of a file. -/
structure Edit where
  file : String
  start : Nat
  stop : Nat
  replacement : String
  deriving Repr, DecidableEq, Inhabited

/-- Edits that cannot be made. -/
inductive EditError where
  | outside (start stop size : Nat)
  | splitsCharacter (start stop : Nat)
  | overlap (start stop nextStart nextStop : Nat)
  | unknownFile (path : String)
  deriving Repr, DecidableEq, Inhabited

namespace EditError

/-- A stretch as messages name it. -/
def stretch (start stop : Nat) : String := toString start ++ ".." ++ toString stop

/-- What is said about edits that cannot be made. -/
def message : EditError → String
  | outside a b n => "edit " ++ stretch a b ++ " is outside the document (" ++ toString n ++ " bytes)"
  | splitsCharacter a b => "edit " ++ stretch a b ++ " splits a character"
  | overlap a b c d => "overlapping edits at " ++ stretch a b ++ " and " ++ stretch c d
  | unknownFile path => path ++ " is not part of the compilation"

end EditError

namespace Edit

/-- Edits that start earlier come first, of those the shorter ones. -/
def notAfter (a b : Edit) : Bool :=
  a.start < b.start || (a.start == b.start && a.stop ≤ b.stop)

/-- A place between two characters of a text. -/
def isBoundary (text : List Char) (n : Nat) : Bool := (Pieces.cut? n text).isSome

/-- What is wrong with the stretch of an edit. -/
def fault? (text : List Char) (e : Edit) : Option EditError :=
  let size := Pieces.byteLength text
  if e.stop < e.start || size < e.stop then some (.outside e.start e.stop size)
  else if isBoundary text e.start && isBoundary text e.stop then none
  else some (.splitsCharacter e.start e.stop)

/-- The first two neighbours that overlap. -/
def overlap? : List Edit → Option EditError
  | a :: b :: rest =>
    if b.start < a.stop then some (.overlap a.start a.stop b.start b.stop)
    else overlap? (b :: rest)
  | _ => none

/-- The text cut after `n` bytes. -/
def cutAt (n : Nat) (text : List Char) : List Char × List Char :=
  (Pieces.cut? n text).getD (text, [])

/-- Makes edits that are in order and do not overlap; the text starts at byte `done`. -/
def splice (done : Nat) (text : List Char) : List Edit → List Char
  | [] => text
  | e :: es =>
    let (kept, rest) := cutAt (e.start - done) text
    let (_, after) := cutAt (e.stop - e.start) rest
    kept ++ e.replacement.toList ++ splice e.stop after es

/-- Makes edits of one text. -/
def applyAll (text : String) (edits : List Edit) : Except EditError String :=
  let ordered := edits.mergeSort notAfter
  match ordered.findSome? (fault? text.toList) with
  | some e => .error e
  | none =>
    match overlap? ordered with
    | some e => .error e
    | none => .ok (String.ofList (splice 0 text.toList ordered))

/-- The files that edits touch, in order, each once. -/
def files (edits : List Edit) : List String :=
  ((edits.map (·.file)).mergeSort fun a b => a ≤ b).eraseDups

end Edit
end MappingAudit
