/-
# Smells

A smell is costly or unsafe work at a place of a lambda that runs for every mapped
value.  Of smells within one another only the outermost is kept.
-/

import MappingAudit.Model.Match
import MappingAudit.Source.Chain

namespace MappingAudit

/-- Costly work at a place. -/
structure Smell where
  span : Span
  /-- What the expression does; completes a sentence about it. -/
  description : String
  deriving Repr, DecidableEq, Inhabited

namespace Smell

/-- Smells that start earlier come first, of those the longer ones. -/
def notAfter (a b : Smell) : Bool :=
  a.span.startByte < b.span.startByte ||
    (a.span.startByte == b.span.startByte && b.span.endByte ≤ a.span.endByte)

/-- Keeps the smells that lie in none of those kept before. -/
def keepOutermost : List Smell → List Smell → List Smell
  | kept, [] => kept
  | kept, s :: ss =>
    if kept.any (·.span.contains s.span) then keepOutermost kept ss
    else keepOutermost (kept ++ [s]) ss

/-- The smells that lie in no other, by their places. -/
def outermost (smells : List Smell) : List Smell := keepOutermost [] (smells.mergeSort notAfter)

/-- What is known about the values that a lambda gets. -/
structure Scope where
  catalog : Catalog
  /-- The type of the first parameter. -/
  source : Option Model

/-- The last name of a dotted text, without blanks around it. -/
def lastName (text : String) : String :=
  String.ofList (Pieces.trim (Pieces.lastPiece (· == '.') text.toList))

/-- The names of a receiver, without what follows each name. -/
def receiverNames (receiver : String) : List String :=
  ((Pieces.splitAt (· == '.') receiver.toList).map fun p =>
    String.ofList (p.takeWhile CharClass.segment)).filter (!·.isEmpty)

/-- The text is a plain name. -/
def isName (s : String) : Bool := !s.isEmpty && s.toList.all CharClass.segment

/-- The members read one after the other from the first parameter. -/
def parameterPath? (e : Source.Summary) (receiver : String) : Option (List String) :=
  match (Pieces.splitText '.' receiver).map Pieces.trimText with
  | head :: path =>
    if some head == e.parameter && !path.isEmpty && path.all isName then some path else none
  | [] => none

/-- The type of a receiver that reads members of the first parameter. -/
def receiverShape? (scope : Scope) (e : Source.Summary) (receiver : String) : Option Shape := do
  let path ← parameterPath? e receiver
  let source ← scope.source
  let m ← source.follow? scope.catalog path
  pure m.shape

end Smell
end MappingAudit
