/-
# Changes of a chain

A fix changes a chain by a call or by a statement.  The change is made by editing the
text at the places that the chain was read from; when a place does not exist, there is
no edit.  Only the end of an edit is compared with the text.  To find the lines of a
statement the text is cut before that, which fails within a character.
-/

import MappingAudit.Audit.Basic
import MappingAudit.Edit

namespace MappingAudit

variable [CSharp.Reader]

/-- A change of the chain of a registration. -/
inductive Operation where
  /-- Adds a call after the last one that configures the mapping. -/
  | appendCall (registration : Nat) (call : String)
  | replaceCall (registration callIndex : Nat) (call : String)
  | removeCall (registration callIndex : Nat)
  /-- Adds statements after that of the chain. -/
  | insertStatements (registration : Nat) (statements : List String)
  | removeStatement (registration : Nat)
  deriving Repr, DecidableEq, Inhabited

/-- What becomes of a change in the texts of a workspace. -/
inductive Resolution where
  | edits (es : List Edit)
  /-- A place of the change does not exist, so there is no edit. -/
  | declined
  /-- A text would be cut within a character or beyond its end. -/
  | crashed
  deriving Repr, DecidableEq, Inhabited

namespace Resolution

/-- The edits, when there are some. -/
def edits? : Resolution → Option (List Edit)
  | edits es => some es
  | declined => none
  | crashed => none

end Resolution

namespace Registration

/-- Where the last call ends that configures the mapping. -/
def forwardEnd (r : Registration) : Nat :=
  match r.reverse with
  | some b =>
    match if b.callIndex = 0 then none else r.chain.calls[b.callIndex - 1]? with
    | some c => c.span.endByte
    | none => r.chain.span.endByte
  | none => r.chain.span.endByte

/-- The blanks between calls of the chain. -/
def separator (r : Registration) : String :=
  (((r.chain.calls.drop 1).map (·.separator)).find? (!·.isEmpty)).getD ""

/-- A call of the chain other than the one that starts it. -/
def laterCall? (r : Registration) (index : Nat) : Option Source.Call :=
  if index = 0 then none else r.chain.calls[index]?

end Registration

namespace Operation

/-- The position of the registration that changes. -/
def registration : Operation → Nat
  | appendCall r _ => r
  | replaceCall r _ _ => r
  | removeCall r _ => r
  | insertStatements r _ => r
  | removeStatement r => r

/-- A stretch of a text widened to whole lines, when nothing else stands on them. -/
def wholeLines? (text : List Char) (start stop : Nat) : Option (Nat × Nat) := do
  let (before, _) ← Pieces.cut? start text
  let (_, after) ← Pieces.cut? stop text
  let head := Pieces.lastPiece (· == '\n') before
  let tail := after.takeWhile (· != '\n')
  let lineBreak := (after.drop tail.length).take 1
  if head.all CharClass.blank && tail.all CharClass.blank then
    pure (start - Pieces.byteLength head, stop + Pieces.byteLength tail + lineBreak.length)
  else pure (start, stop)

/-- The edit of a file that changes the chain of a registration. -/
def edit? (r : Registration) (text : List Char) : Operation → Option Edit
  | appendCall _ call => some ⟨r.file, r.forwardEnd, r.forwardEnd, r.separator ++ "." ++ call⟩
  | replaceCall _ index call => do
    let c ← r.laterCall? index
    pure ⟨r.file, c.segment.startByte, c.segment.endByte, c.separator ++ "." ++ call⟩
  | removeCall _ index => do
    let c ← r.laterCall? index
    pure ⟨r.file, c.segment.startByte, c.segment.endByte, ""⟩
  | insertStatements _ statements => do
    let s ← r.chain.statement
    pure ⟨r.file, s.span.endByte, s.span.endByte,
      String.join (statements.map fun t => "\n" ++ s.indent ++ t)⟩
  | removeStatement _ => do
    let s ← r.chain.statement
    let (a, b) ← wholeLines? text s.span.startByte s.span.endByte
    pure ⟨r.file, a, b, ""⟩

/-- The text cannot be cut where the whole lines of a statement are looked for. -/
def crashes (r : Registration) (text : List Char) : Operation → Bool
  | removeStatement _ =>
    r.chain.statement.any fun s =>
      (wholeLines? text s.span.startByte s.span.endByte).isNone
  | _ => false

/-- What becomes of the change in the text of a document. -/
def resolveIn (op : Operation) (r : Registration) (d : Document) : Resolution :=
  if op.crashes r d.text.toList then .crashed
  else
    match op.edit? r d.text.toList with
    | some e => if e.stop ≤ d.text.utf8ByteSize then .edits [e] else .declined
    | none => .declined

/-- What becomes of the change in a workspace. -/
def resolve (op : Operation) (a : Audit) (w : Workspace) : Resolution :=
  match a.registrations[op.registration]? with
  | none => .declined
  | some r =>
    match w.document? r.file with
    | none => .declined
    | some d => op.resolveIn r d

/-- The edits of a workspace that make the change. -/
def edits? (op : Operation) (a : Audit) (w : Workspace) : Option (List Edit) :=
  (op.resolve a w).edits?

end Operation
end MappingAudit
