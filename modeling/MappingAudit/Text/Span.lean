/-
# Places in a text

A position counts bytes of the UTF-8 text from zero, lines from one, and columns
in bytes from the start of the line.  A span is the stretch between two
positions; it is kept as six numbers, because spans also arrive from outside as
six numbers that need not fit together.
-/

namespace MappingAudit

/-- A place between two characters of a text. -/
structure Position where
  byte : Nat
  line : Nat
  column : Nat
  deriving Repr, DecidableEq, Inhabited

namespace Position

/-- The place before the first character. -/
def start : Position := ⟨0, 1, 0⟩

/-- The place after a character read at `p`. -/
def after (p : Position) (c : Char) : Position :=
  if c = '\n' then ⟨p.byte + 1, p.line + 1, 0⟩
  else ⟨p.byte + c.utf8Size, p.line, p.column + c.utf8Size⟩

/-- The place after a run of characters read at `p`. -/
def afterAll (p : Position) (cs : List Char) : Position := cs.foldl after p

end Position

/-- A stretch of a text. -/
structure Span where
  startLine : Nat
  startColumn : Nat
  endLine : Nat
  endColumn : Nat
  startByte : Nat
  endByte : Nat
  deriving Repr, DecidableEq, Inhabited

namespace Span

/-- The span between two positions. -/
def between (a b : Position) : Span :=
  ⟨a.line, a.column, b.line, b.column, a.byte, b.byte⟩

/-- The position where a span starts. -/
def start (s : Span) : Position := ⟨s.startByte, s.startLine, s.startColumn⟩

/-- The position where a span stops. -/
def stop (s : Span) : Position := ⟨s.endByte, s.endLine, s.endColumn⟩

/-- The span from the end of `a` to the end of `b`. -/
def trailing (a b : Span) : Span := between a.stop b.stop

/-- The span from the start of `a` to the end of `b`. -/
def cover (a b : Span) : Span := between a.start b.stop

/-- The bytes of `inner` lie within the bytes of `s`. -/
def contains (s inner : Span) : Bool :=
  s.startByte ≤ inner.startByte && inner.endByte ≤ s.endByte

/-- A span contains another one that neither starts before it nor ends after it. -/
theorem contains_iff {s inner : Span} : s.contains inner = true ↔
    s.startByte ≤ inner.startByte ∧ inner.endByte ≤ s.endByte := by
  rw [contains, Bool.and_eq_true, decide_eq_true_iff, decide_eq_true_iff]

/-- Every span contains itself. -/
theorem contains_self (s : Span) : s.contains s = true :=
  contains_iff.2 ⟨Nat.le_refl _, Nat.le_refl _⟩

/-- What a contained span contains is contained too. -/
theorem contains_trans {a b c : Span} (hab : a.contains b = true) (hbc : b.contains c = true) :
    a.contains c = true := by
  rw [contains_iff] at *
  omega

/-- A span that ends on a later line than it starts on. -/
def isMultiline (s : Span) : Bool := s.startLine < s.endLine

/-- The text that a span covers. -/
def slice (s : Span) (text : String) : String :=
  String.Pos.Raw.extract text ⟨s.startByte⟩ ⟨s.endByte⟩

end Span
end MappingAudit
