/-
# Tokens of C# source

A file is a sequence of words, literals and marks with spans.  Comments and
preprocessor lines are tokens too; they are set apart before the grammar reads
the rest.  An interpolated string is spread over several tokens: its opening,
stretches of text, and for every hole a brace on either side of the tokens of
the expression within.
-/

import MappingAudit.Text.Span
import MappingAudit.Text.Pieces

namespace MappingAudit
namespace CSharp

/-- What a token is. -/
inductive TokenKind where
  /-- An identifier or a keyword. -/
  | word
  /-- An identifier written with a leading `@`, never a keyword. -/
  | escapedWord
  | number
  | character
  /-- A string literal that may hold escapes. -/
  | string
  /-- A literal `@"…"`. -/
  | verbatimString
  /-- A literal between three or more quotes. -/
  | rawString
  /-- Punctuation. -/
  | mark
  | interpolationStart
  | interpolationText
  | holeStart
  /-- The format of a hole, from its colon on. -/
  | holeFormat
  | holeEnd
  | interpolationEnd
  | comment
  /-- A preprocessor line. -/
  | directive
  deriving Repr, DecidableEq, Inhabited

/-- A token with its text and place. -/
structure Token where
  kind : TokenKind
  text : String
  span : Span
  deriving Repr, Inhabited

/-- Words that cannot be identifiers. -/
def reservedWords : List String :=
  ["abstract", "as", "base", "bool", "break", "byte", "case", "catch", "char", "checked",
   "class", "const", "continue", "decimal", "default", "delegate", "do", "double", "else",
   "enum", "event", "explicit", "extern", "false", "finally", "fixed", "float", "for",
   "foreach", "goto", "if", "implicit", "in", "int", "interface", "internal", "is", "lock",
   "long", "namespace", "new", "null", "object", "operator", "out", "override", "params",
   "private", "protected", "public", "readonly", "ref", "return", "sbyte", "sealed", "short",
   "sizeof", "stackalloc", "static", "string", "struct", "switch", "this", "throw", "true",
   "try", "typeof", "uint", "ulong", "unchecked", "unsafe", "ushort", "using", "virtual",
   "void", "volatile", "while"]

/-- Keywords that name a type. -/
def typeWords : List String :=
  ["bool", "byte", "char", "decimal", "double", "float", "int", "long", "object", "sbyte",
   "short", "string", "uint", "ulong", "ushort", "void"]

/-- Words that qualify a declaration. -/
def modifierWords : List String :=
  ["abstract", "async", "const", "extern", "file", "fixed", "internal", "new", "override",
   "partial", "private", "protected", "public", "readonly", "required", "sealed", "static",
   "unsafe", "virtual", "volatile"]

namespace Token

/-- The token is the word `w`. -/
def isWord (t : Token) (w : String) : Bool := t.kind == .word && t.text == w

/-- The token is the mark `m`. -/
def isMark (t : Token) (m : String) : Bool := t.kind == .mark && t.text == m

/-- The token may name something. -/
def isIdentifier (t : Token) : Bool :=
  t.kind == .escapedWord || (t.kind == .word && !reservedWords.contains t.text)

/-- Tokens that the grammar does not read. -/
def isTrivia (t : Token) : Bool := t.kind == .comment || t.kind == .directive

end Token
end CSharp
end MappingAudit
