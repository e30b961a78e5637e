/-
# Tokens of type expressions

A type text is a sequence of identifiers and punctuation marks, blanks between
them being free.  `::` counts as a dot, and the `@` in front of an identifier is
not part of its name.
-/

import MappingAudit.TypeExpr.Basic

namespace MappingAudit
namespace TypeExpr

/-- A token of a type text. -/
inductive Token where
  | ident (name : String)
  | dot
  | less
  | greater
  | comma
  | question
  | leftBracket
  | rightBracket
  | leftParen
  | rightParen
  | star
  deriving Repr, DecidableEq, Inhabited

/-- The hexadecimal digits of a number, without leading zeros. -/
def hex (n : Nat) : String := String.ofList (Nat.toDigits 16 n)

/-- A name between quotes; a mark that attaches to the character before it is
written by its code point. -/
def quoteName (name : String) : String :=
  "\"" ++ String.join (name.toList.map fun c =>
    if CharClass.extender c then "\\u\x7b" ++ hex c.toNat ++ "\x7d" else c.toString) ++ "\""

namespace Token

/-- The name of a token in messages. -/
def label : Token → String
  | ident name => "Ident(" ++ quoteName name ++ ")"
  | dot => "Dot"
  | less => "Lt"
  | greater => "Gt"
  | comma => "Comma"
  | question => "Question"
  | leftBracket => "LBracket"
  | rightBracket => "RBracket"
  | leftParen => "LParen"
  | rightParen => "RParen"
  | star => "Star"

/-- The name of the token found, or of its absence. -/
def foundLabel : Option Token → String
  | some t => "Some(" ++ t.label ++ ")"
  | none => "None"

/-- The punctuation mark of one character. -/
def ofMark? : Char → Option Token
  | '.' => some dot
  | '<' => some less
  | '>' => some greater
  | ',' => some comma
  | '?' => some question
  | '[' => some leftBracket
  | ']' => some rightBracket
  | '(' => some leftParen
  | ')' => some rightParen
  | '*' => some star
  | _ => none

/-- The characters of identifiers. -/
def nameChar (c : Char) : Bool := CharClass.alphanumeric c || c == '_' || c == '@'

/-- The identifier spelled by a run of name characters. -/
def ofName (cs : List Char) : Token := ident (String.ofList (cs.dropWhile (· == '@')))

/-- The tokens of a text, given the name characters read just before it in
reverse; the first character that starts no token is the error. -/
def scanFrom (name : List Char) : List Char → Except Char (List Token)
  | [] => .ok (close name [])
  | ':' :: ':' :: rest => (scanFrom [] rest).map fun ts => close name (dot :: ts)
  | c :: cs =>
    if nameChar c then scanFrom (c :: name) cs
    else if CharClass.blank c then (scanFrom [] cs).map (close name)
    else match ofMark? c with
      | some t => (scanFrom [] cs).map fun ts => close name (t :: ts)
      | none => .error c
where
  /-- Puts the identifier read so far in front of the tokens after it. -/
  close (name : List Char) (ts : List Token) : List Token :=
    if name.isEmpty then ts else ofName name.reverse :: ts

/-- The tokens of a text. -/
def scan (cs : List Char) : Except Char (List Token) := scanFrom [] cs

end Token
end TypeExpr
end MappingAudit
