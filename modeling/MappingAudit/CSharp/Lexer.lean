/-
# Cutting C# source into tokens

`next?` measures the token at the front of a text, and `tokensFrom` cuts tokens
off until the text is used up.  Within an interpolated string the reader is in
one of two states, in the text or in a hole; the states stack up, because a hole
may hold another interpolated string.
-/

import MappingAudit.CSharp.Token

namespace MappingAudit
namespace CSharp
namespace Lexer

/-- How an interpolated string is written. -/
inductive Style where
  | plain
  | verbatim
  /-- Between `quotes` quotes, with holes in `dollars` braces. -/
  | raw (quotes dollars : Nat)
  deriving Repr, DecidableEq, Inhabited

/-- Where the reader stands inside an interpolated string. -/
inductive State where
  | text (style : Style)
  /-- In a hole, inside `depth` brackets. -/
  | hole (style : Style) (depth : Nat)
  deriving Repr, Inhabited

/-- Blanks between tokens. -/
def isGap (c : Char) : Bool := CharClass.blank c || c.toNat == 0xFEFF

/-- The number of leading characters equal to `c`. -/
def countLeading (c : Char) (cs : List Char) : Nat := (cs.takeWhile (· == c)).length

/-- The length of a string body up to and including its closing quote.  A
backslash takes the next character with it; a line break ends the search. -/
def plainBody? : List Char → Option Nat
  | [] => none
  | '\\' :: _ :: cs => (plainBody? cs).map (· + 2)
  | '"' :: _ => some 1
  | '\n' :: _ => none
  | _ :: cs => (plainBody? cs).map (· + 1)

/-- The length of a verbatim body, in which two quotes stand for one. -/
def verbatimBody? : List Char → Option Nat
  | [] => none
  | '"' :: '"' :: cs => (verbatimBody? cs).map (· + 2)
  | '"' :: _ => some 1
  | _ :: cs => (verbatimBody? cs).map (· + 1)

/-- The length of a raw body up to and including its closing run of `n` quotes. -/
def rawBody? (n : Nat) : List Char → Option Nat
  | [] => none
  | c :: cs =>
    if n ≤ countLeading '"' (c :: cs) then some (countLeading '"' (c :: cs))
    else (rawBody? n cs).map (· + 1)

/-- The length of a comment that ends at `*/`. -/
def blockBody? : List Char → Option Nat
  | [] => none
  | '*' :: '/' :: _ => some 2
  | _ :: cs => (blockBody? cs).map (· + 1)

/-- The length of the rest of a line. -/
def lineBody (cs : List Char) : Nat := (cs.takeWhile fun c => c != '\n' && c != '\r').length

/-- Hexadecimal digits. -/
def isHex (c : Char) : Bool :=
  c.isDigit || ('a' ≤ c && c ≤ 'f') || ('A' ≤ c && c ≤ 'F')

/-- The length of an escape `\uXXXX` or `\UXXXXXXXX` of a code point. -/
def codePointEscape : List Char → Nat
  | '\\' :: 'u' :: cs => if 4 ≤ (cs.takeWhile isHex).length then 6 else 0
  | '\\' :: 'U' :: cs => if 8 ≤ (cs.takeWhile isHex).length then 10 else 0
  | _ => 0

/-- The length of one character between single quotes, with the quote after it. -/
def characterBody? (cs : List Char) : Option Nat :=
  match cs with
  | '\\' :: 'x' :: rest =>
    let digits := (rest.takeWhile isHex).length
    closed (if digits = 0 then 0 else 2 + digits)
  | '\\' :: 'u' :: _ => closed (codePointEscape cs)
  | '\\' :: 'U' :: _ => closed (codePointEscape cs)
  | '\\' :: _ :: _ => closed 2
  | c :: _ => if c == '\'' || c == '\n' then none else closed 1
  | [] => none
where
  /-- The character of length `n` is followed by a quote. -/
  closed (n : Nat) : Option Nat :=
    if n != 0 && (cs.drop n).head? == some '\'' then some (n + 1) else none

/-- The length of the identifier characters at the front, `n` steps at most. -/
def identifierBody : Nat → List Char → Nat
  | 0, _ => 0
  | n + 1, cs =>
    match codePointEscape cs, cs with
    | 0, c :: rest => if CharClass.identifierPart c then 1 + identifierBody n rest else 0
    | k, cs => k + identifierBody n (cs.drop k)

/-- The length of an identifier at the front, zero if there is none. -/
def identifierLength (cs : List Char) : Nat :=
  match cs with
  | [] => 0
  | c :: _ =>
    if CharClass.identifierStart c || codePointEscape cs != 0 then
      identifierBody cs.length cs
    else 0

/-- The length of a number: digits, a fraction, an exponent and suffix letters. -/
def numberLength (cs : List Char) : Nat :=
  let whole := cs.takeWhile wordLike
  let rest := cs.drop whole.length
  let fraction :=
    match rest with
    | '.' :: d :: more => if d.isDigit && decimal cs then 1 + ((d :: more).takeWhile wordLike).length else 0
    | _ => 0
  let length := whole.length + fraction
  match (cs.take length).getLast?, cs.drop length with
  | some e, s :: more =>
    if (e == 'e' || e == 'E') && (s == '+' || s == '-') && decimal cs then
      length + 1 + (more.takeWhile wordLike).length
    else length
  | _, _ => length
where
  /-- Characters of digits, digit separators, exponents and suffixes. -/
  wordLike (c : Char) : Bool := c.isAlphanum || c == '_'
  /-- Numbers without a base prefix. -/
  decimal : List Char → Bool
    | '0' :: c :: _ => !(c == 'x' || c == 'X' || c == 'b' || c == 'B')
    | _ => true

/-- Marks of several characters, longest first.  Marks that start with `>` are
left to the grammar, where `>` may close type arguments. -/
def longMarks : List String :=
  ["<<=", "??=", "...", "=>", "==", "!=", "<=", "&&", "||", "??", "::", "->", "++", "--",
   "+=", "-=", "*=", "/=", "%=", "&=", "|=", "^=", "<<", ".."]

/-- Marks of one character. -/
def shortMarks : List Char :=
  ['{', '}', '(', ')', '[', ']', ';', ',', '.', ':', '?', '<', '>', '=', '+', '-', '*', '/',
   '%', '&', '|', '^', '!', '~']

/-- The length of the mark at the front, zero if there is none. -/
def markLength (cs : List Char) : Nat :=
  match longMarks.find? (fun m => (Pieces.dropHead? m.toList cs).isSome), cs with
  | some m, _ => m.length
  | none, c :: _ => if shortMarks.contains c then 1 else 0
  | none, [] => 0

/-- A string literal may be marked as UTF-8 by a suffix. -/
def encodingSuffix : List Char → Nat
  | c :: '8' :: _ => if c == 'u' || c == 'U' then 2 else 0
  | _ => 0

/-- The length of a body followed by its optional suffix. -/
def withSuffix (before : Nat) (body? : Option Nat) (cs : List Char) : Option Nat :=
  body?.map fun n => before + n + encodingSuffix (cs.drop (before + n))

/-- The opening of an interpolated string: its length and style. -/
def interpolation? (cs : List Char) : Option (Nat × Style) :=
  let dollars := countLeading '$' cs
  let rest := cs.drop dollars
  let quotes := countLeading '"' rest
  match cs with
  | '$' :: '@' :: '"' :: _ => some (3, .verbatim)
  | '@' :: '$' :: '"' :: _ => some (3, .verbatim)
  | '$' :: _ =>
    if 3 ≤ quotes then some (dollars + quotes, .raw quotes dollars)
    else if dollars == 1 && 1 ≤ quotes then some (2, .plain)
    else none
  | _ => none

/-- The kind and length of the token at the front of code. -/
def next? (cs : List Char) : Option (TokenKind × Nat) :=
  match cs with
  | [] => none
  | '/' :: '/' :: rest => some (.comment, 2 + lineBody rest)
  | '/' :: '*' :: rest => (blockBody? rest).map fun n => (.comment, 2 + n)
  | '@' :: '"' :: rest => (withSuffix 2 (verbatimBody? rest) cs).map fun n => (.verbatimString, n)
  | '@' :: rest =>
    match identifierLength rest with
    | 0 => none
    | n => some (.escapedWord, n + 1)
  | '"' :: rest =>
    let quotes := countLeading '"' cs
    if 3 ≤ quotes then
      (withSuffix quotes (rawBody? quotes (cs.drop quotes)) cs).map fun n => (.rawString, n)
    else (withSuffix 1 (plainBody? rest) cs).map fun n => (.string, n)
  | '\'' :: rest => (characterBody? rest).map fun n => (.character, n + 1)
  | c :: rest =>
    if c.isDigit || (c == '.' && rest.head?.any Char.isDigit) then
      some (.number, if c == '.' then 1 + numberLength rest else numberLength cs)
    else match identifierLength cs, markLength cs with
      | 0, 0 => none
      | 0, n => some (.mark, n)
      | n, _ => some (.word, n)

/-- The length of the text of an interpolated string up to a hole or the end. -/
def textLength (style : Style) : List Char → Nat
  | [] => 0
  | '\\' :: c :: cs =>
    if style = .plain then 2 + textLength style cs else 1 + textLength style (c :: cs)
  | '{' :: '{' :: cs =>
    if isRaw style then stopOr '{' ('{' :: cs) else 2 + textLength style cs
  | '"' :: '"' :: cs =>
    if style = .verbatim then 2 + textLength style cs else stopOr '"' ('"' :: cs)
  | c :: cs => stopOr c cs
where
  /-- Raw strings. -/
  isRaw : Style → Bool
    | .raw _ _ => true
    | _ => false
  /-- Stops at the braces of a hole and at the closing quotes. -/
  stopOr (c : Char) (cs : List Char) : Nat :=
    match style with
    | .raw quotes dollars =>
      if (c == '{' && dollars ≤ countLeading '{' (c :: cs)) ||
          (c == '"' && quotes ≤ countLeading '"' (c :: cs)) then 0
      else 1 + textLength style cs
    | _ => if c == '{' || c == '"' then 0 else 1 + textLength style cs

/-- The braces around a hole. -/
def holeBraces : Style → Nat
  | .raw _ dollars => dollars
  | _ => 1

/-- The closing quotes of an interpolated string. -/
def closingQuotes : Style → Nat
  | .raw quotes _ => quotes
  | _ => 1

/-- A token inside interpolated text, and the states after it. -/
def nextText? (style : Style) (below : List State) (cs : List Char) :
    Option (TokenKind × Nat × List State) :=
  match textLength style cs, cs with
  | 0, '{' :: _ =>
    some (.holeStart, holeBraces style, .hole style 0 :: .text style :: below)
  | 0, '"' :: _ => some (.interpolationEnd, closingQuotes style, below)
  | 0, _ => none
  | n, _ => some (.interpolationText, n, .text style :: below)

/-- A token of code, and the states after it. -/
def nextCode? (states : List State) (cs : List Char) :
    Option (TokenKind × Nat × List State) :=
  match interpolation? cs with
  | some (n, style) => some (.interpolationStart, n, .text style :: states)
  | none =>
    match states, cs with
    | .hole style 0 :: below, '}' :: _ => some (.holeEnd, holeBraces style, below)
    | .hole style 0 :: below, ':' :: rest =>
      if rest.head? == some ':' then (next? cs).map fun (k, n) => (k, n, .hole style 0 :: below)
      else some (.holeFormat, (cs.takeWhile (· != '}')).length, .hole style 0 :: below)
    | states, cs => (next? cs).map fun (k, n) => (k, n, nest states k cs)
where
  /-- Brackets inside a hole are counted. -/
  nest (states : List State) (k : TokenKind) (cs : List Char) : List State :=
    match states, k, cs with
    | .hole style depth :: below, .mark, c :: _ =>
      if c == '(' || c == '[' || c == '{' then .hole style (depth + 1) :: below
      else if c == ')' || c == ']' || c == '}' then .hole style (depth - 1) :: below
      else states
    | _, _, _ => states

/-- The next token in any state. -/
def nextIn? (states : List State) (cs : List Char) : Option (TokenKind × Nat × List State) :=
  match states with
  | .text style :: below => nextText? style below cs
  | states => nextCode? states cs

/-- Blanks are skipped in code and kept in interpolated text. -/
def skipsGaps : List State → Bool
  | .text _ :: _ => false
  | _ => true

/-- The words that tell preprocessor lines apart. -/
def directiveWords : List String :=
  ["if", "elif", "else", "endif", "define", "undef", "region", "endregion", "error", "warning",
   "line", "nullable", "pragma"]

/-- The length of a preprocessor line. -/
def directive? (cs : List Char) : Option Nat :=
  let word := ((cs.drop 1).dropWhile fun c => c == ' ' || c == '\t').takeWhile Char.isAlpha
  if directiveWords.contains (String.ofList word) then some (lineBody cs) else none

/-- The tokens of a text read at `p`; the flag tells that the whole text was read.
`lineStart` holds while only blanks have been read on the current line. -/
def tokensFrom (states : List State) (lineStart : Bool) (p : Position) (cs : List Char) :
    List Token × Bool :=
  match cs with
  | [] => ([], states.isEmpty)
  | c :: rest =>
    if skipsGaps states && isGap c then
      tokensFrom states (lineStart || c == '\n') (p.after c) rest
    else
      let found :=
        if c == '#' && lineStart && skipsGaps states then
          (directive? (c :: rest)).map fun n => (TokenKind.directive, n, states)
        else nextIn? states (c :: rest)
      match found with
      | none => ([], false)
      | some (kind, n, states') =>
        let taken := (c :: rest).take (n - 1 + 1)
        let q := p.afterAll taken
        let token := ⟨kind, String.ofList taken, Span.between p q⟩
        let (tokens, complete) := tokensFrom states' (kind == .comment && lineStart) q (rest.drop (n - 1))
        (token :: tokens, complete)
termination_by cs.length
decreasing_by
  · exact Nat.lt_succ_self _
  · exact Nat.lt_succ_of_le (List.length_drop ▸ Nat.sub_le ..)

/-- The tokens of a text, up to the first character that starts none. -/
def tokens (text : String) : List Token × Bool :=
  tokensFrom [] true Position.start text.toList

end Lexer
end CSharp
end MappingAudit
