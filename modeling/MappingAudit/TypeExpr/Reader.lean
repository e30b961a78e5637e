/-
# Reading type expressions

A type is a tuple or a dotted name, followed by any number of suffixes: `?`,
`[,]` and `*`.  Every segment of a name may carry type arguments; all of them
belong to the whole name.  `readType` follows this grammar on a list of tokens,
and `read?` reads a text that must hold one type and nothing else.
-/

import MappingAudit.TypeExpr.Token

namespace MappingAudit
namespace TypeExpr

/-- Why a text is no type. -/
inductive ReadError where
  | character (c : Char) (text : String)
  | token (expected : Token) (found : Option Token)
  | typeExpected (found : Option Token)
  | nameExpected (found : Option Token)
  | tupleEnd (found : Option Token)
  | trailing (text : String)
  deriving Repr, DecidableEq

namespace ReadError

/-- The wording of an error. -/
def message : ReadError → String
  | character c text => "unexpected character '" ++ c.toString ++ "' in '" ++ text ++ "'"
  | token expected found =>
    "expected " ++ expected.label ++ ", found " ++ Token.foundLabel found
  | typeExpected found => "expected type, found " ++ Token.foundLabel found
  | nameExpected found => "expected identifier, found " ++ Token.foundLabel found
  | tupleEnd found => "expected ',' or ')' in tuple, found " ++ Token.foundLabel found
  | trailing text => "unexpected trailing input in '" ++ text ++ "'"

end ReadError

/-- Reads the suffixes after a type.  Within brackets `rank?` is the rank counted
so far. -/
def readSuffixes (t : TypeExpr) (rank? : Option Nat) :
    List Token → Except ReadError (TypeExpr × List Token)
  | [] =>
    match rank? with
    | none => .ok (t, [])
    | some _ => .error (.token .rightBracket none)
  | tok :: rest =>
    match rank?, tok with
    | none, .question => readSuffixes t.optional none rest
    | none, .leftBracket => readSuffixes t (some 1) rest
    | none, .star => readSuffixes t none rest
    | none, tok => .ok (t, tok :: rest)
    | some rank, .comma => readSuffixes t (some (rank + 1)) rest
    | some rank, .rightBracket => readSuffixes (array t rank) none rest
    | some _, tok => .error (.token .rightBracket (some tok))

mutual

/-- Reads a type from the front of a list of tokens. -/
def readType : Nat → List Token → Except ReadError (TypeExpr × List Token)
  | n + 1, .leftParen :: rest => do
    let (items, rest) ← readItems n rest
    readSuffixes (tuple items) none rest
  | n + 1, .ident name :: rest => do
    let ((path, args), rest) ← readPath n (.ident name :: rest)
    readSuffixes (named path args) none rest
  | _, tokens => .error (.typeExpected tokens.head?)

/-- Reads a dotted name: its segments and all their type arguments. -/
def readPath : Nat → List Token → Except ReadError ((List String × List TypeExpr) × List Token)
  | n + 1, .ident name :: .less :: rest => do
    let (args, rest) ← readArgs n rest
    match rest with
    | .greater :: .dot :: rest =>
      let ((path, more), rest) ← readPath n rest
      pure ((name :: path, args ++ more), rest)
    | .greater :: rest => pure (([name], args), rest)
    | rest => .error (.token .greater rest.head?)
  | n + 1, .ident name :: .dot :: rest => do
    let ((path, args), rest) ← readPath n rest
    pure ((name :: path, args), rest)
  | _ + 1, .ident name :: rest => .ok (([name], []), rest)
  | _, tokens => .error (.nameExpected tokens.head?)

/-- Reads type arguments up to the closing bracket.  Commas without a type
before them are skipped, so an open type has no arguments. -/
def readArgs : Nat → List Token → Except ReadError (List TypeExpr × List Token)
  | n + 1, tokens =>
    match tokens with
    | .greater :: rest => .ok ([], .greater :: rest)
    | .comma :: rest => readArgs n rest
    | tokens => do
      let (t, rest) ← readType n tokens
      match rest with
      | .comma :: rest =>
        let (ts, rest) ← readArgs n rest
        pure (t :: ts, rest)
      | rest => pure ([t], rest)
  | 0, tokens => .error (.typeExpected tokens.head?)

/-- Reads the types of a tuple and its closing parenthesis.  A name may follow
each type. -/
def readItems : Nat → List Token → Except ReadError (List TypeExpr × List Token)
  | n + 1, tokens => do
    let (t, rest) ← readType n tokens
    match dropName rest with
    | .comma :: rest =>
      let (ts, rest) ← readItems n rest
      pure (t :: ts, rest)
    | .rightParen :: rest => pure ([t], rest)
    | rest => .error (.tupleEnd rest.head?)
  | 0, tokens => .error (.typeExpected tokens.head?)

/-- The tokens without an identifier at their front. -/
def dropName : List Token → List Token
  | .ident _ :: rest => rest
  | tokens => tokens

end

/-- Reads one type that uses up all the tokens of `text`. -/
def readTokens (text : String) (tokens : List Token) : Except ReadError TypeExpr := do
  match ← readType (3 * tokens.length + 3) tokens with
  | (t, []) => pure t
  | (_, _ :: _) => .error (.trailing text)

/-- Reads a text as a type, in its single form. -/
def read (text : String) : Except ReadError TypeExpr :=
  match Token.scan text.toList with
  | .error c => .error (.character c text)
  | .ok tokens => (readTokens text tokens).map normalize

/-- The type a text spells, if it spells one. -/
def read? (text : String) : Option TypeExpr := (read text).toOption

end TypeExpr
end MappingAudit
