/-
# Grammar rules

A rule reads tokens from the front of a list and yields the nodes it read; it
fails when the tokens do not fit.  Rules are put together in sequence, as
alternatives of which the first that fits is taken, and by repetition.

Rules that contain each other refer to one another by `Category`: a rule is
written over a function from categories to rules, and `Category.tie` closes the
knot with a bound on the depth of nesting.
-/

import MappingAudit.CSharp.Token
import MappingAudit.CSharp.Node

namespace MappingAudit
namespace CSharp

/-- Reads nodes from the front of a list of tokens. -/
abbrev Rule := List Token → Option (List Node × List Token)

/-- The constructs that contain one another. -/
inductive Category where
  | typeName
  /-- A type without the mark of an optional type at its end. -/
  | plainType
  | expression
  /-- An operand: an expression without binary operators. -/
  | operand
  /-- An expression before an arrow, in which no lambda starts. -/
  | condition
  /-- An operand of such an expression. -/
  | plainOperand
  | pattern
  | statement
  | block
  | declaration
  deriving Repr, DecidableEq

/-- The rule of every category. -/
abbrev Grammar := Category → Rule

namespace Rule

/-- The node of one token. -/
def leaf (k : Kind) (t : Token) : Node := .mk k t.span []

/-- Reads nothing. -/
def empty : Rule := fun ts => some ([], ts)

/-- Fits nowhere. -/
def never : Rule := fun _ => none

/-- Reads one token that satisfies `p`, as a node of kind `k`. -/
def token (k : Kind) (p : Token → Bool) : Rule
  | t :: ts => if p t then some ([leaf k t], ts) else none
  | [] => none

/-- Reads the mark `m`. -/
def mark (m : String) : Rule := token .mark (·.isMark m)

/-- Reads the keyword `w`. -/
def word (w : String) : Rule := token .mark (·.isWord w)

/-- Reads one of the keywords `ws`. -/
def wordOf (ws : List String) : Rule :=
  token .mark fun t => t.kind == .word && ws.contains t.text

/-- Reads one of the marks `ms`. -/
def markOf (ms : List String) : Rule :=
  token .mark fun t => t.kind == .mark && ms.contains t.text

/-- Reads an identifier. -/
def identifier : Rule := token .identifier (·.isIdentifier)

/-- Reads a word that qualifies a declaration. -/
def modifier : Rule :=
  token .modifier fun t => t.kind == .word && modifierWords.contains t.text

/-- One rule after the other. -/
def andThen (a b : Rule) : Rule := fun ts => do
  let (xs, ts) ← a ts
  let (ys, ts) ← b ts
  pure (xs ++ ys, ts)

/-- Rules in sequence. -/
def seq (rules : List Rule) : Rule := rules.foldr andThen empty

/-- The first rule that fits. -/
def alt (rules : List Rule) : Rule := fun ts => rules.findSome? fun r => r ts

/-- A rule that may be left out. -/
def opt (r : Rule) : Rule := alt [r, empty]

/-- Any number of repetitions, as many as fit. -/
def many (r : Rule) (ts : List Token) : Option (List Node × List Token) :=
  match r ts with
  | none => some ([], ts)
  | some (xs, rest) =>
    if rest.length < ts.length then do
      let (ys, rest) ← many r rest
      pure (xs ++ ys, rest)
    else some ([], ts)
termination_by ts.length

/-- One or more repetitions. -/
def many1 (r : Rule) : Rule := andThen r (many r)

/-- One or more repetitions with `separator` between them. -/
def sepBy1 (separator r : Rule) : Rule := andThen r (many (andThen separator r))

/-- Any number of repetitions with `separator` between them. -/
def sepBy (separator r : Rule) : Rule := opt (sepBy1 separator r)

/-- Joins the nodes a rule reads into one node. -/
def node (k : Kind) (r : Rule) : Rule := fun ts => do
  let (xs, ts) ← r ts
  pure ([.wrap k xs], ts)

/-- Joins the nodes a rule reads into one node without children. -/
def solid (k : Kind) (r : Rule) : Rule := fun ts => do
  let (xs, ts) ← r ts
  pure ([.mk k (Node.wrap k xs).span []], ts)

/-- Fits when the rule `r` would fit, and reads nothing. -/
def ahead (r : Rule) : Rule := fun ts => (r ts).map fun _ => ([], ts)

/-- Fits when the rule `r` would not fit, and reads nothing. -/
def notAhead (r : Rule) : Rule := fun ts => if (r ts).isSome then none else some ([], ts)

/-- Continues from the nodes read so far: `step` is applied to them as often as it
fits. -/
def extend (step : List Node → Rule) (xs : List Node) (ts : List Token) :
    Option (List Node × List Token) :=
  match step xs ts with
  | some (ys, rest) =>
    if rest.length < ts.length then extend step ys rest else some (xs, ts)
  | none => some (xs, ts)
termination_by ts.length

/-- Any number of suffixes, each of which wraps the node before it. -/
def suffixes (suffix : Node → Rule) : List Node → Rule :=
  extend fun xs => match xs with
    | [n] => suffix n
    | _ => never

/-- A rule for one node, followed by suffixes that wrap it. -/
def withSuffixes (start : Rule) (suffix : Node → Rule) : Rule := fun ts => do
  let (xs, ts) ← start ts
  suffixes suffix xs ts

/-- A node of kind `k` over `n` and the nodes of `r`. -/
def wrap (k : Kind) (n : Node) (r : Rule) : Rule := fun ts => do
  let (xs, ts) ← r ts
  pure ([.wrap k (n :: xs)], ts)

/-- Two marks written without a gap, such as the two halves of `>>`. -/
def adjacent (a b : String) : Rule
  | s :: t :: ts =>
    if s.isMark a && t.isMark b && s.span.endByte == t.span.startByte then
      some ([leaf .mark s, leaf .mark t], ts)
    else none
  | _ => none

end Rule

namespace Category

/-- The grammar whose rules refer to themselves through `rules`, for nesting up
to depth `n`. -/
def tie (rules : Grammar → Grammar) : Nat → Grammar
  | 0, _ => Rule.never
  | n + 1, c => fun ts => rules (tie rules n) c ts

end Category
end CSharp
end MappingAudit
