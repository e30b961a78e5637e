/-
# Expressions of C#

Operators of all precedences are read as one flat sequence of operands, because
the analysis follows operands in their order and no operator.  Postfix forms are
nested as they bind: in `a.F(x).G` the access `.G` holds the call, which holds
the access `a.F`.
-/

import MappingAudit.CSharp.Types

namespace MappingAudit
namespace CSharp
namespace Grammar

open Rule

/-- A variable declared within an expression. -/
def declaredVariable (g : Grammar) : Rule :=
  node .expression (seq [g .typeName, alt [identifier, variableTuple 8]])
where
  /-- Names in parentheses, as in `var (a, b)`. -/
  variableTuple : Nat → Rule
    | 0 => never
    | n + 1 =>
      node .pattern
        (seq [mark "(", sepBy1 (mark ",") (alt [identifier, variableTuple n]), mark ")"])

/-- An argument of a call. -/
def argument (g : Grammar) : Rule :=
  node .argument
    (seq [opt (seq [identifier, mark ":"]),
      alt [
        seq [wordOf ["out", "ref", "in"], declaredVariable g,
          ahead (markOf [",", ")", "]"])],
        seq [opt (wordOf ["ref", "out", "in"]), g .expression]]])

/-- The arguments of a call. -/
def argumentList (g : Grammar) : Rule :=
  node .argumentList (seq [mark "(", sepBy (mark ",") (argument g), mark ")"])

/-- The arguments of an element access. -/
def bracketedArguments (g : Grammar) : Rule :=
  node .argumentList (seq [mark "[", sepBy1 (mark ",") (argument g), mark "]"])

/-- Attributes in brackets. -/
def attributeList (g : Grammar) : Rule :=
  node .attributeList
    (seq [mark "[", opt (seq [anyWord, mark ":"]),
      sepBy1 (mark ",") (seq [dottedName g, opt attributeArguments]), opt (mark ","), mark "]"])
where
  /-- The target of attributes, which may be a keyword. -/
  anyWord : Rule := token .mark (·.kind == .word)
  /-- The arguments of an attribute. -/
  attributeArguments : Rule :=
    node .expression
      (seq [mark "(",
        sepBy (mark ",") (seq [opt (seq [identifier, markOf [":", "="]]), g .expression]),
        mark ")"])

/-- Any number of attribute lists. -/
def attributes (g : Grammar) : Rule := many (attributeList g)

/-- A parameter of a method or of a lambda; its type may be left out in a lambda. -/
def parameter (g : Grammar) : Rule :=
  alt [
    seq [attributes g, word "params", g .typeName, identifier],
    node .parameter
      (seq [attributes g,
        many (token .modifier fun t =>
          t.kind == .word && ["this", "ref", "out", "in", "readonly", "scoped"].contains t.text),
        alt [seq [g .typeName, identifier], identifier],
        opt (seq [mark "=", g .expression])])]

/-- The parameters of a method or of a lambda. -/
def parameterList (g : Grammar) : Rule :=
  node .parameterList (seq [mark "(", sepBy (mark ",") (parameter g), mark ")"])

/-- The modifiers of a lambda. -/
def lambdaModifier : Rule :=
  token .modifier fun t => t.kind == .word && ["static", "async"].contains t.text

/-- A lambda expression. -/
def lambda (g : Grammar) : Rule :=
  node .lambda
    (seq [attributes g, many (seq [lambdaModifier, notAhead (mark "=>")]),
      alt [
        seq [token .implicitParameter (·.isIdentifier), mark "=>"],
        seq [parameterList g, mark "=>"],
        seq [g .typeName, parameterList g, mark "=>"]],
      alt [g .block, g .expression]])

/-- An anonymous method. -/
def anonymousMethod (g : Grammar) : Rule :=
  node .expression
    (seq [many lambdaModifier, word "delegate", opt (parameterList g), g .block])

/-- The values in braces after a creation. -/
def initializer (g : Grammar) : Nat → Rule
  | 0 => never
  | n + 1 =>
    node .expression
      (seq [mark "\x7b",
        sepBy (mark ",")
          (alt [
            initializer g n,
            node .expression (seq [alt [bracketedArguments g, identifier], mark "=", initializer g n]),
            node .expression (seq [bracketedArguments g, mark "=", g .expression]),
            g .expression]),
        opt (mark ","), mark "\x7d"])

/-- The deepest nesting of values in braces. -/
def initializerDepth : Nat := 64

/-- The type after `new`. -/
def createdType (g : Grammar) : Rule :=
  solid .typeName
    (seq [bareType g, opt (seq [mark "?", ahead (markOf ["(", "[", "\x7b"])])])

/-- A creation: of an object, an array, or an object without a named type. -/
def creation (g : Grammar) : Rule :=
  alt [
    node .expression
      (seq [word "new", mark "\x7b",
        sepBy (mark ",") (seq [opt (seq [identifier, mark "="]), g .expression]),
        opt (mark ","), mark "\x7d"]),
    node .expression (seq [word "new", argumentList g, opt values]),
    node .expression (seq [word "new", rankSuffix, values]),
    node .expression
      (seq [word "new", createdType g, mark "[", sepBy1 (mark ",") (g .expression), mark "]",
        many rankSuffix, opt values]),
    node .expression (seq [word "new", createdType g, many1 rankSuffix, values]),
    node .objectCreation
      (seq [word "new", createdType g,
        alt [seq [argumentList g, opt values], values]]),
    node .expression
      (seq [word "stackalloc", opt (createdType g), mark "[",
        sepBy (mark ",") (g .expression), mark "]", opt values])]
where
  /-- The values a created object or array starts with. -/
  values : Rule := initializer g initializerDepth

/-- A literal. -/
def literal : Rule :=
  alt [
    token .literal fun t => t.kind == .number || t.kind == .character,
    token .stringLiteral fun t =>
      t.kind == .string || t.kind == .verbatimString || t.kind == .rawString,
    token .literal fun t => t.kind == .word && ["true", "false", "null"].contains t.text]

/-- An interpolated string. -/
def interpolated (g : Grammar) : Rule :=
  node .expression
    (seq [token .mark (·.kind == .interpolationStart),
      many (alt [
        token .literal (·.kind == .interpolationText),
        node .expression
          (seq [token .mark (·.kind == .holeStart), g .expression,
            opt (seq [mark ",", g .expression]),
            opt (token .literal (·.kind == .holeFormat)),
            token .mark (·.kind == .holeEnd)])]),
      token .mark (·.kind == .interpolationEnd)])

/-- Words of queries and patterns that follow an operand. -/
def continuationWords : List String :=
  ["with", "switch", "is", "as", "and", "or", "when", "in", "on", "equals", "by", "into",
   "select", "where", "orderby", "group", "join", "let", "from", "ascending", "descending"]

/-- Tokens that can only follow the type of a cast. -/
def afterCast (t : Token) : Bool :=
  match t.kind with
  | .mark => ["(", "!", "~"].contains t.text
  | .word => !continuationWords.contains t.text
  | .holeStart | .holeFormat | .holeEnd | .interpolationText | .interpolationEnd => false
  | _ => true

/-- An operand; the flag tells whether it may be a lambda. -/
def operandOf (g : Grammar) (lambdas : Bool) : Rule := g (if lambdas then .operand else .plainOperand)

/-- A cast. -/
def cast (g : Grammar) (lambdas : Bool) : Rule :=
  node .expression
    (alt [
      seq [mark "(", solid .typeName (seq [wordOf typeWords, many (alt [rankSuffix, mark "?", mark "*"])]),
        mark ")", operandOf g lambdas],
      seq [mark "(", g .typeName, mark ")", ahead (token .mark afterCast), operandOf g lambdas]])

/-- One item of a tuple. -/
def tupleItem (g : Grammar) : Rule :=
  node .argument
    (seq [opt (seq [identifier, mark ":"]),
      alt [seq [declaredVariable g, ahead (markOf [",", ")"])], g .expression]])

/-- The items of a tuple after its first one, and the closing parenthesis. -/
def tupleRest (g : Grammar) : Rule := seq [many1 (seq [mark ",", tupleItem g]), mark ")"]

/-- An expression in parentheses, or a tuple. -/
def parenthesized (g : Grammar) : Rule :=
  alt [
    node .expression
      (seq [mark "(",
        ahead (alt [seq [identifier, mark ":"], seq [declaredVariable g, mark ","]]),
        tupleItem g, tupleRest g]),
    fun ts => do
      let (opening, ts) ← mark "(" ts
      let (inner, ts) ← g .expression ts
      match mark ")" ts with
      | some (closing, ts) => pure ([.wrap .parenthesized (opening ++ inner ++ closing)], ts)
      | none =>
        let (rest, ts) ← tupleRest g ts
        pure ([.wrap .expression (opening ++ .wrap .argument inner :: rest)], ts)]

/-- A keyword applied to something in parentheses. -/
def keywordCall (g : Grammar) : Rule :=
  alt [
    node .typeOf (seq [word "typeof", mark "(", g .typeName, mark ")"]),
    node .expression (seq [word "sizeof", mark "(", g .typeName, mark ")"]),
    node .expression (seq [word "default", opt (seq [mark "(", g .typeName, mark ")"])]),
    node .expression (seq [wordOf ["checked", "unchecked"], mark "(", g .expression, mark ")"])]

/-- A list of values in brackets. -/
def collection (g : Grammar) : Rule :=
  node .expression
    (seq [mark "[", sepBy (mark ",") (seq [opt (mark ".."), g .expression]), opt (mark ","),
      mark "]"])

/-- An operand without prefix operators and postfix forms. -/
def primary (g : Grammar) : Rule :=
  alt [
    literal,
    interpolated g,
    token .self fun t => t.isWord "this" || t.isWord "base",
    creation g,
    keywordCall g,
    anonymousMethod g,
    parenthesized g,
    collection g,
    solid .typeName (seq [wordOf typeWords, ahead (mark ".")]),
    solid .typeName (seq [identifier, mark "::", identifier]),
    simpleName g]

/-- The arms of a switch expression. -/
def switchArms (g : Grammar) : Rule :=
  seq [word "switch", mark "\x7b",
    sepBy (mark ",")
      (node .expression
        (seq [g .pattern, opt (seq [word "when", g .condition]), mark "=>", g .expression])),
    opt (mark ","), mark "\x7d"]

/-- The postfix forms of an expression. -/
def postfixForm (g : Grammar) (n : Node) : Rule :=
  alt [
    wrap .memberAccess n (seq [markOf [".", "->"], simpleName g]),
    wrap .invocation n (argumentList g),
    wrap .expression n (bracketedArguments g),
    wrap .effect n (markOf ["++", "--"]),
    wrap .expression n (mark "!"),
    wrap .expression n (switchArms g),
    wrap .expression n (seq [word "with", initializer g initializerDepth])]

/-- An operand: a primary expression with its prefix operators, casts and postfix
forms, or a lambda if `lambdas` holds. -/
def operand (g : Grammar) (lambdas : Bool) : Rule :=
  alt [
    if lambdas then lambda g else never,
    node .effect (seq [word "await", operandOf g lambdas]),
    node .effect (seq [markOf ["++", "--"], operandOf g lambdas]),
    node .expression (seq [markOf ["+", "-", "!", "~", "&", "*", "^"], operandOf g lambdas]),
    node .expression (seq [word "throw", g .expression]),
    node .expression (seq [word "ref", g .expression]),
    cast g lambdas,
    withSuffixes (primary g) (postfixForm g)]

/-- The operators of assignments. -/
def assignmentOperator : Rule :=
  alt [
    seq [adjacent ">" ">", opt (mark ">"), mark "="],
    markOf ["=", "+=", "-=", "*=", "/=", "%=", "&=", "|=", "^=", "<<=", "??="]]

/-- The binary operators other than assignments. -/
def binaryOperator : Rule :=
  alt [
    seq [adjacent ">" ">", opt (mark ">")],
    adjacent ">" "=",
    markOf ["||", "&&", "|", "^", "&", "==", "!=", "<", ">", "<=", "+", "-", "*", "/", "%",
      "<<", "??"]]

/-- The type tested by `is` or `as`, where a question mark may start a choice. -/
def testedType (g : Grammar) : Rule :=
  alt [
    seq [g .typeName, ahead (alt [markOf [")", "]", "\x7d", ",", ";", "??", "&&", "||", "==", "!=", ":"]])],
    g .plainType]

/-- An access that depends on the value before it, and the postfix forms after it.
It binds less tightly than the binary operators: in `a + b?.C` the access is made
on the sum `xs`. -/
def conditionalAccess (g : Grammar) (xs : List Node) : Rule := fun ts => do
  let (ys, ts) ← alt [
    seq [mark "?", node .expression (seq [mark ".", simpleName g])],
    seq [ahead (adjacent "?" "["), mark "?", bracketedArguments g]] ts
  suffixes (postfixForm g) [.wrap .conditionalAccess (xs ++ ys)] ts

/-- An assignment to the operands `xs`. -/
def assignment (g : Grammar) (xs : List Node) : Rule := fun ts => do
  let (ys, ts) ← seq [assignmentOperator, g .expression] ts
  pure ([.wrap .assignment (xs ++ ys)], ts)

/-- What may follow an operand. -/
def continuation (g : Grammar) (lambdas : Bool) : Rule :=
  alt [
    seq [binaryOperator, operandOf g lambdas],
    seq [word "is", g .pattern],
    seq [word "as", testedType g],
    seq [mark "?", g .expression, mark ":", g (if lambdas then .expression else .condition)],
    seq [mark "..", opt (operandOf g lambdas)]]

/-- Clauses of a query after its first one. -/
def queryClause (g : Grammar) : Rule :=
  alt [
    fromClause g,
    seq [word "let", identifier, mark "=", g .expression],
    seq [word "where", g .expression],
    seq [word "join", alt [seq [g .typeName, identifier], identifier], word "in", g .expression,
      word "on", g .expression, word "equals", g .expression, opt (seq [word "into", identifier])],
    seq [word "orderby",
      sepBy1 (mark ",") (seq [g .expression, opt (wordOf ["ascending", "descending"])])],
    seq [word "select", g .expression],
    seq [word "group", g .expression, word "by", g .expression],
    seq [word "into", identifier]]
where
  /-- The clause that names a range of values. -/
  fromClause (g : Grammar) : Rule :=
    seq [word "from", alt [seq [g .typeName, identifier, ahead (word "in")], identifier],
      word "in", g .expression]

/-- A query. -/
def query (g : Grammar) : Rule :=
  node .expression (seq [queryClause.fromClause g, many1 (queryClause g)])

/-- An expression: operands with operators between them. -/
def expression (g : Grammar) (lambdas : Bool) : Rule := fun ts => do
  let (xs, ts) ← alt [
    query g,
    operandOf g lambdas,
    node .expression (seq [mark "..", opt (operandOf g lambdas)])] ts
  let (xs, ts) ← extend (fun xs => alt [
    conditionalAccess g xs,
    assignment g xs,
    andThen (known xs) (continuation g lambdas)]) xs ts
  match xs with
  | [x] => pure ([x], ts)
  | xs => pure ([.wrap .expression xs], ts)
where
  /-- The nodes read so far. -/
  known (xs : List Node) : Rule := fun ts => some (xs, ts)

/-- The subpatterns of a positional pattern. -/
def positional (g : Grammar) : Rule :=
  seq [mark "(", sepBy (mark ",") (seq [opt (seq [identifier, mark ":"]), g .pattern]), mark ")"]

/-- The subpatterns of a property pattern. -/
def properties (g : Grammar) : Rule :=
  seq [mark "\x7b",
    sepBy (mark ",")
      (seq [withSuffixes identifier fun n => wrap .memberAccess n (seq [mark ".", identifier]),
        mark ":", g .pattern]),
    opt (mark ","), mark "\x7d"]

/-- The name a pattern binds. -/
def designation : Rule := seq [notAhead (wordOf ["and", "or", "when"]), identifier]

/-- A constant that a value is compared with. -/
def constantPattern (g : Grammar) : Rule :=
  alt [
    node .expression (seq [markOf ["-", "+"], literal]),
    withSuffixes (alt [literal, keywordCall g, interpolated g,
        solid .typeName (seq [wordOf typeWords, ahead (mark ".")]), simpleName g])
      fun n =>
        alt [
          wrap .memberAccess n (seq [mark ".", simpleName g]),
          wrap .invocation n (argumentList g)]]

/-- A pattern without `and` and `or`. -/
def primaryPattern (g : Grammar) : Rule :=
  alt [
    node .pattern (seq [word "not", g .pattern]),
    node .pattern
      (seq [alt [adjacent ">" "=", markOf ["<", ">", "<="]], constantPattern g]),
    node .pattern
      (seq [word "var", alt [designation, declaredVariable.variableTuple 8]]),
    node .pattern (seq [mark "(", g .pattern, mark ")"]),
    node .pattern
      (seq [mark "[", sepBy (mark ",") (alt [seq [mark "..", opt (g .pattern)], g .pattern]),
        mark "]", opt designation]),
    node .pattern (seq [opt (g .plainType), positional g, opt (properties g), opt designation]),
    node .pattern (seq [opt (g .plainType), properties g, opt designation]),
    node .pattern (seq [g .plainType, designation]),
    node .pattern (seq [constantPattern g]),
    node .pattern (seq [g .plainType])]

/-- A pattern. -/
def pattern (g : Grammar) : Rule :=
  seq [primaryPattern g, many (seq [wordOf ["and", "or"], primaryPattern g])]

end Grammar
end CSharp
end MappingAudit
