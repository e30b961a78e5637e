/-
# Statements of C#

Statements with a role of their own are blocks, expression statements, local
functions and declarations of local variables; all others share one kind.
-/

import MappingAudit.CSharp.Expressions

namespace MappingAudit
namespace CSharp
namespace Grammar

open Rule

/-- The name of a declared variable and its initial value. -/
def variableDeclarator (g : Grammar) (name : Rule) : Rule :=
  node .variableDeclarator
    (seq [name, opt (bracketedArguments g), opt (seq [mark "=", initialValue])])
where
  /-- An expression, or the values of an array. -/
  initialValue : Rule := alt [initializer g initializerDepth, g .expression]

/-- A type and the variables declared with it. -/
def variableDeclaration (g : Grammar) : Rule :=
  node .variableDeclaration
    (alt [
      seq [solid .typeName (word "var"), variableDeclarator g (declaredVariable.variableTuple 8)],
      seq [g .typeName, sepBy1 (mark ",") (variableDeclarator g identifier)]])

/-- Words that start a statement though they look like a type. -/
def statementWords : List String := ["await", "yield", "return", "throw", "goto"]

/-- A declaration of local variables. -/
def localDeclaration (g : Grammar) : Rule :=
  node .statement
    (seq [opt (word "await"), opt (word "using"), many modifier,
      notAhead (wordOf statementWords), variableDeclaration g, mark ";"])

/-- The body of a method: a block, an expression after an arrow, or nothing. -/
def methodBody (g : Grammar) (mayBeMissing : Bool) : Rule :=
  alt [
    g .block,
    seq [node .arrowClause (seq [mark "=>", g .expression]), mark ";"],
    if mayBeMissing then mark ";" else never]

/-- A function declared among statements. -/
def localFunction (g : Grammar) : Rule :=
  node .localFunction
    (seq [attributes g, many modifier, notAhead (wordOf statementWords), g .typeName, identifier,
      opt (typeParameters (attributes g)), parameterList g, constraints g, methodBody g false])

/-- The statements that start with a keyword of their own. -/
def keywordStatement (g : Grammar) : Rule :=
  alt [
    seq [word "if", condition, g .statement, opt (seq [word "else", g .statement])],
    seq [word "while", condition, g .statement],
    seq [word "do", g .statement, word "while", condition, mark ";"],
    seq [word "for", mark "(",
      opt (alt [seq [variableDeclaration g, ahead (mark ";")], expressions]), mark ";",
      opt (g .expression), mark ";", opt expressions, mark ")", g .statement],
    seq [opt (word "await"), word "foreach", mark "(",
      alt [
        seq [g .typeName, alt [identifier, declaredVariable.variableTuple 8], ahead (word "in")],
        g .expression],
      word "in", g .expression, mark ")", g .statement],
    seq [word "switch", mark "(", g .expression, mark ")", mark "\x7b", many switchSection,
      mark "\x7d"],
    seq [word "try", g .block, many catchClause, opt (seq [word "finally", g .block])],
    seq [word "return", opt (g .expression), mark ";"],
    seq [word "throw", opt (g .expression), mark ";"],
    seq [wordOf ["break", "continue"], mark ";"],
    seq [word "goto",
      alt [seq [word "case", g .expression], word "default", identifier], mark ";"],
    seq [word "yield", alt [seq [word "return", g .expression], word "break"], mark ";"],
    seq [opt (word "await"), word "using", mark "(",
      alt [seq [variableDeclaration g, ahead (mark ")")], g .expression], mark ")", g .statement],
    seq [word "lock", mark "(", g .expression, mark ")", g .statement],
    seq [word "fixed", mark "(", variableDeclaration g, mark ")", g .statement],
    seq [wordOf ["checked", "unchecked", "unsafe"], g .block],
    seq [identifier, mark ":", g .statement],
    mark ";"]
where
  /-- A condition in parentheses. -/
  condition : Rule := seq [mark "(", g .expression, mark ")"]
  /-- Expressions with commas between them. -/
  expressions : Rule := sepBy1 (mark ",") (g .expression)
  /-- A label of a switch section. -/
  switchLabel : Rule :=
    alt [
      seq [word "case", g .pattern, opt (seq [word "when", g .expression]), mark ":"],
      seq [word "case", g .expression, opt (seq [word "when", g .expression]), mark ":"],
      seq [word "default", mark ":"]]
  /-- Labels and the statements below them. -/
  switchSection : Rule := node .statement (seq [many1 switchLabel, many (g .statement)])
  /-- A handler of exceptions. -/
  catchClause : Rule :=
    seq [word "catch", opt (seq [mark "(", g .typeName, opt identifier, mark ")"]),
      opt (seq [word "when", mark "(", g .expression, mark ")"]), g .block]

/-- Statements in braces. -/
def block (g : Grammar) : Rule :=
  node .block (seq [mark "\x7b", many (g .statement), mark "\x7d"])

/-- The expression may stand as a statement, because evaluating it does something. -/
def isEffective (n : Node) : Bool :=
  [.assignment, .effect, .invocation, .objectCreation].contains n.kind

/-- An expression used as a statement. -/
def expressionStatement (g : Grammar) : Rule :=
  node .expressionStatement (seq [effective, mark ";"])
where
  /-- An expression that does something. -/
  effective : Rule := fun ts => do
    let (xs, ts) ← g .expression ts
    if xs.all isEffective then pure (xs, ts) else none

/-- A statement. -/
def statement (g : Grammar) : Rule :=
  alt [
    g .block,
    node .statement (keywordStatement g),
    localFunction g,
    localDeclaration g,
    expressionStatement g]

end Grammar
end CSharp
end MappingAudit
