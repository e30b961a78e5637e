/-
# Declarations of C#

Types and their members, namespaces and using directives, and the file as a
whole.  A file may mix declarations and statements.  The grammar reads a text
without regard to the preprocessor, and reads as many items as it can.
-/

import MappingAudit.CSharp.Lexer
import MappingAudit.CSharp.Reader
import MappingAudit.CSharp.Statements

namespace MappingAudit
namespace CSharp
namespace Grammar

open Rule

/-- A semicolon that directly follows, without a gap. -/
def closeSemicolon (r : Rule) : Rule := fun ts => do
  let (xs, rest) ← r ts
  match xs.getLast?, rest with
  | some x, t :: rest' =>
    if t.isMark ";" && x.span.endByte == t.span.startByte then
      pure (xs ++ [leaf .mark t], rest')
    else pure (xs, rest)
  | _, _ => pure (xs, rest)

/-- A declaration whose body may be followed by a semicolon at once. -/
def closed (k : Kind) (r : Rule) : Rule := node k (closeSemicolon r)

/-- Attributes and modifiers before a declaration. -/
def preamble (g : Grammar) : Rule := seq [attributes g, many modifier]

/-- The types a declared type derives from. -/
def baseList (g : Grammar) : Rule :=
  node .baseList
    (seq [mark ":", sepBy1 (mark ",") (seq [g .typeName, opt (argumentList g)])])

/-- The members of a type or a namespace. -/
def declarationList (g : Grammar) : Rule :=
  node .declarationList (seq [mark "\x7b", many (g .declaration), mark "\x7d"])

/-- Type parameters, primary parameters, bases and conditions after a type name. -/
def typeHead (g : Grammar) : Rule :=
  seq [many (alt [typeParameters (attributes g), parameterList g, baseList g]), constraints g]

/-- The members of an enumeration. -/
def enumBody (g : Grammar) : Rule :=
  node .expression
    (seq [mark "\x7b",
      sepBy (mark ",")
        (node .expression (seq [attributes g, identifier, opt (seq [mark "=", g .expression])])),
      opt (mark ","), mark "\x7d"])

/-- A declaration of a type. -/
def typeDeclaration (g : Grammar) : Rule :=
  alt [
    closed .classDeclaration
      (seq [preamble g, word "class", identifier, typeHead g, body]),
    closed .structDeclaration
      (seq [preamble g, opt (word "ref"), word "struct", identifier, typeHead g, body]),
    closed .interfaceDeclaration
      (seq [preamble g, word "interface", identifier, typeHead g, body]),
    closed .enumDeclaration
      (seq [preamble g, word "enum", identifier, opt (baseList g), enumBody g]),
    closed .recordDeclaration
      (seq [preamble g, word "record", opt (wordOf ["class", "struct"]), identifier,
        typeHead g, alt [declarationList g, mark ";"]]),
    node .delegateDeclaration
      (seq [preamble g, word "delegate", g .typeName, identifier,
        opt (typeParameters (attributes g)), parameterList g, constraints g, mark ";"])]
where
  /-- Members, or a semicolon in their place. -/
  body : Rule := alt [declarationList g, mark ";"]

/-- The accessors of a property. -/
def accessorList (g : Grammar) : Rule :=
  node .accessorList
    (seq [mark "\x7b",
      many (node .accessor
        (seq [attributes g, many modifier,
          token .accessorName fun t =>
            t.kind == .word && ["get", "set", "init", "add", "remove"].contains t.text,
          methodBody g true])),
      mark "\x7d"])

/-- The interface in front of the name of a member that implements it. -/
def explicitInterface (g : Grammar) : Rule :=
  solid .explicitInterface (many1 (seq [typeSegment g, mark "."]))

/-- A property. -/
def property (g : Grammar) : Rule :=
  node .property
    (seq [preamble g, g .typeName, opt (explicitInterface g), identifier,
      alt [
        seq [accessorList g, opt (seq [mark "=", initialValue, mark ";"])],
        seq [node .arrowClause (seq [mark "=>", g .expression]), mark ";"]]])
where
  /-- An expression, or the values of an array. -/
  initialValue : Rule := alt [initializer g initializerDepth, g .expression]

/-- Operators that a type may define. -/
def definedOperator : Rule :=
  alt [
    seq [adjacent ">" ">", opt (mark ">")], adjacent ">" "=",
    markOf ["+", "-", "!", "~", "++", "--", "*", "/", "%", "&", "|", "^", "<<", "==", "!=",
      "<", ">", "<="],
    wordOf ["true", "false"]]

/-- Members that are neither fields nor properties. -/
def otherMember (g : Grammar) : Rule :=
  alt [
    node .constructor
      (seq [preamble g, identifier, parameterList g,
        opt (node .expression (seq [mark ":", wordOf ["base", "this"], argumentList g])),
        methodBody g true]),
    node .method
      (seq [preamble g, g .typeName, opt (explicitInterface g), identifier,
        opt (typeParameters (attributes g)), parameterList g, constraints g, methodBody g true]),
    node .member (seq [preamble g, mark "~", identifier, parameterList g, methodBody g true]),
    node .member
      (seq [preamble g, g .typeName, opt (explicitInterface g), word "this", mark "[",
        sepBy1 (mark ",") (parameter g), mark "]",
        alt [accessorList g, seq [node .arrowClause (seq [mark "=>", g .expression]), mark ";"]]]),
    node .member
      (seq [preamble g, word "event", g .typeName, opt (explicitInterface g), identifier,
        accessorList g]),
    node .member (seq [preamble g, word "event", variableDeclaration g, mark ";"]),
    node .member
      (seq [preamble g, wordOf ["implicit", "explicit"], word "operator", opt (word "checked"),
        g .typeName, parameterList g, methodBody g true]),
    node .member
      (seq [preamble g, g .typeName, word "operator", opt (word "checked"), definedOperator,
        parameterList g, methodBody g true])]

/-- A field. -/
def field (g : Grammar) : Rule :=
  node .field (seq [preamble g, variableDeclaration g, mark ";"])

/-- A namespace with its declarations in braces. -/
def namespaceDeclaration (g : Grammar) : Rule :=
  closed .namespaceDeclaration (seq [word "namespace", dottedName g, declarationList g])

/-- A directive that brings a namespace or an alias into scope. -/
def usingDirective (g : Grammar) : Rule :=
  node .usingDirective
    (seq [opt (word "global"), word "using",
      alt [
        seq [opt (word "unsafe"), identifier, mark "=", g .typeName],
        seq [opt (word "static"), opt (word "unsafe"), dottedName g]],
      mark ";"])

/-- A declaration within a type or a namespace. -/
def declaration (g : Grammar) : Rule :=
  alt [
    typeDeclaration g,
    namespaceDeclaration g,
    usingDirective g,
    property g,
    field g,
    otherMember g]

/-- An item at the top of a file. -/
def topLevel (g : Grammar) : Rule :=
  alt [
    usingDirective g,
    namespaceDeclaration g,
    node .fileNamespace (seq [word "namespace", dottedName g, mark ";"]),
    typeDeclaration g,
    node .statement (seq [word "extern", word "alias", identifier, mark ";"]),
    node .attributeList
      (seq [mark "[", wordOf ["assembly", "module"], mark ":",
        sepBy1 (mark ",") (seq [dottedName g, opt (attributeList.attributeArguments g)]),
        opt (mark ","), mark "]"]),
    node .globalStatement (g .statement)]

/-- The rule of every category, given the rules within. -/
def rules (g : Grammar) : Grammar
  | .typeName => typeWith g true
  | .plainType => typeWith g false
  | .expression => expression g true
  | .operand => operand g true
  | .condition => expression g false
  | .plainOperand => operand g false
  | .pattern => pattern g
  | .statement => statement g
  | .block => block g
  | .declaration => declaration g

end Grammar

namespace SyntaxTree

/-- Reads a text: as many items as fit, with the comments in their places. -/
def read (text : String) : SyntaxTree :=
  let (tokens, complete) := Lexer.tokens text
  let solid := tokens.filter fun t => !t.isTrivia
  let comments := (tokens.filter (·.kind == .comment)).map (Rule.leaf .comment)
  let grammar := Category.tie Grammar.rules (4 * solid.length + 16)
  match Rule.many (Grammar.topLevel grammar) solid with
  | some (items, rest) => ⟨(Node.wrap .compilationUnit items).withComments comments, complete && rest.isEmpty⟩
  | none => ⟨(Node.wrap .compilationUnit []).withComments comments, false⟩

end SyntaxTree

/-- The reader that goes by the grammar above. -/
instance Grammar.reader : Reader := ⟨SyntaxTree.read⟩

end CSharp
end MappingAudit
