/-
# Syntax trees of C# source

A node has a kind, a span and its children in the order of the text; the marks
and keywords of a construct are children too.  Kinds are told apart as far as
the analysis needs them: all statements without a role of their own share a
kind, and so do all such expressions.

Comments stand between tokens and belong to the innermost node that has a token
on either side of them.  The grammar reads a file without its comments, and
`withComments` puts them in their places.
-/

import MappingAudit.Text.Span

namespace MappingAudit
namespace CSharp

/-- The syntactic role of a node. -/
inductive Kind where
  | compilationUnit
  | usingDirective
  | namespaceDeclaration
  /-- A namespace for the rest of the file. -/
  | fileNamespace
  | classDeclaration
  | structDeclaration
  | interfaceDeclaration
  | recordDeclaration
  | enumDeclaration
  | delegateDeclaration
  | declarationList
  | property
  | field
  | method
  | constructor
  /-- Any other member of a type. -/
  | member
  | accessorList
  | accessor
  | accessorName
  | explicitInterface
  | arrowClause
  | attributeList
  | typeParameterList
  | typeParameter
  | constraint
  | baseList
  | parameterList
  | parameter
  | argumentList
  | argument
  | block
  | globalStatement
  | expressionStatement
  | localFunction
  | statement
  | variableDeclaration
  | variableDeclarator
  | lambda
  | implicitParameter
  | invocation
  | memberAccess
  | conditionalAccess
  | assignment
  /-- An expression evaluated for what it does: `await`, `++` and `--`. -/
  | effect
  | objectCreation
  | typeOf
  | parenthesized
  | genericName
  | typeArgumentList
  | stringLiteral
  | literal
  | expression
  | pattern
  /-- A written type. -/
  | typeName
  /-- A dotted name of a namespace. -/
  | name
  | identifier
  | modifier
  | comment
  /-- The words `this` and `base`. -/
  | self
  /-- Punctuation and keywords. -/
  | mark
  deriving Repr, DecidableEq, Inhabited

/-- A syntax tree. -/
inductive Node where
  | mk (kind : Kind) (span : Span) (children : List Node)
  deriving Repr, Inhabited

namespace Node

/-- The role of a node. -/
def kind : Node → Kind
  | mk k _ _ => k

/-- The place of a node. -/
def span : Node → Span
  | mk _ s _ => s

/-- The children of a node, marks included. -/
def children : Node → List Node
  | mk _ _ cs => cs

/-- The node covers nothing but a mark, a keyword, `this` or `base`. -/
def isBare (n : Node) : Bool := n.kind == .mark || n.kind == .self

/-- The children that are not bare words or marks. -/
def named (n : Node) : List Node := n.children.filter fun c => !c.isBare

/-- The first child of a kind. -/
def child? (n : Node) (k : Kind) : Option Node := n.children.find? (·.kind == k)

/-- The children of a kind. -/
def childrenOf (n : Node) (k : Kind) : List Node := n.children.filter (·.kind == k)

/-- The source text of a node. -/
def text (source : String) (n : Node) : String := n.span.slice source

/-- A node over children, from the start of the first to the end of the last. -/
def wrap (k : Kind) (cs : List Node) : Node :=
  match cs.head?, cs.getLast? with
  | some a, some b => mk k (a.span.cover b.span) cs
  | _, _ => mk k default []

mutual

/-- A node and all named nodes below it, every node before its children. -/
def preorder : Node → List Node
  | mk k s cs => mk k s cs :: preorderAll cs

/-- The named nodes among `ns` and below them, in order. -/
def preorderAll : List Node → List Node
  | [] => []
  | n :: ns => (if n.isBare then [] else preorder n) ++ preorderAll ns

end

mutual

/-- Puts comments into a node: a comment within a child goes to the child, any
other one stands between two children. -/
def withComments (comments : List Node) : Node → Node
  | mk k s cs => mk k s (place comments cs)

/-- Puts comments among the children of a node. -/
def place (comments : List Node) : List Node → List Node
  | [] => comments
  | c :: cs =>
    let before := comments.takeWhile fun x => x.span.startByte < c.span.startByte
    let rest := comments.drop before.length
    let inside := rest.takeWhile fun x => x.span.startByte < c.span.endByte
    before ++ withComments inside c :: place (rest.drop inside.length) cs

end

end Node
end CSharp
end MappingAudit
