/-
# Reading call chains

`chain?` reads the chain that starts at a call of `CreateMap`: it climbs from the
call through every call made on the result so far.  An identifier in front of
`CreateMap` is traced to the lambda parameter, parameter, variable, field or
property of that name in the nearest surroundings.
-/

import MappingAudit.Source.Site
import MappingAudit.Source.Invocation

namespace MappingAudit
namespace Source

open CSharp (Node Kind)

/-- The blanks between a receiver and the dot that follows it. -/
def separatorOf (source : String) (access receiver : Node) : String :=
  match access.children.find? fun c => c.kind == .mark && c.text source == "." with
  | some dot =>
    if receiver.span.endByte ≤ dot.span.startByte then
      let gap := (Span.between receiver.span.stop dot.span.start).slice source
      if gap.toList.all CharClass.blank then gap else ""
    else ""
  | none => ""

/-- The blanks at the start of the line that holds the byte `n`. -/
def indentAt (source : String) (n : Nat) : String :=
  let before := (Span.between Position.start ⟨n, 0, 0⟩).slice source
  let line := Pieces.byteLength (Pieces.lastPiece (· == '\n') before.toList)
  let rest := (Span.between ⟨n - line, 0, 0⟩ ⟨source.utf8ByteSize, 0, 0⟩).slice source
  String.ofList (rest.toList.takeWhile fun c => c == ' ' || c == '\t')

/-- A call with its place in the chain. -/
def callOf (source : String) (n : Node) (c : Callee) (segment : Span) (separator : String) :
    Call :=
  { name := c.name
    typeArgs := c.typeArgs
    args := argumentsOf source n
    span := n.span
    segment
    separator }

/-- The calls made on the result of `current`, outermost last; with them, the
outermost call and the nodes above it. -/
def climb (source : String) (current : Node) : List Ancestor → List Call × Node × List Ancestor
  | access :: call :: above =>
    if access.node.kind == .memberAccess && access.index == 0 && call.node.kind == .invocation then
      match Callee.of? source call.node with
      | some c =>
        let next := callOf source call.node c (Span.trailing current.span call.node.span)
          (separatorOf source access.node current)
        let (calls, last, above) := climb source call.node above
        (next :: calls, last, above)
      | none => ([], current, access :: call :: above)
    else ([], current, access :: call :: above)
  | above => ([], current, above)

/-- What a lambda is passed to: the name of the method or constructed type. -/
def callbackOwner (source : String) : List Ancestor → String
  | argument :: _ :: owner :: _ =>
    if argument.node.kind != .argument then ""
    else match owner.node.kind with
      | .invocation => ((Callee.of? source owner.node).map (·.name)).getD ""
      | .objectCreation => createdTypeOf source owner.node
      | _ => ""
  | _ => ""

/-- The type of a parameter. -/
def parameterType? (source name : String) (method : Node) : Option String := do
  let list ← method.child? .parameterList
  let p ← (list.childrenOf .parameter).find? fun p => nameOf? source p == some name
  let type ← p.child? .typeName
  pure (type.text source)

/-- The declarator of a name in a declaration of variables. -/
def declarator? (source name : String) (declaration : Node) : Option Node :=
  (declaration.childrenOf .variableDeclarator).find? fun v => nameOf? source v == some name

/-- The type of a variable declared in a block before the byte `limit`; for `var`
the type of the object it starts with. -/
def localType? (source name : String) (limit : Nat) (block : Node) : Option String :=
  block.preorder.findSome? fun n => do
    if limit ≤ n.span.startByte || n.kind != .variableDeclaration then none
    let type ← n.child? .typeName
    let v ← declarator? source name n
    if type.text source == "var" then
      match v.preorder.find? (·.kind == .objectCreation) with
      | some creation => pure (createdTypeOf source creation)
      | none => pure "var"
    else pure (type.text source)

/-- What the members of a type say about a name: its type, if a field or property
has that name and a type. -/
def memberType? (source name : String) (members : Node) : Option String :=
  members.named.findSome? fun m =>
    match m.kind with
    | .field => do
      let d ← m.child? .variableDeclaration
      let _ ← declarator? source name d
      let type ← d.child? .typeName
      pure (type.text source)
    | .property => do
      if nameOf? source m != some name then none
      let type ← m.child? .typeName
      pure (type.text source)
    | _ => none

/-- What one node above a chain says about a name; `above` are the nodes above it. -/
def bindingAt? (source name : String) (limit : Nat) (n : Node) (above : List Ancestor) :
    Option Binding :=
  match n.kind with
  | .lambda =>
    ((lambdaParams source n).find? (·.name == name)).map fun p =>
      match p.type with
      | some type => .typed type
      | none => .callback (callbackOwner source above)
  | .method | .constructor | .localFunction => (parameterType? source name n).map .typed
  | .block => (localType? source name limit n).map .typed
  | .declarationList => (memberType? source name n).map .typed
  | _ => none

/-- Where an identifier comes from, seen from below the given nodes. -/
def binding? (source name : String) (limit : Nat) : List Ancestor → Option Binding
  | [] => none
  | a :: above =>
    match bindingAt? source name limit a.node above with
    | some b => some b
    | none => binding? source name limit above

/-- What `CreateMap` is called on. -/
def receiverOf (source : String) (site : Site) (receiver? : Option Node) : Receiver :=
  match receiver? with
  | none => .implicit
  | some r =>
    let text := r.text source
    match r.kind with
    | .self => if text == "this" then .this else .base
    | .identifier =>
      .identifier text (binding? source text site.node.span.startByte site.ancestors)
    | _ => .other text

/-- The statement that consists of a chain. -/
def statementOf? (source : String) (above : List Ancestor) : Option StatementSite :=
  match above with
  | a :: _ =>
    if a.node.kind == .expressionStatement then
      some ⟨a.node.span, indentAt source a.node.span.startByte⟩
    else none
  | [] => none

/-- The chain that starts at a site. -/
def chain? (source : String) (site : Site) : Option Chain := do
  if site.node.kind != .invocation then none
  let root ← Callee.of? source site.node
  if root.name != "CreateMap" then none
  let (calls, last, above) := climb source site.node site.ancestors
  pure {
    calls := callOf source site.node root site.node.span "" :: calls
    receiver := receiverOf source site root.receiver
    enclosingType := site.scope.enclosingType
    statement := statementOf? source above
    span := last.span }

end Source
end MappingAudit
