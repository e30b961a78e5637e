/-
# Reading calls

`Callee.of?` tells what a call invokes, `argument` the form of an argument, and
`summarize` what the body of a lambda does.  Arguments hold lambdas whose bodies
hold calls with arguments again, so the functions follow the syntax tree down.
-/

import MappingAudit.CSharp.Node
import MappingAudit.Source.Chain
import MappingAudit.Text.Pieces

namespace MappingAudit
namespace Source

open CSharp (Node Kind)

/-- The method that a call invokes. -/
structure Callee where
  name : String
  typeArgs : List String
  receiver : Option Node
  deriving Inhabited

namespace Callee

/-- The name and type arguments of a name node. -/
def nameParts (source : String) (n : Node) : Option (String × List String) :=
  match n.kind with
  | .genericName =>
    (n.child? .identifier).map fun name =>
      (name.text source,
        match n.child? .typeArgumentList with
        | some list => list.named.map (·.text source)
        | none => [])
  | _ => some (n.text source, [])

/-- The callee of an invocation, when it is a name or a member access. -/
def of? (source : String) (invocation : Node) : Option Callee := do
  let function ← invocation.children.head?
  match function.kind with
  | .identifier | .genericName =>
    let (name, typeArgs) ← nameParts source function
    pure ⟨name, typeArgs, none⟩
  | .memberAccess =>
    let receiver ← function.children.head?
    let nameNode ← function.named.getLast?
    let (name, typeArgs) ← nameParts source nameNode
    pure ⟨name, typeArgs, some receiver⟩
  | _ => none

end Callee

/-- The expressions of the arguments of a call. -/
def argumentNodes (invocation : Node) : List Node :=
  match invocation.child? .argumentList with
  | some list => (list.childrenOf .argument).filterMap fun a => a.named.getLast?
  | none => []

/-- The type in the text of a creation, between `new` and the first bracket. -/
def createdTypeOf (source : String) (n : Node) : String :=
  match n.child? .typeName with
  | some type => type.text source
  | none => ""

/-- A string literal without its marks and quotes. -/
def unquote (s : String) : String :=
  let cs := (s.toList.dropWhile (· == '@')).dropWhile (· == '$')
  String.ofList (Pieces.trimEnd (· == '"') (cs.dropWhile (· == '"')))

/-- Repeatedly removes `head` from the front. -/
def dropHeads (head : List Char) (cs : List Char) : List Char :=
  match Pieces.dropHead? head cs with
  | some rest => if rest.length < cs.length then dropHeads head rest else cs
  | none => cs
termination_by cs.length

/-- The last name within `nameof(…)`. -/
def nameOfTarget (s : String) : String :=
  let inner := Pieces.trim (dropHeads "nameof".toList s.toList)
  let inner := Pieces.trimEnd (· == ')') (inner.dropWhile (· == '('))
  String.ofList (Pieces.trim (Pieces.lastPiece (· == '.') inner))

/-- The children of a lambda before its arrow. -/
def beforeArrow (source : String) (n : Node) : List Node :=
  n.children.takeWhile fun c => !(c.kind == .mark && c.text source == "=>")

/-- A parameter of a lambda: its type, if written, and its name. -/
structure LambdaParam where
  type : Option String
  name : String
  deriving Repr, DecidableEq, Inhabited

/-- The parameter that the words of a piece between commas spell. -/
def lambdaParam? (words : List String) : Option LambdaParam :=
  match words.getLast? with
  | none => none
  | some name =>
    if words.length = 1 then some ⟨none, name⟩
    else some ⟨some (Pieces.join " " words.dropLast), name⟩

/-- The parameters of a lambda, read from the text before the arrow. -/
def lambdaParams (source : String) (n : Node) : List LambdaParam :=
  let text := String.join
    (((beforeArrow source n).filter fun c =>
      c.kind != .modifier && c.kind != .attributeList).map (·.text source))
  let inner := Pieces.trimEnd (· == ')') ((Pieces.trim text.toList).dropWhile (· == '('))
  (Pieces.splitAt (· == ',') inner).filterMap fun piece =>
    lambdaParam? ((Pieces.words piece).map String.ofList)

/-- The names of operators that project a sequence. -/
def projectionMethods : List String :=
  ["Select", "SelectMany", "GroupBy", "ToDictionary", "ToLookup", "Join", "GroupJoin"]

/-- The call is a projection. -/
def isProjection (source : String) (n : Node) : Bool :=
  match Callee.of? source n with
  | some c => projectionMethods.contains c.name
  | none => false

mutual

/-- The deepest nesting of projections: those among the arguments of a projection
lie one level below it, those it is called on do not. -/
def projectionDepth (source : String) : Node → Nat
  | .mk .invocation s (.mk .memberAccess fs (r :: fr) :: rest) =>
    if isProjection source (.mk .invocation s (.mk .memberAccess fs (r :: fr) :: rest)) then
      max (projectionDepth source r) (1 + deepest source rest)
    else max (max (projectionDepth source r) (deepest source fr)) (deepest source rest)
  | .mk .invocation s (f :: rest) =>
    if isProjection source (.mk .invocation s (f :: rest)) then 1 + deepest source rest
    else max (projectionDepth source f) (deepest source rest)
  | .mk _ _ cs => deepest source cs

/-- The deepest nesting of projections among several nodes. -/
def deepest (source : String) : List Node → Nat
  | [] => 0
  | n :: ns => max (projectionDepth source n) (deepest source ns)

end

/-- The members of `p.A.B`, rooted at the parameter `p`; parentheses around a
non-empty path are allowed. -/
def memberPath? (source : String) (param : String) : Node → Option (List String)
  | .mk .memberAccess s (e :: rest) => do
    let path ← memberPath? source param e
    let name ← (Node.mk .memberAccess s (e :: rest)).named.getLast?
    pure (path ++ [name.text source])
  | .mk .identifier s _ => if s.slice source == param then some [] else none
  | .mk .parenthesized _ (_ :: inner :: _) =>
    match memberPath? source param inner with
    | some [] => none
    | path? => path?
  | _ => none

/-- A node below an expression, and whether it is what a call invokes. -/
structure Step where
  node : Node
  invoked : Bool
  deriving Inhabited

mutual

/-- A node and the named nodes below it, each before its children. -/
def steps (invoked : Bool) : Node → List Step
  | .mk k s cs => ⟨.mk k s cs, invoked⟩ :: stepsAmong (k == .invocation) cs

/-- The named nodes among several and below them; the first of them is what a
call invokes if `head` holds. -/
def stepsAmong (head : Bool) : List Node → List Step
  | [] => []
  | n :: ns => (if n.isBare then [] else steps head n) ++ stepsAmong false ns

end

/-- The call at a step. -/
def callSite? (source : String) (s : Step) : Option CallSite := do
  if s.node.kind != .invocation then none
  let c ← Callee.of? source s.node
  pure ⟨c.receiver.map (·.text source), c.name, s.node.span⟩

/-- The member read at a step. -/
def accessSite? (source : String) (s : Step) : Option AccessSite :=
  if s.node.kind == .memberAccess && !s.invoked then
    some ⟨s.node.text source, s.node.span⟩
  else none

/-- The object created at a step. -/
def creationSite? (source : String) (s : Step) : Option CreationSite :=
  if s.node.kind == .objectCreation then some ⟨createdTypeOf source s.node, s.node.span⟩
  else none

/-- The member read directly from the parameter at a step. -/
def parameterMember? (source : String) (param? : Option String) (s : Step) : Option String := do
  let param ← param?
  if s.node.kind != .memberAccess then none
  let e ← s.node.children.head?
  if e.kind == .identifier && e.text source == param then
    let name ← s.node.named.getLast?
    pure (name.text source)
  else none

/-- What an expression does, seen from the first parameter of its lambda. -/
def summarize (source : String) (param? : Option String) (body : Node) : Summary :=
  let all := steps false body
  { text := body.text source
    span := body.span
    parameter := param?
    memberPath := param?.bind fun p => memberPath? source p body
    parameterMembers := (all.filterMap (parameterMember? source param?)).foldl
      (fun seen m => if seen.contains m then seen else seen ++ [m]) []
    calls := all.filterMap (callSite? source)
    accesses := all.filterMap (accessSite? source)
    creations := all.filterMap (creationSite? source)
    projectionDepth := projectionDepth source body }

/-- The calls below a node that are made on the identifier `param`. -/
def callsOn (source : String) (param : String) (body : Node) : List (Node × Callee) :=
  body.preorder.filterMap fun n => do
    if n.kind != .invocation then none
    let c ← Callee.of? source n
    let r ← c.receiver
    if r.kind == .identifier && r.text source == param then pure (n, c) else none

/-- The form of an argument; lambdas are followed `depth` levels down. -/
def argumentForm (source : String) : Nat → Node → ArgumentForm
  | 0, _ => .other
  | depth + 1, n =>
    match n.kind with
    | .lambda =>
      match n.children.getLast? with
      | none => .other
      | some body =>
        let params := (lambdaParams source n).map (·.name)
        let calls := match params.head? with
          | none => []
          | some param => (callsOn source param body).map fun (call, c) =>
              { name := c.name
                typeArgs := c.typeArgs
                args := (argumentNodes call).map fun a =>
                  ⟨a.text source, a.span, argumentForm source depth a⟩
                span := call.span }
        .lambda ⟨params, summarize source params.head? body, calls⟩
    | .stringLiteral => .text (unquote (n.text source))
    | .typeOf => .typeOf ((n.named.head?.map (·.text source)).getD "")
    | .objectCreation => .creation (createdTypeOf source n)
    | .memberAccess => .access (n.text source)
    | .invocation =>
      match Callee.of? source n with
      | some c =>
        if c.name == "nameof" && c.receiver.isNone then .nameOf (nameOfTarget (n.text source))
        else .other
      | none => .other
    | _ => .other

/-- The arguments of a call. -/
def argumentsOf (source : String) (call : Node) : List Argument :=
  (argumentNodes call).map fun a =>
    ⟨a.text source, a.span, argumentForm source (a.span.endByte - a.span.startByte + 1) a⟩

end Source
end MappingAudit
