/-
# Reading declared types

`declaration?` reads a type declaration from its node.  Members are the
properties and fields in the body, and for records also the parameters; a
property takes the place of a record parameter of the same name.
-/

import MappingAudit.Source.Site

namespace MappingAudit
namespace Source

open CSharp (Node Kind)

/-- The modifiers in front of a declaration. -/
def modifiersOf (source : String) (n : Node) : List String :=
  (n.childrenOf .modifier).map (·.text source)

/-- The record is written with the word `struct` among its own words or anywhere
before its name. -/
def isRecordStruct (source : String) (n : Node) (name : String) : Bool :=
  n.children.any (fun c => c.kind == .mark && c.text source == "struct") ||
    match Pieces.splitOnce? name.toList (n.text source).toList with
    | some (before, _) => (Pieces.splitOnce? "struct".toList before).isSome
    | none => false

/-- The kind of a declared type. -/
def declarationKind (source : String) (n : Node) (name : String) : DeclarationKind :=
  match n.kind with
  | .classDeclaration => .classType
  | .structDeclaration => .struct
  | .interfaceDeclaration => .interface
  | .enumDeclaration => .enumeration
  | _ => if isRecordStruct source n name then .recordStruct else .record

/-- A record parameter as a member. -/
def recordParameter? (source : String) (n : Node) : Option DeclaredMember := do
  let name ← nameOf? source n
  let type ← n.child? .typeName
  pure ⟨name, type.text source, .recordParameter, ["public"], true, true, n.span⟩

/-- Whether a property can be read and written, judged by its accessors. -/
structure Access where
  readable : Bool := false
  writable : Bool := false
  deriving Repr, DecidableEq, Inhabited

namespace Access

/-- The access after one more accessor; an accessor with a modifier of its own
that hides it takes the access away. -/
def add (source : String) (a : Access) (accessor : Node) : Access :=
  let open? := !(modifiersOf source accessor).any fun m =>
    m == "private" || m == "protected" || m == "internal"
  match (accessor.child? .accessorName).map (·.text source) with
  | some "get" => { a with readable := open? }
  | some "set" => { a with writable := open? }
  | some "init" => { a with writable := open? }
  | _ => a

/-- The access that a property gives. -/
def ofProperty (source : String) (n : Node) : Access :=
  let listed := match n.child? .accessorList with
    | some list => (list.childrenOf .accessor).foldl (add source) {}
    | none => {}
  if (n.child? .arrowClause).isSome then { listed with readable := true } else listed

end Access

/-- A property as a member; one that implements an interface by name is none. -/
def property? (source : String) (n : Node) : Option DeclaredMember := do
  if (n.child? .explicitInterface).isSome then none
  let name ← nameOf? source n
  let type ← n.child? .typeName
  let modifiers := modifiersOf source n
  let isPublic := modifiers.contains "public"
  let access := Access.ofProperty source n
  pure ⟨name, type.text source, .property, modifiers, isPublic && access.readable,
    isPublic && access.writable, n.span⟩

/-- The fields that one declaration declares. -/
def fields (source : String) (n : Node) : List DeclaredMember :=
  match n.child? .variableDeclaration with
  | none => []
  | some d =>
    match d.child? .typeName with
    | none => []
    | some type =>
      let modifiers := modifiersOf source n
      let isPublic := modifiers.contains "public"
      let isFixed := modifiers.contains "readonly" || modifiers.contains "const"
      (d.childrenOf .variableDeclarator).filterMap fun v =>
        (nameOf? source v).map fun name =>
          ⟨name, type.text source, .field, modifiers, isPublic, isPublic && !isFixed, v.span⟩

/-- The members after one more node of the body. -/
def addMember (source : String) (members : List DeclaredMember) (n : Node) :
    List DeclaredMember :=
  match n.kind with
  | .property =>
    match property? source n with
    | some m => members.filter (·.name != m.name) ++ [m]
    | none => members
  | .field => members ++ fields source n
  | _ => members

/-- The members of a type declaration. -/
def membersOf (source : String) (kind : DeclarationKind) (n : Node) : List DeclaredMember :=
  let parameters :=
    if kind == .record || kind == .recordStruct then
      (n.childrenOf .parameterList).flatMap fun list =>
        (list.childrenOf .parameter).filterMap (recordParameter? source)
    else []
  match n.child? .declarationList with
  | some body => body.children.foldl (addMember source) parameters
  | none => parameters

/-- The names of the type parameters. -/
def typeParamsOf (source : String) (n : Node) : List String :=
  (n.childrenOf .typeParameterList).flatMap fun list =>
    (list.childrenOf .typeParameter).filterMap (nameOf? source)

/-- The types a declared type derives from, as written. -/
def basesOf (source : String) (n : Node) : List String :=
  (n.childrenOf .baseList).flatMap fun list =>
    (list.childrenOf .typeName).map (·.text source)

/-- The declaration at a site. -/
def declaration? (source : String) (site : Site) : Option Declaration := do
  let n := site.node
  if !declaresType n.kind then none
  let name ← nameOf? source n
  let kind := declarationKind source n name
  pure {
    name
    ns := site.scope.ns
    containers := site.scope.containers
    kind
    typeParams := typeParamsOf source n
    bases := basesOf source n
    modifiers := modifiersOf source n
    members := membersOf source kind n
    span := n.span }

end Source
end MappingAudit
