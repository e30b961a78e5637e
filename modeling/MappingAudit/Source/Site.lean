/-
# Nodes in their surroundings

The meaning of a node depends on the namespace and types around it and on the
nodes above it.  `sites` lists every node of a tree with both, each node before
the nodes below it.
-/

import MappingAudit.CSharp.Node
import MappingAudit.Source.Declaration

namespace MappingAudit
namespace Source

open CSharp (Node Kind)

/-- The namespace and the types around a node. -/
structure Scope where
  ns : Option String := none
  containers : List String := []
  deriving Repr, DecidableEq, Inhabited

namespace Scope

/-- The qualified name of the innermost type around a node. -/
def enclosingType (s : Scope) : Option String :=
  if s.containers.isEmpty then none else some (qualify s.ns s.containers)

/-- The scope within a namespace. -/
def enterNamespace (s : Scope) (name : String) : Scope :=
  { s with ns := some (match s.ns with
      | some outer => outer ++ "." ++ name
      | none => name) }

/-- The scope within a type. -/
def enterType (s : Scope) (name : String) : Scope :=
  { s with containers := s.containers ++ [name] }

end Scope

/-- A node above another one, and which of its children leads down. -/
structure Ancestor where
  node : Node
  index : Nat
  deriving Inhabited

/-- A node with its scope and the nodes above it, innermost first. -/
structure Site where
  scope : Scope
  ancestors : List Ancestor
  node : Node
  deriving Inhabited

/-- The kinds of nodes that declare a type. -/
def declaresType : Kind → Bool
  | .classDeclaration | .structDeclaration | .interfaceDeclaration | .recordDeclaration
  | .enumDeclaration => true
  | _ => false

/-- The text of the name of a declaration. -/
def nameOf? (source : String) (n : Node) : Option String :=
  (n.child? .identifier).map (·.text source)

/-- The scope of the children of a node. -/
def childScope (source : String) (s : Scope) (n : Node) : Scope :=
  if n.kind == .namespaceDeclaration || n.kind == .fileNamespace then
    match n.child? .name with
    | some name => s.enterNamespace (name.text source)
    | none => s
  else if declaresType n.kind then
    match nameOf? source n with
    | some name => s.enterType name
    | none => s
  else s

mutual

/-- A node and all nodes below it. -/
def sites (source : String) (scope : Scope) (above : List Ancestor) : Node → List Site
  | .mk k s cs =>
    ⟨scope, above, .mk k s cs⟩ ::
      sitesAmong source (childScope source scope (.mk k s cs)) (.mk k s cs) above 0 cs

/-- The nodes among the children of `parent` from number `i` on, and below them.
A namespace for the rest of the file changes the scope of the nodes after it. -/
def sitesAmong (source : String) (scope : Scope) (parent : Node) (above : List Ancestor)
    (i : Nat) : List Node → List Site
  | [] => []
  | n :: ns =>
    sites source scope (⟨parent, i⟩ :: above) n ++
      sitesAmong source (if n.kind == .fileNamespace then childScope source scope n else scope)
        parent above (i + 1) ns

end
end Source
end MappingAudit
