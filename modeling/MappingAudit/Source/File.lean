/-
# Source files

A file is kept as its declared types and its call chains, in the order of the
text, together with a digest of the text it was read from.
-/

import MappingAudit.CSharp.Reader
import MappingAudit.Source.ChainSite
import MappingAudit.Source.TypeSite
import MappingAudit.Text.Digest

namespace MappingAudit
namespace Source

open CSharp (Node Kind)

/-- A file as the analysis sees it. -/
structure File where
  path : String
  declarations : List Declaration
  chains : List Chain
  /-- The file brings the namespace of the mapping framework into scope. -/
  importsFramework : Bool
  hasErrors : Bool
  hash : String
  deriving Repr, Inhabited

/-- The namespace that a plain `using N;` brings into scope; aliases and static
imports bring none. -/
def importedNamespace? (directive : List Char) : Option (List Char) := do
  let trimmed := Pieces.trim directive
  let rest := (Pieces.dropHead? "global".toList trimmed).getD trimmed
  let target ← Pieces.dropHead? "using".toList (Pieces.trimStart CharClass.blank rest)
  let target ← Pieces.dropHead? [';'] (Pieces.trim target).reverse
  let target := Pieces.trim target.reverse
  if (Pieces.dropHead? "static ".toList target).isSome || target.contains '=' then none
  else pure target

/-- The namespace of the mapping framework. -/
def frameworkNamespace : String := "AutoMapper"

/-- The node brings the namespace of the framework into scope. -/
def importsFrameworkAt (source : String) (n : Node) : Bool :=
  n.kind == .usingDirective &&
    importedNamespace? (n.text source).toList == some frameworkNamespace.toList

namespace File

/-- The file that a syntax tree of `source` stands for. -/
def ofTree (path source : String) (tree : CSharp.SyntaxTree) : File :=
  let all := sites source {} [] tree.root
  { path
    declarations := all.filterMap (declaration? source)
    chains := all.filterMap (chain? source)
    importsFramework := all.any fun s => importsFrameworkAt source s.node
    hasErrors := !tree.wellFormed
    hash := Digest.short source }

/-- Reads a file. -/
def read [CSharp.Reader] (path source : String) : File :=
  ofTree path source (CSharp.Reader.tree source)

end File
end Source
end MappingAudit
