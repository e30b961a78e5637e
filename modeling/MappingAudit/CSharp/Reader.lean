/-
# Readers of C#

What a text says is found in its syntax tree.  Where the tree comes from does not
matter to the analysis: it works with any reader of C#, which is free to say of every
text what its tree is.
-/

import MappingAudit.CSharp.Node

namespace MappingAudit
namespace CSharp

/-- A file read as C#. -/
structure SyntaxTree where
  root : Node
  /-- The whole text was read. -/
  wellFormed : Bool
  deriving Repr, Inhabited

/-- What reads C#. -/
class Reader where
  /-- The syntax tree of a text. -/
  tree : String → SyntaxTree

end CSharp
end MappingAudit
