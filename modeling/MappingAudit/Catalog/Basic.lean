/-
# The declared types of all files

A catalog lists every type that some file declares, in the order of the files
and of their texts.  The parts of a partial type are one entry: a part adds the
bases and members that the entry does not have yet.  A type is referred to by
its position in the catalog.
-/

import MappingAudit.Source.File

namespace MappingAudit

/-- A declared type with all its parts. -/
structure Entry where
  name : String
  qualifiedName : String
  ns : Option String
  kind : Source.DeclarationKind
  typeParams : List String
  /-- The types it derives from, as written. -/
  bases : List String
  members : List Source.DeclaredMember
  /-- The files that declare a part of the type. -/
  files : List String
  /-- One of these files brings the mapping framework into scope. -/
  importsFramework : Bool
  deriving Repr, DecidableEq, Inhabited

namespace Entry

/-- The number of type parameters. -/
def arity (e : Entry) : Nat := e.typeParams.length

/-- Structs, record structs and enumerations. -/
def isValueType (e : Entry) : Bool :=
  e.kind == .struct || e.kind == .recordStruct || e.kind == .enumeration

/-- The entry of a declaration that stands alone. -/
def ofDeclaration (file : Source.File) (d : Source.Declaration) : Entry :=
  { name := d.name
    qualifiedName := d.qualifiedName
    ns := d.ns
    kind := d.kind
    typeParams := d.typeParams
    bases := d.bases
    members := d.members
    files := [file.path]
    importsFramework := file.importsFramework }

/-- Adds a value at the end of a list that does not hold it yet. -/
def addNew {α : Type} [BEq α] (xs : List α) (x : α) : List α :=
  if xs.contains x then xs else xs ++ [x]

/-- Adds a member whose name is not taken yet. -/
def addMember (ms : List Source.DeclaredMember) (m : Source.DeclaredMember) :
    List Source.DeclaredMember :=
  if ms.any (·.name == m.name) then ms else ms ++ [m]

/-- Adds another part of a type. -/
def merge (e : Entry) (file : Source.File) (d : Source.Declaration) : Entry :=
  { e with
    bases := d.bases.foldl addNew e.bases
    members := d.members.foldl addMember e.members
    files := addNew e.files file.path
    importsFramework := e.importsFramework || file.importsFramework }

/-- The entry is the type that `d` declares or declares a part of. -/
def declares (e : Entry) (d : Source.Declaration) : Bool :=
  e.qualifiedName == d.qualifiedName && e.arity == d.typeParams.length

end Entry

/-- Every declared type. -/
structure Catalog where
  entries : List Entry := []
  deriving Repr, DecidableEq, Inhabited

namespace Catalog

/-- The position of an entry. -/
abbrev Id := Nat

/-- The entry at a position. -/
def get? (c : Catalog) (id : Id) : Option Entry := c.entries[id]?

/-- The number of entries. -/
def size (c : Catalog) : Nat := c.entries.length

/-- The positions of the entries that satisfy `p`, in increasing order. -/
def idsWhere (c : Catalog) (p : Entry → Bool) : List Id :=
  (c.entries.zipIdx.filter fun (e, _) => p e).map (·.2)

/-- Enters a declaration: a partial one into the entry it is a part of, if there
is one, and any other as an entry of its own. -/
def add (c : Catalog) (file : Source.File) (d : Source.Declaration) : Catalog :=
  match c.entries.findIdx? (·.declares d) with
  | some id =>
    if d.isPartial then ⟨c.entries.modify id (·.merge file d)⟩
    else ⟨c.entries ++ [Entry.ofDeclaration file d]⟩
  | none => ⟨c.entries ++ [Entry.ofDeclaration file d]⟩

/-- Enters every declaration of a file. -/
def addFile (c : Catalog) (file : Source.File) : Catalog :=
  file.declarations.foldl (·.add file) c

/-- The catalog of some files. -/
def ofFiles (files : List Source.File) : Catalog := files.foldl addFile {}

/-- The positions of the types with a qualified name. -/
def withQualifiedName (c : Catalog) (name : String) : List Id :=
  c.idsWhere (·.qualifiedName == name)

/-- The positions of the types with a simple name. -/
def withName (c : Catalog) (name : String) : List Id := c.idsWhere (·.name == name)

end Catalog
end MappingAudit
