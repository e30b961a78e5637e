/-
# Workspaces

A workspace is a list of documents that are looked at together.  A document keeps its
text and what was read from it, by one reader for all of them.
-/

import MappingAudit.Registration.OfChain

namespace MappingAudit

variable [CSharp.Reader]

/-- A source text with its path. -/
structure Document where
  path : String
  text : String
  /-- What the text says. -/
  file : Source.File
  /-- The file was read from the text. -/
  file_eq : file = Source.File.read path text := by rfl

namespace Document

/-- Reads a document. -/
def read (path text : String) : Document :=
  { path, text, file := Source.File.read path text }

end Document

/-- The documents that are looked at together. -/
structure Workspace where
  documents : List Document := []

namespace Workspace

/-- Reads documents. -/
def ofSources (sources : List (String × String)) : Workspace :=
  ⟨sources.map fun (path, text) => Document.read path text⟩

/-- The paths and texts of the documents. -/
def texts (w : Workspace) : List (String × String) := w.documents.map fun d => (d.path, d.text)

/-- The digest of all paths and texts, each with a zero byte after it. -/
def fingerprint (w : Workspace) : String :=
  Digest.hex (Digest.digest (w.texts.flatMap fun (path, text) =>
    path.toUTF8.toList ++ 0 :: (text.toUTF8.toList ++ [0])))

/-- What the documents say. -/
def files (w : Workspace) : List Source.File := w.documents.map (·.file)

/-- The types that the documents declare. -/
def catalog (w : Workspace) : Catalog := Catalog.ofFiles w.files

/-- The mappings that the documents register. -/
def registrations (w : Workspace) : List Registration := Registration.ofFiles w.catalog w.files

/-- The first document of a path. -/
def document? (w : Workspace) (path : String) : Option Document :=
  w.documents.find? (·.path == path)

/-- The workspace with another text for the first document of a path. -/
def withText? (w : Workspace) (path text : String) : Option Workspace :=
  (w.documents.findIdx? (·.path == path)).map fun i =>
    ⟨w.documents.set i (Document.read path text)⟩

/-- The path is one of a source text. -/
def isSourcePath (path : String) : Bool := Catalog.endsIn path ".cs"

end Workspace
end MappingAudit
