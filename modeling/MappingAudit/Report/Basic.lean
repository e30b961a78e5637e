/-
# Reports

A report sums an audit up: the documents with their registrations, the findings and
how many there are of each severity.
-/

import MappingAudit.Audit.Basic

namespace MappingAudit

variable [CSharp.Reader]

/-- The version that reports name. -/
def version : String := "0.1.0"

/-- A document as reports name it. -/
structure DocumentSummary where
  path : String
  hash : String
  registrations : Nat
  deriving Repr, DecidableEq, Inhabited

/-- The sum of an audit. -/
structure Report where
  documents : List DocumentSummary
  findings : List Finding
  errors : Nat
  warnings : Nat
  infos : Nat
  deriving Repr, DecidableEq, Inhabited

namespace Report

/-- The report of an audit of a workspace. -/
def ofAudit (w : Workspace) (a : Audit) : Report :=
  { documents := w.documents.zipIdx.map fun (d, i) =>
      ⟨d.path, d.file.hash, (a.registrations.filter (·.fileIndex == i)).length⟩
    findings := a.findings
    errors := a.count .error
    warnings := a.count .warning
    infos := a.count .info }

/-- There are no errors. -/
def passed (r : Report) : Bool := r.errors == 0

/-- The line around a heading. -/
def rule : String := String.ofList (List.replicate 63 '═') ++ "\n"

/-- The heading. -/
def heading (r : Report) : String :=
  rule ++ "Mapping analysis: " ++ toString r.documents.length ++ " document(s), " ++
    toString (r.documents.foldl (fun n d => n + d.registrations) 0) ++ " registration(s)\n" ++ rule

/-- The mark of a result. -/
def mark (passed : Bool) : String := if passed then "✓" else "✗"

/-- The report as text. -/
def text (r : Report) : String :=
  if r.findings.isEmpty then r.heading ++ "\n✓ No findings\n"
  else
    r.heading ++ "\n" ++ String.join (r.findings.map fun f => "  • " ++ f.line ++ "\n") ++ "\n" ++
      mark r.passed ++ " " ++ toString r.errors ++ " error(s), " ++ toString r.warnings ++
      " warning(s), " ++ toString r.infos ++ " info\n"

end Report
end MappingAudit
