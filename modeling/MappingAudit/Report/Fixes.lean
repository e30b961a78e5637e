/-
# Reports of repairs

The report of a repair names the actions made, skipped and failed and the files that
changed, and ends with the report of the repaired workspace.
-/

import MappingAudit.Fix.Repair
import MappingAudit.Report.Basic

namespace MappingAudit

variable [CSharp.Reader]

/-- The sum of a repair. -/
structure FixReport where
  applied : List String
  skipped : List String
  errors : List String
  /-- The files that changed. -/
  changed : List String
  /-- What is left to settle. -/
  remaining : Report
  deriving Repr, DecidableEq, Inhabited

namespace FixReport

/-- The documents whose text differs, as they are afterwards. -/
def changedDocuments (before after : Workspace) : List Document :=
  ((before.documents.zip after.documents).filter fun (a, b) => a.text != b.text).map (·.2)

/-- The report of the repair of a workspace. -/
def ofRepair (auditor : Auditor) (before : Workspace) (r : Repair) : FixReport :=
  { applied := r.applied
    skipped := r.skipped
    errors := r.errors
    changed := (changedDocuments before r.current).map (·.path)
    remaining := Report.ofAudit r.current (auditor.audit r.current) }

/-- Lines with a heading; nothing for no lines. -/
def block (heading mark : String) (lines : List String) : String :=
  if lines.isEmpty then ""
  else "\n" ++ heading ++ "\n" ++ String.join (lines.map fun l => "  " ++ mark ++ l ++ "\n")

/-- A heading with a number. -/
def counted (heading : String) (lines : List String) : String :=
  heading ++ ": " ++ toString lines.length

/-- The report as text. -/
def text (r : FixReport) : String :=
  counted "Fixes applied" r.applied ++ "\n" ++
    String.join (r.applied.map fun k => "  ✓ " ++ k ++ "\n") ++
    block (counted "Skipped" r.skipped) "- " r.skipped ++
    block (counted "Failed" r.errors) "✗ " r.errors ++
    block "Changed:" "" r.changed ++ "\n" ++ r.remaining.text

end FixReport
end MappingAudit
