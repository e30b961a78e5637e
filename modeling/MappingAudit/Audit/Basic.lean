/-
# Audits

An audit of a workspace reads all registrations, builds the registry, and runs the
checks that can report something.  Findings of rules that are turned off are dropped,
severities are set, and the findings are put in the order of the files.
-/

import MappingAudit.Audit.Run
import MappingAudit.Settings.Basic
import MappingAudit.Workspace

namespace MappingAudit

variable [CSharp.Reader]

/-- What came of looking at a workspace. -/
structure Audit where
  registrations : List Registration
  registry : Registry
  findings : List Finding
  deriving Inhabited

namespace Audit

/-- The number of findings of a severity. -/
def count (a : Audit) (s : Severity) : Nat := (a.findings.filter (·.severity == s)).length

/-- There are errors. -/
def hasErrors (a : Audit) : Bool := a.count .error > 0

/-- The registration that a finding is about. -/
def registrationOf? (a : Audit) (f : Finding) : Option Registration :=
  a.registrations[f.registration]?

end Audit

/-- The checks to run, with the settings. -/
structure Auditor where
  checks : List Check
  settings : Settings

namespace Auditor

/-- All checks with some settings. -/
def ofSettings (s : Settings) : Auditor := ⟨Check.all s.smells, s⟩

/-- The checks that can report something. -/
def active (a : Auditor) : List Check :=
  a.checks.filter fun c => c.rules.any fun r => a.settings.isEnabled r.code

/-- What each check sees of the registrations. -/
def contexts (c : Catalog) (registry : Registry) (rs : List Registration) : List Context :=
  rs.map (Context.ofRegistration c registry rs)

/-- The findings of rules that are turned on, with the severities that are set. -/
def configure (a : Auditor) (fs : List Finding) : List Finding :=
  (fs.filter fun f => a.settings.isEnabled f.rule.code).map fun f =>
    { f with severity := a.settings.severityFor f.rule.code f.severity }

/-- The position of the file that a finding is in; `none` comes last. -/
def fileIndex? (rs : List Registration) (f : Finding) : Option Nat :=
  (rs[f.registration]?).map (·.fileIndex)

/-- Whether a finding stands no later in the files than another. -/
def notAfter (rs : List Registration) (a b : Finding) : Bool :=
  let byByte : Bool := a.span.startByte ≤ b.span.startByte
  match fileIndex? rs a, fileIndex? rs b with
  | some i, some j => i < j || (i == j && byByte)
  | some _, none => true
  | none, some _ => false
  | none, none => byByte

/-- Findings in the order of the files. -/
def arrange (rs : List Registration) (fs : List Finding) : List Finding :=
  fs.mergeSort (notAfter rs)

/-- How many workers share the registrations on a machine that can run `cores` at once. -/
def workers (a : Auditor) (cores : Nat) (rs : List Registration) : Nat :=
  if a.settings.parallel then min cores rs.length else 1

/-- Looks at a workspace, unless the run is cancelled. -/
def auditWith (a : Auditor) (cores : Nat) (t : Token) (w : Workspace) : Except Cancelled Audit := do
  t.poll .start
  let c := w.catalog
  let rs := Registration.ofFiles c w.files
  let registry := Registry.ofRegistrations c rs
  let found ← Run.shared t (a.workers cores rs) a.active (contexts c registry rs)
  t.poll .finish
  pure ⟨rs, registry, arrange rs (a.configure found)⟩

/-- Looks at a workspace. -/
def audit (a : Auditor) (w : Workspace) : Audit :=
  let c := w.catalog
  let rs := Registration.ofFiles c w.files
  let registry := Registry.ofRegistrations c rs
  let found := (contexts c registry rs).flatMap fun x => a.active.flatMap fun k => (k.run x).findings
  ⟨rs, registry, arrange rs (a.configure found)⟩

end Auditor
end MappingAudit
