/-
# Severity

How serious a finding is.
-/

namespace MappingAudit

/-- How serious a finding is. -/
inductive Severity where
  | info
  | warning
  | error
  deriving Repr, DecidableEq, Inhabited

namespace Severity

/-- The name of a severity. -/
def name : Severity → String
  | info => "info"
  | warning => "warning"
  | error => "error"

/-- The severity that a word stands for, in any case. -/
def ofText? (s : String) : Option Severity :=
  match s.toLower with
  | "info" => some info
  | "suggestion" => some info
  | "warning" => some warning
  | "warn" => some warning
  | "error" => some error
  | _ => none

/-- What is said about a word that stands for no severity. -/
def unknownText (s : String) : String := "Unknown severity: " ++ s

end Severity
end MappingAudit
