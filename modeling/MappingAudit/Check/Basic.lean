/-
# The checks

A check reports the findings of its rules for one registration.  A check that fails
or crashes reports nothing and leaves the other checks alone.
-/

import MappingAudit.Check.Collections
import MappingAudit.Check.Conflicts
import MappingAudit.Check.Duplicates
import MappingAudit.Check.Expressions
import MappingAudit.Check.Recursion
import MappingAudit.Check.Redundant
import MappingAudit.Check.Types
import MappingAudit.Check.Unmapped

namespace MappingAudit

/-- What came of running a check. -/
inductive Outcome where
  | found (findings : List Finding)
  | failed (message : String)
  | crashed
  deriving Repr, Inhabited

namespace Outcome

/-- The findings; none from a check that did not finish. -/
def findings : Outcome → List Finding
  | found fs => fs
  | failed _ => []
  | crashed => []

end Outcome

/-- A check with the rules that its findings violate. -/
structure Check where
  name : String
  rules : List RuleId
  run : Context → Outcome

namespace Check

/-- A check that always finishes. -/
def ofFindings (name : String) (rules : List RuleId) (f : Context → List Finding) : Check :=
  ⟨name, rules, fun x => .found (f x)⟩

/-- How expressions are searched for smells. -/
structure SmellSettings where
  mode : SmellMode := .first
  maxProjectionDepth : Nat := 3
  deriving Repr, DecidableEq, Inhabited

/-- The checks, in the order in which they run. -/
def all (s : SmellSettings) : List Check :=
  [ofFindings "type-compatibility" [.typeMismatch, .nullToValue] types,
    ofFindings "collections" [.container, .elementMismatch] collections,
    ofFindings "unmapped-members"
      [.sourceUnmapped, .caseMismatch, .destinationUnmapped, .requiredUnmapped] unmapped,
    ofFindings "nested-mapping" [.nestedMissing] nested,
    ofFindings "recursion" [.recursion] recursion,
    ofFindings "performance" [.performance] (expressions s.mode s.maxProjectionDepth),
    ofFindings "duplicates" [.duplicate] duplicates,
    ofFindings "conflicts" [.conflict] conflicts,
    ofFindings "redundant-map-from" [.redundantMapFrom] redundant]

end Check
end MappingAudit
