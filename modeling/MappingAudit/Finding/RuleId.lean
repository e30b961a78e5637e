/-
# The rules

Each finding is a violation of one of fourteen rules.  A rule has an identifier, a
message template, a family and the severity its findings have by default.
-/

import MappingAudit.Finding.Severity
import MappingAudit.Text.Pieces

namespace MappingAudit

/-- The family of a rule. -/
inductive RuleFamily where
  | typeSafety
  | missingProperty
  | configuration
  | performance
  deriving Repr, DecidableEq, Inhabited

namespace RuleFamily

/-- The name in data. -/
def key : RuleFamily → String
  | typeSafety => "type_safety"
  | missingProperty => "missing_property"
  | configuration => "configuration"
  | performance => "performance"

/-- The name in texts. -/
def text : RuleFamily → String
  | typeSafety => "type safety"
  | missingProperty => "missing property"
  | configuration => "configuration"
  | performance => "performance"

end RuleFamily

/-- A rule that findings violate. -/
inductive RuleId where
  | typeMismatch
  | nullToValue
  | container
  | sourceUnmapped
  | caseMismatch
  | destinationUnmapped
  | requiredUnmapped
  | nestedMissing
  | elementMismatch
  | recursion
  | performance
  | duplicate
  | conflict
  | redundantMapFrom
  deriving Repr, DecidableEq, Inhabited

namespace RuleId

/-- Every rule, in the order of the identifiers. -/
def all : List RuleId :=
  [typeMismatch, nullToValue, container, sourceUnmapped, caseMismatch, destinationUnmapped,
    requiredUnmapped, nestedMissing, elementMismatch, recursion, performance, duplicate, conflict,
    redundantMapFrom]

/-- The identifier. -/
def code : RuleId → String
  | typeMismatch => "AM001"
  | nullToValue => "AM002"
  | container => "AM003"
  | sourceUnmapped => "AM004"
  | caseMismatch => "AM005"
  | destinationUnmapped => "AM006"
  | requiredUnmapped => "AM011"
  | nestedMissing => "AM020"
  | elementMismatch => "AM021"
  | recursion => "AM022"
  | performance => "AM031"
  | duplicate => "AM041"
  | conflict => "AM042"
  | redundantMapFrom => "AM050"

/-- The rule of an identifier, in any case. -/
def ofCode? (code : String) : Option RuleId := all.find? fun r => Pieces.sameName r.code code

/-- The title. -/
def title : RuleId → String
  | typeMismatch => "Property type mismatch"
  | nullToValue => "Nullable source mapped to non-nullable destination"
  | container => "Incompatible collection container"
  | sourceUnmapped => "Source member not mapped"
  | caseMismatch => "Member names differ only in case"
  | destinationUnmapped => "Unmapped destination member"
  | requiredUnmapped => "Required destination member not mapped"
  | nestedMissing => "Nested object mapping missing"
  | elementMismatch => "Collection element type mismatch"
  | recursion => "Infinite recursion risk"
  | performance => "Performance smell in mapping expression"
  | duplicate => "Duplicate mapping registration"
  | conflict => "Conflicting member configuration"
  | redundantMapFrom => "Redundant MapFrom configuration"

/-- The message, with places for arguments. -/
def template : RuleId → String
  | typeMismatch =>
    "Property '{0}' has incompatible types: source {1}.{0} is '{2}' but destination {3}.{0} is '{4}'"
  | nullToValue => "Property '{0}' maps nullable '{2}' from {1} to non-nullable '{4}' on {3}"
  | container =>
    "Property '{0}' maps '{2}' from {1} to '{4}' on {3}; the container is not converted automatically"
  | sourceUnmapped => "Source property '{1}.{0}' is not mapped to {3} (potential data loss)"
  | caseMismatch => "Destination property '{3}.{0}' matches source '{1}.{2}' only when ignoring case"
  | destinationUnmapped => "Destination property '{3}.{0}' is not mapped from {1}"
  | requiredUnmapped => "Required destination property '{3}.{0}' is not mapped from {1}"
  | nestedMissing =>
    "Property '{0}' maps '{2}' to '{4}' but no mapping is registered for {2} -> {4}"
  | elementMismatch =>
    "Property '{0}' maps '{2}' to '{4}' but elements '{5}' and '{6}' are incompatible"
  | recursion =>
    "Property '{0}' of {3} ('{4}') can lead back to {3}; mapping may recurse without limit"
  | performance => "Mapping expression for '{0}' {1}"
  | duplicate => "Mapping {0} -> {1} is already registered at {2}"
  | conflict => "Property '{0}' is configured more than once: {1} conflicts with {2}"
  | redundantMapFrom =>
    "MapFrom for '{0}' is redundant: it reads the same-named source member of the same type"

/-- The family. -/
def family : RuleId → RuleFamily
  | typeMismatch | nullToValue | container | elementMismatch => .typeSafety
  | sourceUnmapped | caseMismatch | destinationUnmapped | requiredUnmapped => .missingProperty
  | nestedMissing | recursion | duplicate | conflict | redundantMapFrom => .configuration
  | performance => .performance

/-- The severity of its findings, when nothing else is configured. -/
def severity : RuleId → Severity
  | typeMismatch | requiredUnmapped => .error
  | sourceUnmapped | caseMismatch | redundantMapFrom => .info
  | _ => .warning

end RuleId
end MappingAudit
