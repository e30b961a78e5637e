/-
# Types of paired members

Convention fails for members of types that do not fit.  A source that may be `null`
is reported for a destination that may not, unless a value takes the place of
`null`.  Declared types and collections are left to their own checks.
-/

import MappingAudit.Check.Pairing
import MappingAudit.Shape.Compare

namespace MappingAudit
namespace Check

/-- The rule that the types of a pair violate. -/
def typeRule? (x : Context) (p : MemberPair) : Option RuleId :=
  match p.source.member.shape.fit p.destination.shape with
  | .incompatible => some .typeMismatch
  | .nullToValue =>
    if x.registration.substitutesNull p.destination.name then none else some .nullToValue
  | _ => none

/-- Members whose types do not fit. -/
def types (x : Context) : List Finding :=
  x.pairs.filterMap fun p =>
    (typeRule? x p).map fun rule =>
      (x.pairFinding rule p).withDetail .sourcePath (Pieces.join "." p.path)

end Check
end MappingAudit
