/-
# Costly expressions

Every lambda of a registration that runs while values are mapped is searched for
smells.
-/

import MappingAudit.Check.Context
import MappingAudit.Smell.Detector

namespace MappingAudit
namespace Check

/-- The findings about one lambda. -/
def expressionFindings (mode : SmellMode) (limit : Nat) (x : Context) (e : MappingExpression) :
    List Finding :=
  (Smell.ofSummary mode limit ⟨x.catalog, x.source⟩ e.summary).map fun (d, s) =>
    ((x.finding .performance [e.member.getD x.registration.title, s.description] s.span
      ).withDetail .smell d.name).withDetail? .member e.member

/-- Smells in the lambdas of a registration. -/
def expressions (mode : SmellMode) (limit : Nat) (x : Context) : List Finding :=
  x.registration.expressions.flatMap (expressionFindings mode limit x)

end Check
end MappingAudit
