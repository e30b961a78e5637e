/-
# Members configured twice

Of several configurations of one destination member each but the first is reported.
-/

import MappingAudit.Check.Context

namespace MappingAudit
namespace Check

/-- The directives that configure a member of the destination itself. -/
def configured (r : Registration) : List Directive :=
  r.directives.filter fun d => d.config.isSome && d.member?.isSome

/-- The name of the configuration of a directive. -/
def configLabel (d : Directive) : String := (d.config.map (·.label)).getD ""

/-- The finding about a directive, given the configured ones before it.  The call can
be removed alone when it holds none of the earlier configurations. -/
def conflictFinding? (x : Context) (before : List Directive) (later : Directive) :
    Option Finding := do
  let member ← later.member?
  let earlier := before.filter (·.targets member)
  let first ← earlier.head?
  let removable := earlier.all fun d => d.callIndex != later.callIndex
  let f := (x.finding .conflict [member, configLabel first, configLabel later] later.span
    ).withDetail .member member
  pure (f.withDetail? .callIndex (if removable then some (toString later.callIndex) else none))

/-- The findings about directives, given the configured ones before them. -/
def conflictsAfter (x : Context) : List Directive → List Directive → List Finding
  | _, [] => []
  | before, d :: ds => (conflictFinding? x before d).toList ++ conflictsAfter x (before ++ [d]) ds

/-- Members configured twice. -/
def conflicts (x : Context) : List Finding := conflictsAfter x [] (configured x.registration)

end Check
end MappingAudit
