/-
# What a check sees

A check looks at one registration at a time, together with the models of its two
types, all registrations, the registry and the catalog.  Findings of all checks
share the first arguments and details.
-/

import MappingAudit.Finding.Basic
import MappingAudit.Model.Match
import MappingAudit.Registry

namespace MappingAudit

/-- What a check may look at. -/
structure Context where
  catalog : Catalog
  registry : Registry
  /-- Every registration; each stands at the position of its identifier. -/
  registrations : List Registration
  registration : Registration
  /-- The source type with its readable members, when it is declared. -/
  source : Option Model
  /-- The destination type with its writable members, when it is declared. -/
  destination : Option Model
  deriving Inhabited

namespace Context

/-- What a check of a registration may look at. -/
def ofRegistration (c : Catalog) (registry : Registry) (rs : List Registration)
    (r : Registration) : Context :=
  { catalog := c
    registry
    registrations := rs
    registration := r
    source := Model.ofType? c r.ns .readable r.source
    destination := Model.ofType? c r.ns .writable r.destination }

/-- The two models, when members are mapped one by one: both types are declared and
no converter takes the place of the members. -/
def models? (x : Context) : Option (Model × Model) :=
  match x.registration.converter, x.source, x.destination with
  | none, some s, some d => some (s, d)
  | _, _, _ => none

/-- The source type as written. -/
def sourceName (x : Context) : String := x.registration.source.toText

/-- The destination type as written. -/
def destinationName (x : Context) : String := x.registration.destination.toText

/-- A finding about the registration. -/
def finding (x : Context) (rule : RuleId) (args : List String) (span : Span) : Finding :=
  { rule
    severity := rule.severity
    message := Message.fill rule.template args
    args
    file := x.registration.file
    span
    details := [(.sourceType, x.sourceName), (.destinationType, x.destinationName)]
    registration := x.registration.id }

/-- The type of a member, as messages name it. -/
def typeName (m : Option Member) : String := (m.map fun m => m.shape.name).getD ""

/-- A finding about a member.  The arguments are the member, the source type and the
type of the source member, the destination type and the type of the destination
member. -/
def memberFinding (x : Context) (rule : RuleId) (member : String) (s d : Option Member) :
    Finding :=
  let f := x.finding rule [member, x.sourceName, typeName s, x.destinationName, typeName d]
    x.registration.span
  ((f.withDetail .member member).withDetail? .sourceMemberType (s.map fun m => m.shape.name)
    ).withDetail? .destinationMemberType (d.map fun m => m.shape.name)

end Context
end MappingAudit
