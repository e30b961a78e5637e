/-
# Members paired by convention

A destination member without a configuration of its own is filled by convention:
from the source, or else from one of the included members of the source.
-/

import MappingAudit.Check.Context

namespace MappingAudit

/-- A destination member with the source member that fills it by convention. -/
structure MemberPair where
  destination : Member
  source : SourceMatch
  /-- The included member under which the source was found; empty for the source
  itself. -/
  via : List String
  deriving Repr, Inhabited, BEq

namespace MemberPair

/-- The member names from the source on. -/
def path (p : MemberPair) : List String := p.via ++ p.source.path

end MemberPair

namespace Registration

/-- The source of a destination member is configured: by a configuration of the
member, or of something within it. -/
def configures (r : Registration) (member : String) : Bool :=
  r.directives.any fun d => d.startsAt member && (d.config.isSome || d.target.length > 1)

end Registration

namespace Context

/-- The model of a source member. -/
def modelOf (x : Context) (m : Member) : Model := ⟨m.shape, Model.readableOf x.catalog m⟩

/-- The source of a destination member in one of the included members. -/
def findIncluded? (x : Context) (source : Model) (member : String) (path : List String) :
    Option (List String × SourceMatch) := do
  let inner ← source.follow? x.catalog path
  let found ← (x.modelOf inner).match? x.catalog member
  pure (path, found)

/-- The source of a destination member, with the included member it is found under. -/
def findSource? (x : Context) (source : Model) (member : String) :
    Option (List String × SourceMatch) :=
  match source.match? x.catalog member with
  | some found => some ([], found)
  | none => x.registration.includedMembers.findSome? (x.findIncluded? source member)

/-- The pair of a destination member, when convention fills it. -/
def pair? (x : Context) (source : Model) (d : Member) : Option MemberPair :=
  if x.registration.configures d.name then none
  else (x.findSource? source d.name).map fun (via, found) => ⟨d, found, via⟩

/-- The members that convention fills. -/
def pairs (x : Context) : List MemberPair :=
  match x.models? with
  | none => []
  | some (s, d) => d.members.filterMap (x.pair? s)

/-- A finding about a pair, with the source member. -/
def pairFinding (x : Context) (rule : RuleId) (p : MemberPair) : Finding :=
  (x.memberFinding rule p.destination.name (some p.source.member) (some p.destination)
    ).withDetail .sourceMember p.source.member.name

end Context
end MappingAudit
