/-
# Members without a counterpart

Reported are destination members that nothing fills, source members that nothing
reads, and members that are paired only because case is ignored.  The member list of
a registration decides which side has to be complete.
-/

import MappingAudit.Check.Pairing

namespace MappingAudit
namespace Check

/-- Paired members whose names differ in case. -/
def caseOnly (x : Context) : List Finding :=
  (x.pairs.filter fun p => p.source.kind == .ignoringCase && p.via.isEmpty).map fun p =>
    let f := x.finding .caseMismatch
      [p.destination.name, x.sourceName, p.source.member.name, x.destinationName]
      x.registration.span
    (f.withDetail .member p.destination.name).withDetail .sourceMember p.source.member.name

/-- The destination member is neither configured nor filled by convention. -/
def isUnfilled (x : Context) (source : Model) (m : Member) : Bool :=
  !x.registration.configures m.name && (x.findSource? source m.name).isNone

/-- Destination members that nothing fills. -/
def unfilled (x : Context) (source destination : Model) : List Finding :=
  if x.registration.memberList == .destination then
    (destination.members.filter (isUnfilled x source)).map fun m =>
      x.memberFinding (if m.required then .requiredUnmapped else .destinationUnmapped) m.name none
        (some m)
  else []

/-- The source members that a configuration reads. -/
def readByConfig : Option MemberConfig → List String
  | some (.mappedFrom e) =>
    (e.path.bind (·.head?)).toList ++ (e.summary.map (·.parameterMembers)).getD []
  | _ => []

/-- The names of source members that count as read. -/
def readNames (x : Context) (destination : Model) : List String :=
  x.pairs.filterMap (fun p => p.path.head?) ++ destination.members.map (·.name) ++
    x.registration.includedMembers.filterMap (·.head?) ++
    x.registration.directives.flatMap (fun d => readByConfig d.config) ++
    x.registration.expressions.flatMap (·.summary.parameterMembers)

/-- Source members that nothing reads. -/
def unread (x : Context) (source destination : Model) : List Finding :=
  if x.registration.memberList == .none then []
  else
    let names := readNames x destination
    (source.members.filter fun m =>
      !names.any (Pieces.sameName m.name) && !x.registration.leavesUnchecked m.name).map fun m =>
        (x.memberFinding .sourceUnmapped m.name (some m) none).withDetail .sourceMember m.name

/-- Members without a counterpart. -/
def unmapped (x : Context) : List Finding :=
  match x.models? with
  | none => []
  | some (s, d) => caseOnly x ++ unfilled x s d ++ unread x s d

end Check
end MappingAudit
