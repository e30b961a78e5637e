/-
# Configurations that change nothing

A `MapFrom` that reads the source member that convention would read, of the same
type, can be left out.
-/

import MappingAudit.Check.Context

namespace MappingAudit
namespace Check

/-- The one source member that a directive maps from. -/
def singleSource? (d : Directive) : Option String :=
  match d.config with
  | some (.mappedFrom e) =>
    match e.path with
    | some [name] => some name
    | _ => none
  | _ => none

/-- The directive says nothing but where its member is mapped from, and no other
directive is about the member. -/
def standsAlone (r : Registration) (d : Directive) (member : String) : Bool :=
  d.method == "ForMember" && !d.condition && !d.nullSubstitute &&
    (r.directivesFor member).length ≤ 1

/-- The destination member whose directive repeats what convention does. -/
def redundantMember? (x : Context) (source destination : Model) (d : Directive) :
    Option Member := do
  let member ← d.member?
  let name ← singleSource? d
  let target ← destination.find? member
  let found ← source.match? x.catalog target.name
  if standsAlone x.registration d member && found.kind != .flattened &&
      Pieces.sameName found.member.name name && found.member.shape.key == target.shape.key then
    some target
  else none

/-- Configurations that change nothing. -/
def redundant (x : Context) : List Finding :=
  match x.models? with
  | none => []
  | some (s, d) =>
    x.registration.directives.filterMap fun dir =>
      (redundantMember? x s d dir).map fun target =>
        ((x.finding .redundantMapFrom [target.name] dir.span).withDetail .member target.name
          ).withDetail .callIndex (toString dir.callIndex)

end Check
end MappingAudit
