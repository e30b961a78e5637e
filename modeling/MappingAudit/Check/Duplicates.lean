/-
# Pairs registered twice

A pair should be registered once, by a registration or by the mapping back of one.
The later place is reported; pairs that are only named in a chain do not count.
-/

import MappingAudit.Check.Context

namespace MappingAudit

namespace Registry

/-- The first registration of a pair. -/
def first? (r : Registry) (key : PairKey) : Option Mapped :=
  (r.lookup key).find? (·.origin != .implied)

end Registry

namespace Check

/-- The mapping back of a registration has no configuration that would be lost. -/
def canDropReverse (x : Context) (registration : Nat) : Bool :=
  ((x.registrations[registration]?).bind (·.reverse)).any (!·.isConfigured)

/-- An earlier entry for the pair of an entry. -/
def earlier? (x : Context) (e : Mapped) : Option Mapped :=
  (x.registry.first? e.key).filter fun f => !(f.samePlace e && f.origin == e.origin)

/-- The place of an entry, as messages name it. -/
def placeText (e : Mapped) : String := e.file ++ ":" ++ toString e.span.startLine

/-- The finding about an entry for a pair of types that has an earlier one. -/
def duplicateFinding (x : Context) (e first : Mapped) (s d : String) : Finding :=
  let dropped :=
    match e.origin, first.origin with
    | .explicit, .reverse => some first.registration
    | .explicit, _ => none
    | _, _ => some e.registration
  let origin := if e.origin == .explicit then "explicit" else "reverse"
  ((x.finding .duplicate [s, d, placeText first] e.span).withDetail .duplicateOrigin origin
    ).withDetail? .reverseRegistration ((dropped.filter (canDropReverse x)).map toString)

/-- The entry of the registration of a given origin, when the pair has an earlier
one. -/
def duplicated? (x : Context) (origin : Origin) : List (Mapped × Mapped) :=
  ((x.registry.entriesOf x.registration.id).filter (·.origin == origin)).filterMap fun e =>
    (earlier? x e).map fun f => (e, f)

/-- The registration or its mapping back, when the pair is registered already; the
mapping back only when the registration is not reported. -/
def duplicates (x : Context) : List Finding :=
  match duplicated? x .explicit with
  | (e, f) :: _ => [duplicateFinding x e f x.sourceName x.destinationName]
  | [] =>
    (duplicated? x .reverse).map fun (e, f) =>
      duplicateFinding x e f x.destinationName x.sourceName

end Check
end MappingAudit
