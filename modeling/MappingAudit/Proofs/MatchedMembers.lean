/-
# Where the path of a match leads

A match names its source member by a path, and whoever follows the path looks each name up
again, whatever its case.  For members that were found in this way the path leads back
(`Model.followFrom?_of_flatten?`).  A member that was found by its exact name may have
another one before it whose name differs in case only, and then the path leads there.
`match_leads_back_iff` says that this is the only way to end up elsewhere, and
`shadowed_not_led_back` that it happens.
-/

import MappingAudit.CSharp.Declarations
import MappingAudit.Proofs.Configured
import MappingAudit.Proofs.ShapeNames

namespace MappingAudit
namespace Model

variable {c : Catalog} {source : Model} {ms : List Member} {m : Member} {name : String}
variable {path : List String} {found : SourceMatch}

/-! ### Names in any case -/

/-- The same name, whatever its case, finds the same member. -/
theorem named?_congr {a b : String} (h : Pieces.sameName a b = true) (ms : List Member) :
    named? ms a = named? ms b := by
  simp only [named?, Pieces.sameName_congr h]

/-- A member that is found has the name, whatever its case. -/
theorem sameName_of_named? (h : named? ms name = some m) : Pieces.sameName m.name name = true := by
  rw [named?] at h
  exact (List.find?_some h :)

/-- What is found by a name in any case is found by its own name. -/
theorem named?_name (h : named? ms name = some m) : named? ms m.name = some m := by
  rw [named?_congr (sameName_of_named? h), h]

/-- A member that is found exactly has the name. -/
theorem name_of_findExact? (h : source.findExact? name = some m) : m.name = name := by
  rw [findExact?] at h
  exact beq_iff_eq.1 (List.find?_some h :)

/-- A member of exactly a name is one of the name in any case. -/
theorem exists_find?_of_findExact? (h : source.findExact? name = some m) :
    ∃ m', source.find? name = some m' := by
  refine Option.isSome_iff_exists.1 (List.find?_isSome.2 ⟨m, List.mem_of_find?_eq_some h, ?_⟩)
  rw [name_of_findExact? h, Pieces.sameName_refl]

/-- No member before `m` has the name, in any case. -/
def ComesFirst (source : Model) (name : String) (m : Member) : Prop :=
  ∃ before after, source.members = before ++ m :: after ∧
    ∀ x ∈ before, Pieces.sameName x.name name = false

/-- A member is found by its name exactly when it comes first. -/
theorem find?_eq_some_iff_comesFirst (hname : Pieces.sameName m.name name = true) :
    source.find? name = some m ↔ source.ComesFirst name m := by
  simp [find?, ComesFirst, List.find?_eq_some_iff_append, hname]

/-! ### Paths -/

/-- The three ways to find the source of a destination member. -/
theorem match?_cases (h : source.match? c name = some found) :
    (found.kind = .exact ∧ source.findExact? name = some found.member ∧
        found.path = [found.member.name]) ∨
      (found.kind = .ignoringCase ∧ source.findExact? name = none ∧
          source.find? name = some found.member ∧ found.path = [found.member.name]) ∨
        (found.kind = .flattened ∧ source.findExact? name = none ∧ source.find? name = none ∧
          flatten? c maxFlattening (Words.ofName name) source.members =
            some (found.path, found.member)) := by
  rw [match?] at h
  split at h
  · next m hexact =>
    obtain rfl := Option.some.inj h
    exact Or.inl ⟨rfl, hexact, rfl⟩
  · next hexact =>
    split at h
    · next m hany =>
      obtain rfl := Option.some.inj h
      exact Or.inr (Or.inl ⟨rfl, hexact, hany, rfl⟩)
    · next hany =>
      obtain ⟨⟨path, m⟩, hflat, rfl⟩ := Option.map_eq_some_iff.1 h
      exact Or.inr (Or.inr ⟨rfl, hexact, hany, hflat⟩)

/-- A path goes on from the members of its first member. -/
theorem followFrom?_cons {last : Member} (hm : named? ms name = some m)
    (hrest : followFrom? c (readableOf c m) path = some last) :
    followFrom? c ms (name :: path) = some last := by
  cases path with
  | nil => cases hrest
  | cons next path =>
    rw [followFrom?, hm]
    · exact hrest
    · exact List.cons_ne_nil _ _

/-- **A flattened path leads back**: each of its names is the name of the first member that
it finds. -/
theorem followFrom?_of_flatten? {n : Nat} {words : List String}
    (h : flatten? c n words ms = some (path, m)) : followFrom? c ms path = some m := by
  induction n generalizing words ms path with
  | zero => cases h
  | succ n ih =>
    obtain ⟨k, -, head, hhead, -, ⟨rfl, hinner⟩ | ⟨rest, rfl, hrest⟩⟩ := flatten?_cases h
    · have hlast : followFrom? c (readableOf c head) [m.name] = some m := named?_name hinner
      exact followFrom?_cons (named?_name hhead) hlast
    · exact followFrom?_cons (named?_name hhead) (ih hrest)

/-- A match that is not exact has a path that leads to its member. -/
theorem followFrom?_of_match? (h : source.match? c name = some found)
    (hkind : found.kind ≠ .exact) : source.follow? c found.path = some found.member := by
  rcases match?_cases h with ⟨hexact, -⟩ | ⟨-, -, hany, hpath⟩ | ⟨-, -, -, hflat⟩
  · exact absurd hexact hkind
  · rw [hpath]
    exact named?_name hany
  · exact followFrom?_of_flatten? hflat

end Model

/-- **Where the path of a match leads.**  Take any source model and the match of a
destination member in it.  Its path leads to a member, whose name is that of the matched
member in some case.  It is the matched member itself if and only if that one was not found
by its exact name, or no member of the name in any case stands before it. -/
theorem match_leads_back_iff (c : Catalog) (source : Model) (name : String) {found : SourceMatch}
    (h : source.match? c name = some found) :
    ∃ m, source.follow? c found.path = some m ∧
      Pieces.sameName m.name found.member.name = true ∧
        (m = found.member ↔
          (found.kind = .exact → source.ComesFirst name found.member)) := by
  rcases Model.match?_cases h with ⟨hkind, hexact, hpath⟩ | ⟨hkind, -⟩ | ⟨hkind, -⟩
  · have hname : found.member.name = name := Model.name_of_findExact? hexact
    have hsame : Pieces.sameName found.member.name name = true := by
      rw [hname, Pieces.sameName_refl]
    obtain ⟨m, hm⟩ := Model.exists_find?_of_findExact? hexact
    have hfollow : source.follow? c found.path = some m := by
      rw [hpath, hname]
      exact hm
    refine ⟨m, hfollow, ?_, ?_⟩
    · rw [hname]
      exact Model.sameName_of_named? hm
    · rw [← Model.find?_eq_some_iff_comesFirst hsame, hm, Option.some.injEq]
      exact ⟨fun heq _ => heq, fun hfirst => hfirst hkind⟩
  all_goals
    have hnot : found.kind ≠ .exact := by rw [hkind]; decide
    refine ⟨found.member, Model.followFrom?_of_match? h hnot, Pieces.sameName_refl _, ?_⟩
    exact iff_of_true rfl fun hexact => absurd hexact hnot

/-- A type with two members whose names differ in case only, and one with a member of its
own. -/
def variants : Catalog :=
  .ofFiles [.read "M.cs" "record S(string name,int Name,D Of);record D(string City);"]

/-- The readable members of a type of `variants`. -/
def variantsModel? (name : String) : Option Model :=
  Model.ofType? variants none .readable (.named [name] [])

set_option maxRecDepth 100000 in
/-- One name of `variants` is flattened, with a path of two members. -/
theorem variants_flattened : ∃ source ∈ variantsModel? "S",
    ∃ found ∈ source.match? variants "OfCity",
      found.path = ["Of", "City"] ∧ found.kind = .flattened := by
  decide +kernel

/-- The path of a flattened match leads back. -/
theorem match_leads_back_ofCity : ∃ source ∈ variantsModel? "S",
    ∃ found ∈ source.match? variants "OfCity", found.path = ["Of", "City"] ∧
      source.follow? variants found.path = some found.member := by
  obtain ⟨source, hsource, found, hfound, hpath, hkind⟩ := variants_flattened
  obtain ⟨m, hm, -, hiff⟩ := match_leads_back_iff variants source "OfCity" hfound
  have heq : m = found.member := hiff.2 fun hexact => by rw [hkind] at hexact; cases hexact
  exact ⟨source, hsource, found, hfound, hpath, heq ▸ hm⟩

set_option maxRecDepth 100000 in
/-- Another name of `variants` is matched with a member whose path leads to one of another type. -/
theorem variants_shadowed : ∃ source ∈ variantsModel? "S",
    ∃ found ∈ source.match? variants "Name", ∃ m ∈ source.follow? variants found.path,
      found.member.shape.key = "int" ∧ m.shape.key = "string" := by
  decide +kernel

/-- **A member in another case is in the way**: `Name` is matched, and its path leads to
`name`, which has another type. -/
theorem shadowed_not_led_back : ∃ source ∈ variantsModel? "S",
    ∃ found ∈ source.match? variants "Name",
      found.member.shape.key = "int" ∧
        source.follow? variants found.path ≠ some found.member ∧
          (source.follow? variants found.path).map (·.shape.key) = some "string" := by
  obtain ⟨source, hsource, found, hfound, m, hm, hint, hstring⟩ := variants_shadowed
  have hfollow : source.follow? variants found.path = some m := hm
  refine ⟨source, hsource, found, hfound, hint, fun hback => ?_, ?_⟩
  · obtain rfl := Option.some.inj (hfollow.symm.trans hback)
    rw [hint] at hstring
    exact absurd hstring (by decide)
  · rw [hfollow, Option.map_some, hstring]

end MappingAudit
