/-
# Names made of the names of a path

A destination member that no source member is named like may be named like a path: its words
are cut into groups, each of which names the next member of the path (`Model.Leads`).  The
search tries the cuts one by one and goes back where one leads nowhere.
`flattened_match_iff` says that it finds a match exactly when some cut into two to five groups
leads to a member, and that what it finds is where such a cut leads.
-/

import MappingAudit.CSharp.Declarations
import MappingAudit.Proofs.MatchedMembers
import MappingAudit.Proofs.NameWords
import MappingAudit.Proofs.TextPieces

namespace MappingAudit

/-! ### The words of a name -/

namespace Words

/-- A name without its underscores. -/
def plain (name : String) : String := String.ofList (name.toList.filter (· != '_'))

/-- The words of a name make the name without its underscores. -/
theorem join_ofName (name : String) : String.join (ofName name) = plain name := by
  obtain ⟨ws, hws, hflatten, -⟩ := exists_ofChars? name.toList
  apply String.toList_injective
  rw [String.toList_join, plain, String.toList_ofList, ofName, hws, Option.getD_some,
    List.flatMap_map]
  simpa [letters] using hflatten

end Words

namespace Model

variable {c : Catalog} {source : Model} {ms : List Member} {m : Member} {name : String}
variable {path words : List String} {groups : List (List String)} {n : Nat}

/-! ### Groups of words -/

/-- Groups of words lead from members along a path: each group names the first member of its
name, in any case.  All but the last are of declared types, and the next group names one of
the readable members of that type. -/
inductive Leads (c : Catalog) : List Member → List (List String) → List String → Member → Prop
  where
  | last {ms : List Member} {g : List String} {m : Member} (hg : g ≠ [])
      (hm : named? ms (String.join g) = some m) : Leads c ms [g] [m.name] m
  | down {ms : List Member} {g : List String} {gs : List (List String)} {head m : Member}
      {path : List String} (hg : g ≠ []) (hhead : named? ms (String.join g) = some head)
      (hcomplex : head.shape.underlying.isComplex = true)
      (hrest : Leads c (readableOf c head) gs path m) :
      Leads c ms (g :: gs) (head.name :: path) m

/-- Words cut into groups, at least two and no more than a path may have members. -/
structure IsCut (words : List String) (groups : List (List String)) : Prop where
  flatten_eq : groups.flatten = words
  two_le : 2 ≤ groups.length
  length_le : groups.length ≤ maxFlattening + 1

/-- A path that leads to a member takes words. -/
theorem Leads.flatten_ne_nil (h : Leads c ms groups path m) : groups.flatten ≠ [] := by
  cases h with
  | last hg _ => simpa using hg
  | down hg _ _ _ => simp [hg]

/-- The names of the path are spelled as the groups are, in some case. -/
theorem Leads.sameName_join (h : Leads c ms groups path m) :
    Pieces.sameName (String.join path) (String.join groups.flatten) = true := by
  rw [Pieces.sameName_iff, String.toList_join, String.toList_join]
  induction h with
  | last hg hm =>
    have hname := Pieces.sameName_iff.1 (sameName_of_named? hm)
    rw [String.toList_join] at hname
    simpa using hname
  | down hg hhead _ _ ih =>
    have hname := Pieces.sameName_iff.1 (sameName_of_named? hhead)
    rw [String.toList_join] at hname
    rw [List.flatMap_cons, List.map_append, hname, ih, List.flatten_cons, List.flatMap_append,
      List.map_append]

/-- **The search is sound**: what it finds is where a cut leads. -/
theorem exists_leads_of_flatten? (h : flatten? c n words ms = some (path, m)) :
    ∃ groups, groups.flatten = words ∧ 2 ≤ groups.length ∧ groups.length ≤ n + 1 ∧
      Leads c ms groups path m := by
  induction n generalizing words ms path with
  | zero => cases h
  | succ n ih =>
    obtain ⟨k, hk, head, hhead, hcomplex, hrest⟩ := flatten?_cases h
    have htake : words.take (k + 1) ≠ [] := by
      rw [Ne, List.take_eq_nil_iff]
      rintro (hzero | rfl)
      · exact absurd hzero (Nat.succ_ne_zero k)
      · exact absurd hk (Nat.not_lt_zero k)
    have hdrop : words.drop (k + 1) ≠ [] := by
      rw [Ne, List.drop_eq_nil_iff]
      omega
    rcases hrest with ⟨rfl, hinner⟩ | ⟨rest, rfl, hrest⟩
    · -- the words that are left name one member
      refine ⟨[words.take (k + 1), words.drop (k + 1)], ?_, Nat.le_refl 2, ?_,
        .down htake hhead hcomplex (.last hdrop hinner)⟩
      · simp
      · simp
    · obtain ⟨groups, hflatten, htwo, hlength, hleads⟩ := ih hrest
      refine ⟨words.take (k + 1) :: groups, ?_, ?_, ?_, .down htake hhead hcomplex hleads⟩
      · rw [List.flatten_cons, hflatten, List.take_append_drop]
      · rw [List.length_cons]
        omega
      · rw [List.length_cons]
        omega

/-- **The search is complete**: where a cut leads somewhere, it finds something. -/
theorem isSome_flatten?_of_leads (h : Leads c ms groups path m) (htwo : 2 ≤ groups.length)
    (hlength : groups.length ≤ n + 1) : (flatten? c n groups.flatten ms).isSome = true := by
  induction n generalizing ms groups path with
  | zero => omega
  | succ n ih =>
    cases h with
    | last hg hm => exact absurd htwo (by simp)
    | @down _ g gs head _ path hg hhead hcomplex hrest =>
      rw [List.length_cons] at htwo hlength
      have hne := List.length_pos_iff.2 hrest.flatten_ne_nil
      have hpos := List.length_pos_iff.2 hg
      have hcut : g.length - 1 + 1 = g.length := by omega
      rw [List.flatten_cons, flatten?, List.findSome?_isSome_iff]
      refine ⟨g.length - 1, List.mem_range.2 (by rw [List.length_append]; omega), ?_⟩
      rw [hcut, List.take_left, List.drop_left, hhead, Option.bind_eq_bind, Option.bind_some,
        if_pos hcomplex]
      simp only
      split
      · rfl
      · next hnone =>
        rw [Option.isSome_map]
        refine ih hrest ?_ (by omega)
        -- a single group that is left would have been found as a whole
        cases hrest with
        | last _ hm =>
          rw [List.flatten_singleton, hm] at hnone
          cases hnone
        | down _ _ _ hrest =>
          rw [List.length_cons]
          cases hrest <;> simp

/-- A name is flattened exactly when its words can be cut into groups that lead to a member. -/
theorem isSome_flatten?_iff : (flatten? c maxFlattening words ms).isSome = true ↔
    ∃ groups path m, IsCut words groups ∧ Leads c ms groups path m := by
  constructor
  · intro h
    obtain ⟨⟨path, m⟩, hfound⟩ := Option.isSome_iff_exists.1 h
    obtain ⟨groups, hflatten, htwo, hlength, hleads⟩ := exists_leads_of_flatten? hfound
    exact ⟨groups, path, m, ⟨hflatten, htwo, hlength⟩, hleads⟩
  · rintro ⟨groups, path, m, hcut, hleads⟩
    rw [← hcut.flatten_eq]
    exact isSome_flatten?_of_leads hleads hcut.two_le hcut.length_le

/-- A name that no member has is flattened. -/
theorem match?_eq_flatten (h : source.find? name = none) : source.match? c name =
    (flatten? c maxFlattening (Words.ofName name) source.members).map fun p =>
      ⟨p.1, p.2, .flattened⟩ := by
  have hexact : source.findExact? name = none := by
    by_contra hsome
    obtain ⟨m, hm⟩ := Option.ne_none_iff_exists'.1 hsome
    obtain ⟨m', hm'⟩ := exists_find?_of_findExact? hm
    rw [h] at hm'
    cases hm'
  rw [match?, hexact, h]

end Model

/-- **When a name is flattened.**  Take any source model and a name that none of its members
has in any case.  There is a match if and only if the words of the name can be cut into two to
five groups that lead to a member; the match is a member that such a cut leads to, along the
path of the match.  The names of the path make up the name without its underscores, in some
case. -/
theorem flattened_match_iff (c : Catalog) (source : Model) (name : String)
    (h : source.find? name = none) :
    ((source.match? c name).isSome = true ↔ ∃ groups path m,
      Model.IsCut (Words.ofName name) groups ∧ Model.Leads c source.members groups path m) ∧
      ∀ found, source.match? c name = some found → found.kind = .flattened ∧
        Pieces.sameName (String.join found.path) (Words.plain name) = true ∧
        ∃ groups, Model.IsCut (Words.ofName name) groups ∧
          Model.Leads c source.members groups found.path found.member := by
  rw [Model.match?_eq_flatten h, Option.isSome_map]
  refine ⟨Model.isSome_flatten?_iff, fun found hfound => ?_⟩
  obtain ⟨⟨path, m⟩, hflat, rfl⟩ := Option.map_eq_some_iff.1 hfound
  obtain ⟨groups, hflatten, htwo, hlength, hleads⟩ := Model.exists_leads_of_flatten? hflat
  refine ⟨rfl, ?_, groups, ⟨hflatten, htwo, hlength⟩, hleads⟩
  rw [← Words.join_ofName, ← hflatten]
  exact hleads.sameName_join

/-- A source with two members whose names begin a longer one; the shorter of them leads
nowhere. -/
def nestedNames : Catalog := .ofFiles [.read "M.cs"
  "record S(P Ab,Q AbCd);record P(int X);record Q(R Ef);record R(int GH);"]

set_option maxRecDepth 100000 in
/-- A name of the example is flattened to a path of three members. -/
theorem nestedNames_found : ∃ source ∈ Model.ofType? nestedNames none .readable (.named ["S"] []),
    source.find? "AbCd_EfGh" = none ∧ ∃ found ∈ source.match? nestedNames "AbCd_EfGh",
      found.path = ["AbCd", "Ef", "GH"] := by
  decide +kernel

/-- The search goes back to the longer name. -/
theorem flattened_match_nestedNames :
    ∃ source ∈ Model.ofType? nestedNames none .readable (.named ["S"] []),
      source.find? "AbCd_EfGh" = none ∧ ∃ found ∈ source.match? nestedNames "AbCd_EfGh",
        found.kind = .flattened ∧ found.path = ["AbCd", "Ef", "GH"] ∧
          ∃ groups, Model.IsCut (Words.ofName "AbCd_EfGh") groups ∧
            Model.Leads nestedNames source.members groups found.path found.member := by
  obtain ⟨source, hsource, hnone, found, hfound, hpath⟩ := nestedNames_found
  obtain ⟨hkind, -, hcut⟩ := (flattened_match_iff nestedNames source _ hnone).2 found hfound
  exact ⟨source, hsource, hnone, found, hfound, hkind, hpath, hcut⟩

end MappingAudit
