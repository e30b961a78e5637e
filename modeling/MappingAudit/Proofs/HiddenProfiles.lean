/-
# Profiles that a nested type hides

A class of a file that imports the framework names `Profile` as its base.  A declared type of
that name in a namespace around the class would be meant instead, and the search takes the
first one in sight.  It asks for its name and namespace, not for the types around it.  So a
type that is declared within another type counts too, although its qualified name is not
`Profile` in any of these namespaces.

`isProfile_iff_not_hidden` says that this is all that can go wrong: where no type has one of
these names, the class is a profile unless such a nested type is in sight, and even then when
another base leads to the framework.  `profile_hidden_by_nested` shows a profile that is lost.
-/

import MappingAudit.CSharp.Declarations
import MappingAudit.Proofs.NameLookup
import MappingAudit.Proofs.ProfileSearch

namespace MappingAudit

/-- The type is declared within another type. -/
def Entry.IsNested (e : Entry) : Prop := e.qualifiedName ≠ Source.qualify e.ns [e.name]

namespace Catalog

variable {c : Catalog} {name : String} {ns outer : Option String} {e : Entry} {id : Id}

/-! ### Types in sight -/

/-- The namespace is `ns` or lies around it; the global one lies around every namespace. -/
def Encloses (outer ns : Option String) : Prop :=
  outer = none ∨ outer = ns ∨ ∃ m rest, outer = some m ∧ ns = some (m ++ "." ++ rest)

/-- The initial parts of a list are its prefixes that have elements. -/
theorem mem_initials_iff {α : Type} {xs p : List α} : p ∈ initials xs ↔ p ≠ [] ∧ p <+: xs := by
  simp only [initials, List.mem_map, List.mem_range]
  constructor
  · rintro ⟨k, hk, rfl⟩
    refine ⟨fun hnil => ?_, List.take_prefix _ _⟩
    have hlength := congrArg List.length hnil
    rw [List.length_take, List.length_nil] at hlength
    omega
  · rintro ⟨hne, hprefix⟩
    have hpos := List.length_pos_iff.2 hne
    have hle := hprefix.length_le
    refine ⟨xs.length - p.length, by omega, ?_⟩
    rw [Nat.sub_sub_self hle]
    exact (List.prefix_iff_eq_take.1 hprefix).symm

/-- The namespaces that are searched are those around the one of the text. -/
theorem mem_scopes_iff : outer ∈ scopes ns ↔ Encloses outer ns := by
  cases ns with
  | none => simp [scopes, Encloses]
  | some n =>
    have hsplit := Pieces.splitText_ne_nil '.' n
    simp only [scopes, List.mem_append, List.mem_map, mem_initials_iff, List.mem_singleton]
    constructor
    · rintro (⟨p, ⟨hne, rest, hp⟩, rfl⟩ | rfl)
      · have hjoin : Pieces.join "." (p ++ rest) = n := hp ▸ Pieces.join_splitText n
        by_cases hrest : rest = []
        · rw [hrest, List.append_nil] at hjoin
          exact Or.inr (Or.inl (congrArg some hjoin))
        · rw [Pieces.join_append hne hrest] at hjoin
          exact Or.inr (Or.inr ⟨_, _, rfl, congrArg some hjoin.symm⟩)
      · exact Or.inl rfl
    · rintro (rfl | rfl | ⟨m, rest, rfl, hn⟩)
      · exact Or.inr rfl
      · exact Or.inl ⟨_, ⟨hsplit, List.prefix_refl _⟩, congrArg some (Pieces.join_splitText n)⟩
      · obtain rfl := Option.some.inj hn
        refine Or.inl ⟨Pieces.splitText '.' m, ⟨Pieces.splitText_ne_nil '.' m, ?_⟩,
          congrArg some (Pieces.join_splitText m)⟩
        rw [Pieces.splitText_append]
        exact List.prefix_append _ _

/-- No type is in sight exactly when no type without parameters has the name in a namespace
around, within another type or not. -/
theorem visibleFrom_eq_none_iff : c.visibleFrom name ns = none ↔
    ∀ x ∈ c.entries, x.name = name → x.typeParams = [] → ¬ Encloses x.ns ns := by
  simp only [visibleFrom, List.findSome?_eq_none_iff, List.find?_eq_none, withName, mem_idsWhere,
    ← mem_scopes_iff]
  constructor
  · intro h x hx hname hparams hscope
    obtain ⟨id, hid⟩ := mem_entries_iff.1 hx
    refine h x.ns hscope id ⟨x, hid, beq_iff_eq.2 hname⟩ ?_
    simp [satisfies, hid, hparams]
  · rintro h scope hscope id ⟨x, hid, hname⟩ hsatisfies
    simp only [satisfies, hid, Option.any_some, Bool.and_eq_true, List.isEmpty_iff,
      beq_iff_eq] at hsatisfies
    exact h x (mem_entries_iff.2 ⟨id, hid⟩) (beq_iff_eq.1 hname) hsatisfies.1
      (hsatisfies.2 ▸ hscope)

/-! ### Profiles of files that import the framework -/

/-- The base list names the framework's type with its namespace. -/
def NamesInFull (name : String) (e : Entry) : Prop :=
  ∃ base ∈ e.bases, ∃ t, TypeExpr.read? base = some t ∧
    t.pathText? = some (Source.frameworkNamespace ++ "." ++ name)

/-- The base list names the framework's type without its namespace. -/
def NamesBare (name : String) (bases : List String) : Prop :=
  ∃ base ∈ bases, ∃ t, TypeExpr.read? base = some t ∧ IsBare name t

/-- A class of a file that imports the framework has a base that is the framework's when no
type hides its bare name, or when it names it in full. -/
theorem hasBase_framework_iff (he : c.get? id = some e) (himports : e.importsFramework = true)
    (hbare : NamesBare name e.bases) :
    c.HasBase name id .framework ↔ c.visibleFrom name e.ns = none ∨ NamesInFull name e := by
  constructor
  · rintro ⟨e', he', base, hbase, t, ht, hleads⟩
    obtain rfl := Option.some.inj (he.symm.trans he')
    cases hleads with
    | qualified h => exact Or.inr ⟨base, hbase, t, ht, h⟩
    | imported _ hnone _ => exact Or.inl hnone
    | unresolved _ _ hno _ =>
      rw [himports] at hno
      cases hno
  · rintro (hnone | ⟨base, hbase, t, ht, hqualified⟩)
    · obtain ⟨base, hbase, t, ht, hbare⟩ := hbare
      exact ⟨e, he, base, hbase, t, ht, .imported hbare hnone himports⟩
    · exact ⟨e, he, base, hbase, t, ht, .qualified hqualified⟩

/-- **What hides a profile.**  Take a declaration, in a file that imports the framework, with
the bare name `Profile` in its base list.  Let no type have the qualified name `Profile` or
that of `Profile` in the namespace of the type or one around it.  Then the type is a profile
if and only if no type of that name and without parameters is nested in another type in one
of these namespaces, or the base list also names the framework's type in full, or another of
the bases leads to a profile. -/
theorem isProfile_iff_not_hidden {files : List Source.File} {file : Source.File}
    {d : Source.Declaration} {id : Id} {e : Entry} (hd : IsEntered files file d id)
    (himports : file.importsFramework = true) (hbare : NamesBare profileName d.bases)
    (he : (ofFiles files).get? id = some e)
    (hfree : ∀ x ∈ (ofFiles files).entries, ∀ outer, Encloses outer e.ns →
      x.qualifiedName ≠ Source.qualify outer [profileName]) :
    (ofFiles files).isProfile id = true ↔
      (¬ ∃ x ∈ (ofFiles files).entries,
          x.IsNested ∧ x.name = profileName ∧ x.typeParams = [] ∧ Encloses x.ns e.ns) ∨
        NamesInFull profileName e ∨
          ∃ j, (ofFiles files).HasBase profileName id (.declared j) ∧
            (ofFiles files).isProfile j = true := by
  obtain ⟨e', he', hholds⟩ := hd.exists_entry
  obtain rfl := Option.some.inj (he.symm.trans he')
  have hnamed : NamesBare profileName e.bases := by
    obtain ⟨base, hbase, hread⟩ := hbare
    exact ⟨base, hholds.bases_subset hbase, hread⟩
  have hvisible : (ofFiles files).visibleFrom profileName e.ns = none ↔
      ¬ ∃ x ∈ (ofFiles files).entries,
        x.IsNested ∧ x.name = profileName ∧ x.typeParams = [] ∧ Encloses x.ns e.ns := by
    rw [visibleFrom_eq_none_iff]
    constructor
    · rintro h ⟨x, hx, -, hname, hparams, hencloses⟩
      exact h x hx hname hparams hencloses
    · intro h x hx hname hparams hencloses
      refine h ⟨x, hx, ?_, hname, hparams, hencloses⟩
      rw [Entry.IsNested, hname]
      exact hfree x hx x.ns hencloses
  simp only [isProfile, derivesFrom_iff]
  rw [derives_iff, ← hasBase_framework, hasBase_framework_iff he (hholds.imports himports) hnamed,
    hvisible, or_assoc]
  simp only [← hasBase_declared]

/-- A profile in a nested namespace, and elsewhere a type of the name within another type. -/
def nestedElsewhere : Source.File := .read "P.cs" ("using AutoMapper;" ++
  "namespace A.B\x7bclass P:Profile\x7b\x7d\x7dnamespace C\x7bclass O\x7bclass Profile\x7b\x7d\x7d\x7d")

set_option maxRecDepth 100000 in
/-- In the example no type is in the way of the framework's class. -/
theorem nestedElsewhere_free : nestedElsewhere.importsFramework = true ∧
    (∃ d ∈ nestedElsewhere.declarations.head?, d.bases = ["Profile"]) ∧
      ∃ e ∈ (ofFiles [nestedElsewhere]).get? 0,
        (∀ x ∈ (ofFiles [nestedElsewhere]).entries, ∀ outer ∈ scopes e.ns,
          x.qualifiedName ≠ Source.qualify outer [profileName]) ∧
        ∀ x ∈ (ofFiles [nestedElsewhere]).entries, x.name = profileName → x.ns ∉ scopes e.ns := by
  decide +kernel

/-- The base class of the example is named without its namespace. -/
theorem namesBare_profile : NamesBare profileName ["Profile"] := by
  have hread : ∃ t ∈ TypeExpr.read? "Profile",
      t.pathText? = some profileName ∧ t.genericArgs.isEmpty = true := by decide +kernel
  obtain ⟨t, ht, hpath, hargs⟩ := hread
  exact ⟨"Profile", List.mem_singleton_self _, t, ht, hpath, List.isEmpty_iff.1 hargs⟩

/-- A type of the name that is nested elsewhere does not hide the profile. -/
theorem isProfile_nestedElsewhere :
    ∃ d ∈ nestedElsewhere.declarations.head?, IsEntered [nestedElsewhere] nestedElsewhere d 0 ∧
      NamesBare profileName d.bases ∧ (ofFiles [nestedElsewhere]).isProfile 0 = true := by
  obtain ⟨himports, ⟨d, hhead, hbases⟩, e, he, hfree, hsight⟩ := nestedElsewhere_free
  obtain ⟨ds, hds⟩ := List.head?_eq_some_iff.1 hhead
  have hd : IsEntered [nestedElsewhere] nestedElsewhere d 0 := isEntered_zero hds
  have hbare : NamesBare profileName d.bases := hbases ▸ namesBare_profile
  refine ⟨d, hhead, hd, hbare, ?_⟩
  refine (isProfile_iff_not_hidden hd himports hbare he fun x hx outer hencloses =>
    hfree x hx outer (mem_scopes_iff.2 hencloses)).2 (Or.inl ?_)
  rintro ⟨x, hx, -, hname, -, hencloses⟩
  exact hsight x hx hname (mem_scopes_iff.2 hencloses)

/-- A profile, and beside it a type of the name within another type. -/
def nestedBeside : Source.File := .read "P.cs"
  "using AutoMapper;class P:Profile\x7b\x7dclass O\x7bclass Profile\x7b\x7d\x7d"

set_option maxRecDepth 100000 in
/-- **A nested type hides a profile**: the file imports the framework and the base list names
`Profile`, no type has this qualified name, but the class is no profile. -/
theorem profile_hidden_by_nested : nestedBeside.importsFramework = true ∧
    (∃ d ∈ nestedBeside.declarations.head?, d.bases = ["Profile"] ∧ d.ns = none) ∧
      (ofFiles [nestedBeside]).entries.map (·.qualifiedName) = ["P", "O", "O.Profile"] ∧
        (ofFiles [nestedBeside]).isProfile 0 = false := by
  decide +kernel

end Catalog
end MappingAudit
