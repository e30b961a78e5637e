/-
# Types with the same members

Where each destination member has a source member of its name and its type, and the
source has no further members, convention maps everything.  The checks of types,
collections, nested mappings and unmapped members are silent then, whatever else the
registration says: a member of exactly this name is the first that is looked for, and
equal types are recognised by their keys before anything else is compared.

Types are the same when their keys are equal and both or neither is optional.
-/

import MappingAudit.CSharp.Declarations
import MappingAudit.Proofs.MemberClasses

namespace MappingAudit

namespace Shape

variable {s d : Shape}

/-- A type that is not optional is its own underlying type. -/
theorem underlying_eq_self (h : s.isNullable = false) : s.underlying = s := by
  cases s <;> first | rfl | cases h

/-- The mark of an optional type ends the key, so the rest of the key is left over. -/
theorem sameUnderlying_of_key (hkey : s.key = d.key) (hnull : s.isNullable = d.isNullable) :
    s.sameUnderlying d = true := by
  rw [sameUnderlying, beq_iff_eq]
  by_cases hs : s.isNullable = true
  · obtain ⟨s', rfl⟩ : ∃ s', s = nullable s' := by
      cases s <;> first | exact ⟨_, rfl⟩ | cases hs
    obtain ⟨d', rfl⟩ : ∃ d', d = nullable d' := by
      rw [hs] at hnull
      cases d <;> first | exact ⟨_, rfl⟩ | cases hnull
    rw [key, key] at hkey
    exact String.append_left_inj "?" |>.1 hkey
  · have hsfalse : s.isNullable = false := Bool.eq_false_iff.2 hs
    rw [underlying_eq_self hsfalse, underlying_eq_self (hnull ▸ hsfalse), hkey]

/-- Types of one key, both optional or neither, fit. -/
theorem fit_of_key (hkey : s.key = d.key) (hnull : s.isNullable = d.isNullable) :
    s.fit d = .compatible := by
  rw [fit, if_pos (sameUnderlying_of_key hkey hnull), nullFit, hnull]
  cases d.isNullable <;> rfl

end Shape

/-- The members have one name and one type. -/
def Member.Agrees (s d : Member) : Prop :=
  s.name = d.name ∧ s.shape.key = d.shape.key ∧ s.shape.isNullable = d.shape.isNullable

instance (s d : Member) : Decidable (s.Agrees d) := inferInstanceAs (Decidable (_ ∧ _ ∧ _))

namespace Model

/-- The two types have the same members. -/
structure SameMembers (s d : Model) : Prop where
  /-- Each destination member has a source member of its name and type. -/
  filled : ∀ m ∈ d.members, ∃ m' ∈ s.members, m'.Agrees m
  /-- Each source member has the name of a destination member. -/
  read : ∀ m' ∈ s.members, ∃ m ∈ d.members, m.name = m'.name

instance (s d : Model) : Decidable (SameMembers s d) :=
  decidable_of_iff (_ ∧ _) ⟨fun h => ⟨h.1, h.2⟩, fun h => ⟨h.filled, h.read⟩⟩

end Model

namespace Context

/-- The two types of the registration have the same members, as far as both are declared. -/
def HasSameMembers (x : Context) : Prop :=
  ∀ s ∈ x.source, ∀ d ∈ x.destination, s.SameMembers d

instance (x : Context) : Decidable x.HasSameMembers :=
  inferInstanceAs (Decidable (∀ s ∈ x.source, ∀ d ∈ x.destination, s.SameMembers d))

variable {x : Context} {s d : Model}

/-- Models that are compared are those of the two types. -/
theorem source_destination_of_models? (h : x.models? = some (s, d)) :
    x.source = some s ∧ x.destination = some d := by
  rw [models?] at h
  split at h
  · next hs hd =>
    cases h
    exact ⟨hs, hd⟩
  · cases h

/-- A source member of exactly the name comes before everything else. -/
theorem pair?_of_agrees (hnodup : (s.members.map (·.name)).Nodup) {m m' : Member}
    (hm' : m' ∈ s.members) (hagrees : m'.Agrees m) {p : MemberPair} (hp : x.pair? s m = some p) :
    p = ⟨m, ⟨[m.name], m', .exact⟩, []⟩ := by
  have hexact : s.findExact? m.name = some m' :=
    hagrees.1 ▸ find?_name_of_mem hnodup hm'
  rw [pair?, findSource?, Model.match?, hexact] at hp
  split at hp
  · cases hp
  · rw [← Option.some.inj hp, hagrees.1]

/-- Members of the same name and type are paired, and only these. -/
theorem agrees_of_mem_pairs (hsame : x.HasSameMembers)
    (hnodup : ∀ s ∈ x.source, (s.members.map (·.name)).Nodup) {p : MemberPair}
    (hp : p ∈ x.pairs) :
    p.source.member.Agrees p.destination ∧ p.source.kind = .exact := by
  rw [pairs] at hp
  split at hp
  · exact absurd hp List.not_mem_nil
  · next s d hmodels =>
    obtain ⟨hs, hd⟩ := source_destination_of_models? hmodels
    obtain ⟨m, hm, hp⟩ := List.mem_filterMap.1 hp
    obtain ⟨m', hm', hagrees⟩ := (hsame s hs d hd).filled m hm
    obtain rfl := pair?_of_agrees (hnodup s hs) hm' hagrees hp
    exact ⟨hagrees, rfl⟩

end Context

namespace Check

variable {x : Context}

section SameMembers

variable (hsame : x.HasSameMembers) (hnodup : ∀ s ∈ x.source, (s.members.map (·.name)).Nodup)

include hsame hnodup

/-- Every pair fits. -/
theorem fit_of_mem_pairs {p : MemberPair} (hp : p ∈ x.pairs) :
    p.source.member.shape.fit p.destination.shape = .compatible := by
  obtain ⟨⟨-, hkey, hnull⟩, -⟩ := Context.agrees_of_mem_pairs hsame hnodup hp
  exact Shape.fit_of_key hkey hnull

/-- The check of types finds nothing. -/
theorem types_of_sameMembers : types x = [] := by
  rw [types_eq, List.filterMap_eq_nil_iff]
  intro p hp
  exact typeFinding?_eq_none (by rw [fit_of_mem_pairs hsame hnodup hp]; decide)

/-- The check of collections finds nothing. -/
theorem collections_of_sameMembers : collections x = [] := by
  rw [collections_eq, List.filterMap_eq_nil_iff]
  intro p hp
  exact collectionFinding?_eq_none (by rw [fit_of_mem_pairs hsame hnodup hp]; decide)

/-- The check of nested mappings finds nothing. -/
theorem nested_of_sameMembers : nested x = [] := by
  rw [nested_eq, List.filterMap_eq_nil_iff]
  intro p hp
  exact nestedFinding?_eq_none (by rw [fit_of_mem_pairs hsame hnodup hp]; decide)

/-- No members differ in case only. -/
theorem caseOnly_of_sameMembers : caseOnly x = [] := by
  rw [caseOnly, List.map_eq_nil_iff, List.filter_eq_nil_iff]
  intro p hp
  obtain ⟨-, hkind⟩ := Context.agrees_of_mem_pairs hsame hnodup hp
  simp [hkind]

omit hsame in
/-- A destination member with a source member of its name is filled. -/
theorem unfilled_of_sameMembers {s d : Model} (hs : x.source = some s)
    (h : s.SameMembers d) : unfilled x s d = [] := by
  rw [unfilled]
  split
  · rw [List.map_eq_nil_iff, List.filter_eq_nil_iff]
    intro m hm
    obtain ⟨m', hm', hname, -⟩ := h.filled m hm
    have hexact : s.findExact? m.name = some m' :=
      hname ▸ find?_name_of_mem (hnodup s hs) hm'
    simp [isUnfilled, Context.findSource?, Model.match?, hexact]
  · rfl

omit hsame hnodup in
/-- A source member counts as read when a destination member has its name. -/
theorem unread_of_sameMembers {s d : Model} (h : s.SameMembers d) : unread x s d = [] := by
  rw [unread]
  split
  · rfl
  · rw [List.map_eq_nil_iff, List.filter_eq_nil_iff]
    intro m' hm'
    obtain ⟨m, hm, hname⟩ := h.read m' hm'
    have hread : m'.name ∈ readNames x d := by
      simp only [readNames, List.mem_append]
      exact Or.inl (Or.inl (Or.inl (Or.inr (List.mem_map.2 ⟨m, hm, hname⟩))))
    have hany : (readNames x d).any (Pieces.sameName m'.name) = true :=
      List.any_eq_true.2 ⟨_, hread, by simp [Pieces.sameName]⟩
    simp [hany]

/-- The check of unmapped members finds nothing. -/
theorem unmapped_of_sameMembers : unmapped x = [] := by
  rw [unmapped]
  split
  · rfl
  · next s d hmodels =>
    obtain ⟨hs, hd⟩ := Context.source_destination_of_models? hmodels
    have h : s.SameMembers d := hsame s hs d hd
    rw [caseOnly_of_sameMembers hsame hnodup, unfilled_of_sameMembers hnodup hs h,
      unread_of_sameMembers h]
    rfl

end SameMembers

/-- The rules about the types and the names of members. -/
def fittingRules : List RuleId :=
  [.typeMismatch, .nullToValue, .container, .sourceUnmapped, .caseMismatch, .destinationUnmapped,
    .requiredUnmapped, .nestedMissing, .elementMismatch]

/-- The checks that report violations of these rules. -/
theorem rules_of_fittingRules (settings : SmellSettings) :
    ((all settings).filter fun k => k.rules.any fittingRules.contains) =
      [ofFindings "type-compatibility" [.typeMismatch, .nullToValue] types,
        ofFindings "collections" [.container, .elementMismatch] collections,
        ofFindings "unmapped-members"
          [.sourceUnmapped, .caseMismatch, .destinationUnmapped, .requiredUnmapped] unmapped,
        ofFindings "nested-mapping" [.nestedMissing] nested] := rfl

/-- When the four checks find nothing, no finding of the report has one of their rules. -/
theorem filter_fittingRules (settings : SmellSettings) (htypes : types x = [])
    (hcollections : collections x = []) (hunmapped : unmapped x = []) (hnested : nested x = []) :
    (report settings x).filter (fun f => fittingRules.contains f.rule) = [] := by
  rw [filter_report_eq settings x fittingRules.contains, rules_of_fittingRules]
  simp [ofFindings, Outcome.findings, htypes, hcollections, hunmapped, hnested]

/-- **Types with the same members are clean.**  For any registration in any catalog and with
any registry: where each destination member has a source member of exactly its name, with the
same type key and the same optional mark, and each source member has the name of a destination
member, the checks of types, collections, unmapped members and nested mappings find nothing,
and the findings of the registration violate none of their rules. -/
theorem sameMembers_clean (settings : SmellSettings) (c : Catalog) (registry : Registry)
    (rs : List Registration) (r : Registration)
    (hsame : (Context.ofRegistration c registry rs r).HasSameMembers) :
    let x := Context.ofRegistration c registry rs r
    types x = [] ∧ collections x = [] ∧ unmapped x = [] ∧ nested x = [] ∧
      ∀ f ∈ report settings x, f.rule ∉ fittingRules := by
  intro x
  have hnodup : ∀ s ∈ x.source, (s.members.map (·.name)).Nodup :=
    fun s hs => Model.nodup_of_ofType? hs
  have htypes : types x = [] := types_of_sameMembers hsame hnodup
  have hcollections : collections x = [] := collections_of_sameMembers hsame hnodup
  have hunmapped : unmapped x = [] := unmapped_of_sameMembers hsame hnodup
  have hnested : nested x = [] := nested_of_sameMembers hsame hnodup
  refine ⟨htypes, hcollections, hunmapped, hnested, ?_⟩
  intro f hf hrule
  have hnone := filter_fittingRules settings htypes hcollections hunmapped hnested
  exact List.filter_eq_nil_iff.1 hnone f hf (List.contains_iff_mem.2 hrule)

/-- Two types with the same members, of which two differ in case only. -/
def twins : Catalog :=
  .ofFiles [.read "M.cs" "record S(int? A,S a,G[] B);record D(int? A,S a,G[] B);"]

/-- The mapping between them. -/
def twinsRegistration : Registration :=
  { (default : Registration) with
    source := .named ["S"] []
    destination := .named ["D"] []
    memberList := .destination
    converter := none }

set_option maxRecDepth 100000 in
/-- The types of `twins` have the same members, three of them. -/
theorem twins_sameMembers :
    (Context.ofRegistration twins {} [] twinsRegistration).HasSameMembers ∧
      (Context.ofRegistration twins {} [] twinsRegistration).pairs.length = 3 := by
  decide +kernel

/-- An optional type, names that differ in case, a declared type and an array of an unknown
type are all mapped by convention in `twins`. -/
theorem twins_clean :
    let x := Context.ofRegistration twins {} [] twinsRegistration
    x.HasSameMembers ∧ x.pairs.length = 3 ∧
      types x = [] ∧ collections x = [] ∧ unmapped x = [] ∧ nested x = [] ∧
        ∀ f ∈ report {} x, f.rule ∉ fittingRules :=
  ⟨twins_sameMembers.1, twins_sameMembers.2,
    sameMembers_clean {} twins {} [] twinsRegistration twins_sameMembers.1⟩

end Check
end MappingAudit
