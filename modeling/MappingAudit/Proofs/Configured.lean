/-
# Configured members are not reported

A directive decides where a destination member comes from when it configures the member,
or when it is about something within it.  Checks that ask how convention fills a member
leave such members alone (`Check.not_configures_of_mem_report`), whatever the case in which
the directive writes the name.
-/

import MappingAudit.Proofs.MemberClasses
import MappingAudit.Proofs.TextPieces

namespace MappingAudit

namespace Registration

variable {r : Registration} {d : Directive} {m name : String}

/-- What a directive configures stays configured in another case. -/
theorem configures_of_mem (hd : d ∈ r.directives) (htarget : d.target.head? = some m)
    (hconfig : d.config.isSome = true ∨ 1 < d.target.length)
    (hname : Pieces.sameName name m = true) : r.configures name = true := by
  refine List.any_eq_true.2 ⟨d, hd, ?_⟩
  rw [Directive.startsAt, htarget, Option.any_some, Pieces.sameName_symm hname, Bool.true_and,
    Bool.or_eq_true, decide_eq_true_iff]
  exact hconfig

end Registration

/-- Only members that nothing configures are paired. -/
theorem Context.not_configures_of_mem_pairs {x : Context} {p : MemberPair} (h : p ∈ x.pairs) :
    x.registration.configures p.destination.name = false := by
  rw [pairs] at h
  split at h
  · exact absurd h List.not_mem_nil
  · obtain ⟨m, -, hp⟩ := List.mem_filterMap.1 h
    rw [destination_of_pair? hp]
    rw [pair?] at hp
    split at hp
    · cases hp
    · next hconfigures => exact Bool.eq_false_iff.2 hconfigures

namespace Check

/-- The rules about destination members that are left to convention. -/
def memberRules : List RuleId := .caseMismatch :: .recursion :: conventionRules

variable {x : Context} {f : Finding} {name : String}

/-- What is found for a pair names a member that nothing configures. -/
theorem not_configures_of_mem_filterMap {g : MemberPair → Option Finding}
    (hmember : ∀ p f, g p = some f → f.detail? .member = some p.destination.name)
    (h : f ∈ x.pairs.filterMap g) (hname : f.detail? .member = some name) :
    x.registration.configures name = false := by
  obtain ⟨p, hp, hf⟩ := List.mem_filterMap.1 h
  obtain rfl := Option.some.inj ((hmember p f hf).symm.trans hname)
  exact Context.not_configures_of_mem_pairs hp

/-- No configured member is reported as recursive. -/
theorem not_configures_of_mem_recursion (h : f ∈ recursion x)
    (hname : f.detail? .member = some name) : x.registration.configures name = false := by
  rw [recursion] at h
  split at h
  · exact absurd h List.not_mem_nil
  · split at h
    · exact absurd h List.not_mem_nil
    · obtain ⟨p, hp, rfl⟩ := List.mem_map.1 h
      rw [Context.member_pairFinding] at hname
      obtain rfl := Option.some.inj hname
      exact Context.not_configures_of_mem_pairs (List.mem_filter.1 hp).1

/-- None is reported for its case. -/
theorem not_configures_of_mem_caseOnly (h : f ∈ caseOnly x)
    (hname : f.detail? .member = some name) : x.registration.configures name = false := by
  obtain ⟨p, hp, rfl⟩ := List.mem_map.1 h
  have hmember : some p.destination.name = some name := by simpa using hname
  obtain rfl := Option.some.inj hmember
  exact Context.not_configures_of_mem_pairs (List.mem_filter.1 hp).1

/-- None is reported as unfilled. -/
theorem not_configures_of_mem_unfilled {s d : Model} (h : f ∈ unfilled x s d)
    (hname : f.detail? .member = some name) : x.registration.configures name = false := by
  rw [unfilled] at h
  split at h
  · obtain ⟨m, hm, rfl⟩ := List.mem_map.1 h
    rw [Context.member_memberFinding] at hname
    obtain rfl := Option.some.inj hname
    have hunfilled := (List.mem_filter.1 hm).2
    rw [isUnfilled, Bool.and_eq_true, Bool.not_eq_true'] at hunfilled
    exact hunfilled.1
  · exact absurd h List.not_mem_nil

/-- None is reported as unmapped, but for source members. -/
theorem not_configures_of_mem_unmapped (h : f ∈ unmapped x) (hrule : f.rule ≠ .sourceUnmapped)
    (hname : f.detail? .member = some name) : x.registration.configures name = false := by
  rw [unmapped] at h
  split at h
  · exact absurd h List.not_mem_nil
  · rw [List.mem_append, List.mem_append] at h
    rcases h with (h | h) | h
    · exact not_configures_of_mem_caseOnly h hname
    · exact not_configures_of_mem_unfilled h hname
    · exact absurd (rule_of_mem_unread h) hrule

/-- **Findings about convention name members that nothing configures.** -/
theorem not_configures_of_mem_report {settings : SmellSettings} (h : f ∈ report settings x)
    (hrule : f.rule ∈ memberRules) (hname : f.detail? .member = some name) :
    x.registration.configures name = false := by
  have hother {rule : RuleId} (heq : f.rule = rule) (hnot : rule ∉ memberRules) :
      x.registration.configures name = false :=
    absurd (heq ▸ hrule) hnot
  obtain ⟨k, hk, hf⟩ := List.mem_flatMap.1 h
  simp only [all, List.mem_cons, List.not_mem_nil, or_false] at hk
  rcases hk with rfl | rfl | rfl | rfl | rfl | rfl | rfl | rfl | rfl
  · exact not_configures_of_mem_filterMap member_typeFinding? hf hname
  · exact not_configures_of_mem_filterMap member_collectionFinding? hf hname
  · refine not_configures_of_mem_unmapped hf (fun hsource => ?_) hname
    rw [hsource] at hrule
    exact absurd hrule (by decide)
  · exact not_configures_of_mem_filterMap member_nestedFinding? hf hname
  · exact not_configures_of_mem_recursion hf hname
  · exact hother (rule_of_mem_expressions hf) (by decide)
  · exact hother (rule_of_mem_duplicates hf) (by decide)
  · exact hother (rule_of_mem_conflicts hf) (by decide)
  · exact hother (rule_of_mem_redundant hf) (by decide)

end Check

/-- **Configured members are left alone.**  Take a directive about the destination member
`m` that configures it, or that is about something within it.  Whatever the registration,
the catalog, the registry and the models, no finding about types, containers, elements,
nested mappings, recursion, names that differ in case or unmapped destination members
names `m`, in any case. -/
theorem configured_member_unreported (settings : Check.SmellSettings) (x : Context) {d : Directive}
    (hd : d ∈ x.registration.directives) {m : String} (htarget : d.target.head? = some m)
    (hconfig : d.config.isSome = true ∨ 1 < d.target.length) :
    ∀ f ∈ Check.report settings x, f.rule ∈ Check.memberRules →
      ∀ name, f.detail? .member = some name → Pieces.sameName name m = false := by
  intro f hf hrule name hname
  refine Bool.eq_false_iff.2 fun hsame => ?_
  have hnot := Check.not_configures_of_mem_report hf hrule hname
  rw [Registration.configures_of_mem hd htarget hconfig hsame] at hnot
  cases hnot

/-- A directive about something within a member of `notes`, written in another case. -/
def withinNote : Directive :=
  { (default : Directive) with target := ["note", "Text"], method := "ForPath" }

/-- The mapping of `notes` with this directive. -/
def notesWithPath : Registration := { notesRegistration with directives := [withinNote] }

/-- The members that the findings about convention name. -/
def reportedMembers (r : Registration) : List (Option String) :=
  ((Check.report {} (.ofRegistration notes {} [] r)).filter
    fun f => Check.memberRules.contains f.rule).map (·.detail? .member)

set_option maxRecDepth 100000 in
/-- Two members of `notes` are reported, and with one of them configured only the other. -/
theorem reportedMembers_notes :
    reportedMembers notesRegistration = [some "Note", some "Extra"] ∧
      reportedMembers notesWithPath = [some "Extra"] := by
  decide +kernel

/-- Without the directive the member `Note` is reported for its type, with it not. -/
theorem configured_member_unreported_notes :
    reportedMembers notesRegistration = [some "Note", some "Extra"] ∧
      withinNote ∈ notesWithPath.directives ∧ withinNote.target.head? = some "note" ∧
        (withinNote.config.isSome = true ∨ 1 < withinNote.target.length) ∧
          ∀ f ∈ Check.report {} (.ofRegistration notes {} [] notesWithPath),
            f.rule ∈ Check.memberRules →
              ∀ name, f.detail? .member = some name → Pieces.sameName name "note" = false :=
  ⟨reportedMembers_notes.1, List.mem_cons_self, rfl, Or.inr (by decide),
    configured_member_unreported {} (.ofRegistration notes {} [] notesWithPath)
      List.mem_cons_self rfl (Or.inr (by decide))⟩

end MappingAudit
