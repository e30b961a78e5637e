/-
# Rules and details of findings

What the findings of each check say: their rule, and the members that they name.
-/

import MappingAudit.Check.Basic
import Mathlib.Data.List.Nodup
import Mathlib.Data.List.Pairwise

namespace MappingAudit

namespace Finding

@[simp] theorem rule_withArgs (f : Finding) (more : List String) :
    (f.withArgs more).rule = f.rule := rfl

@[simp] theorem detail?_withArgs (f : Finding) (more : List String) (d : Detail) :
    (f.withArgs more).detail? d = f.detail? d := rfl

@[simp] theorem rule_withDetail (f : Finding) (d : Detail) (value : String) :
    (f.withDetail d value).rule = f.rule := rfl

@[simp] theorem rule_withDetail? (f : Finding) (d : Detail) (value : Option String) :
    (f.withDetail? d value).rule = f.rule := by
  cases value <;> rfl

@[simp] theorem file_withDetail (f : Finding) (d : Detail) (value : String) :
    (f.withDetail d value).file = f.file := rfl

@[simp] theorem file_withDetail? (f : Finding) (d : Detail) (value : Option String) :
    (f.withDetail? d value).file = f.file := by
  cases value <;> rfl

@[simp] theorem span_withDetail (f : Finding) (d : Detail) (value : String) :
    (f.withDetail d value).span = f.span := rfl

@[simp] theorem span_withDetail? (f : Finding) (d : Detail) (value : Option String) :
    (f.withDetail? d value).span = f.span := by
  cases value <;> rfl

/-- A detail that is there is not replaced. -/
@[simp] theorem detail?_withDetail (f : Finding) (d e : Detail) (value : String) :
    (f.withDetail d value).detail? e = (f.detail? e).or (if e = d then some value else none) := by
  rw [withDetail, detail?, List.lookup_append]
  by_cases h : e = d
  · simp [detail?, h]
  · have hne : (e == d) = false := beq_false_of_ne h
    simp [detail?, h, List.lookup_cons, hne]

/-- A detail that is given only sometimes stands behind the others too. -/
@[simp] theorem detail?_withDetail? (f : Finding) (d e : Detail) (value : Option String) :
    (f.withDetail? d value).detail? e = (f.detail? e).or (if e = d then value else none) := by
  cases value with
  | none => simp [withDetail?]
  | some v => rw [withDetail?, detail?_withDetail]

end Finding

namespace Context

variable (x : Context) (rule : RuleId)

/-- A finding violates the rule that it is made for. -/
@[simp] theorem rule_finding (args : List String) (span : Span) :
    (x.finding rule args span).rule = rule := rfl

/-- A finding about a registration names no member of its own accord. -/
@[simp] theorem member_finding (args : List String) (span : Span) :
    (x.finding rule args span).detail? .member = none := rfl

/-- It has no source member yet. -/
@[simp] theorem sourceMember_finding (args : List String) (span : Span) :
    (x.finding rule args span).detail? .sourceMember = none := rfl

/-- It has no missing mappings yet. -/
@[simp] theorem missingPairs_finding (args : List String) (span : Span) :
    (x.finding rule args span).detail? .missingPairs = none := rfl

/-- It has no position of a call yet. -/
@[simp] theorem callIndex_finding (args : List String) (span : Span) :
    (x.finding rule args span).detail? .callIndex = none := rfl

variable (member : String) (s d : Option Member)

@[simp] theorem rule_memberFinding : (x.memberFinding rule member s d).rule = rule := by
  simp [memberFinding]

/-- A finding about a member names the member. -/
@[simp] theorem member_memberFinding :
    (x.memberFinding rule member s d).detail? .member = some member := by
  simp [memberFinding]

/-- Its source member is not among the details. -/
@[simp] theorem sourceMember_memberFinding :
    (x.memberFinding rule member s d).detail? .sourceMember = none := by
  simp [memberFinding]

@[simp] theorem missingPairs_memberFinding :
    (x.memberFinding rule member s d).detail? .missingPairs = none := by
  simp [memberFinding]

variable (p : MemberPair)

@[simp] theorem rule_pairFinding : (x.pairFinding rule p).rule = rule := by
  simp [pairFinding]

/-- A finding about a pair names both of its members. -/
@[simp] theorem member_pairFinding :
    (x.pairFinding rule p).detail? .member = some p.destination.name := by
  simp [pairFinding]

/-- A finding about a pair names its source member. -/
@[simp] theorem sourceMember_pairFinding :
    (x.pairFinding rule p).detail? .sourceMember = some p.source.member.name := by
  simp [pairFinding]

@[simp] theorem missingPairs_pairFinding :
    (x.pairFinding rule p).detail? .missingPairs = none := by
  simp [pairFinding]

end Context

namespace Check

variable {x : Context} {f : Finding}

/-- A finding about elements violates the rule that was asked for. -/
@[simp] theorem rule_collectionFinding (x : Context) (p : MemberPair) (q : CollectionPair)
    (rule : RuleId) : (collectionFinding x p q rule).rule = rule := by
  by_cases h : rule = .elementMismatch <;> simp [collectionFinding, h]

/-- It names the destination member. -/
@[simp] theorem member_collectionFinding (x : Context) (p : MemberPair) (q : CollectionPair)
    (rule : RuleId) :
    (collectionFinding x p q rule).detail? .member = some p.destination.name := by
  by_cases h : rule = .elementMismatch <;> simp [collectionFinding, h]

/-- Only a finding about elements carries missing mappings. -/
@[simp] theorem missingPairs_collectionFinding (x : Context) (p : MemberPair) (q : CollectionPair)
    (rule : RuleId) : (collectionFinding x p q rule).detail? .missingPairs =
      if rule = .elementMismatch then missingElements? x q else none := by
  by_cases h : rule = .elementMismatch <;> simp [collectionFinding, h]

/-- Members that differ in case only have a rule of their own. -/
theorem rule_of_mem_caseOnly (h : f ∈ caseOnly x) : f.rule = .caseMismatch := by
  obtain ⟨p, -, rfl⟩ := List.mem_map.1 h
  simp

/-- A destination member without a source violates one rule if it is required and another if it
is not. -/
theorem rule_of_mem_unfilled {s d : Model} (h : f ∈ unfilled x s d) :
    f.rule = .requiredUnmapped ∨ f.rule = .destinationUnmapped := by
  rw [unfilled] at h
  split at h
  · obtain ⟨m, -, rfl⟩ := List.mem_map.1 h
    rw [Context.rule_memberFinding]
    split
    · exact Or.inl rfl
    · exact Or.inr rfl
  · exact absurd h List.not_mem_nil

/-- A source member that nothing reads has a rule of its own. -/
theorem rule_of_mem_unread {s d : Model} (h : f ∈ unread x s d) : f.rule = .sourceUnmapped := by
  rw [unread] at h
  split at h
  · exact absurd h List.not_mem_nil
  · obtain ⟨m, -, rfl⟩ := List.mem_map.1 h
    simp

/-! ### The rules of each check -/

/-- The check of types has a rule for types and one for null values. -/
theorem rule_of_mem_types (h : f ∈ types x) : f.rule = .typeMismatch ∨ f.rule = .nullToValue := by
  obtain ⟨p, -, hf⟩ := List.mem_filterMap.1 h
  obtain ⟨rule, hrule, rfl⟩ := Option.map_eq_some_iff.1 hf
  rw [Finding.rule_withDetail, Context.rule_pairFinding]
  rw [typeRule?] at hrule
  split at hrule
  · exact Or.inl (Option.some.inj hrule).symm
  · split at hrule
    · cases hrule
    · exact Or.inr (Option.some.inj hrule).symm
  · cases hrule

/-- The check of collections has a rule for containers and one for elements. -/
theorem rule_of_mem_collections (h : f ∈ collections x) :
    f.rule = .container ∨ f.rule = .elementMismatch := by
  obtain ⟨p, -, hf⟩ := List.mem_filterMap.1 h
  obtain ⟨q, -, hf⟩ := Option.bind_eq_some_iff.1 hf
  obtain ⟨rule, hrule, hf⟩ := Option.bind_eq_some_iff.1 hf
  obtain rfl := Option.some.inj hf
  rw [rule_collectionFinding]
  rw [CollectionPair.rule?] at hrule
  split at hrule
  · exact Or.inl (Option.some.inj hrule).symm
  · split at hrule
    · exact Or.inr (Option.some.inj hrule).symm
    · cases hrule

/-- The check of nested mappings has one rule. -/
theorem rule_of_mem_nested (h : f ∈ nested x) : f.rule = .nestedMissing := by
  obtain ⟨p, -, hf⟩ := List.mem_filterMap.1 h
  simp only at hf
  split at hf
  · obtain rfl := Option.some.inj hf
    simp
  · cases hf

/-- The check of recursion has one rule. -/
theorem rule_of_mem_recursion (h : f ∈ recursion x) : f.rule = .recursion := by
  rw [recursion] at h
  split at h
  · exact absurd h List.not_mem_nil
  · split at h
    · exact absurd h List.not_mem_nil
    · obtain ⟨p, -, rfl⟩ := List.mem_map.1 h
      simp

/-- Smells of expressions have one rule. -/
theorem rule_of_mem_expressions {mode : SmellMode} {limit : Nat}
    (h : f ∈ expressions mode limit x) : f.rule = .performance := by
  obtain ⟨e, -, hf⟩ := List.mem_flatMap.1 h
  obtain ⟨⟨d, smell⟩, -, rfl⟩ := List.mem_map.1 hf
  simp

/-- Pairs that are registered twice have one rule. -/
theorem rule_of_mem_duplicates (h : f ∈ duplicates x) : f.rule = .duplicate := by
  rw [duplicates] at h
  split at h
  · rw [List.mem_singleton.1 h]
    simp [duplicateFinding]
  · obtain ⟨⟨e, first⟩, -, rfl⟩ := List.mem_map.1 h
    simp [duplicateFinding]

/-- A conflict with earlier directives has the rule of conflicts. -/
theorem rule_of_mem_conflictsAfter {before ds : List Directive} (h : f ∈ conflictsAfter x before ds) :
    f.rule = .conflict := by
  induction ds generalizing before with
  | nil => exact absurd h List.not_mem_nil
  | cons d ds ih =>
    rw [conflictsAfter, List.mem_append, Option.mem_toList] at h
    rcases h with h | h
    · obtain ⟨member, -, h⟩ := Option.bind_eq_some_iff.1 h
      obtain ⟨first, -, h⟩ := Option.bind_eq_some_iff.1 h
      obtain rfl := Option.some.inj h
      simp
    · exact ih h

/-- Conflicts have one rule. -/
theorem rule_of_mem_conflicts (h : f ∈ conflicts x) : f.rule = .conflict :=
  rule_of_mem_conflictsAfter h

/-- Redundant directives have one rule. -/
theorem rule_of_mem_redundant (h : f ∈ redundant x) : f.rule = .redundantMapFrom := by
  rw [redundant] at h
  split at h
  · exact absurd h List.not_mem_nil
  · obtain ⟨d, -, hf⟩ := List.mem_filterMap.1 h
    obtain ⟨target, -, rfl⟩ := Option.map_eq_some_iff.1 hf
    simp

/-- The check of unmapped members has the four rules of its parts. -/
theorem rule_of_mem_unmapped (h : f ∈ unmapped x) :
    f.rule ∈ [.sourceUnmapped, .caseMismatch, .destinationUnmapped, RuleId.requiredUnmapped] := by
  rw [unmapped] at h
  split at h
  · exact absurd h List.not_mem_nil
  · rw [List.mem_append, List.mem_append] at h
    rcases h with (h | h) | h
    · simp [rule_of_mem_caseOnly h]
    · rcases rule_of_mem_unfilled h with hrule | hrule <;> simp [hrule]
    · simp [rule_of_mem_unread h]

/-- **A check reports violations of its own rules.** -/
theorem rule_mem_rules (s : SmellSettings) :
    ∀ k ∈ all s, ∀ f ∈ (k.run x).findings, f.rule ∈ k.rules := by
  intro k hk f hf
  simp only [all, List.mem_cons, List.not_mem_nil, or_false] at hk
  rcases hk with rfl | rfl | rfl | rfl | rfl | rfl | rfl | rfl | rfl
  · rcases rule_of_mem_types hf with hrule | hrule <;> simp [ofFindings, hrule]
  · rcases rule_of_mem_collections hf with hrule | hrule <;> simp [ofFindings, hrule]
  · exact rule_of_mem_unmapped hf
  · exact List.mem_singleton.2 (rule_of_mem_nested hf)
  · exact List.mem_singleton.2 (rule_of_mem_recursion hf)
  · exact List.mem_singleton.2 (rule_of_mem_expressions hf)
  · exact List.mem_singleton.2 (rule_of_mem_duplicates hf)
  · exact List.mem_singleton.2 (rule_of_mem_conflicts hf)
  · exact List.mem_singleton.2 (rule_of_mem_redundant hf)

/-- Findings of some rules come from the checks of such rules, where every check reports
violations of its own rules. -/
theorem filter_flatMap_findings {ks : List Check}
    (h : ∀ k ∈ ks, ∀ f ∈ (k.run x).findings, f.rule ∈ k.rules) (p : RuleId → Bool) :
    (ks.flatMap fun k => (k.run x).findings).filter (fun f => p f.rule) =
      (ks.filter fun k => k.rules.any p).flatMap fun k =>
        (k.run x).findings.filter fun f => p f.rule := by
  induction ks with
  | nil => rfl
  | cons k ks ih =>
    have hks := ih fun l hl => h l (List.mem_cons_of_mem _ hl)
    rw [List.flatMap_cons, List.filter_append, hks]
    by_cases hany : k.rules.any p = true
    · rw [List.filter_cons, if_pos hany, List.flatMap_cons]
    · have hnil : (k.run x).findings.filter (fun f => p f.rule) = [] := by
        rw [List.filter_eq_nil_iff]
        intro f hf hp
        exact hany (List.any_eq_true.2 ⟨f.rule, h k List.mem_cons_self f hf, hp⟩)
      rw [List.filter_cons, if_neg hany, hnil, List.nil_append]

/-- What all checks find for a registration. -/
def report (s : SmellSettings) (x : Context) : List Finding :=
  (all s).flatMap fun k => (k.run x).findings

/-- **Findings of some rules are found by the checks of these rules.** -/
theorem filter_report_eq (s : SmellSettings) (x : Context) (p : RuleId → Bool) :
    (report s x).filter (fun f => p f.rule) =
      ((all s).filter fun k => k.rules.any p).flatMap fun k =>
        (k.run x).findings.filter fun f => p f.rule :=
  filter_flatMap_findings (rule_mem_rules s) p

/-- No two checks share a rule. -/
theorem nodup_rules (s : SmellSettings) : ((all s).flatMap (·.rules)).Nodup := by
  have hrules : (all s).flatMap (·.rules) = (all {}).flatMap (·.rules) := rfl
  rw [hrules]
  decide

/-- No two checks share a rule. -/
theorem eq_of_mem_rules {s : SmellSettings} {k l : Check} {rule : RuleId} (hk : k ∈ all s)
    (hl : l ∈ all s) (hrule : rule ∈ k.rules) (hrule' : rule ∈ l.rules) : k = l := by
  have : Std.Symm (Function.onFun List.Disjoint Check.rules) := ⟨fun _ _ h _ ha hb => h hb ha⟩
  by_contra hne
  exact (List.nodup_flatMap.1 (nodup_rules s)).2.forall hk hl hne hrule hrule'

/-- **A violation of a rule comes from the check of the rule.** -/
theorem mem_findings_of_mem_report {s : SmellSettings} {k : Check} (hk : k ∈ all s)
    (h : f ∈ report s x) (hrule : f.rule ∈ k.rules) : f ∈ (k.run x).findings := by
  obtain ⟨l, hl, hf⟩ := List.mem_flatMap.1 h
  rwa [eq_of_mem_rules hk hl hrule (rule_mem_rules s l hl f hf)]

end Check
end MappingAudit
