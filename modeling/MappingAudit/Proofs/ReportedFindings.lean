/-
# What checks report

Every finding of a check is about the registration that was checked: it has its identifier and
its file, as many arguments as the messages of its rule are written for (`RuleId.arity`), and a
place that the registration has from its chain (`Registration.spans`): the call of `CreateMap`,
a call that configures a member, the call of `ReverseMap`, or a site in a lambda.  Checks build
their findings by adding details to a first one, which changes nothing of this
(`Context.Reports`).
-/

import MappingAudit.Proofs.ChainTiles
import MappingAudit.Proofs.OutermostSmells
import MappingAudit.Proofs.RegisteredTwice

namespace MappingAudit

/-! ### Places of a message -/

namespace Message

/-- The numbers of the places in a template. -/
def places : List Char → List Nat
  | [] => []
  | c :: cs => ((if c = '{' then place? cs else none).map (·.1)).toList ++ places cs

end Message

/-- How many arguments the messages of a rule get. -/
def RuleId.arity : RuleId → Nat
  | typeMismatch | nullToValue | container | sourceUnmapped | destinationUnmapped
  | requiredUnmapped | nestedMissing | recursion => 5
  | elementMismatch => 7
  | caseMismatch => 4
  | duplicate | conflict => 3
  | performance => 2
  | redundantMapFrom => 1

/-- Every place of a message has an argument. -/
theorem RuleId.lt_arity_of_mem_places (rule : RuleId) :
    ∀ n ∈ Message.places rule.template.toList, n < rule.arity := by
  cases rule
  all_goals
    rw [template, String.toList_ofList]
    decide

/-! ### Places of smells -/

namespace Source
namespace Summary

variable {e : Summary}

/-- A call in a lambda is among its places. -/
theorem span_mem_of_call {c : CallSite} (h : c ∈ e.calls) : c.span ∈ e.spans :=
  List.mem_cons_of_mem _ (List.mem_append_left _ (List.mem_append_left _ (List.mem_map_of_mem h)))

/-- So is an access to a member. -/
theorem span_mem_of_access {a : AccessSite} (h : a ∈ e.accesses) : a.span ∈ e.spans :=
  List.mem_cons_of_mem _ (List.mem_append_left _ (List.mem_append_right _ (List.mem_map_of_mem h)))

/-- So is the creation of an object. -/
theorem span_mem_of_creation {c : CreationSite} (h : c ∈ e.creations) : c.span ∈ e.spans :=
  List.mem_cons_of_mem _ (List.mem_append_right _ (List.mem_map_of_mem h))

end Summary
end Source

namespace Detector

open Source (Summary CallSite)

variable {e : Summary} {s : Smell}

/-- A smell of certain calls is placed at a call. -/
theorem span_mem_of_mem_atCalls {p : CallSite → Bool} {what : String} (h : s ∈ atCalls e p what) :
    s.span ∈ e.spans := by
  obtain ⟨c, hc, rfl⟩ := List.mem_map.1 h
  exact Summary.span_mem_of_call (List.mem_filter.1 hc).1

/-- A smell of certain creations is placed at a creation. -/
theorem span_mem_of_mem_atCreations {types : List String} {what : String}
    (h : s ∈ atCreations e types what) : s.span ∈ e.spans := by
  obtain ⟨c, hc, rfl⟩ := List.mem_map.1 h
  exact Summary.span_mem_of_creation (List.mem_filter.1 hc).1

/-- Queries are placed at calls or accesses. -/
theorem span_mem_of_mem_queries (h : s ∈ queries e) : s.span ∈ e.spans := by
  obtain ⟨c, hc, hs⟩ := List.mem_filterMap.1 h
  obtain ⟨receiver, -, hs⟩ := Option.bind_eq_some_iff.1 hs
  split at hs
  · obtain rfl := Option.some.inj hs
    exact Summary.span_mem_of_call hc
  · cases hs

/-- Values that change are placed at calls, accesses or creations. -/
theorem span_mem_of_mem_changingValues (h : s ∈ changingValues e) : s.span ∈ e.spans := by
  rw [changingValues, List.mem_append, List.mem_append] at h
  rcases h with (h | h) | h
  · obtain ⟨a, ha, hs⟩ := List.mem_filterMap.1 h
    obtain ⟨m, -, rfl⟩ := Option.map_eq_some_iff.1 hs
    exact Summary.span_mem_of_access ha
  · exact span_mem_of_mem_atCalls h
  · obtain ⟨c, hc, rfl⟩ := List.mem_map.1 h
    exact Summary.span_mem_of_creation (List.mem_filter.1 hc).1

/-- Waiting is placed at calls or accesses. -/
theorem span_mem_of_mem_waits (h : s ∈ waits e) : s.span ∈ e.spans := by
  rw [waits, List.mem_append] at h
  rcases h with h | h
  · obtain ⟨a, ha, rfl⟩ := List.mem_map.1 h
    exact Summary.span_mem_of_access (List.mem_filter.1 ha).1
  · exact span_mem_of_mem_atCalls h

/-- What is enumerated again is placed where it is. -/
theorem span_mem_of_mem_repeated {before : List String} {found : List (String × Span)}
    (h : s ∈ repeated before found) : s.span ∈ found.map (·.2) := by
  induction found generalizing before with
  | nil => exact absurd h List.not_mem_nil
  | cons p found ih =>
    obtain ⟨text, span⟩ := p
    rw [repeated, List.mem_append] at h
    rcases h with h | h
    · split at h
      · exact List.mem_singleton.1 h ▸ List.mem_cons_self
      · exact absurd h List.not_mem_nil
    · exact List.mem_cons_of_mem _ (ih h)

/-- An enumeration is placed at its call. -/
theorem span_mem_of_enumerated? {scope : Smell.Scope} {c : CallSite} {p : String × Span}
    (h : enumerated? scope e c = some p) : p.2 = c.span := by
  obtain ⟨receiver, -, hp⟩ := Option.bind_eq_some_iff.1 h
  dsimp only at hp
  split at hp
  · exact Option.some.inj hp ▸ rfl
  · cases hp

/-- Smells are at sites of the lambda, or at its body. -/
theorem span_mem_of_mem_run {scope : Smell.Scope} {limit : Nat} {d : Detector}
    (h : s ∈ d.run scope limit e) : s.span ∈ e.spans := by
  cases d with
  | database => exact span_mem_of_mem_queries (Smell.mem_of_mem_outermost h)
  | fileSystem =>
    rcases List.mem_append.1 (Smell.mem_of_mem_outermost h) with h | h
    · exact span_mem_of_mem_atCalls h
    · exact span_mem_of_mem_atCreations h
  | network =>
    rcases List.mem_append.1 (Smell.mem_of_mem_outermost h) with h | h
    · exact span_mem_of_mem_atCalls h
    · exact span_mem_of_mem_atCreations h
  | reflection => exact span_mem_of_mem_atCalls (Smell.mem_of_mem_outermost h)
  | nonDeterministic => exact span_mem_of_mem_changingValues (Smell.mem_of_mem_outermost h)
  | blockingAsync => exact span_mem_of_mem_waits (Smell.mem_of_mem_outermost h)
  | doubleEnumeration =>
    obtain ⟨p, hp, hspan⟩ := List.mem_map.1 (span_mem_of_mem_repeated h)
    obtain ⟨c, hc, hfound⟩ := List.mem_filterMap.1 hp
    rw [← hspan, span_mem_of_enumerated? hfound]
    exact Summary.span_mem_of_call hc
  | deepProjection =>
    rw [run, deepProjections] at h
    split at h
    · exact absurd h List.not_mem_nil
    · exact List.mem_singleton.1 h ▸ List.mem_cons_self

end Detector

/-- A smell of a lambda is found by its detector. -/
theorem Smell.mem_run_of_mem_ofSummary {mode : SmellMode} {limit : Nat} {scope : Scope}
    {e : Source.Summary} {p : Detector × Smell} (h : p ∈ ofSummary mode limit scope e) :
    p.2 ∈ p.1.run scope limit e := by
  have hall : p ∈ Detector.all.flatMap fun d => (d.run scope limit e).map fun s => (d, s) := by
    cases mode with
    | first => exact List.mem_of_mem_take h
    | all => exact h
  obtain ⟨d, -, hp⟩ := List.mem_flatMap.1 hall
  obtain ⟨s, hs, rfl⟩ := List.mem_map.1 hp
  exact hs

/-! ### What a check reports -/

/-- The places that a registration has from its chain: the call of `CreateMap`, the calls that
configure members, the call of `ReverseMap`, and the sites in lambdas. -/
def Registration.spans (r : Registration) : List Span :=
  r.span :: (r.directives.map (·.span) ++ (r.reverse.map (·.span)).toList ++
    r.expressions.flatMap (·.summary.spans))

namespace Registration

variable {r : Registration}

/-- A directive of a mapping is among the places of the registration. -/
theorem span_mem_of_directive {d : Directive} (h : d ∈ r.directives) : d.span ∈ r.spans :=
  List.mem_cons_of_mem _ (List.mem_append_left _ (List.mem_append_left _ (List.mem_map_of_mem h)))

/-- So is the call of `ReverseMap`. -/
theorem span_mem_of_reverse {b : ReverseCall} (h : b ∈ r.reverse) : b.span ∈ r.spans :=
  List.mem_cons_of_mem _ (List.mem_append_left _ (List.mem_append_right _
    (Option.mem_toList.2 (Option.mem_map_of_mem _ h))))

/-- So are the places in the lambdas. -/
theorem mem_spans_of_expression {e : MappingExpression} {s : Span} (h : e ∈ r.expressions)
    (hs : s ∈ e.summary.spans) : s ∈ r.spans :=
  List.mem_cons_of_mem _ (List.mem_append_right _ (List.mem_flatMap.2 ⟨e, h, hs⟩))

end Registration

namespace Context

/-- The finding is about the registration of a context, at a place of it. -/
structure IsAbout (x : Context) (f : Finding) : Prop where
  registration : f.registration = x.registration.id
  file : f.file = x.registration.file
  span : f.span ∈ x.registration.spans

/-- In addition its message is that of its rule, filled with the arguments that it needs. -/
structure Reports (x : Context) (f : Finding) : Prop extends IsAbout x f where
  message : f.message = Message.fill f.rule.template f.args
  args : f.args.length = f.rule.arity

namespace Reports

variable {x : Context} {f : Finding} {rule : RuleId}

/-- A new finding has its message. -/
theorem finding {args : List String} {span : Span} (hargs : args.length = rule.arity)
    (hspan : span ∈ x.registration.spans) : x.Reports (x.finding rule args span) :=
  ⟨⟨rfl, rfl, hspan⟩, rfl, hargs⟩

/-- When arguments were missing, the message is filled again with more of them. -/
theorem withArgs (h : x.IsAbout f) {more : List String}
    (hargs : (f.args ++ more).length = f.rule.arity) : x.Reports (f.withArgs more) :=
  ⟨⟨h.registration, h.file, h.span⟩, rfl, hargs⟩

/-- Details have no part in the message. -/
theorem withDetail (h : x.Reports f) (d : Detail) (value : String) :
    x.Reports (f.withDetail d value) :=
  ⟨⟨h.registration, h.file, h.span⟩, h.message, h.args⟩

/-- Nor have details that are given only sometimes. -/
theorem withDetail? (h : x.Reports f) (d : Detail) (value : Option String) :
    x.Reports (f.withDetail? d value) := by
  cases value with
  | none => exact h
  | some v => exact h.withDetail d v

/-- Findings about members are at the call of `CreateMap`. -/
theorem memberFinding (h : rule.arity = 5) (member : String) (s d : Option Member) :
    x.Reports (x.memberFinding rule member s d) := by
  have hargs : [member, x.sourceName, typeName s, x.destinationName, typeName d].length =
      rule.arity := h.symm
  exact (((finding hargs List.mem_cons_self).withDetail _ _).withDetail? _ _).withDetail? _ _

/-- So are findings about pairs of members. -/
theorem pairFinding (h : rule.arity = 5) (p : MemberPair) : x.Reports (x.pairFinding rule p) :=
  (memberFinding h _ _ _).withDetail _ _

end Reports
end Context

namespace Check

open Context (Reports)

variable {x : Context} {f : Finding}

/-- Findings about the types of members. -/
theorem reports_of_mem_types (h : f ∈ types x) : x.Reports f := by
  have hrule := rule_of_mem_types h
  obtain ⟨p, -, hf⟩ := List.mem_filterMap.1 h
  obtain ⟨rule, -, rfl⟩ := Option.map_eq_some_iff.1 hf
  rw [Finding.rule_withDetail, Context.rule_pairFinding] at hrule
  have harity : rule.arity = 5 := by rcases hrule with rfl | rfl <;> rfl
  exact (Reports.pairFinding harity p).withDetail _ _

/-- A finding about elements has their types as two more arguments. -/
theorem reports_collectionFinding {rule : RuleId} (hrule : rule = .container ∨
    rule = .elementMismatch) (p : MemberPair) (q : CollectionPair) :
    x.Reports (collectionFinding x p q rule) := by
  rcases hrule with rfl | rfl
  · have hmember : x.Reports (x.memberFinding .container p.destination.name (some p.source.member)
        (some p.destination)) := .memberFinding rfl _ _ _
    exact (((((hmember.withDetail _ _).withDetail _ _).withDetail _ _).withDetail _ _
      ).withDetail _ _).withDetail _ _
  · have habout : x.IsAbout (x.memberFinding .elementMismatch p.destination.name
        (some p.source.member) (some p.destination)) := ⟨rfl, rfl, List.mem_cons_self⟩
    have hfilled : x.Reports ((x.memberFinding .elementMismatch p.destination.name
        (some p.source.member) (some p.destination)).withArgs
          [q.source.name, q.destination.name]) := .withArgs habout rfl
    exact ((((((hfilled.withDetail? _ _).withDetail _ _).withDetail _ _).withDetail _ _
      ).withDetail _ _).withDetail _ _).withDetail _ _

/-- Findings about collections. -/
theorem reports_of_mem_collections (h : f ∈ collections x) : x.Reports f := by
  have hrule := rule_of_mem_collections h
  obtain ⟨p, -, hf⟩ := List.mem_filterMap.1 h
  obtain ⟨q, -, hf⟩ := Option.bind_eq_some_iff.1 hf
  obtain ⟨rule, -, hf⟩ := Option.bind_eq_some_iff.1 hf
  obtain rfl := Option.some.inj hf
  rw [rule_collectionFinding] at hrule
  exact reports_collectionFinding hrule p q

/-- Findings about unmapped members. -/
theorem reports_of_mem_unmapped (h : f ∈ unmapped x) : x.Reports f := by
  rw [unmapped] at h
  split at h
  · exact absurd h List.not_mem_nil
  · rw [List.mem_append, List.mem_append] at h
    rcases h with (h | h) | h
    · obtain ⟨p, -, rfl⟩ := List.mem_map.1 h
      exact ((Reports.finding rfl List.mem_cons_self).withDetail _ _).withDetail _ _
    · rw [unfilled] at h
      split at h
      · obtain ⟨m, -, rfl⟩ := List.mem_map.1 h
        refine .memberFinding ?_ _ _ _
        split <;> rfl
      · exact absurd h List.not_mem_nil
    · rw [unread] at h
      split at h
      · exact absurd h List.not_mem_nil
      · obtain ⟨m, -, rfl⟩ := List.mem_map.1 h
        exact (Reports.memberFinding rfl _ _ _).withDetail _ _

/-- Findings about nested mappings. -/
theorem reports_of_mem_nested (h : f ∈ nested x) : x.Reports f := by
  obtain ⟨p, -, hf⟩ := List.mem_filterMap.1 h
  simp only at hf
  split at hf
  · obtain rfl := Option.some.inj hf
    exact (Reports.pairFinding rfl p).withDetail _ _
  · cases hf

/-- Findings about recursion. -/
theorem reports_of_mem_recursion (h : f ∈ recursion x) : x.Reports f := by
  rw [recursion] at h
  split at h
  · exact absurd h List.not_mem_nil
  · split at h
    · exact absurd h List.not_mem_nil
    · obtain ⟨p, -, rfl⟩ := List.mem_map.1 h
      exact .pairFinding rfl p

/-- Findings about smells in lambdas. -/
theorem reports_of_mem_expressions {mode : SmellMode} {limit : Nat}
    (h : f ∈ expressions mode limit x) : x.Reports f := by
  obtain ⟨e, he, hf⟩ := List.mem_flatMap.1 h
  obtain ⟨⟨d, s⟩, hs, rfl⟩ := List.mem_map.1 hf
  have hspan : s.span ∈ e.summary.spans :=
    Detector.span_mem_of_mem_run (Smell.mem_run_of_mem_ofSummary hs)
  exact ((Reports.finding rfl (Registration.mem_spans_of_expression he hspan)).withDetail _ _
    ).withDetail? _ _

/-- Findings about directives that conflict with earlier ones. -/
theorem reports_of_mem_conflictsAfter {before ds : List Directive}
    (hds : ds ⊆ x.registration.directives) (h : f ∈ conflictsAfter x before ds) : x.Reports f := by
  induction ds generalizing before with
  | nil => exact absurd h List.not_mem_nil
  | cons d ds ih =>
    rw [List.cons_subset] at hds
    rw [conflictsAfter, List.mem_append, Option.mem_toList] at h
    rcases h with h | h
    · obtain ⟨member, -, h⟩ := Option.bind_eq_some_iff.1 h
      obtain ⟨first, -, h⟩ := Option.bind_eq_some_iff.1 h
      obtain rfl := Option.some.inj h
      exact ((Reports.finding rfl (Registration.span_mem_of_directive hds.1)).withDetail _ _
        ).withDetail? _ _
    · exact ih hds.2 h

/-- Findings about conflicts. -/
theorem reports_of_mem_conflicts (h : f ∈ conflicts x) : x.Reports f :=
  reports_of_mem_conflictsAfter (List.filter_sublist.subset) h

/-- Findings about redundant directives. -/
theorem reports_of_mem_redundant (h : f ∈ redundant x) : x.Reports f := by
  rw [redundant] at h
  split at h
  · exact absurd h List.not_mem_nil
  · obtain ⟨d, hd, hf⟩ := List.mem_filterMap.1 h
    obtain ⟨target, -, rfl⟩ := Option.map_eq_some_iff.1 hf
    exact ((Reports.finding rfl (Registration.span_mem_of_directive hd)).withDetail _ _
      ).withDetail _ _

/-- A finding about a repeated pair is placed at one of its entries. -/
theorem reports_duplicateFinding {e : Mapped} (he : e.span ∈ x.registration.spans) (first : Mapped)
    (s d : String) : x.Reports (duplicateFinding x e first s d) :=
  ((Reports.finding rfl he).withDetail _ _).withDetail? _ _

/-- The entry that repeats a pair is one of the registration. -/
theorem mem_entriesOf_of_mem_duplicated? {origin : Origin} {p : Mapped × Mapped}
    (h : p ∈ duplicated? x origin) :
    p.1 ∈ (x.registry.entriesOf x.registration.id).filter (·.origin == origin) := by
  obtain ⟨e, he, hp⟩ := List.mem_filterMap.1 h
  obtain ⟨first, -, rfl⟩ := Option.map_eq_some_iff.1 hp
  exact he

/-- Where the entries of a registration are those that it makes, they are at its places. -/
theorem reports_of_mem_duplicates {c : Catalog}
    (hentries : x.registry.entriesOf x.registration.id = Mapped.ofRegistration c x.registration)
    (h : f ∈ duplicates x) : x.Reports f := by
  rw [duplicates] at h
  split at h
  · next e first rest heq =>
    have he := mem_entriesOf_of_mem_duplicated? (heq ▸ List.mem_cons_self :
      (e, first) ∈ duplicated? x .explicit)
    rw [hentries, Mapped.filter_explicit] at he
    obtain rfl := List.mem_singleton.1 he
    rw [List.mem_singleton.1 h]
    exact reports_duplicateFinding List.mem_cons_self first _ _
  · obtain ⟨⟨e, first⟩, hmem, rfl⟩ := List.mem_map.1 h
    have he := mem_entriesOf_of_mem_duplicated? hmem
    rw [hentries, Mapped.filter_reverse] at he
    obtain ⟨b, hb, rfl⟩ := List.mem_map.1 he
    exact reports_duplicateFinding (Registration.span_mem_of_reverse (Option.mem_toList.1 hb))
      first _ _

/-- **Every finding is about the registration that is checked.** -/
theorem reports_of_mem_findings {c : Catalog} {s : SmellSettings}
    (hentries : x.registry.entriesOf x.registration.id = Mapped.ofRegistration c x.registration) :
    ∀ k ∈ all s, ∀ f ∈ (k.run x).findings, x.Reports f := by
  intro k hk f hf
  simp only [all, List.mem_cons, List.not_mem_nil, or_false] at hk
  rcases hk with rfl | rfl | rfl | rfl | rfl | rfl | rfl | rfl | rfl
  · exact reports_of_mem_types hf
  · exact reports_of_mem_collections hf
  · exact reports_of_mem_unmapped hf
  · exact reports_of_mem_nested hf
  · exact reports_of_mem_recursion hf
  · exact reports_of_mem_expressions hf
  · exact reports_of_mem_duplicates hentries hf
  · exact reports_of_mem_conflicts hf
  · exact reports_of_mem_redundant hf

end Check

end MappingAudit
