/-
# Every destination member in one class

With a complete destination asked for, a destination member is configured, filled by
convention, or reported as unmapped, and it is only one of these.  The checks of types,
collections and nested mappings look at pairs and sort them by how their types fit, so no
two of them report one member, and none reports what is unmapped.

All of it rests on the names of the members of a type: they differ from each other, as a
member hides those of its name further up.
-/

import MappingAudit.CSharp.Declarations
import MappingAudit.Proofs.Findings
import Mathlib.Data.List.Nodup

namespace MappingAudit

/-! ### Names of members -/

namespace Member

/-- A member that is found has a name that was not seen before it. -/
theorem not_mem_of_mem_nearest {seen : List String} {fs : List Found} {f : Found}
    (h : f ∈ nearest seen fs) : f.member.name ∉ seen := by
  induction fs generalizing seen with
  | nil => exact absurd h List.not_mem_nil
  | cons g fs ih =>
    rw [nearest] at h
    split at h
    · exact ih h
    · next hnew =>
      rcases List.mem_cons.1 h with rfl | h
      · simpa using hnew
      · exact fun hmem => ih h (List.mem_cons_of_mem _ hmem)

/-- Of several members of one name the first is kept. -/
theorem nodup_nearest (seen : List String) (fs : List Found) :
    ((nearest seen fs).map (·.member.name)).Nodup := by
  induction fs generalizing seen with
  | nil => exact List.nodup_nil
  | cons f fs ih =>
    rw [nearest]
    split
    · exact ih seen
    · rw [List.map_cons, List.nodup_cons]
      refine ⟨?_, ih _⟩
      intro hmem
      obtain ⟨g, hg, hname⟩ := List.mem_map.1 hmem
      exact not_mem_of_mem_nearest hg (hname ▸ List.mem_cons_self)

/-- A member keeps its name. -/
theorem name_of_ofFound? {c : Catalog} {owner : Catalog.Id} {f : Found} {m : Member}
    (h : ofFound? c owner f = some m) : m.name = f.member.name := by
  obtain ⟨t, -, rfl⟩ := Option.map_eq_some_iff.1 h
  rfl

/-- The members that can be used keep their names and their order. -/
theorem map_name_sublist (c : Catalog) (owner : Catalog.Id) (fs : List Found) :
    ((fs.filterMap (ofFound? c owner)).map (·.name)).Sublist (fs.map (·.member.name)) := by
  induction fs with
  | nil => exact .slnil
  | cons f fs ih =>
    cases h : ofFound? c owner f with
    | none => exact (List.filterMap_cons_none h ▸ ih).cons _
    | some m =>
      rw [List.filterMap_cons_some h, List.map_cons, List.map_cons, name_of_ofFound? h]
      exact ih.cons_cons _

/-- **The members of a type have different names.** -/
theorem nodup_ofShape (c : Catalog) (a : Access) (s : Shape) :
    ((ofShape c a s).map (·.name)).Nodup := by
  rw [ofShape]
  split
  · split
    · refine (map_name_sublist _ _ _).nodup ?_
      exact (List.filter_sublist.map _).nodup (nodup_nearest _ _)
    · exact List.nodup_nil
  · exact List.nodup_nil

end Member

/-- So have those of a model. -/
theorem Model.nodup_of_ofType? {c : Catalog} {ns : Option String} {a : Access} {t : TypeExpr}
    {m : Model} (h : Model.ofType? c ns a t = some m) : (m.members.map (·.name)).Nodup := by
  rw [ofType?] at h
  split at h
  · obtain rfl := Option.some.inj h
    exact Member.nodup_ofShape c a _
  · cases h

/-- Where names differ, each finds what it names. -/
theorem find?_name_of_mem {α : Type} {name : α → String} {as : List α} (h : (as.map name).Nodup)
    {a : α} (ha : a ∈ as) : as.find? (fun b => name b == name a) = some a := by
  have hsome : (as.find? fun b => name b == name a).isSome = true :=
    List.find?_isSome.2 ⟨a, ha, beq_self_eq_true (name a)⟩
  obtain ⟨b, hb⟩ := Option.isSome_iff_exists.1 hsome
  have hname : name b = name a := beq_iff_eq.1 (List.find?_some hb :)
  rw [hb, List.inj_on_of_nodup_map h (List.mem_of_find?_eq_some hb) ha hname]

/-- Where names differ, at most one member has a given one. -/
theorem filter_name_cases {ms : List Member} (h : (ms.map (·.name)).Nodup) (name : String) :
    ms.filter (·.name == name) = [] ∨ ∃ m ∈ ms, ms.filter (·.name == name) = [m] := by
  induction ms with
  | nil => exact Or.inl rfl
  | cons m ms ih =>
    rw [List.map_cons, List.nodup_cons] at h
    by_cases hname : m.name = name
    · have hrest : ms.filter (·.name == name) = [] := by
        rw [List.filter_eq_nil_iff]
        intro m' hm' heq
        exact h.1 (List.mem_map.2 ⟨m', hm', (beq_iff_eq.1 heq).trans hname.symm⟩)
      exact Or.inr ⟨m, List.mem_cons_self, by simp [hname, hrest]⟩
    · have hcons : (m :: ms).filter (·.name == name) = ms.filter (·.name == name) := by
        simp [hname]
      rw [hcons]
      rcases ih h.2 with hnil | ⟨m', hm', hone⟩
      · exact Or.inl hnil
      · exact Or.inr ⟨m', List.mem_cons_of_mem _ hm', hone⟩

/-! ### The findings that name a member -/

/-- The findings that name a member. -/
def naming (name : String) (fs : List Finding) : List Finding :=
  fs.filter fun f => f.detail? .member == some name

/-- Whether an element of the image is kept can be decided before the map. -/
theorem filter_filterMap_eq {α β : Type} {g : α → Option β} {q : β → Bool} {p : α → Bool}
    (h : ∀ a b, g a = some b → q b = p a) (l : List α) :
    (l.filterMap g).filter q = (l.filter p).filterMap g := by
  induction l with
  | nil => rfl
  | cons a l ih =>
    cases hg : g a with
    | none =>
      rw [List.filterMap_cons_none hg, ih, List.filter_cons]
      split
      · rw [List.filterMap_cons_none hg]
      · rfl
    | some b =>
      rw [List.filterMap_cons_some hg, List.filter_cons, List.filter_cons, h a b hg]
      split
      · rw [List.filterMap_cons_some hg, ih]
      · exact ih

/-- What is found for single pairs is found for those of a destination member. -/
theorem naming_filterMap {g : MemberPair → Option Finding}
    (h : ∀ p f, g p = some f → f.detail? .member = some p.destination.name) (name : String)
    (ps : List MemberPair) :
    naming name (ps.filterMap g) = (ps.filter (·.destination.name == name)).filterMap g :=
  filter_filterMap_eq (fun p f hf => by rw [h p f hf]; rfl) ps

namespace Check

/-- What the check of types finds for a pair. -/
def typeFinding? (x : Context) (p : MemberPair) : Option Finding :=
  (typeRule? x p).map fun rule =>
    (x.pairFinding rule p).withDetail .sourcePath (Pieces.join "." p.path)

/-- What the check of collections finds for a pair. -/
def collectionFinding? (x : Context) (p : MemberPair) : Option Finding := do
  let q ← CollectionPair.ofShapes? p.source.member.shape p.destination.shape
  let rule ← q.rule? x.registry
  pure (collectionFinding x p q rule)

/-- What the check of nested mappings finds for a pair. -/
def nestedFinding? (x : Context) (p : MemberPair) : Option Finding :=
  let s := p.source.member.shape
  let d := p.destination.shape
  if s.fit d == .nested && !x.registry.containsShapes s d then
    some ((x.pairFinding .nestedMissing p).withDetail .missingPairs
      (Missing.encode (Missing.pairs x.catalog x.registry s.underlying d.underlying)))
  else none

/-- The check of types looks at the pairs one by one. -/
theorem types_eq (x : Context) : types x = x.pairs.filterMap (typeFinding? x) := rfl

/-- So does the check of collections. -/
theorem collections_eq (x : Context) : collections x = x.pairs.filterMap (collectionFinding? x) :=
  rfl

/-- So does the check of nested mappings. -/
theorem nested_eq (x : Context) : nested x = x.pairs.filterMap (nestedFinding? x) := rfl

variable {x : Context}

/-- A finding about types names the destination member. -/
theorem member_typeFinding? (p : MemberPair) (f : Finding) (h : typeFinding? x p = some f) :
    f.detail? .member = some p.destination.name := by
  obtain ⟨rule, -, rfl⟩ := Option.map_eq_some_iff.1 h
  simp

/-- So does one about collections. -/
theorem member_collectionFinding? (p : MemberPair) (f : Finding)
    (h : collectionFinding? x p = some f) : f.detail? .member = some p.destination.name := by
  obtain ⟨q, -, h⟩ := Option.bind_eq_some_iff.1 h
  obtain ⟨rule, -, h⟩ := Option.bind_eq_some_iff.1 h
  obtain rfl := Option.some.inj h
  exact member_collectionFinding x p q rule

/-- So does one about nested mappings. -/
theorem member_nestedFinding? (p : MemberPair) (f : Finding) (h : nestedFinding? x p = some f) :
    f.detail? .member = some p.destination.name := by
  simp only [nestedFinding?] at h
  split at h
  · obtain rfl := Option.some.inj h
    simp
  · cases h

/-- Types that fit, or fit with a mapping, are not reported as types. -/
theorem typeFinding?_eq_none {p : MemberPair}
    (h : p.source.member.shape.fit p.destination.shape ∉ [Fit.incompatible, .nullToValue]) :
    typeFinding? x p = none := by
  have hrule : typeRule? x p = none := by
    rw [typeRule?]
    split <;> simp_all
  rw [typeFinding?, hrule, Option.map_none]

/-- Only collections are reported as collections. -/
theorem collectionFinding?_eq_none {p : MemberPair}
    (h : p.source.member.shape.fit p.destination.shape ≠ .collection) :
    collectionFinding? x p = none := by
  have hpair : CollectionPair.ofShapes? p.source.member.shape p.destination.shape = none := by
    rw [CollectionPair.ofShapes?, if_neg (by simpa using h)]
  rw [collectionFinding?, hpair]
  rfl

/-- Only types that need a mapping are reported as missing one. -/
theorem nestedFinding?_eq_none {p : MemberPair}
    (h : p.source.member.shape.fit p.destination.shape ≠ .nested) : nestedFinding? x p = none := by
  rw [nestedFinding?, beq_false_of_ne h]
  rfl

/-- **At most one of three checks reports a pair**, by how its types fit. -/
theorem length_findings_pair_le (x : Context) (p : MemberPair) :
    (typeFinding? x p).toList.length + (collectionFinding? x p).toList.length +
      (nestedFinding? x p).toList.length ≤ 1 := by
  by_cases hcollection : p.source.member.shape.fit p.destination.shape = .collection
  · have htypes : typeFinding? x p = none := typeFinding?_eq_none (by rw [hcollection]; decide)
    have hnested : nestedFinding? x p = none := nestedFinding?_eq_none (by rw [hcollection]; decide)
    simp [htypes, hnested]
  · rw [collectionFinding?_eq_none hcollection]
    by_cases hfit : p.source.member.shape.fit p.destination.shape = .nested
    · have htypes : typeFinding? x p = none := typeFinding?_eq_none (by rw [hfit]; decide)
      simp [htypes]
    · rw [nestedFinding?_eq_none hfit]
      simp

end Check

namespace Context

variable {x : Context} {s d : Model} {m : Member}

/-- A pair is made for its destination member. -/
theorem destination_of_pair? {p : MemberPair} (h : x.pair? s m = some p) : p.destination = m := by
  rw [pair?] at h
  split at h
  · cases h
  · obtain ⟨⟨via, found⟩, -, rfl⟩ := Option.map_eq_some_iff.1 h
    rfl

/-- The pairs are made for the destination members one by one. -/
theorem pairs_eq (h : x.models? = some (s, d)) : x.pairs = d.members.filterMap (x.pair? s) := by
  rw [pairs, h]

/-- The pairs of a name are made for the members of that name. -/
theorem filter_pairs (h : x.models? = some (s, d)) (name : String) :
    x.pairs.filter (·.destination.name == name) =
      (d.members.filter (·.name == name)).filterMap (x.pair? s) := by
  rw [pairs_eq h]
  exact filter_filterMap_eq (fun m p hp => by rw [destination_of_pair? hp]) _

/-- What is paired is not reported as unmapped. -/
theorem isUnfilled_of_pair? {p : MemberPair} (h : x.pair? s m = some p) :
    Check.isUnfilled x s m = false := by
  rw [pair?] at h
  split at h
  · cases h
  · obtain ⟨found, hfound, -⟩ := Option.map_eq_some_iff.1 h
    simp [Check.isUnfilled, hfound]

end Context

namespace Check

variable {x : Context} {s d : Model}

/-- The finding about a member that nothing fills. -/
def unfilledFinding (x : Context) (m : Member) : Finding :=
  x.memberFinding (if m.required then .requiredUnmapped else .destinationUnmapped) m.name none
    (some m)

/-- The unfilled members are reported one by one. -/
theorem unfilled_eq (h : x.registration.memberList = .destination) :
    unfilled x s d = (d.members.filter (isUnfilled x s)).map (unfilledFinding x) := by
  rw [unfilled, h]
  rfl

/-- The findings that name a member are made for the unfilled members of that name. -/
theorem naming_unfilled (h : x.registration.memberList = .destination) (name : String) :
    naming name (unfilled x s d) =
      ((d.members.filter (·.name == name)).filter (isUnfilled x s)).map (unfilledFinding x) := by
  rw [unfilled_eq h, naming, List.filter_map, List.filter_filter, List.filter_filter]
  refine congrArg (List.map _) (List.filter_congr fun m _ => ?_)
  rw [Function.comp_apply, unfilledFinding, Context.member_memberFinding, Bool.and_comm]
  rfl

/-- **A member is named once.**  The findings about types, collections and nested
mappings and those about unmapped destination members name each member at most once. -/
theorem length_naming_le (hmodels : x.models? = some (s, d))
    (hlist : x.registration.memberList = .destination) (hnodup : (d.members.map (·.name)).Nodup)
    (name : String) :
    (naming name (types x)).length + (naming name (collections x)).length +
      (naming name (unfilled x s d)).length + (naming name (nested x)).length ≤ 1 := by
  rw [types_eq, collections_eq, nested_eq, naming_filterMap member_typeFinding?,
    naming_filterMap member_collectionFinding?, naming_filterMap member_nestedFinding?,
    Context.filter_pairs hmodels, naming_unfilled hlist]
  rcases filter_name_cases hnodup name with hnone | ⟨m, -, hone⟩
  · simp [hnone]
  · rw [hone]
    cases hpair : x.pair? s m with
    | none =>
      have hlength := List.length_filter_le (isUnfilled x s) [m]
      simpa [List.filterMap_cons_none hpair] using hlength
    | some p =>
      have hpairs : [m].filterMap (x.pair? s) = [p] := by
        rw [List.filterMap_cons_some hpair, List.filterMap_nil]
      have hunfilled : [m].filter (isUnfilled x s) = [] := by
        simp [Context.isUnfilled_of_pair? hpair]
      have hsingle (g : MemberPair → Option Finding) : [p].filterMap g = (g p).toList := by
        cases h : g p <;> simp [h]
      have hle := length_findings_pair_le x p
      rw [hpairs, hunfilled, hsingle, hsingle, hsingle, List.map_nil, List.length_nil]
      omega

/-- The rules about how a destination member is filled by convention. -/
def conventionRules : List RuleId :=
  [.typeMismatch, .nullToValue, .container, .destinationUnmapped, .requiredUnmapped,
    .nestedMissing, .elementMismatch]

/-- The finding violates one of these rules. -/
def isConvention (f : Finding) : Bool := conventionRules.contains f.rule

/-- A finding with such a rule is one about conventions. -/
theorem isConvention_eq_true {f : Finding} (h : f.rule ∈ conventionRules) :
    isConvention f = true :=
  List.contains_iff_mem.2 h

/-- One with another rule is not. -/
theorem isConvention_eq_false {f : Finding} {rule : RuleId} (h : f.rule = rule)
    (hrule : rule ∉ conventionRules) : isConvention f = false :=
  Bool.eq_false_iff.2 fun htrue => hrule (h ▸ List.contains_iff_mem.1 htrue)

/-- Of the findings about unmapped members those about the destination remain. -/
theorem filter_unmapped (hmodels : x.models? = some (s, d)) :
    (unmapped x).filter isConvention = unfilled x s d := by
  have hcase : (caseOnly x).filter isConvention = [] :=
    List.filter_eq_nil_iff.2 fun f hf => by
      simp [isConvention_eq_false (rule_of_mem_caseOnly hf) (by decide)]
  have hunread : (unread x s d).filter isConvention = [] :=
    List.filter_eq_nil_iff.2 fun f hf => by
      simp [isConvention_eq_false (rule_of_mem_unread hf) (by decide)]
  have hunfilled : (unfilled x s d).filter isConvention = unfilled x s d :=
    List.filter_eq_self.2 fun f hf => isConvention_eq_true (by
      rcases rule_of_mem_unfilled hf with hrule | hrule <;> rw [hrule] <;> decide)
  rw [unmapped, hmodels]
  simp only [List.filter_append, hcase, hunread, hunfilled, List.nil_append, List.append_nil]

/-- Four checks look at how destination members are filled. -/
theorem filter_report (settings : SmellSettings) (hmodels : x.models? = some (s, d)) :
    (report settings x).filter isConvention =
      types x ++ (collections x ++ (unfilled x s d ++ nested x)) := by
  have htypes : (types x).filter isConvention = types x :=
    List.filter_eq_self.2 fun f hf => isConvention_eq_true (by
      rcases rule_of_mem_types hf with hrule | hrule <;> rw [hrule] <;> decide)
  have hcollections : (collections x).filter isConvention = collections x :=
    List.filter_eq_self.2 fun f hf => isConvention_eq_true (by
      rcases rule_of_mem_collections hf with hrule | hrule <;> rw [hrule] <;> decide)
  have hnested : (nested x).filter isConvention = nested x :=
    List.filter_eq_self.2 fun f hf => isConvention_eq_true (by
      rw [rule_of_mem_nested hf]
      decide)
  have hchecks : (all settings).filter (fun k => k.rules.any conventionRules.contains) =
      [ofFindings "type-compatibility" [.typeMismatch, .nullToValue] types,
        ofFindings "collections" [.container, .elementMismatch] collections,
        ofFindings "unmapped-members"
          [.sourceUnmapped, .caseMismatch, .destinationUnmapped, .requiredUnmapped] unmapped,
        ofFindings "nested-mapping" [.nestedMissing] nested] := rfl
  have hfilter := filter_report_eq settings x conventionRules.contains
  simp only [hchecks, List.flatMap_cons, List.flatMap_nil, List.append_nil] at hfilter
  rw [← htypes, ← hcollections, ← hnested, ← filter_unmapped hmodels]
  exact hfilter

/-- Only the check of unmapped members reports destination members as unmapped. -/
theorem mem_report_iff (settings : SmellSettings) (hmodels : x.models? = some (s, d)) {f : Finding}
    (hf : f.rule = .destinationUnmapped ∨ f.rule = .requiredUnmapped) :
    f ∈ report settings x ↔ f ∈ unfilled x s d := by
  have hconvention : isConvention f = true :=
    isConvention_eq_true (by rcases hf with hf | hf <;> rw [hf] <;> decide)
  rw [← and_iff_left (a := f ∈ report settings x) hconvention, ← List.mem_filter,
    filter_report settings hmodels, List.mem_append, List.mem_append, List.mem_append]
  constructor
  · rintro (h | h | h | h)
    · rcases rule_of_mem_types h with hrule | hrule <;> simp [hrule] at hf
    · rcases rule_of_mem_collections h with hrule | hrule <;> simp [hrule] at hf
    · exact h
    · simp [rule_of_mem_nested h] at hf
  · exact fun h => Or.inr (Or.inr (Or.inl h))

end Check

/-! ### The classes -/

/-- What becomes of a destination member. -/
inductive MemberClass where
  /-- It is configured, or something within it is. -/
  | configured
  /-- Convention fills it. -/
  | paired
  /-- It is reported as unmapped. -/
  | unmapped
  /-- It is reported as required and unmapped. -/
  | requiredUnmapped
  deriving DecidableEq

namespace MemberClass

/-- A finding violates the rule and names the member. -/
def IsReported (fs : List Finding) (rule : RuleId) (m : Member) : Prop :=
  ∃ f ∈ fs, f.rule = rule ∧ f.detail? .member = some m.name

/-- The destination member belongs to the class, as far as the configuration, the pairs and
the findings say. -/
def Holds (x : Context) (fs : List Finding) (m : Member) : MemberClass → Prop
  | configured => x.registration.configures m.name = true
  | paired => ∃ p ∈ x.pairs, p.destination = m
  | unmapped => IsReported fs .destinationUnmapped m
  | requiredUnmapped => IsReported fs .requiredUnmapped m

/-- The class of a member as it is decided: first by its configuration, then by its
source. -/
def of (x : Context) (source : Model) (m : Member) : MemberClass :=
  if x.registration.configures m.name then configured
  else if (x.findSource? source m.name).isSome then paired
  else if m.required then requiredUnmapped else unmapped

variable {x : Context} {s d : Model} {m : Member}

/-- A member has a pair exactly when it is not configured and has a source. -/
theorem exists_pair_iff (hmodels : x.models? = some (s, d)) (hm : m ∈ d.members) :
    (∃ p ∈ x.pairs, p.destination = m) ↔
      x.registration.configures m.name = false ∧ (x.findSource? s m.name).isSome = true := by
  have hpair : (∃ p ∈ x.pairs, p.destination = m) ↔ (x.pair? s m).isSome = true := by
    rw [Context.pairs_eq hmodels]
    constructor
    · rintro ⟨p, hp, rfl⟩
      obtain ⟨m', -, hp⟩ := List.mem_filterMap.1 hp
      rw [Context.destination_of_pair? hp, hp]
      rfl
    · intro hsome
      obtain ⟨p, hp⟩ := Option.isSome_iff_exists.1 hsome
      exact ⟨p, List.mem_filterMap.2 ⟨m, hm, hp⟩, Context.destination_of_pair? hp⟩
  rw [hpair, Context.pair?]
  cases x.registration.configures m.name <;> simp

/-- A member is reported as unmapped exactly when it is unfilled, with the rule that being
required decides on. -/
theorem isReported_iff (settings : Check.SmellSettings) (hmodels : x.models? = some (s, d))
    (hlist : x.registration.memberList = .destination) (hnodup : (d.members.map (·.name)).Nodup)
    (hm : m ∈ d.members) {rule : RuleId}
    (hrule : rule = .destinationUnmapped ∨ rule = .requiredUnmapped) :
    IsReported (Check.report settings x) rule m ↔
      Check.isUnfilled x s m = true ∧
        (if m.required then RuleId.requiredUnmapped else .destinationUnmapped) = rule := by
  have hreport (f : Finding) (hf : f.rule = rule) :
      f ∈ Check.report settings x ↔ f ∈ Check.unfilled x s d :=
    Check.mem_report_iff settings hmodels (hf ▸ hrule)
  constructor
  · rintro ⟨f, hf, hfrule, hname⟩
    rw [hreport f hfrule, Check.unfilled_eq hlist] at hf
    obtain ⟨m', hm', rfl⟩ := List.mem_map.1 hf
    obtain ⟨hmem, hunfilled⟩ := List.mem_filter.1 hm'
    rw [Check.unfilledFinding, Context.member_memberFinding] at hname
    obtain rfl := List.inj_on_of_nodup_map hnodup hmem hm (Option.some.inj hname)
    rw [Check.unfilledFinding, Context.rule_memberFinding] at hfrule
    exact ⟨hunfilled, hfrule⟩
  · rintro ⟨hunfilled, hmrule⟩
    have hfrule : (Check.unfilledFinding x m).rule = rule := by
      rw [Check.unfilledFinding, Context.rule_memberFinding, hmrule]
    refine ⟨Check.unfilledFinding x m, ?_, hfrule, by simp [Check.unfilledFinding]⟩
    rw [hreport _ hfrule, Check.unfilled_eq hlist]
    exact List.mem_map.2 ⟨m, List.mem_filter.2 ⟨hm, hunfilled⟩, rfl⟩

/-- **The class of a member is the one that is decided for it.** -/
theorem holds_iff (settings : Check.SmellSettings) (hmodels : x.models? = some (s, d))
    (hlist : x.registration.memberList = .destination) (hnodup : (d.members.map (·.name)).Nodup)
    (hm : m ∈ d.members) (k : MemberClass) :
    Holds x (Check.report settings x) m k ↔ of x s m = k := by
  have hreported {rule : RuleId}
      (hrule : rule = .destinationUnmapped ∨ rule = .requiredUnmapped) :=
    isReported_iff settings hmodels hlist hnodup hm hrule
  rw [of]
  cases k with
  | configured =>
    rw [Holds]
    cases x.registration.configures m.name <;> cases x.findSource? s m.name <;>
      cases m.required <;> simp
  | paired =>
    rw [Holds, exists_pair_iff hmodels hm]
    cases x.registration.configures m.name <;> cases x.findSource? s m.name <;>
      cases m.required <;> simp
  | unmapped =>
    rw [Holds, hreported (Or.inl rfl), Check.isUnfilled]
    cases x.registration.configures m.name <;> cases x.findSource? s m.name <;>
      cases m.required <;> simp
  | requiredUnmapped =>
    rw [Holds, hreported (Or.inr rfl), Check.isUnfilled]
    cases x.registration.configures m.name <;> cases x.findSource? s m.name <;>
      cases m.required <;> simp

end MemberClass

/-- **Destination members are classified exactly once.**  For a registration without a
converter of its own that asks for a complete destination, whatever the catalog, the
registry and the settings: each destination member is either configured, or filled by
convention, or reported as unmapped under one of two rules.  Of the findings about types,
containers, elements, nested mappings and unmapped destination members at most one names
a given member. -/
theorem member_classified_once (settings : Check.SmellSettings) (c : Catalog) (registry : Registry)
    (rs : List Registration) (r : Registration) {s d : Model}
    (hs : Model.ofType? c r.ns .readable r.source = some s)
    (hd : Model.ofType? c r.ns .writable r.destination = some d)
    (hconverter : r.converter = none) (hlist : r.memberList = .destination) :
    let x := Context.ofRegistration c registry rs r
    (∀ m ∈ d.members, ∃! k, MemberClass.Holds x (Check.report settings x) m k) ∧
      ∀ name, (naming name ((Check.report settings x).filter Check.isConvention)).length ≤ 1 := by
  intro x
  have hmodels : x.models? = some (s, d) := by
    simp only [x, Context.ofRegistration, Context.models?, hconverter, hs, hd]
  have hnodup := Model.nodup_of_ofType? hd
  constructor
  · intro m hm
    have hholds := MemberClass.holds_iff settings hmodels hlist hnodup hm
    exact ⟨.of x s m, (hholds _).2 rfl, fun k hk => ((hholds k).1 hk).symm⟩
  · intro name
    have hle := Check.length_naming_le hmodels hlist hnodup name
    rw [Check.filter_report settings hmodels]
    simp only [naming, List.filter_append, List.length_append] at hle ⊢
    omega

/-- Two types of which one has a member of another type and a further member. -/
def notes : Catalog :=
  .ofFiles [.read "M.cs" "record S(int Id,string Note);record D(int Id,int Note,int Extra);"]

/-- The mapping between them, without configurations. -/
def notesRegistration : Registration :=
  { (default : Registration) with
    source := .named ["S"] []
    destination := .named ["D"] []
    memberList := .destination
    converter := none }

set_option maxRecDepth 100000 in
/-- Both types of the example have models, and the destination has three members. -/
theorem notes_models :
    (Model.ofType? notes notesRegistration.ns .readable notesRegistration.source).isSome = true ∧
      (Model.ofType? notes notesRegistration.ns .writable notesRegistration.destination).map
        (·.members.map (·.name)) = some ["Id", "Note", "Extra"] := by
  decide +kernel

/-- The three members of the destination in `notes` have a class each. -/
theorem notes_classified_once : ∃ s d,
    Model.ofType? notes notesRegistration.ns .readable notesRegistration.source = some s ∧
      Model.ofType? notes notesRegistration.ns .writable notesRegistration.destination = some d ∧
        d.members.map (·.name) = ["Id", "Note", "Extra"] ∧
          let x := Context.ofRegistration notes {} [] notesRegistration
          (∀ m ∈ d.members, ∃! k, MemberClass.Holds x (Check.report {} x) m k) ∧
            ∀ name, (naming name ((Check.report {} x).filter Check.isConvention)).length ≤ 1 := by
  obtain ⟨s, hs⟩ := Option.isSome_iff_exists.1 notes_models.1
  obtain ⟨d, hd, hnames⟩ := Option.map_eq_some_iff.1 notes_models.2
  exact ⟨s, d, hs, hd, hnames, member_classified_once {} notes {} [] notesRegistration hs hd rfl rfl⟩

end MappingAudit
