/-
# More registered mappings

A mapping that is added to the registry can only settle findings.  Two checks ask the
registry: that of nested mappings asks for a pair of types, and that of collections asks
for the pairs that the elements need, however deep the collections are nested.  Both ask
whether a pair is there and never whether one is missing (`Shape.elementsFit_mono`), so
what they report with more pairs they report with fewer.  The checks of types, unmapped
members, recursion, expressions, conflicts and redundant configurations do not look at the
registry, and whether two containers fit does not depend on it either.
-/

import MappingAudit.CSharp.Declarations
import MappingAudit.Proofs.MemberClasses

namespace MappingAudit

namespace Registry

/-- Every pair that is mapped in one registry is mapped in the other. -/
def Within (registry registry' : Registry) : Prop :=
  ∀ key, registry.contains key = true → registry'.contains key = true

variable {registry registry' : Registry}

/-- A registry lies within another one that has its entries. -/
theorem within_of_subset (h : ∀ e ∈ registry.entries, e ∈ registry'.entries) :
    registry.Within registry' := by
  intro key hkey
  obtain ⟨e, he, heq⟩ := List.any_eq_true.1 hkey
  exact List.any_eq_true.2 ⟨e, h e he, heq⟩

/-- A mapping that is registered is so in the larger registry. -/
theorem Within.containsShapes (h : registry.Within registry') {s d : Shape}
    (hsd : registry.containsShapes s d = true) : registry'.containsShapes s d = true :=
  h _ hsd

end Registry

/-! ### Elements of nested collections -/

namespace Shape

/-- Every type has a depth. -/
theorem depth_pos (s : Shape) : 0 < s.depth := by
  cases s <;> simp [depth]

/-- The elements of a type are less deep than the type. -/
theorem depth_lt_of_ownElement? : ∀ {s e : Shape}, s.ownElement? = some e → e.depth < s.depth
  | .collection _ _ element, e, h => by
    rw [ownElement?, Option.some.injEq] at h
    rw [depth, h]
    omega
  | .dictionary _ _ value, e, h => by
    rw [ownElement?, Option.some.injEq] at h
    rw [depth, h]
    omega
  | .array element _, e, h => by
    rw [ownElement?, Option.some.injEq] at h
    rw [depth, h]
    omega
  | .nullable inner, e, h => by
    rw [ownElement?] at h
    have hlt := depth_lt_of_ownElement? h
    rw [depth]
    omega

/-- Elements are nested less deep than their collection. -/
theorem depth_lt_of_element? {s e : Shape} (h : s.element? = some e) : e.depth < s.depth := by
  have hlt := depth_lt_of_ownElement? h
  cases s with
  | nullable inner =>
    rw [underlying] at hlt
    rw [depth]
    omega
  | _ => exact hlt

/-- Any two bounds that reach as deep as the source type is nested give the same answer. -/
theorem elementsFit_eq (registry : Registry) {n m : Nat} {s : Shape} (d : Shape)
    (hn : s.depth ≤ n) (hm : s.depth ≤ m) :
    elementsFit registry n s d = elementsFit registry m s d := by
  have hpos := s.depth_pos
  induction n generalizing m s d with
  | zero => omega
  | succ n ih =>
    obtain ⟨m, rfl⟩ := Nat.exists_eq_succ_of_ne_zero (show m ≠ 0 by omega)
    rw [elementsFit, elementsFit]
    split
    · rfl
    · rfl
    · rfl
    · rfl
    · rfl
    · split
      · next hse _ =>
        have hlt := depth_lt_of_element? hse
        rw [ih (m := m) _ (by omega) (by omega) (depth_pos _)]
      · rfl

/-- **The bound on the nesting does not show.**  Elements of collections are compared down to
the innermost ones: two types fit by themselves, or by a mapped pair, or as collections whose
containers are converted and whose own elements fit. -/
theorem elementsFit_depth (registry : Registry) (s d : Shape) :
    elementsFit registry s.depth s d =
      match s.fit d with
      | .compatible | .nullToValue | .unknown => true
      | .incompatible => false
      | .nested => registry.containsShapes s d
      | .collection =>
        match s.collectionKind?, d.collectionKind?, s.element?, d.element? with
        | some sk, some dk, some se, some de =>
          sk.convertible dk && elementsFit registry se.depth se de
        | _, _, _, _ => true := by
  obtain ⟨n, hn⟩ := Nat.exists_eq_succ_of_ne_zero (Nat.ne_of_gt s.depth_pos)
  rw [hn, elementsFit]
  cases s.fit d with
  | collection =>
    cases hse : s.element? with
    | none => cases s.collectionKind? <;> cases d.collectionKind? <;> rfl
    | some se =>
      have hlt := depth_lt_of_element? hse
      have hbound (de : Shape) : elementsFit registry n se de = elementsFit registry se.depth se de :=
        elementsFit_eq registry de (by omega) (Nat.le_refl _)
      cases s.collectionKind? <;> cases d.collectionKind? <;> cases d.element? <;>
        simp only [hbound]
  | _ => rfl

/-- **Elements that fit go on fitting when more pairs are mapped**, at every depth. -/
theorem elementsFit_mono {registry registry' : Registry} (h : registry.Within registry') {n : Nat}
    {s d : Shape} (hfit : elementsFit registry n s d = true) :
    elementsFit registry' n s d = true := by
  induction n generalizing s d with
  | zero => rfl
  | succ n ih =>
    rw [elementsFit] at hfit ⊢
    split at hfit
    · rfl
    · rfl
    · rfl
    · cases hfit
    · exact h.containsShapes hfit
    · split at hfit
      · rw [Bool.and_eq_true] at hfit ⊢
        exact ⟨hfit.1, ih hfit.2⟩
      · rfl

end Shape

/-- Two collections that violate a rule violate it with fewer pairs mapped, too. -/
theorem CollectionPair.rule?_of_within {registry registry' : Registry}
    (h : registry.Within registry') {q : CollectionPair} {rule : RuleId}
    (hrule : q.rule? registry' = some rule) : q.rule? registry = some rule := by
  rw [rule?] at hrule ⊢
  split at hrule
  · next hkind => rw [if_pos hkind, hrule]
  · next hkind =>
    rw [if_neg hkind]
    split at hrule
    · next helement =>
      rw [if_pos, hrule]
      rw [Bool.not_eq_true'] at helement ⊢
      refine Bool.eq_false_iff.2 fun hfit => ?_
      rw [Shape.elementsFit_mono h hfit] at helement
      cases helement
    · cases hrule

/-- What is found for a registration with another registry. -/
def Context.withRegistry (x : Context) (registry : Registry) : Context := { x with registry }

namespace Check

/-- The rule and the member of a finding. -/
def subject (f : Finding) : RuleId × Option String := (f.rule, f.detail? .member)

/-- The rule is about nested types: of members, or of elements. -/
def isNesting (rule : RuleId) : Bool := rule == .nestedMissing || rule == .elementMismatch

/-- What the findings about nested types are about. -/
def nestingSubjects (settings : SmellSettings) (x : Context) : List (RuleId × Option String) :=
  ((report settings x).map subject).filter fun s => isNesting s.1

/-- What the check of collections reports for a pair. -/
def collectionSubject? (x : Context) (p : MemberPair) : Option (RuleId × Option String) :=
  ((CollectionPair.ofShapes? p.source.member.shape p.destination.shape).bind
    (·.rule? x.registry)).map fun rule => (rule, some p.destination.name)

/-- What the check of nested mappings reports for a pair. -/
def nestedSubject? (x : Context) (p : MemberPair) : Option (RuleId × Option String) :=
  if p.source.member.shape.fit p.destination.shape = .nested ∧
      x.registry.containsShapes p.source.member.shape p.destination.shape = false then
    some (.nestedMissing, some p.destination.name)
  else none

/-- The findings about collections are about pairs, one by one. -/
theorem map_subject_collections (x : Context) :
    (collections x).map subject = x.pairs.filterMap (collectionSubject? x) := by
  rw [collections_eq, List.map_filterMap]
  refine List.filterMap_congr fun p _ => ?_
  rw [collectionFinding?, collectionSubject?]
  cases CollectionPair.ofShapes? p.source.member.shape p.destination.shape with
  | none => rfl
  | some q =>
    simp only [Option.bind_eq_bind, Option.bind_some]
    cases q.rule? x.registry with
    | none => rfl
    | some rule => simp [subject]

/-- So are those about nested mappings. -/
theorem map_subject_nested (x : Context) :
    (nested x).map subject = x.pairs.filterMap (nestedSubject? x) := by
  rw [nested_eq, List.map_filterMap]
  refine List.filterMap_congr fun p _ => ?_
  simp only [nestedFinding?, nestedSubject?, Bool.and_eq_true, beq_iff_eq, Bool.not_eq_true']
  split
  · simp [subject]
  · rfl

/-- The subjects of nesting are those of the elements, then those of the members. -/
theorem nestingSubjects_eq (settings : SmellSettings) (x : Context) :
    nestingSubjects settings x =
      (x.pairs.filterMap (collectionSubject? x)).filter (fun s => isNesting s.1) ++
        x.pairs.filterMap (nestedSubject? x) := by
  have hchecks : (all settings).filter (fun k => k.rules.any isNesting) =
      [ofFindings "collections" [.container, .elementMismatch] collections,
        ofFindings "nested-mapping" [.nestedMissing] nested] := rfl
  have hnested : (nested x).filter (fun f => isNesting f.rule) = nested x :=
    List.filter_eq_self.2 fun f hf => by rw [rule_of_mem_nested hf]; rfl
  have hcollections : ((collections x).filter fun f => isNesting f.rule).map subject =
      ((collections x).map subject).filter fun s => isNesting s.1 := by
    rw [List.filter_map]
    rfl
  have hreport : nestingSubjects settings x =
      ((report settings x).filter fun f => isNesting f.rule).map subject := by
    rw [nestingSubjects, List.filter_map]
    rfl
  rw [hreport, filter_report_eq, hchecks,
    ← map_subject_collections, ← map_subject_nested, ← hcollections, ← List.map_append]
  simp only [List.flatMap_cons, List.flatMap_nil, List.append_nil, ofFindings, Outcome.findings,
    hnested]

variable {x : Context} {registry registry' : Registry}

/-- A pair of collections that is reported with more registrations is reported without. -/
theorem collectionSubject?_of_within (h : registry.Within registry') {p : MemberPair}
    {s : RuleId × Option String}
    (hs : collectionSubject? (x.withRegistry registry') p = some s) :
    collectionSubject? (x.withRegistry registry) p = some s := by
  obtain ⟨rule, hrule, rfl⟩ := Option.map_eq_some_iff.1 hs
  obtain ⟨q, hq, hrule⟩ := Option.bind_eq_some_iff.1 hrule
  refine Option.map_eq_some_iff.2 ⟨rule, ?_, rfl⟩
  exact Option.bind_eq_some_iff.2 ⟨q, hq, CollectionPair.rule?_of_within h hrule⟩

/-- So is a pair of members. -/
theorem nestedSubject?_of_within (h : registry.Within registry') {p : MemberPair}
    {s : RuleId × Option String} (hs : nestedSubject? (x.withRegistry registry') p = some s) :
    nestedSubject? (x.withRegistry registry) p = some s := by
  rw [nestedSubject?] at hs ⊢
  split at hs
  · next hmissing =>
    rw [if_pos, hs]
    refine ⟨hmissing.1, Bool.eq_false_iff.2 fun hcontains => ?_⟩
    exact Bool.eq_false_iff.1 hmissing.2 (h.containsShapes hcontains)
  · cases hs

/-- What maps to fewer values gives a part of the list. -/
theorem filterMap_sublist_of_imp {α β : Type} {f g : α → Option β}
    (h : ∀ a b, f a = some b → g a = some b) (l : List α) :
    (l.filterMap f).Sublist (l.filterMap g) := by
  induction l with
  | nil => exact .slnil
  | cons a l ih =>
    cases hf : f a with
    | none =>
      rw [List.filterMap_cons_none hf, List.filterMap_cons]
      split
      · exact ih
      · exact ih.cons _
    | some b =>
      rw [List.filterMap_cons_some hf, List.filterMap_cons_some (h a b hf)]
      exact ih.cons_cons b

/-- **Findings about nested types only go away.** -/
theorem nestingSubjects_sublist (settings : SmellSettings) (h : registry.Within registry') :
    (nestingSubjects settings (x.withRegistry registry')).Sublist
      (nestingSubjects settings (x.withRegistry registry)) := by
  rw [nestingSubjects_eq, nestingSubjects_eq]
  refine List.Sublist.append (List.Sublist.filter _ ?_) ?_
  · exact filterMap_sublist_of_imp (fun p s hs => collectionSubject?_of_within h hs) _
  · exact filterMap_sublist_of_imp (fun p s hs => nestedSubject?_of_within h hs) _

/-- The findings about containers. -/
def containers (x : Context) : List Finding := (collections x).filter (·.rule == .container)

/-- What is found for a pair of two collections whose containers do not fit. -/
def containerFinding? (x : Context) (p : MemberPair) : Option Finding := do
  let q ← CollectionPair.ofShapes? p.source.member.shape p.destination.shape
  if q.sourceKind.convertible q.destinationKind then none
  else some (collectionFinding x p q .container)

/-- **Containers are looked at without the registry.** -/
theorem containers_eq (x : Context) : containers x = x.pairs.filterMap (containerFinding? x) := by
  rw [containers, collections_eq, List.filter_filterMap]
  refine List.filterMap_congr fun p _ => ?_
  rw [collectionFinding?, containerFinding?]
  cases CollectionPair.ofShapes? p.source.member.shape p.destination.shape with
  | none => rfl
  | some q =>
    simp only [Option.bind_eq_bind, Option.bind_some, CollectionPair.rule?]
    cases q.sourceKind.convertible q.destinationKind with
    | false => rfl
    | true =>
      cases Shape.elementsFit x.registry q.source.depth q.source q.destination with
      | true => rfl
      | false => simp

/-- Conflicts do not depend on what is registered. -/
theorem conflictsAfter_withRegistry (x : Context) (registry : Registry)
    (before ds : List Directive) :
    conflictsAfter (x.withRegistry registry) before ds = conflictsAfter x before ds := by
  induction ds generalizing before with
  | nil => rfl
  | cons d ds ih =>
    rw [conflictsAfter, conflictsAfter, ih]
    rfl

/-- What becomes of the findings for a registration when more pairs are mapped. -/
structure FindsNoMore (settings : SmellSettings) (x : Context) (registry registry' : Registry) :
    Prop where
  /-- Each member that is reported for nested types or elements was reported before. -/
  nesting : (nestingSubjects settings (x.withRegistry registry')).Sublist
    (nestingSubjects settings (x.withRegistry registry))
  containers : containers (x.withRegistry registry') = containers (x.withRegistry registry)
  types : types (x.withRegistry registry') = types (x.withRegistry registry)
  unmapped : unmapped (x.withRegistry registry') = unmapped (x.withRegistry registry)
  recursion : recursion (x.withRegistry registry') = recursion (x.withRegistry registry)
  expressions : expressions settings.mode settings.maxProjectionDepth (x.withRegistry registry') =
    expressions settings.mode settings.maxProjectionDepth (x.withRegistry registry)
  conflicts : conflicts (x.withRegistry registry') = conflicts (x.withRegistry registry)
  redundant : redundant (x.withRegistry registry') = redundant (x.withRegistry registry)

end Check

/-- **Registering more pairs never creates a finding.**  Take a registration with any models
of its types, any catalog, and two registries of which the second has all pairs of the first.
Whatever rule about nested types or elements a member violates with the second registry, it
violates with the first; the findings of the checks that do not look at the registry and those
about containers are the same with both. -/
theorem registering_finds_no_more (settings : Check.SmellSettings) (x : Context)
    {registry registry' : Registry} (h : registry.Within registry') :
    Check.FindsNoMore settings x registry registry' where
  nesting := Check.nestingSubjects_sublist settings h
  containers := by
    rw [Check.containers_eq, Check.containers_eq]
    rfl
  types := rfl
  unmapped := rfl
  recursion := rfl
  expressions := rfl
  conflicts := by
    rw [Check.conflicts, Check.conflicts, Check.conflictsAfter_withRegistry,
      Check.conflictsAfter_withRegistry]
    rfl
  redundant := rfl

/-- Two types with members of other types, single and in collections of collections. -/
def boxes : Catalog :=
  .ofFiles [.read "M.cs" ("record A;record B;record E;record S(A One,E Two,List<List<A>> Many);" ++
    "record D(B One,A Two,List<List<B>> Many);")]

/-- The mapping between them, without configurations, with no pair mapped. -/
def boxesContext : Context :=
  .ofRegistration boxes {} []
    { (default : Registration) with
      source := .named ["S"] []
      destination := .named ["D"] []
      memberList := .destination
      converter := none }

/-- An entry for a pair of types. -/
def boxesEntry (source destination : String) : Mapped :=
  ⟨⟨source, destination⟩, 0, .explicit, "P.cs", 0, default⟩

/-- The pair of the mapping itself. -/
def boxesRegistry : Registry := ⟨[boxesEntry "S" "D"]⟩

/-- This pair, and `A` with `B`. -/
def boxesRegistry' : Registry := ⟨boxesEntry "A" "B" :: boxesRegistry.entries⟩

set_option maxRecDepth 100000 in
/-- Of three findings about `boxes` one is left when the element mapping is registered. -/
theorem nestingSubjects_boxes :
    Check.nestingSubjects {} (boxesContext.withRegistry boxesRegistry) =
        [(.elementMismatch, some "Many"), (.nestedMissing, some "One"),
          (.nestedMissing, some "Two")] ∧
      Check.nestingSubjects {} (boxesContext.withRegistry boxesRegistry') =
        [(.nestedMissing, some "Two")] := by
  decide +kernel

/-- Once `A` is mapped to `B`, the members `One` and `Many` are not reported any more. -/
theorem registering_finds_no_more_boxes :
    boxesRegistry.Within boxesRegistry' ∧
      Check.nestingSubjects {} (boxesContext.withRegistry boxesRegistry) =
          [(.elementMismatch, some "Many"), (.nestedMissing, some "One"),
            (.nestedMissing, some "Two")] ∧
        Check.nestingSubjects {} (boxesContext.withRegistry boxesRegistry') =
            [(.nestedMissing, some "Two")] ∧
          Check.FindsNoMore {} boxesContext boxesRegistry boxesRegistry' := by
  have hwithin : boxesRegistry.Within boxesRegistry' :=
    Registry.within_of_subset fun e he => List.mem_cons_of_mem _ he
  exact ⟨hwithin, nestingSubjects_boxes.1, nestingSubjects_boxes.2,
    registering_finds_no_more {} boxesContext hwithin⟩

end MappingAudit
