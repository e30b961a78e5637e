/-
# Registered missing mappings

The fix of a finding about a missing mapping writes a registration for each pair of types
that is missing.  It writes the types as the members' own texts do, and the registration
looks the names up in its own namespace.  The registration is one of the pair when the
names of both types mean there what they stand for (`missing_pair_registered`); where they
do not, it is the registration of something else (`ambiguous_not_registered`).
-/

import MappingAudit.CSharp.Declarations
import MappingAudit.Proofs.IgnoreFix
import MappingAudit.Proofs.PairTexts
import MappingAudit.Proofs.ShapeNames

namespace MappingAudit

namespace Missing

/-- Both types are in single form and read as they are written. -/
def isCanonical (p : ShapePair) : Bool := p.1.expr.isCanonical && p.2.expr.isCanonical

/-- Pairs of types in single form are found again in their text. -/
theorem decode_encode {ps : List ShapePair} (h : ∀ p ∈ ps, isCanonical p = true) :
    decode (encode ps) = ps.map codes := by
  refine decode_encode_of_isLegible fun p hp => ?_
  have hp := h p hp
  rw [isCanonical, Bool.and_eq_true] at hp
  exact ⟨TypeExpr.isLegible_of_isCanonical _ hp.1, TypeExpr.isLegible_of_isCanonical _ hp.2⟩

end Missing

/-! ### Findings about missing mappings -/

namespace Context

variable {c : Catalog} {registry : Registry} {rs : List Registration} {r : Registration}
variable {p : MemberPair}

/-- The types of the members of a model are meant. -/
theorem isMeant_of_mem_members {a : Access} {t : TypeExpr} {ns : Option String} {m : Model}
    (h : Model.ofType? c ns a t = some m) : ∀ x ∈ m.members, x.shape.IsMeant c := by
  rw [Model.ofType?] at h
  split at h
  · obtain rfl := Option.some.inj h
    exact fun x hx => Member.isMeant_of_mem_ofShape hx
  · cases h

/-- A pair is of a destination member with a match of its name, in the source or in one of its
members. -/
theorem of_mem_pairs {x : Context} (h : p ∈ x.pairs) : ∃ s d inner,
    x.source = some s ∧ x.destination = some d ∧ p.destination ∈ d.members ∧
      (inner = s ∨ ∃ m, inner = x.modelOf m) ∧
        inner.match? x.catalog p.destination.name = some p.source := by
  rw [pairs] at h
  split at h
  · exact absurd h List.not_mem_nil
  · next s d hmodels =>
    rw [models?] at hmodels
    split at hmodels
    · next hs hd =>
      obtain ⟨rfl, rfl⟩ := Prod.mk.inj (Option.some.inj hmodels)
      obtain ⟨m, hm, hp⟩ := List.mem_filterMap.1 h
      rw [pair?] at hp
      split at hp
      · cases hp
      · obtain ⟨⟨via, found⟩, hfound, rfl⟩ := Option.map_eq_some_iff.1 hp
        rw [findSource?] at hfound
        split at hfound
        · next hmatch =>
          obtain ⟨-, rfl⟩ := Prod.mk.inj (Option.some.inj hfound)
          exact ⟨_, _, _, hs, hd, hm, Or.inl rfl, hmatch⟩
        · obtain ⟨path, -, hincluded⟩ := List.exists_of_findSome?_eq_some hfound
          obtain ⟨inner, -, hincluded⟩ := Option.bind_eq_some_iff.1 hincluded
          obtain ⟨match', hmatch, heq⟩ := Option.bind_eq_some_iff.1 hincluded
          obtain ⟨-, rfl⟩ := Prod.mk.inj (Option.some.inj heq)
          exact ⟨_, _, _, hs, hd, hm, Or.inr ⟨inner, rfl⟩, hmatch⟩
    · cases hmodels

/-- Paired members have types that their texts mean somewhere. -/
theorem isMeant_of_mem_pairs (h : p ∈ (ofRegistration c registry rs r).pairs) :
    p.source.member.shape.IsMeant c ∧ p.destination.shape.IsMeant c := by
  obtain ⟨s, d, inner, hs, hd, hm, hinner, hmatch⟩ := of_mem_pairs h
  refine ⟨Model.isMeant_of_match? ?_ hmatch, isMeant_of_mem_members hd _ hm⟩
  rcases hinner with rfl | ⟨m, rfl⟩
  · exact isMeant_of_mem_members hs
  · exact fun x hx => Member.isMeant_of_mem_ofShape hx

end Context

namespace Check

variable {c : Catalog} {registry : Registry} {rs : List Registration} {r : Registration}
variable {settings : SmellSettings} {f : Finding} {text : String}

/-- The elements of collections are meant when the collections are. -/
theorem isMeant_of_ofShapes? {s d : Shape} {q : CollectionPair} (hs : s.IsMeant c)
    (hd : d.IsMeant c) (h : CollectionPair.ofShapes? s d = some q) :
    q.source.IsMeant c ∧ q.destination.IsMeant c := by
  rw [CollectionPair.ofShapes?] at h
  split at h
  · obtain ⟨sk, -, h⟩ := Option.bind_eq_some_iff.1 h
    obtain ⟨dk, -, h⟩ := Option.bind_eq_some_iff.1 h
    obtain ⟨se, hse, h⟩ := Option.bind_eq_some_iff.1 h
    obtain ⟨de, hde, h⟩ := Option.bind_eq_some_iff.1 h
    obtain rfl := Option.some.inj h
    exact ⟨hs.underlying.of_ownElement? hse, hd.underlying.of_ownElement? hde⟩
  · cases h

/-- Missing mappings of members are written as the search finds them. -/
theorem exists_pairs_of_mem_nested (h : f ∈ nested (.ofRegistration c registry rs r))
    (htext : f.detail? .missingPairs = some text) :
    ∃ s d : Shape, s.IsMeant c ∧ d.IsMeant c ∧
      text = Missing.encode (Missing.pairs c registry s d) := by
  obtain ⟨p, hp, hf⟩ := List.mem_filterMap.1 h
  have hmeant := Context.isMeant_of_mem_pairs hp
  simp only at hf
  split at hf
  · obtain rfl := Option.some.inj hf
    refine ⟨_, _, hmeant.1.underlying, hmeant.2.underlying, ?_⟩
    simpa [Context.ofRegistration, eq_comm] using htext
  · cases hf

/-- So are missing mappings of elements. -/
theorem exists_pairs_of_mem_collections (h : f ∈ collections (.ofRegistration c registry rs r))
    (htext : f.detail? .missingPairs = some text) :
    ∃ s d : Shape, s.IsMeant c ∧ d.IsMeant c ∧
      text = Missing.encode (Missing.pairs c registry s d) := by
  obtain ⟨p, hp, hf⟩ := List.mem_filterMap.1 h
  have hmeant := Context.isMeant_of_mem_pairs hp
  obtain ⟨q, hq, hf⟩ := Option.bind_eq_some_iff.1 hf
  obtain ⟨rule, -, hf⟩ := Option.bind_eq_some_iff.1 hf
  obtain rfl := Option.some.inj hf
  rw [missingPairs_collectionFinding] at htext
  split at htext
  · rw [missingElements?] at htext
    split at htext
    · have helements := isMeant_of_ofShapes? hmeant.1 hmeant.2 hq
      exact ⟨_, _, helements.1.underlying, helements.2.underlying, (Option.some.inj htext).symm⟩
    · cases htext
  · cases htext

/-- A finding about a missing mapping carries the mappings that some types need. -/
theorem exists_pairs_of_mem_report
    (h : f ∈ report settings (.ofRegistration c registry rs r))
    (hrule : f.rule = .nestedMissing ∨ f.rule = .elementMismatch)
    (htext : f.detail? .missingPairs = some text) :
    ∃ s d : Shape, s.IsMeant c ∧ d.IsMeant c ∧
      text = Missing.encode (Missing.pairs c registry s d) := by
  rcases hrule with hrule | hrule
  · exact exists_pairs_of_mem_nested (mem_findings_of_mem_report
      (k := ofFindings "nested-mapping" [.nestedMissing] nested) (by simp [all]) h
      (by simp [ofFindings, hrule])) htext
  · exact exists_pairs_of_mem_collections (mem_findings_of_mem_report
      (k := ofFindings "collections" [.container, .elementMismatch] collections) (by simp [all]) h
      (by simp [ofFindings, hrule])) htext

end Check

/-! ### What the fix writes -/

/-- The pair of each registration is registered. -/
theorem Registry.contains_of_mem {c : Catalog} {rs : List Registration} {r : Registration}
    (h : r ∈ rs) :
    (ofRegistrations c rs).contains (PairKey.ofTypes c r.ns r.source r.destination) = true := by
  refine List.any_eq_true.2
    ⟨⟨PairKey.ofTypes c r.ns r.source r.destination, r.id, .explicit, r.file, r.fileIndex, r.span⟩,
      List.mem_flatMap.2 ⟨r, h, ?_⟩, beq_self_eq_true _⟩
  exact List.mem_append_right _ List.mem_cons_self

/-- The types of a registration are those that its first call names. -/
theorem Registration.types_of_ofChain? {c : Catalog} {fileIndex id : Nat} {file : Source.File}
    {chain : Source.Chain} {r : Registration} (h : ofChain? c fileIndex file id chain = some r)
    {s d : String} (hargs : chain.calls.head?.map (·.typeArgs) = some [s, d]) :
    Include.readPair? s d = some (r.source, r.destination) := by
  obtain ⟨-, root, types, hroot, htypes, rfl⟩ := ofChain?_eq_some_iff.1 h
  rw [hroot, Option.map_some, Option.some.injEq] at hargs
  rw [Include.pair?, hargs] at htypes
  rw [source_ofCalls, destination_ofCalls]
  exact htypes

namespace Missing

/-- The statement that registers the pair with these texts. -/
def statement (r : Registration) (codes : String × String) : String :=
  r.chain.receiverPrefix ++ "CreateMap<" ++ codes.1 ++ ", " ++ codes.2 ++ ">();"

/-- What is written for a missing pair is read as the types of the pair.  They are what is
meant in a namespace exactly when all their names mean there what they stand for, and then
it is the pair that is registered. -/
structure IsWritten (c : Catalog) (ns : Option String) (p : ShapePair) : Prop where
  read_eq : Include.readPair? p.1.code p.2.code = some (p.1.expr, p.2.expr)
  source_iff : Shape.describe c ns p.1.expr = p.1 ↔ p.1.meansIn c ns = true
  destination_iff : Shape.describe c ns p.2.expr = p.2 ↔ p.2.meansIn c ns = true
  key_eq : p.1.meansIn c ns = true → p.2.meansIn c ns = true →
    PairKey.ofTypes c ns p.1.expr p.2.expr = PairKey.ofShapes p.1 p.2
  contains : p.1.meansIn c ns = true → p.2.meansIn c ns = true →
    ∀ fileIndex file id chain r, Registration.ofChain? c fileIndex file id chain = some r →
      chain.calls.head?.map (·.typeArgs) = some [p.1.code, p.2.code] → r.ns = ns →
        ∀ rs : List Registration, r ∈ rs →
          (Registry.ofRegistrations c rs).containsShapes p.1 p.2 = true

variable {c : Catalog} {ns : Option String} {p : ShapePair}

/-- The written types of a canonical mapping are read back. -/
theorem readPair?_codes (h : isCanonical p = true) :
    Include.readPair? p.1.code p.2.code = some (p.1.expr, p.2.expr) := by
  rw [isCanonical, Bool.and_eq_true] at h
  simp only [Include.readPair?, Shape.code, TypeExpr.read?_toText h.1, TypeExpr.read?_toText h.2]
  rfl

/-- A canonical mapping whose types are meant can be written in every namespace. -/
theorem isWritten (hcanonical : isCanonical p = true) (hmeant : IsMeant c p)
    (ns : Option String) : IsWritten c ns p := by
  have hsource := hmeant.1.describe_expr_iff ns
  have hdestination := hmeant.2.describe_expr_iff ns
  have hkey (hs : p.1.meansIn c ns = true) (hd : p.2.meansIn c ns = true) :
      PairKey.ofTypes c ns p.1.expr p.2.expr = PairKey.ofShapes p.1 p.2 := by
    rw [PairKey.ofTypes, hsource.2 hs, hdestination.2 hd]
  refine ⟨readPair?_codes hcanonical, hsource, hdestination, hkey, ?_⟩
  intro hs hd fileIndex file id chain r hr hargs hns rs hmem
  have htypes := (readPair?_codes hcanonical).symm.trans
    (Registration.types_of_ofChain? hr hargs)
  obtain ⟨hsource', hdestination'⟩ := Prod.mk.inj (Option.some.inj htypes)
  have hcontains := Registry.contains_of_mem (c := c) hmem
  rwa [hns, ← hsource', ← hdestination', hkey hs hd] at hcontains

end Missing

/-- The statements that the fix of a finding inserts. -/
theorem Site.operation_of_registerMissing? [CSharp.Reader] {s : Site} {text : String} {a : Action}
    (htext : s.finding.detail? .missingPairs = some text) (h : s.registerMissing? = some a) :
    a.operation = .insertStatements s.registration.id
      ((Missing.decode text).eraseDups.map (Missing.statement s.registration)) := by
  have hkey {subject title key : String} {op : Operation}
      (hbind : ((s.action? "register-nested" subject title .high op).bind fun b =>
        some { b with key }) = some a) : a.operation = op := by
    obtain ⟨b, hb, heq⟩ := Option.bind_eq_some_iff.1 hbind
    have hop : b.operation = op := operation_of_action? hb
    rw [← Option.some.inj heq]
    exact hop
  rw [registerMissing?, htext] at h
  simp only [Option.bind_eq_bind, Option.bind_some] at h
  split at h
  · cases h
  · exact hkey h
  · exact hkey h

section

variable [CSharp.Reader]

/-- The finding carries the missing mappings `ps`, and its fix writes them. -/
structure Finding.Carries (f : Finding) (c : Catalog) (registry : Registry) (r : Registration)
    (ps : List ShapePair) : Prop where
  text_eq : f.detail? .missingPairs = some (Missing.encode ps)
  unregistered : ∀ p ∈ ps, registry.containsShapes p.1 p.2 = false
  written : ∀ p ∈ ps, Missing.isCanonical p = true → Missing.IsWritten c r.ns p
  /-- The fix inserts a statement for each pair of texts. -/
  inserted : (∀ p ∈ ps, Missing.isCanonical p = true) →
    ∀ s : Site, s.finding = f → s.registration = r → ∀ a, s.registerMissing? = some a →
      a.operation = .insertStatements r.id
        ((ps.map Missing.codes).eraseDups.map (Missing.statement r))

/-- **A missing mapping is registered where its names mean the same.**  A finding about a
missing mapping carries pairs of types that are not registered, and its fix inserts a
statement for each pair of their texts.  Types in single form are read back from the texts.
In the namespace of the registration they are the types of the pair exactly when each of
their names means there what it stands for in the pair; then the inserted registration has
the key of the pair, and every registry with it contains the pair. -/
theorem missing_pair_registered {settings : Check.SmellSettings} (c : Catalog)
    (registry : Registry) (rs : List Registration) (r : Registration) {f : Finding}
    (hf : f ∈ Check.report settings (.ofRegistration c registry rs r))
    (hrule : f.rule = .nestedMissing ∨ f.rule = .elementMismatch)
    (hcarries : (f.detail? .missingPairs).isSome = true) : ∃ ps, f.Carries c registry r ps := by
  obtain ⟨text, htext⟩ := Option.isSome_iff_exists.1 hcarries
  obtain ⟨s, d, hs, hd, rfl⟩ := Check.exists_pairs_of_mem_report hf hrule htext
  refine ⟨Missing.pairs c registry s d, htext, fun p hp => (Missing.of_mem_pairs hs hd hp).2,
    fun p hp hcanonical => Missing.isWritten hcanonical (Missing.of_mem_pairs hs hd hp).1 r.ns, ?_⟩
  rintro hcanonical site rfl rfl a ha
  rw [Site.operation_of_registerMissing? htext ha, Missing.decode_encode hcanonical]

/-- What the checks see of a registration of a workspace. -/
def Workspace.context (w : Workspace) (r : Registration) : Context :=
  .ofRegistration w.catalog (.ofRegistrations w.catalog w.registrations) w.registrations r

/-- What they find for it. -/
def Workspace.report (w : Workspace) (r : Registration) : List Finding :=
  Check.report {} (w.context r)

/-- The keys of the types of its paired members. -/
def Workspace.pairKeys (w : Workspace) (r : Registration) : List PairKey :=
  (w.context r).pairs.map fun p => PairKey.ofShapes p.source.member.shape p.destination.shape

end

/-- A mapping of two types of the namespace `B` that is written outside of it.  The type of
a member is `I` in one of them and `J` in the other; `more` may declare another `I`. -/
def mapped (more : String) : Workspace :=
  .ofSources [("P.cs", "AddMaps(c=>\x7bc.CreateMap<S,D>();\x7d);" ++ more ++
    "namespace B\x7brecord I;record J;record S(I M);record D(J M);\x7d")]

/-- The types `I` and `J` that the members have. -/
def mappedPair (w : Workspace) : ShapePair :=
  (.describe w.catalog (some "B") (.named ["I"] []),
    .describe w.catalog (some "B") (.named ["J"] []))

set_option maxRecDepth 100000 in
/-- The mapping that is missing in the example means in its namespace what it says. -/
theorem mappedPair_meansIn : ∃ r ∈ (mapped "").registrations, ∃ f ∈ (mapped "").report r,
    f.rule = .nestedMissing ∧
      f.detail? .missingPairs = some (Missing.encode [mappedPair (mapped "")]) ∧
        (mappedPair (mapped "")).1.meansIn (mapped "").catalog r.ns = true ∧
          (mappedPair (mapped "")).2.meansIn (mapped "").catalog r.ns = true := by
  decide +kernel

/-- With one `I` the pair is registered. -/
theorem missing_pair_registered_alone : ∃ r ∈ (mapped "").registrations,
    ∃ f ∈ (mapped "").report r, (f.rule = .nestedMissing ∨ f.rule = .elementMismatch) ∧
      (f.detail? .missingPairs).isSome = true ∧
        (mappedPair (mapped "")).1.meansIn (mapped "").catalog r.ns = true ∧
          (mappedPair (mapped "")).2.meansIn (mapped "").catalog r.ns = true ∧
            ∃ ps, f.Carries (mapped "").catalog
              (.ofRegistrations (mapped "").catalog (mapped "").registrations) r ps := by
  obtain ⟨r, hr, f, hf, hrule, htext, hs, hd⟩ := mappedPair_meansIn
  have hcarries : (f.detail? .missingPairs).isSome = true := by rw [htext]; rfl
  exact ⟨r, hr, f, hf, Or.inl hrule, hcarries, hs, hd,
    missing_pair_registered (mapped "").catalog _ (mapped "").registrations r hf (Or.inl hrule)
      hcarries⟩

/-- The workspace with another `I`, in a namespace of its own. -/
def mappedTwice : Workspace := mapped "namespace A\x7brecord I;\x7d"

/-- The registration that is read from the text of the pair. -/
def pairRegistration (r : Registration) : Registration :=
  { r with
    source := (mappedPair mappedTwice).1.expr
    destination := (mappedPair mappedTwice).2.expr }

set_option maxRecDepth 100000 in
/-- In the example a canonical mapping is missing, and a registration of its types as they are
written does not register it. -/
theorem mappedPair_ambiguous : ∃ r ∈ mappedTwice.registrations, ∃ f ∈ mappedTwice.report r,
    f.rule = .nestedMissing ∧
      f.detail? .missingPairs = some (Missing.encode [mappedPair mappedTwice]) ∧
        mappedTwice.pairKeys r =
            [.ofShapes (mappedPair mappedTwice).1 (mappedPair mappedTwice).2] ∧
        Missing.isCanonical (mappedPair mappedTwice) = true ∧
          (Registry.ofRegistrations mappedTwice.catalog [r, pairRegistration r]).containsShapes
            (mappedPair mappedTwice).1 (mappedPair mappedTwice).2 = false := by
  decide +kernel

/-- **Another type of the same name** keeps the text of the missing pair from naming it. -/
theorem ambiguous_not_registered : ∃ r ∈ mappedTwice.registrations,
    ∃ f ∈ mappedTwice.report r, f.rule = .nestedMissing ∧
      f.detail? .missingPairs = some (Missing.encode [mappedPair mappedTwice]) ∧
        mappedTwice.pairKeys r =
            [.ofShapes (mappedPair mappedTwice).1 (mappedPair mappedTwice).2] ∧
        Include.readPair? (mappedPair mappedTwice).1.code (mappedPair mappedTwice).2.code =
            some ((pairRegistration r).source, (pairRegistration r).destination) ∧
          PairKey.ofTypes mappedTwice.catalog r.ns (pairRegistration r).source
              (pairRegistration r).destination ≠
            PairKey.ofShapes (mappedPair mappedTwice).1 (mappedPair mappedTwice).2 ∧
          (Registry.ofRegistrations mappedTwice.catalog [r, pairRegistration r]).containsShapes
            (mappedPair mappedTwice).1 (mappedPair mappedTwice).2 = false := by
  obtain ⟨r, hr, f, hf, hrule, htext, hkeys, hcanonical, hlacks⟩ := mappedPair_ambiguous
  refine ⟨r, hr, f, hf, hrule, htext, hkeys, Missing.readPair?_codes hcanonical, fun hkey => ?_,
    hlacks⟩
  have hcontains : (Registry.ofRegistrations mappedTwice.catalog [r, pairRegistration r]).contains
      (PairKey.ofTypes mappedTwice.catalog r.ns (pairRegistration r).source
        (pairRegistration r).destination) = true :=
    Registry.contains_of_mem (List.mem_cons_of_mem _ List.mem_cons_self)
  rw [hkey] at hcontains
  exact absurd hcontains (Bool.eq_false_iff.1 hlacks)

end MappingAudit
