/-
# The reverse half of a chain

Calls after `ReverseMap` configure the mapping back.  Without some of them a chain says
the same about the mapping itself (`Trims.sameForward`), and a check that only sees what
is said about it finds the same (`Context.SameForward`).

The lambdas of the mapping back are the exception.  They are kept with those of the
mapping, and a source member counts as read when one of them reads a member of its name.
`forward_checks_of_trims` tells exactly when this hides a finding.
-/

import MappingAudit.CSharp.Declarations
import MappingAudit.Proofs.Findings
import MappingAudit.Proofs.ReadCalls
import MappingAudit.Workspace

namespace MappingAudit

open Source (Call Chain)

/-- The registrations say the same about the mapping, whatever they say about the
mapping back. -/
structure Registration.SameForward (r r' : Registration) : Prop where
  id_eq : r.id = r'.id
  file_eq : r.file = r'.file
  source_eq : r.source = r'.source
  destination_eq : r.destination = r'.destination
  directives_eq : r.directives = r'.directives
  sourceDirectives_eq : r.sourceDirectives = r'.sourceDirectives
  includedMembers_eq : r.includedMembers = r'.includedMembers
  converter_eq : r.converter = r'.converter
  memberList_eq : r.memberList = r'.memberList
  maxDepth_eq : r.maxDepth = r'.maxDepth
  preservesReferences_eq : r.preservesReferences = r'.preservesReferences
  span_eq : r.span = r'.span

/-- Checks see the same mapping in two contexts. -/
structure Context.SameForward (x y : Context) : Prop where
  catalog_eq : x.catalog = y.catalog
  registry_eq : x.registry = y.registry
  source_eq : x.source = y.source
  destination_eq : x.destination = y.destination
  registration : x.registration.SameForward y.registration

namespace Registration

/-- The names that lambdas of some calls read from their parameters. -/
def readIn (calls : List Call) : List String :=
  (calls.flatMap expressionsOf).flatMap (·.summary.parameterMembers)

end Registration

/-! ### What a check sees of a registration -/

namespace Context.SameForward

variable {x y : Context} (h : x.SameForward y)
include h

/-- A finding takes the file, the types and the identifier of the registration. -/
theorem finding : x.finding = y.finding := by
  funext rule args span
  simp only [Context.finding, sourceName, destinationName, h.registration.file_eq,
    h.registration.source_eq, h.registration.destination_eq, h.registration.id_eq]

/-- A finding about a member also takes the span of the registration. -/
theorem memberFinding : x.memberFinding = y.memberFinding := by
  funext rule member s d
  simp only [Context.memberFinding, h.finding, sourceName, destinationName,
    h.registration.source_eq, h.registration.destination_eq, h.registration.span_eq]

/-- So does one about a pair of members. -/
theorem pairFinding : x.pairFinding = y.pairFinding := by
  funext rule p
  simp only [Context.pairFinding, h.memberFinding]

/-- Members are compared for the same two models, or not at all. -/
theorem models? : x.models? = y.models? := by
  simp only [Context.models?, h.registration.converter_eq, h.source_eq, h.destination_eq]

/-- The same members are configured. -/
theorem configures : x.registration.configures = y.registration.configures := by
  funext member
  simp only [Registration.configures, h.registration.directives_eq]

/-- A member is filled from the same source, included members with it. -/
theorem findSource? : x.findSource? = y.findSource? := by
  funext source member
  have hincluded : x.findIncluded? source member = y.findIncluded? source member := by
    funext path
    simp only [findIncluded?, modelOf, h.catalog_eq]
  simp only [Context.findSource?, hincluded, h.catalog_eq, h.registration.includedMembers_eq]

/-- The same members are paired. -/
theorem pairs : x.pairs = y.pairs := by
  have hpair : x.pair? = y.pair? := by
    funext source d
    simp only [pair?, h.configures, h.findSource?]
  simp only [Context.pairs, h.models?, hpair]

open Check

/-- The types of the pairs are judged alike, null values with them. -/
theorem types : types x = types y := by
  have hrule : typeRule? x = typeRule? y := by
    funext p
    rw [typeRule?, Registration.substitutesNull, Registration.directivesFor,
      h.registration.directives_eq]
    rfl
  simp only [Check.types, h.pairs, hrule, h.pairFinding]

/-- Elements of the pairs are compared alike. -/
theorem collections : collections x = collections y := by
  have hfinding : collectionFinding x = collectionFinding y := by
    funext p q rule
    simp only [collectionFinding, missingElements?, h.memberFinding, h.catalog_eq, h.registry_eq]
  simp only [Check.collections, h.pairs, hfinding, h.registry_eq]

/-- Missing mappings of the pairs are the same. -/
theorem nested : nested x = nested y := by
  simp only [Check.nested, h.pairs, h.pairFinding, h.catalog_eq, h.registry_eq]

/-- Pairs that lead back to their own types are the same, and so are the bounds on depth. -/
theorem recursion : recursion x = recursion y := by
  have hback : leadsBack x = leadsBack y := by
    funext s d p
    simp only [leadsBack, h.catalog_eq]
  have hbounded : isBounded x.registration = isBounded y.registration := by
    rw [isBounded, isBounded, h.registration.maxDepth_eq, h.registration.preservesReferences_eq]
  rw [Check.recursion, Check.recursion, h.models?, hback, hbounded, h.pairs, h.pairFinding]

/-- Directives conflict with the same earlier ones. -/
theorem conflictsAfter (before ds : List Directive) :
    conflictsAfter x before ds = conflictsAfter y before ds := by
  induction ds generalizing before with
  | nil => rfl
  | cons d ds ih =>
    have hfinding : conflictFinding? x before d = conflictFinding? y before d := by
      simp only [conflictFinding?, h.finding]
    rw [Check.conflictsAfter, Check.conflictsAfter, hfinding, ih]

/-- The same members are configured twice. -/
theorem conflicts : conflicts x = conflicts y := by
  simp only [Check.conflicts, configured, h.registration.directives_eq, h.conflictsAfter]

/-- The same directives say what goes without saying. -/
theorem redundant : redundant x = redundant y := by
  have halone : standsAlone x.registration = standsAlone y.registration := by
    funext d member
    rw [standsAlone, standsAlone, Registration.directivesFor, Registration.directivesFor,
      h.registration.directives_eq]
  have hmember : redundantMember? x = redundantMember? y := by
    funext s d dir
    rw [redundantMember?, redundantMember?, halone, h.catalog_eq]
  simp only [Check.redundant, h.models?, hmember, h.finding, h.registration.directives_eq]

/-- The same members differ in case only. -/
theorem caseOnly : caseOnly x = caseOnly y := by
  simp only [Check.caseOnly, h.pairs, h.finding, sourceName, destinationName,
    h.registration.source_eq, h.registration.destination_eq, h.registration.span_eq]

/-- The same destination members are left over. -/
theorem unfilled (s d : Model) : unfilled x s d = unfilled y s d := by
  have hunfilled : isUnfilled x s = isUnfilled y s := by
    funext m
    simp only [isUnfilled, h.configures, h.findSource?]
  simp only [Check.unfilled, hunfilled, h.memberFinding, h.registration.memberList_eq]

end Context.SameForward

namespace Check

/-- **What additional lambdas hide.**  A registration with further lambdas that read the
members `more` reports the unread source members of the other one but those of the
same name as one of `more`. -/
theorem unread_eq_filter {x y : Context} (h : x.SameForward y) {more : List String}
    (hmore : ∀ p : String → Bool,
      (x.registration.expressions.flatMap (·.summary.parameterMembers)).any p =
        ((y.registration.expressions.flatMap (·.summary.parameterMembers)).any p || more.any p))
    (s d : Model) :
    unread x s d = (unread y s d).filter fun f =>
      !(f.detail? .sourceMember).any fun m => more.any (Pieces.sameName m) := by
  have hnames (p : String → Bool) :
      (readNames x d).any p = ((readNames y d).any p || more.any p) := by
    simp only [readNames, List.any_append, hmore, h.pairs, h.registration.directives_eq,
      h.registration.includedMembers_eq, Bool.or_assoc]
  have hchecked : x.registration.leavesUnchecked = y.registration.leavesUnchecked := by
    funext member
    rw [Registration.leavesUnchecked, Registration.leavesUnchecked,
      h.registration.sourceDirectives_eq]
  rw [unread, unread, h.registration.memberList_eq, h.memberFinding, hchecked]
  split
  · rfl
  · simp only [List.filter_map, List.filter_filter, hnames]
    refine congrArg (List.map _) (List.filter_congr fun m _ => ?_)
    have hdetail : ((y.memberFinding .sourceUnmapped m.name (some m) none).withDetail
        .sourceMember m.name).detail? .sourceMember = some m.name := by simp
    rw [Function.comp_apply, hdetail, Option.any_some, Bool.not_or, Bool.and_assoc,
      Bool.and_left_comm]

/-- With further lambdas the check of unmapped members finds the same exactly when they
read no member whose name is that of an unread source member. -/
theorem unmapped_eq_iff {x y : Context} (h : x.SameForward y) {more : List String}
    (hmore : ∀ p : String → Bool,
      (x.registration.expressions.flatMap (·.summary.parameterMembers)).any p =
        ((y.registration.expressions.flatMap (·.summary.parameterMembers)).any p || more.any p)) :
    unmapped x = unmapped y ↔
      ∀ f ∈ unmapped y, f.rule = .sourceUnmapped → ∀ m, f.detail? .sourceMember = some m →
        ∀ n ∈ more, Pieces.sameName m n = false := by
  rw [unmapped, unmapped, h.models?]
  rcases y.models? with _ | ⟨s, d⟩
  · simp
  · have hother (f : Finding) (hf : f ∈ caseOnly y ++ unfilled y s d) :
        f.rule ≠ .sourceUnmapped := by
      rcases List.mem_append.1 hf with hf | hf
      · rw [rule_of_mem_caseOnly hf]
        exact RuleId.noConfusion
      · rcases rule_of_mem_unfilled hf with hrule | hrule
        · rw [hrule]
          exact RuleId.noConfusion
        · rw [hrule]
          exact RuleId.noConfusion
    simp only [h.caseOnly, h.unfilled, unread_eq_filter h hmore, List.append_cancel_left_eq,
      List.filter_eq_self, List.mem_append]
    constructor
    · intro hall f hf hrule m hm n hn
      rcases hf with hf | hf
      · exact absurd hrule (hother f (List.mem_append.2 hf))
      · have hnone := hall f hf
        rw [hm] at hnone
        simp only [Option.any_some, Bool.not_eq_true', List.any_eq_false] at hnone
        exact Bool.eq_false_iff.2 (hnone n hn)
    · intro hall f hf
      have hnone := hall f (Or.inr hf) (rule_of_mem_unread hf)
      cases hm : f.detail? .sourceMember with
      | none => rfl
      | some m =>
        simp only [Option.any_some, Bool.not_eq_true', List.any_eq_false]
        exact fun n hn => Bool.eq_false_iff.1 (hnone m hm n hn)

end Check

/-! ### A chain without some calls after `ReverseMap` -/

/-- The second chain is the first one without the calls `dropped`, all of which
configure members and stand after a `ReverseMap`. -/
structure Registration.Trims (kept dropped rest : List Call) (chain chain' : Chain) : Prop where
  calls_eq : chain.calls = kept ++ dropped ++ rest
  calls_eq' : chain'.calls = kept ++ rest
  reversed : ∃ c ∈ kept.drop 1, c.name = "ReverseMap"
  methods : ∀ c ∈ dropped, c.name ∈ Directive.methods
  receiver_eq : chain.receiver = chain'.receiver
  enclosingType_eq : chain.enclosingType = chain'.enclosingType

/-- A call that configures a member includes no pair of types. -/
theorem Include.ofCall?_of_mem_methods {c : Call} (h : c.name ∈ Directive.methods) :
    Include.ofCall? c = none := by
  rw [ofCall?, if_neg]
  intro hinclude
  simp only [Directive.methods, List.mem_cons, List.not_mem_nil, or_false] at h
  rcases h with h | h | h <;> simp [h] at hinclude

namespace Registration

/-- Calls with their positions in a chain, where `n` calls come before them. -/
def indexed (n : Nat) (calls : List Call) : List (Nat × Call) :=
  (calls.zipIdx n).map fun (c, i) => (i, c)

/-- The calls themselves stay. -/
theorem snd_indexed (n : Nat) (calls : List Call) : (indexed n calls).map (·.2) = calls := by
  simp [indexed, Function.comp_def]

/-- The positions of calls at the end go on from those before. -/
theorem indexed_append (n : Nat) (calls tail : List Call) :
    indexed n (calls ++ tail) = indexed n calls ++ indexed (n + calls.length) tail := by
  rw [indexed, List.zipIdx_append, List.map_append]
  rfl

/-- Calls configure from the second one on. -/
theorem configuring_eq (chain : Chain) : configuring chain = (indexed 0 chain.calls).drop 1 := by
  rw [configuring, indexed, List.map_drop]

/-- Without their positions these are the calls after the first. -/
theorem snd_configuring (chain : Chain) :
    (configuring chain).map (·.2) = chain.calls.drop 1 := by
  rw [configuring_eq, List.map_drop, snd_indexed]

/-- What is said about the calls of a chain one by one does not depend on positions. -/
theorem flatMap_configuring {α : Type} (chain : Chain) (f : Call → List α) :
    ((configuring chain).flatMap fun c => f c.2) = (chain.calls.drop 1).flatMap f := by
  rw [← snd_configuring, List.flatMap_map]

/-- What some calls give depends on the calls alone. -/
theorem filterMap_configuring {α : Type} (chain : Chain) (f : Call → Option α) :
    ((configuring chain).filterMap fun c => f c.2) = (chain.calls.drop 1).filterMap f := by
  rw [← snd_configuring, List.filterMap_map]
  rfl

variable {chain : Chain} {kept tail : List Call}

/-- A chain in two parts, the first with a call, configures in the rest of the first part and in
the second. -/
theorem configuring_of_append (h : chain.calls = kept ++ tail) (hkept : kept ≠ []) :
    configuring chain = (indexed 0 kept).drop 1 ++ indexed kept.length tail := by
  have hlength : 1 ≤ (indexed 0 kept).length := by
    simpa [indexed, Nat.one_le_iff_ne_zero] using hkept
  rw [configuring_eq, h, indexed_append, List.drop_append_of_le_length hlength, Nat.zero_add]

/-- A call of `ReverseMap` keeps its name when positions are added. -/
theorem exists_isReverse (h : ∃ c ∈ kept.drop 1, c.name = "ReverseMap") :
    ∃ c ∈ (indexed 0 kept).drop 1, isReverse c = true := by
  obtain ⟨c, hc, hname⟩ := h
  rw [← snd_indexed 0 kept, ← List.map_drop] at hc
  obtain ⟨e, he, rfl⟩ := List.mem_map.1 hc
  exact ⟨e, he, beq_iff_eq.2 hname⟩

/-- So something is left from the first `ReverseMap` on. -/
theorem dropWhile_isReverse_ne_nil (h : ∃ c ∈ kept.drop 1, c.name = "ReverseMap") :
    ((indexed 0 kept).drop 1).dropWhile (fun c => !isReverse c) ≠ [] := by
  obtain ⟨c, hc, hreverse⟩ := exists_isReverse h
  intro hnil
  have hall := List.dropWhile_eq_nil_iff.1 hnil c hc
  simp [hreverse] at hall

/-- A chain with such a call has calls. -/
theorem ne_nil_of_reversed (h : ∃ c ∈ kept.drop 1, c.name = "ReverseMap") : kept ≠ [] := by
  rintro rfl
  obtain ⟨c, hc, -⟩ := h
  exact absurd hc List.not_mem_nil

/-- Only calls up to the first `ReverseMap` configure the mapping. -/
theorem forward_of_append (h : chain.calls = kept ++ tail)
    (hreversed : ∃ c ∈ kept.drop 1, c.name = "ReverseMap") :
    forward chain = ((indexed 0 kept).drop 1).takeWhile fun c => !isReverse c := by
  have hne := dropWhile_isReverse_ne_nil hreversed
  rw [forward, configuring_of_append h (ne_nil_of_reversed hreversed), List.takeWhile_append,
    if_neg]
  intro hlength
  have hsplit := congrArg List.length (List.takeWhile_append_dropWhile
    (p := fun c => !isReverse c) (l := (indexed 0 kept).drop 1))
  rw [List.length_append, hlength] at hsplit
  exact hne (List.length_eq_zero_iff.1 (by omega))

/-- Calls at the end of a chain that is mapped back belong to the mapping back. -/
theorem backward_of_append (h : chain.calls = kept ++ tail)
    (hreversed : ∃ c ∈ kept.drop 1, c.name = "ReverseMap") :
    backward chain =
      ((indexed 0 kept).drop 1).dropWhile (fun c => !isReverse c) ++ indexed kept.length tail := by
  have hne := dropWhile_isReverse_ne_nil hreversed
  rw [backward, configuring_of_append h (ne_nil_of_reversed hreversed), List.dropWhile_append,
    if_neg]
  simpa using hne

/-- Chains that start with the same call and have the same calls that configure the mapping
say the same about it. -/
theorem sameForward_of_forward_eq {chain' : Chain} (hforward : forward chain = forward chain')
    (hhead : chain.calls.head? = chain'.calls.head?) (hcalls : chain.calls ≠ [])
    (id fileIndex : Nat) (file : String) (ns : Option String) (root : Call)
    (types : TypeExpr × TypeExpr) : (ofCalls id fileIndex file ns chain root types).SameForward
      (ofCalls id fileIndex file ns chain' root types) where
  id_eq := by simp only [id_ofCalls]
  file_eq := by simp only [file_ofCalls]
  source_eq := by simp only [source_ofCalls]
  destination_eq := by simp only [destination_ofCalls]
  directives_eq := by simp only [ofCalls_eq, hforward]
  sourceDirectives_eq := by simp only [ofCalls_eq, hforward]
  includedMembers_eq := by simp only [ofCalls_eq, hforward]
  converter_eq := by simp only [ofCalls_eq, hforward]
  memberList_eq := by simp only [ofCalls_eq]
  maxDepth_eq := by simp only [ofCalls_eq, hforward]
  preservesReferences_eq := by simp only [ofCalls_eq, hforward]
  span_eq := by
    obtain ⟨c, cs, hcons⟩ := List.exists_cons_of_ne_nil hcalls
    have hfirst : chain'.calls.head? = some c := by
      rw [← hhead, hcons]
      rfl
    obtain ⟨cs', hcons'⟩ := List.head?_eq_some_iff.1 hfirst
    simp only [Registration.span, chain_ofCalls, hcons, hcons']

end Registration

namespace Registration.Trims

variable {kept dropped rest : List Call} {chain chain' : Chain}
variable (h : Trims kept dropped rest chain chain')
include h

/-- The longer chain has the kept calls, the dropped ones and the rest. -/
theorem calls_eq_append : chain.calls = kept ++ (dropped ++ rest) := by
  rw [h.calls_eq, List.append_assoc]

/-- The longer chain has calls. -/
theorem calls_ne_nil : chain.calls ≠ [] := by
  rw [h.calls_eq_append]
  exact List.append_ne_nil_of_left_ne_nil (ne_nil_of_reversed h.reversed) _

/-- Both chains start with the same call. -/
theorem head?_calls : chain.calls.head? = chain'.calls.head? := by
  obtain ⟨c, ks, rfl⟩ := List.exists_cons_of_ne_nil (ne_nil_of_reversed h.reversed)
  rw [h.calls_eq, h.calls_eq']
  rfl

/-- The calls of the longer chain after its first. -/
theorem drop_calls : chain.calls.drop 1 = kept.drop 1 ++ dropped ++ rest := by
  have hlength : 1 ≤ kept.length := List.length_pos_iff.2 (ne_nil_of_reversed h.reversed)
  rw [h.calls_eq_append, List.drop_append_of_le_length hlength, List.append_assoc]

/-- The calls of the shorter chain after its first. -/
theorem drop_calls' : chain'.calls.drop 1 = kept.drop 1 ++ rest := by
  have hlength : 1 ≤ kept.length := List.length_pos_iff.2 (ne_nil_of_reversed h.reversed)
  rw [h.calls_eq', List.drop_append_of_le_length hlength]

/-- The same calls configure the mapping. -/
theorem forward_eq : forward chain = forward chain' := by
  rw [forward_of_append h.calls_eq_append h.reversed, forward_of_append h.calls_eq' h.reversed]

variable (id fileIndex : Nat) (file : String) (ns : Option String) (root : Call)
  (types : TypeExpr × TypeExpr)

/-- **What a chain says about the mapping itself** does not depend on calls after
`ReverseMap` that configure members. -/
theorem sameForward : (ofCalls id fileIndex file ns chain root types).SameForward
    (ofCalls id fileIndex file ns chain' root types) :=
  sameForward_of_forward_eq h.forward_eq h.head?_calls h.calls_ne_nil id fileIndex file ns root
    types

/-- The longer chain has the lambdas of the other one and those of the dropped calls. -/
theorem any_expressions (p : String → Bool) :
    ((ofCalls id fileIndex file ns chain root types).expressions.flatMap
        (·.summary.parameterMembers)).any p =
      (((ofCalls id fileIndex file ns chain' root types).expressions.flatMap
        (·.summary.parameterMembers)).any p || (readIn dropped).any p) := by
  simp only [ofCalls_eq, flatMap_configuring chain expressionsOf,
    flatMap_configuring chain' expressionsOf, h.drop_calls, h.drop_calls', readIn,
    List.flatMap_append, List.any_append]
  rw [Bool.or_assoc, Bool.or_assoc, Bool.or_comm (List.any _ p) (List.any _ p)]

/-- The mapping back is added at the same place. -/
theorem reverse_spans_eq :
    (ofCalls id fileIndex file ns chain root types).reverse.toList.map (·.span) =
      (ofCalls id fileIndex file ns chain' root types).reverse.toList.map (·.span) := by
  obtain ⟨e, es, he⟩ := List.exists_cons_of_ne_nil (dropWhile_isReverse_ne_nil h.reversed)
  simp only [ofCalls_eq, reverseOf?, reverseAt, backward_of_append h.calls_eq_append h.reversed,
    backward_of_append h.calls_eq' h.reversed, he, List.cons_append, List.head?_cons,
    Option.map_some, Option.toList_some, List.map_cons, List.map_nil]

/-- Both chains include the same pairs of types, for no dropped call includes one. -/
theorem includes_eq : (ofCalls id fileIndex file ns chain root types).includes =
    (ofCalls id fileIndex file ns chain' root types).includes := by
  have hdropped : dropped.filterMap Include.ofCall? = [] :=
    List.filterMap_eq_nil_iff.2 fun c hc => Include.ofCall?_of_mem_methods (h.methods c hc)
  simp only [ofCalls_eq, filterMap_configuring chain Include.ofCall?,
    filterMap_configuring chain' Include.ofCall?, h.drop_calls, h.drop_calls',
    List.filterMap_append, hdropped, List.append_nil]

/-- Both chains enter the same pairs in the registry, at the same places. -/
theorem mapped_eq (c : Catalog) :
    Mapped.ofRegistration c (ofCalls id fileIndex file ns chain root types) =
      Mapped.ofRegistration c (ofCalls id fileIndex file ns chain' root types) := by
  have hreverse (f : Span → Mapped) :
      (ofCalls id fileIndex file ns chain root types).reverse.toList.map (fun b => f b.span) =
        (ofCalls id fileIndex file ns chain' root types).reverse.toList.map fun b => f b.span := by
    have hmap := congrArg (List.map f) (h.reverse_spans_eq id fileIndex file ns root types)
    rwa [List.map_map, List.map_map] at hmap
  simp only [Mapped.ofRegistration, id_ofCalls, file_ofCalls, fileIndex_ofCalls, ns_ofCalls,
    source_ofCalls, destination_ofCalls, h.includes_eq id fileIndex file ns root types,
    (h.sameForward id fileIndex file ns root types).span_eq]
  rw [hreverse]

omit id fileIndex file ns root types

/-- Whether a chain registers a mapping is decided by its first call and its place. -/
theorem isMapping_eq (c : Catalog) (file : Source.File) :
    Recognition.isMapping c file chain = Recognition.isMapping c file chain' := by
  simp only [Recognition.isMapping, Recognition.namespaceOf, Recognition.enclosing?,
    h.receiver_eq, h.enclosingType_eq]

/-- Names are looked up in the same namespace. -/
theorem namespaceOf_eq (c : Catalog) :
    Recognition.namespaceOf c chain = Recognition.namespaceOf c chain' := by
  rw [Recognition.namespaceOf, Recognition.enclosing?, h.enclosingType_eq]
  rfl

/-- Both chains register a mapping, or none of them does. -/
theorem ofChain?_cases (c : Catalog) (fileIndex : Nat) (file : Source.File) (id : Nat) :
    (ofChain? c fileIndex file id chain = none ∧ ofChain? c fileIndex file id chain' = none) ∨
      ∃ ns root types,
        ofChain? c fileIndex file id chain =
            some (ofCalls id fileIndex file.path ns chain root types) ∧
          ofChain? c fileIndex file id chain' =
            some (ofCalls id fileIndex file.path ns chain' root types) := by
  rw [ofChain?, ofChain?, h.isMapping_eq, h.head?_calls, h.namespaceOf_eq]
  by_cases hmapping : Recognition.isMapping c file chain' = true
  · rw [if_pos hmapping, if_pos hmapping]
    rcases chain'.calls.head? with _ | root
    · exact Or.inl ⟨rfl, rfl⟩
    · cases hpair : Include.pair? root with
      | none => exact Or.inl ⟨by simp [hpair], by simp [hpair]⟩
      | some types =>
        exact Or.inr ⟨Recognition.namespaceOf c chain', root, types, by simp [hpair],
          by simp [hpair]⟩
  · rw [if_neg hmapping, if_neg hmapping]
    exact Or.inl ⟨rfl, rfl⟩

end Registration.Trims

open Check in
/-- **The findings about members agree in two contexts.**  The first has lambdas besides
those of the second, which read the members `more` from their parameters; this can only
hide findings about unread source members of such names. -/
structure Context.Agrees (more : List String) (x y : Context) : Prop where
  types_eq : types x = types y
  collections_eq : collections x = collections y
  nested_eq : nested x = nested y
  recursion_eq : recursion x = recursion y
  conflicts_eq : conflicts x = conflicts y
  redundant_eq : redundant x = redundant y
  unmapped_eq_iff : unmapped x = unmapped y ↔
    ∀ f ∈ unmapped y, f.rule = .sourceUnmapped → ∀ m, f.detail? .sourceMember = some m →
      ∀ n ∈ more, Pieces.sameName m n = false

/-- **What the reverse half can change.**  Take calls of `ForMember`, `ForPath` and
`ForCtorParam` after `ReverseMap` out of a chain.  It registers a mapping as before and
enters the same pairs in the registry.  Whatever the models and the registry, the checks
of types, collections, nested mappings, recursion, conflicts and redundant configurations
find the same.  The check of unmapped members does so exactly when no lambda that was
taken out reads, from its parameter, a member of the same name as a source member that is
then reported. -/
theorem Registration.forward_checks_of_trims {kept dropped rest : List Call} {chain chain' : Chain}
    (h : Trims kept dropped rest chain chain') (c : Catalog) (fileIndex : Nat)
    (file : Source.File) (id : Nat) :
    (ofChain? c fileIndex file id chain).isSome = (ofChain? c fileIndex file id chain').isSome ∧
      ∀ r ∈ ofChain? c fileIndex file id chain, ∀ r' ∈ ofChain? c fileIndex file id chain',
        Mapped.ofRegistration c r = Mapped.ofRegistration c r' ∧
          ∀ x : Context, Context.Agrees (readIn dropped) { x with registration := r }
            { x with registration := r' } := by
  rcases h.ofChain?_cases c fileIndex file id with ⟨hnone, hnone'⟩ | ⟨ns, root, ts, hsome, hsome'⟩
  · refine ⟨by rw [hnone, hnone'], fun r hr => ?_⟩
    rw [hnone] at hr
    exact absurd hr (Option.not_mem_none r)
  · refine ⟨by rw [hsome, hsome']; rfl, fun r hr r' hr' => ?_⟩
    rw [hsome] at hr
    rw [hsome'] at hr'
    obtain rfl := Option.some.inj hr
    obtain rfl := Option.some.inj hr'
    refine ⟨h.mapped_eq id fileIndex file.path ns root ts c, fun x => ?_⟩
    have hsame : Context.SameForward
        { x with registration := ofCalls id fileIndex file.path ns chain root ts }
        { x with registration := ofCalls id fileIndex file.path ns chain' root ts } :=
      ⟨rfl, rfl, rfl, rfl, h.sameForward id fileIndex file.path ns root ts⟩
    exact ⟨hsame.types, hsame.collections, hsame.nested, hsame.recursion, hsame.conflicts,
      hsame.redundant,
      Check.unmapped_eq_iff hsame (h.any_expressions id fileIndex file.path ns root ts)⟩

/-- A mapping back that reads a member which the mapping itself leaves unread, as the
destination member of its name cannot be written. -/
def readBack : Workspace :=
  .ofSources [("P.cs", "AddMaps(c=>c.CreateMap<S,D>().ReverseMap()" ++
    ".ForMember(s=>s.X,o=>o.MapFrom(d=>d.X)));record S(int X);class D\x7bpublic int X\x7bget;\x7d\x7d")]

/-- The document as it is read. -/
def readBackFile : Source.File := readBack.files.head?.getD default

/-- The first `n` calls of its chain. -/
def readBackChain (n : Nat) : Chain :=
  let chain := readBackFile.chains.head?.getD default
  { chain with calls := chain.calls.take n }

/-- The registration of these calls. -/
def readBackRegistration? (n : Nat) : Option Registration :=
  Registration.ofChain? readBack.catalog 0 readBackFile 0 (readBackChain n)

/-- The rules that its unmapped members violate. -/
def readBackRules? (n : Nat) : Option (List RuleId) :=
  (readBackRegistration? n).map fun r =>
    (Check.unmapped (.ofRegistration readBack.catalog {} [] r)).map (·.rule)

set_option maxRecDepth 100000 in
/-- The chain of the example has three calls. -/
theorem readBack_names :
    (readBackChain 3).calls.map (·.name) = ["CreateMap", "ReverseMap", "ForMember"] := by
  decide +kernel

/-- Its last call is taken out behind `ReverseMap`. -/
theorem readBack_trims :
    Registration.Trims ((readBackChain 3).calls.take 2) ((readBackChain 3).calls.drop 2) []
      (readBackChain 3) (readBackChain 2) where
  calls_eq := by rw [List.take_append_drop, List.append_nil]
  calls_eq' := by simp [readBackChain, List.take_take]
  reversed := List.mem_map.1 (by rw [List.map_drop, List.map_take, readBack_names]; decide)
  methods := by
    intro c hc
    have hname := List.mem_map_of_mem (f := (·.name)) hc
    rw [List.map_drop, readBack_names] at hname
    rw [List.mem_singleton.1 hname]
    decide
  receiver_eq := rfl
  enclosingType_eq := rfl

/-- The call of `ForMember` in `readBack` is of the kind that may be taken out. -/
theorem forward_checks_readBack :
    Registration.Trims ((readBackChain 3).calls.take 2) ((readBackChain 3).calls.drop 2) []
        (readBackChain 3) (readBackChain 2) ∧
      (readBackRegistration? 3).isSome = (readBackRegistration? 2).isSome ∧
        ∀ r ∈ readBackRegistration? 3, ∀ r' ∈ readBackRegistration? 2,
          Mapped.ofRegistration readBack.catalog r = Mapped.ofRegistration readBack.catalog r' ∧
            ∀ x : Context, Context.Agrees (Registration.readIn ((readBackChain 3).calls.drop 2))
              { x with registration := r } { x with registration := r' } :=
  ⟨readBack_trims,
    Registration.forward_checks_of_trims readBack_trims readBack.catalog 0 readBackFile 0⟩

set_option maxRecDepth 100000 in
/-- It hides that the source member is unread. -/
theorem readBack_hides_unread :
    Registration.Trims ((readBackChain 3).calls.take 2) ((readBackChain 3).calls.drop 2) []
        (readBackChain 3) (readBackChain 2) ∧
      readBackRules? 3 = some [] ∧ readBackRules? 2 = some [.sourceUnmapped] :=
  ⟨readBack_trims, by decide +kernel⟩

end MappingAudit
