/-
# The form of findings

Places of calls leave out the blanks and the dot before the name, so they start behind the
start of the segment of the call, but never behind its end: they have no bytes that the segment
does not have.  A registration that is read from a chain therefore has no places outside the
chain, when that holds the segments of its calls and the sites in their lambdas.  The chains of
a text do, if the nodes of its syntax tree lie within one another.
-/

import MappingAudit.CSharp.Declarations
import MappingAudit.Proofs.ChainHalves
import MappingAudit.Proofs.ReportedFindings

namespace MappingAudit

/-! ### Places of a chain -/

namespace Source

/-- The lambdas among the arguments of a call, and among those of the calls that these make on
their parameter. -/
def Call.lambdas (c : Call) : List Lambda :=
  let outer := Directive.lambdas c.args
  outer ++ outer.flatMap fun l => l.optionCalls.flatMap fun o => Directive.lambdas o.args

/-- The span of a chain contains the spans of its calls, their segments, and the sites in their
lambdas. -/
structure Chain.HoldsCalls (chain : Chain) : Prop where
  span : ∀ c ∈ chain.calls, chain.span.contains c.span = true
  segment : ∀ c ∈ chain.calls, chain.span.contains c.segment = true
  summary : ∀ c ∈ chain.calls, ∀ l ∈ c.lambdas, ∀ s ∈ l.body.spans, chain.span.contains s = true

end Source

namespace Span

/-- The byte is one of the span. -/
def Holds (s : Span) (byte : Nat) : Prop := s.startByte ≤ byte ∧ byte < s.endByte

/-- A span holds the bytes that a span within it holds. -/
theorem Holds.of_contains {s inner : Span} {byte : Nat} (h : s.contains inner = true)
    (hinner : inner.Holds byte) : s.Holds byte := by
  rw [contains_iff] at h
  exact ⟨h.1.trans hinner.1, hinner.2.trans_le h.2⟩

end Span

namespace Source
namespace Call

/-- A call stops where its segment does, and starts behind the blanks and the dot, but not behind
that end. -/
theorem bytes_ownSpan (c : Call) : c.ownSpan.endByte = c.segment.endByte ∧
    min c.segment.startByte c.segment.endByte ≤ c.ownSpan.startByte := by
  dsimp only [ownSpan]
  split
  · next h =>
    rw [Bool.and_eq_true, beq_iff_eq] at h
    rw [← h.2]
    exact ⟨rfl, Nat.min_le_left _ _⟩
  · exact ⟨rfl, by dsimp only; omega⟩

variable {c : Call}

/-- The segment of a call holds the bytes of its own span. -/
theorem holds_segment {byte : Nat} (h : c.ownSpan.Holds byte) : c.segment.Holds byte := by
  have hbytes := c.bytes_ownSpan
  rw [Span.Holds] at h ⊢
  omega

/-- The segment of a call contains its own span. -/
theorem contains_ownSpan (h : c.segment.startByte ≤ c.segment.endByte) :
    c.segment.contains c.ownSpan = true := by
  have hbytes := c.bytes_ownSpan
  rw [Span.contains_iff]
  omega

end Call
end Source

/-- A directive stands where its call does. -/
theorem Directive.span_of_mem_ofCall {i : Nat} {c : Source.Call} {d : Directive}
    (h : d ∈ ofCall i c) : d.span = c.ownSpan := by
  rw [ofCall] at h
  split at h
  · exact absurd h List.not_mem_nil
  · dsimp only at h
    split at h
    · rw [List.mem_singleton.1 h]
    · obtain ⟨config, -, rfl⟩ := List.mem_map.1 h
      rfl

namespace Registration

open Source (Argument Call Chain Lambda)

/-- A lambda that runs is an argument on the options. -/
theorem mem_lambdas_of_mem_runLambdas {o : Source.OptionCall} {l : Lambda}
    (h : l ∈ Directive.runLambdas o) : l ∈ Directive.lambdas o.args := by
  have htake (n : Nat) (hl : l ∈ Directive.lambdas (o.args.take n)) :
      l ∈ Directive.lambdas o.args :=
    (List.take_sublist n o.args).filterMap _ |>.subset hl
  rw [Directive.runLambdas] at h
  split at h
  · split at h
    · exact htake 1 h
    · exact absurd h List.not_mem_nil
  · exact htake 1 h
  all_goals first
    | exact h
    | exact absurd h List.not_mem_nil

/-- What runs while values are mapped stands in a lambda of the call. -/
theorem exists_lambda_of_mem_expressionsOf {c : Call} {e : MappingExpression}
    (h : e ∈ expressionsOf c) : ∃ l ∈ c.lambdas, e.summary = l.body := by
  rw [expressionsOf] at h
  split at h
  · obtain ⟨l, hl, rfl⟩ := List.mem_map.1 h
    exact ⟨l, List.mem_append_left _ hl, rfl⟩
  · rw [Directive.expressionsOfCall] at h
    split at h
    · exact absurd h List.not_mem_nil
    · obtain ⟨o, ho, he⟩ := List.mem_flatMap.1 h
      obtain ⟨l, hl, rfl⟩ := List.mem_map.1 he
      rw [Directive.optionCalls] at ho
      split at ho
      · next outer houter =>
        obtain ⟨a, ha, hlambda⟩ := Option.bind_eq_some_iff.1 houter
        have hmem : outer ∈ Directive.lambdas c.args :=
          List.mem_filterMap.2 ⟨a, List.mem_of_getElem? ha, hlambda⟩
        exact ⟨l, List.mem_append_right _ (List.mem_flatMap.2 ⟨outer, hmem, List.mem_flatMap.2
          ⟨o, ho, mem_lambdas_of_mem_runLambdas hl⟩⟩), rfl⟩
      · exact absurd ho List.not_mem_nil

/-- Calls that configure are calls of the chain. -/
theorem mem_calls_of_mem_configuring {chain : Chain} {p : Nat × Call}
    (h : p ∈ configuring chain) : p.2 ∈ chain.calls :=
  List.mem_of_getElem? (getElem?_of_mem_configuring h)

/-- The registration says what the calls of its chain say. -/
def IsRead (r : Registration) : Prop :=
  ∃ root, ofCalls r.id r.fileIndex r.file r.ns r.chain root (r.source, r.destination) = r

/-- What the calls of a chain say is read from the chain. -/
theorem isRead_ofCalls {id fileIndex : Nat} {file : String} {ns : Option String} {chain : Chain}
    {root : Call} {types : TypeExpr × TypeExpr} :
    (ofCalls id fileIndex file ns chain root types).IsRead :=
  ⟨root, by simp only [id_ofCalls, fileIndex_ofCalls, file_ofCalls, ns_ofCalls, chain_ofCalls,
    source_ofCalls, destination_ofCalls]⟩

namespace IsRead

variable {r : Registration} {s : Span}

/-- The places of a registration that is read from its chain are places of the chain. -/
theorem of_mem_spans (hr : r.IsRead) (hs : s ∈ r.spans) :
    s = r.chain.span ∨ ∃ c ∈ r.chain.calls,
      s = c.span ∨ s = c.ownSpan ∨ ∃ l ∈ c.lambdas, s ∈ l.body.spans := by
  obtain ⟨root, hroot⟩ := hr
  rw [Registration.spans, List.mem_cons, List.mem_append, List.mem_append] at hs
  rcases hs with rfl | (hs | hs) | hs
  · rw [Registration.span]
    split
    · next c calls hcalls => exact .inr ⟨c, hcalls ▸ List.mem_cons_self, .inl rfl⟩
    · exact .inl rfl
  -- Directives stand before the first call of `ReverseMap`, lambdas on both sides of it.
  · rw [← hroot] at hs
    obtain ⟨d, hd, rfl⟩ := List.mem_map.1 hs
    rw [directives_ofCalls] at hd
    obtain ⟨⟨i, c⟩, hc, hd⟩ := List.mem_flatMap.1 hd
    have hmem := (List.takeWhile_sublist _).subset hc
    exact .inr ⟨c, mem_calls_of_mem_configuring hmem, .inr (.inl (Directive.span_of_mem_ofCall hd))⟩
  · rw [← hroot, Option.mem_toList, reverse_ofCalls] at hs
    obtain ⟨b, hb, rfl⟩ := Option.map_eq_some_iff.1 hs
    obtain ⟨⟨i, c⟩, hc, rfl⟩ := Option.map_eq_some_iff.1 hb
    have hmem := (List.dropWhile_sublist _).subset (List.mem_of_mem_head? hc)
    exact .inr ⟨c, mem_calls_of_mem_configuring hmem, .inr (.inl rfl)⟩
  · rw [← hroot] at hs
    obtain ⟨e, he, hs⟩ := List.mem_flatMap.1 hs
    rw [expressions_ofCalls] at he
    obtain ⟨⟨i, c⟩, hc, he⟩ := List.mem_flatMap.1 he
    obtain ⟨l, hl, hbody⟩ := exists_lambda_of_mem_expressionsOf he
    exact .inr ⟨c, mem_calls_of_mem_configuring hc, .inr (.inr ⟨l, hl, hbody ▸ hs⟩)⟩

/-- The places of a registration have no bytes but those of its chain. -/
theorem holds_of_mem_spans (hr : r.IsRead) (hchain : r.chain.HoldsCalls) (hs : s ∈ r.spans)
    {byte : Nat} (hbyte : s.Holds byte) : r.chain.span.Holds byte := by
  rcases hr.of_mem_spans hs with rfl | ⟨c, hc, rfl | rfl | ⟨l, hl, hbody⟩⟩
  · exact hbyte
  · exact hbyte.of_contains (hchain.span c hc)
  · exact (Source.Call.holds_segment hbyte).of_contains (hchain.segment c hc)
  · exact hbyte.of_contains (hchain.summary c hc l hl s hbody)

/-- The chain contains them, when no segment of a call stops before its start. -/
theorem contains_of_mem_spans (hr : r.IsRead) (hchain : r.chain.HoldsCalls)
    (hsegments : ∀ c ∈ r.chain.calls, c.segment.startByte ≤ c.segment.endByte) (hs : s ∈ r.spans) :
    r.chain.span.contains s = true := by
  rcases hr.of_mem_spans hs with rfl | ⟨c, hc, rfl | rfl | ⟨l, hl, hbody⟩⟩
  · exact Span.contains_iff.2 ⟨Nat.le_refl _, Nat.le_refl _⟩
  · exact hchain.span c hc
  · exact Span.contains_trans (hchain.segment c hc) (Source.Call.contains_ownSpan (hsegments c hc))
  · exact hchain.summary c hc l hl s hbody

end IsRead
end Registration

/-! ### Chains that are read -/

namespace Source

/-- The places in a lambda are places in the arguments. -/
theorem spans_subset_of_mem_lambdas {args : List Argument} {l : Lambda}
    (h : l ∈ Directive.lambdas args) : l.body.spans ++ optionCallsSpans l.optionCalls ⊆
      argumentsSpans args := by
  intro s hs
  obtain ⟨a, ha, hl⟩ := List.mem_filterMap.1 h
  refine mem_argumentsSpans.2 ⟨a, ha, ?_⟩
  obtain ⟨text, span, form⟩ := a
  obtain ⟨params, body, calls⟩ := l
  rw [Argument.lambda?] at hl
  split at hl
  · next l' hform =>
    obtain rfl := Option.some.inj hl
    obtain rfl : form = .lambda ⟨params, body, calls⟩ := hform
    exact List.mem_cons_of_mem _ hs
  · cases hl

/-- The places in the lambdas of a call are places in its arguments. -/
theorem mem_argumentsSpans_of_mem_lambdas {c : Call} {l : Lambda} (h : l ∈ c.lambdas) {s : Span}
    (hs : s ∈ l.body.spans) : s ∈ argumentsSpans c.args := by
  rcases List.mem_append.1 h with h | h
  · exact spans_subset_of_mem_lambdas h (List.mem_append_left _ hs)
  · obtain ⟨outer, houter, h⟩ := List.mem_flatMap.1 h
    obtain ⟨o, ho, hl⟩ := List.mem_flatMap.1 h
    have hinner := spans_subset_of_mem_lambdas hl (List.mem_append_left _ hs)
    have hcall : s ∈ optionCallSpans o := by
      obtain ⟨name, typeArgs, args, span⟩ := o
      exact List.mem_cons_of_mem _ hinner
    exact spans_subset_of_mem_lambdas houter
      (List.mem_append_right _ (mem_optionCallsSpans.2 ⟨o, ho, hcall⟩))

/-- Chains of a tree whose nodes lie within one another hold their calls. -/
theorem holdsCalls_of_mem_chains {path text : String} {tree : CSharp.SyntaxTree}
    (htree : tree.LiesIn text) {c : Chain} (h : c ∈ (File.ofTree path text tree).chains) :
    c.HoldsCalls where
  span := fun _ ha => contains_of_mem_spans htree h ha List.mem_cons_self
  segment := fun _ ha =>
    contains_of_mem_spans htree h ha (List.mem_cons_of_mem _ List.mem_cons_self)
  summary := fun _ ha _ hl _ hs => contains_of_mem_spans htree h ha (List.mem_cons_of_mem _
    (List.mem_cons_of_mem _ (mem_argumentsSpans_of_mem_lambdas hl hs)))

end Source

/-- Registrations of documents are read from chains that hold their calls, whose segments stop
after their start. -/
theorem Workspace.chain_of_mem_registrations [reader : CSharp.Reader]
    (hreader : reader.LiesInTexts) {w : Workspace} {r : Registration} (hr : r ∈ w.registrations) :
    r.IsRead ∧ r.chain.HoldsCalls ∧
      ∀ c ∈ r.chain.calls, c.segment.startByte ≤ c.segment.endByte := by
  obtain ⟨f, hf, chain, hchain, i, id, hr⟩ := Registration.exists_of_mem_ofFiles hr
  obtain ⟨-, root, types, -, -, rfl⟩ := Registration.ofChain?_eq_some_iff.1 hr
  obtain ⟨d, -, rfl⟩ := List.mem_map.1 hf
  rw [d.file_eq] at hchain
  rw [Registration.chain_ofCalls]
  refine ⟨Registration.isRead_ofCalls, Source.holdsCalls_of_mem_chains (hreader _) hchain,
    fun c hc => ?_⟩
  have hsegment : c.segment ∈ chain.spans := List.mem_append_right _ (List.mem_flatMap.2
    ⟨c, hc, List.mem_cons_of_mem _ List.mem_cons_self⟩)
  exact (Source.isPlaced_of_mem_spans (hreader _) hchain hsegment).ordered

/-! ### Findings -/

/-- What the finding of a check says about a registration, and where. -/
structure Finding.IsWellFormed (k : Check) (r : Registration) (f : Finding) : Prop where
  rule : f.rule ∈ k.rules
  registration : f.registration = r.id
  file : f.file = r.file
  message : f.message = Message.fill f.rule.template f.args
  /-- No place of the message is without an argument. -/
  places : ∀ n ∈ Message.places f.rule.template.toList, n < f.args.length
  span : f.span ∈ r.spans
  /-- The finding has no bytes but those of the chain, when that holds its calls. -/
  holds : r.IsRead → r.chain.HoldsCalls → ∀ byte, f.span.Holds byte → r.chain.span.Holds byte
  /-- The chain contains it.  A call whose segment stops before its start has no bytes; its place
  is then the end of the segment. -/
  contains : r.IsRead → r.chain.HoldsCalls →
    (∀ c ∈ r.chain.calls, c.segment.startByte ≤ c.segment.endByte) →
      r.chain.span.contains f.span = true

/-- **Findings are well-formed.**  Take registrations with their positions as identifiers.
What a check finds for one of them is a violation of a rule of the check.  It has the
identifier and the file of the registration, and its message is that of the rule with an
argument at every place.  It is at a place of the registration; where that is read from a chain
that holds its calls, their segments and the sites in their lambdas, the finding lies in the
chain. -/
theorem findings_wellFormed (settings : Check.SmellSettings) (c : Catalog)
    {rs : List Registration} (hids : rs.map (·.id) = List.range rs.length) :
    ∀ r ∈ rs, ∀ k ∈ Check.all settings,
      ∀ f ∈ (k.run (.ofRegistration c (.ofRegistrations c rs) rs r)).findings,
        f.IsWellFormed k r := by
  intro r hr k hk f hf
  have hnodup : (rs.map (·.id)).Nodup := hids ▸ List.nodup_range
  have hreports := Check.reports_of_mem_findings (Registry.entriesOf_eq hr hnodup) k hk f hf
  exact {
    rule := Check.rule_mem_rules settings k hk f hf
    registration := hreports.registration
    file := hreports.file
    message := hreports.message
    places := hreports.args ▸ f.rule.lt_arity_of_mem_places
    span := hreports.span
    holds := fun hread hchain _ => hread.holds_of_mem_spans hchain hreports.span
    contains := fun hread hchain hsegments =>
      hread.contains_of_mem_spans hchain hsegments hreports.span }

/-- A member that is ignored by two calls, the second one on a line of its own. -/
def ignoredTwice : Workspace :=
  .ofSources [("P.cs", "AddMaps(c=>c.CreateMap<S,D>().ForMember(\"X\",o=>o.Ignore())\n " ++
    ".ForMember(\"X\",o=>o.Ignore()));")]

/-- What the check of conflicts finds for a registration of that workspace. -/
def ignoredTwiceFindings (r : Registration) : List Finding :=
  (Check.ofFindings "conflicts" [.conflict] Check.conflicts).run (.ofRegistration
    ignoredTwice.catalog (.ofRegistrations ignoredTwice.catalog ignoredTwice.registrations)
    ignoredTwice.registrations r) |>.findings

set_option maxRecDepth 100000 in
/-- The finding of the example stands at the second call. -/
theorem ignoredTwice_places : (ignoredTwice.registrations.map fun r =>
    (ignoredTwiceFindings r).map fun f => (f.span.startByte, f.span.endByte)) = [[(61, 89)]] := by
  decide +kernel

/-- The second of the two calls is found, without the line break and the blank before its dot. -/
theorem findings_wellFormed_ignoredTwice :
    ignoredTwice.registrations.map (·.id) = List.range ignoredTwice.registrations.length ∧
      ∃ r f, ignoredTwice.registrations = [r] ∧ ignoredTwiceFindings r = [f] ∧
        (f.span.startByte, f.span.endByte) = (61, 89) ∧
          f.IsWellFormed (Check.ofFindings "conflicts" [.conflict] Check.conflicts) r ∧
            r.chain.span.contains f.span = true := by
  have hids := Registration.map_id_ofFiles ignoredTwice.catalog ignoredTwice.files
  obtain ⟨r, hregistrations, hfindings⟩ := List.map_eq_singleton_iff.1 ignoredTwice_places
  obtain ⟨f, hfound, hspan⟩ := List.map_eq_singleton_iff.1 hfindings
  have hmem : r ∈ ignoredTwice.registrations := hregistrations ▸ List.mem_cons_self
  have hcheck : Check.ofFindings "conflicts" [.conflict] Check.conflicts ∈ Check.all {} :=
    List.mem_of_getElem? (i := 7) rfl
  have hf : f ∈ ignoredTwiceFindings r := hfound ▸ List.mem_cons_self
  have hwell : f.IsWellFormed (Check.ofFindings "conflicts" [.conflict] Check.conflicts) r :=
    findings_wellFormed {} ignoredTwice.catalog hids r hmem _ hcheck f hf
  obtain ⟨hread, hholds, hsegments⟩ :=
    Workspace.chain_of_mem_registrations CSharp.Grammar.liesInTexts hmem
  exact ⟨hids, r, f, hregistrations, hfound, hspan, hwell, hwell.contains hread hholds hsegments⟩

end MappingAudit
