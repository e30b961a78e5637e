/-
# Changes of texts that have changed

A change is made at places of a chain that an audit has read, but in a text of a workspace
that may be another one by then.  Such a place need not exist in the text.  It is compared
with the end of the text, though only after the lines of a statement were looked for, and
nothing asks whether it lies within a character (`Operation.isSafeIn_iff`).

In the text that was audited all places lie between characters, so a change of an audited
workspace whose documents have different paths is never refused there
(`Operation.isSafeIn_audited`).  A repair audits the workspace before each change and keeps the
paths, so it comes to its end (`Repair.crashes_eq_false`).
-/

import MappingAudit.CSharp.Declarations
import MappingAudit.Proofs.FixesApply

namespace MappingAudit

open Edit (isBoundary)

/-- The change is declined, or it has an edit that can be made in its document. -/
def Resolution.IsSafeIn [CSharp.Reader] (w : Workspace) (x : Resolution) : Prop :=
  x = .declined ∨ ∃ e d out, x = .edits [e] ∧ w.document? e.file = some d ∧
    Edit.applyAll d.text [e] = .ok out

/-- No place in the chains of an audit stops before its start. -/
def Audit.IsOrdered (a : Audit) : Prop :=
  ∀ r ∈ a.registrations, ∀ s ∈ r.chain.spans, s.startByte ≤ s.endByte

namespace Operation

/-- The places of a chain between which its text changes. -/
def anchor? (r : Registration) : Operation → Option (Nat × Nat)
  | appendCall _ _ => some (r.forwardEnd, r.forwardEnd)
  | replaceCall _ index _ =>
    (r.laterCall? index).map fun c => (c.segment.startByte, c.segment.endByte)
  | removeCall _ index =>
    (r.laterCall? index).map fun c => (c.segment.startByte, c.segment.endByte)
  | insertStatements _ _ => r.chain.statement.map fun s => (s.span.endByte, s.span.endByte)
  | removeStatement _ => r.chain.statement.map fun s => (s.span.startByte, s.span.endByte)

/-- The text is cut at the places before they are compared with its end. -/
def cutsFirst : Operation → Bool
  | removeStatement _ => true
  | _ => false

variable {op : Operation} {r : Registration} {a : Audit}
variable {text : List Char} {start stop : Nat}

/-! ### Places of a chain -/

/-- The places are the start and the end of a span of the chain, or twice its end. -/
theorem exists_span_of_anchor? (h : op.anchor? r = some (start, stop)) :
    ∃ s ∈ r.chain.spans, stop = s.endByte ∧ (start = s.startByte ∨ start = s.endByte) := by
  cases op with
  | appendCall i call =>
    obtain ⟨s, hs, hstop⟩ := r.exists_forwardEnd_eq
    obtain ⟨rfl, rfl⟩ := Prod.mk.inj (Option.some.inj h)
    exact ⟨s, hs, hstop, Or.inr hstop⟩
  | replaceCall i index call =>
    obtain ⟨c, hc, heq⟩ := Option.map_eq_some_iff.1 h
    obtain ⟨rfl, rfl⟩ := Prod.mk.inj heq
    exact ⟨_, Registration.segment_mem_spans hc, rfl, Or.inl rfl⟩
  | removeCall i index =>
    obtain ⟨c, hc, heq⟩ := Option.map_eq_some_iff.1 h
    obtain ⟨rfl, rfl⟩ := Prod.mk.inj heq
    exact ⟨_, Registration.segment_mem_spans hc, rfl, Or.inl rfl⟩
  | insertStatements i statements =>
    obtain ⟨s, hs, heq⟩ := Option.map_eq_some_iff.1 h
    obtain ⟨rfl, rfl⟩ := Prod.mk.inj heq
    exact ⟨_, Registration.statement_mem_spans hs, rfl, Or.inr rfl⟩
  | removeStatement i =>
    obtain ⟨s, hs, heq⟩ := Option.map_eq_some_iff.1 h
    obtain ⟨rfl, rfl⟩ := Prod.mk.inj heq
    exact ⟨_, Registration.statement_mem_spans hs, rfl, Or.inl rfl⟩

/-- Places stand in the order of the text. -/
theorem anchor?_ordered (hr : ∀ s ∈ r.chain.spans, s.startByte ≤ s.endByte)
    (h : op.anchor? r = some (start, stop)) : start ≤ stop := by
  obtain ⟨s, hs, rfl, rfl | rfl⟩ := exists_span_of_anchor? h
  · exact hr s hs
  · exact Nat.le_refl _

/-- Places that were read from a text lie between its characters. -/
theorem isBoundary_of_anchor? (hr : ∀ s ∈ r.chain.spans, s.FitsIn text)
    (h : op.anchor? r = some (start, stop)) :
    isBoundary text start = true ∧ isBoundary text stop = true := by
  obtain ⟨s, hs, rfl, rfl | rfl⟩ := exists_span_of_anchor? h
  · exact ⟨(hr s hs).start, (hr s hs).stop⟩
  · exact ⟨(hr s hs).stop, (hr s hs).stop⟩

/-- Where no statement is removed, the edit takes the stretch between the places. -/
theorem exists_edit?_eq (hop : op.cutsFirst = false) (h : op.anchor? r = some (start, stop))
    (text : List Char) : op.crashes r text = false ∧ ∃ replacement,
      op.edit? r text = some ⟨r.file, start, stop, replacement⟩ := by
  cases op with
  | appendCall i call =>
    obtain ⟨rfl, rfl⟩ := Prod.mk.inj (Option.some.inj h)
    exact ⟨rfl, _, rfl⟩
  | replaceCall i index call =>
    obtain ⟨c, hc, heq⟩ := Option.map_eq_some_iff.1 h
    obtain ⟨rfl, rfl⟩ := Prod.mk.inj heq
    exact ⟨rfl, _, by rw [edit?, hc]; rfl⟩
  | removeCall i index =>
    obtain ⟨c, hc, heq⟩ := Option.map_eq_some_iff.1 h
    obtain ⟨rfl, rfl⟩ := Prod.mk.inj heq
    exact ⟨rfl, _, by rw [edit?, hc]; rfl⟩
  | insertStatements i statements =>
    obtain ⟨s, hs, heq⟩ := Option.map_eq_some_iff.1 h
    obtain ⟨rfl, rfl⟩ := Prod.mk.inj heq
    exact ⟨rfl, _, by rw [edit?, hs]; rfl⟩
  | removeStatement i => cases hop

/-- The lines of a stretch are found if the stretch lies between characters of the text. -/
theorem isSome_wholeLines?_iff : (wholeLines? text start stop).isSome = true ↔
    isBoundary text start = true ∧ isBoundary text stop = true := by
  rw [isBoundary, isBoundary, wholeLines?]
  cases Pieces.cut? start text with
  | none => simp
  | some before =>
    cases Pieces.cut? stop text with
    | none => simp
    | some behind =>
      simp only [Option.bind_eq_bind, Option.bind_some, Option.isSome_some, and_self, iff_true]
      split <;> rfl

/-! ### The change in one document -/

section

variable [reader : CSharp.Reader] {d : Document} {w : Workspace}

/-- Without a place there is nothing to change. -/
theorem resolveIn_of_anchor?_eq_none (h : op.anchor? r = none) :
    op.resolveIn r d = .declined := by
  cases op with
  | appendCall i call => cases h
  | replaceCall i index call =>
    have hnone : r.laterCall? index = none := Option.map_eq_none_iff.1 h
    simp [resolveIn, crashes, edit?, hnone]
  | removeCall i index =>
    have hnone : r.laterCall? index = none := Option.map_eq_none_iff.1 h
    simp [resolveIn, crashes, edit?, hnone]
  | insertStatements i statements =>
    have hnone : r.chain.statement = none := Option.map_eq_none_iff.1 h
    simp [resolveIn, crashes, edit?, hnone]
  | removeStatement i =>
    have hnone : r.chain.statement = none := Option.map_eq_none_iff.1 h
    simp [resolveIn, crashes, edit?, hnone]

/-- So it is the end of the edit alone that is compared with the text. -/
theorem resolveIn_of_cutsFirst_eq_false (hop : op.cutsFirst = false)
    (h : op.anchor? r = some (start, stop)) (d : Document) : ∃ replacement,
      op.resolveIn r d = if stop ≤ d.text.utf8ByteSize then
        .edits [⟨r.file, start, stop, replacement⟩] else .declined := by
  obtain ⟨hcrashes, replacement, hedit⟩ := exists_edit?_eq hop h d.text.toList
  refine ⟨replacement, ?_⟩
  rw [resolveIn, hcrashes, hedit]
  rfl

/-- A statement is removed with its lines if its places lie between characters of the text,
which else is cut where it cannot be. -/
theorem resolveIn_of_cutsFirst (hop : op.cutsFirst = true)
    (h : op.anchor? r = some (start, stop)) (hle : start ≤ stop) (d : Document) :
    if isBoundary d.text.toList start ∧ isBoundary d.text.toList stop then
      ∃ e : Edit, op.resolveIn r d = .edits [e] ∧ e.file = r.file ∧ e.FitsIn d.text.toList
    else op.resolveIn r d = .crashed := by
  cases op with
  | removeStatement i =>
    obtain ⟨s, hs, heq⟩ := Option.map_eq_some_iff.1 h
    obtain ⟨rfl, rfl⟩ := Prod.mk.inj heq
    have hcrashes : (removeStatement i).crashes r d.text.toList =
        (wholeLines? d.text.toList s.span.startByte s.span.endByte).isNone := by
      rw [crashes, hs]
      rfl
    split
    · next hboundaries =>
      obtain ⟨⟨a, b⟩, hlines⟩ := Option.isSome_iff_exists.1 (isSome_wholeLines?_iff.2 hboundaries)
      obtain ⟨hstart, hstop, hbefore, hbehind⟩ := isBoundary_of_wholeLines? hlines
      have hfits : (⟨r.file, a, b, ""⟩ : Edit).FitsIn d.text.toList :=
        ⟨hstart, hstop, by dsimp only; omega⟩
      have hsize : b ≤ d.text.utf8ByteSize := by
        rw [← Pieces.byteLength_toList]
        exact Edit.le_of_isBoundary hstop
      refine ⟨_, ?_, rfl, hfits⟩
      have hedit : (removeStatement i).edit? r d.text.toList = some ⟨r.file, a, b, ""⟩ := by
        rw [edit?, hs]
        simp only [Option.bind_eq_bind, Option.bind_some, hlines, Option.pure_def]
      rw [resolveIn, hcrashes, hlines, hedit]
      exact if_pos hsize
    · next hboundaries =>
      have hnone : wholeLines? d.text.toList s.span.startByte s.span.endByte = none := by
        rw [← Option.not_isSome_iff_eq_none, isSome_wholeLines?_iff]
        exact hboundaries
      rw [resolveIn, hcrashes, hnone]
      rfl
  | appendCall i call => cases hop
  | replaceCall i index call => cases hop
  | removeCall i index => cases hop
  | insertStatements i statements => cases hop

/-! ### The change in a workspace -/

/-- A single edit can be made exactly if it fits in its document. -/
theorem isSafeIn_edits_iff {e : Edit} (hd : w.document? e.file = some d) :
    (Resolution.edits [e]).IsSafeIn w ↔ e.FitsIn d.text.toList := by
  constructor
  · rintro (hdeclined | ⟨f, d', out, hf, hd', hout⟩)
    · cases hdeclined
    · obtain rfl : e = f := by simpa using hf
      obtain rfl : d = d' := Option.some.inj (hd.symm.trans hd')
      exact (Edit.applyAll_eq_ok_iff.1 hout).1 e (List.mem_singleton_self e)
  · intro h
    exact Or.inr ⟨e, d, _, rfl, hd, h.applyAll_eq⟩

/-- What fails is not safe. -/
theorem not_isSafeIn_crashed : ¬ Resolution.crashed.IsSafeIn w := by
  rintro (h | ⟨e, d, out, h, -⟩) <;> cases h

/-- **When a change is safe in the text of a document.**  Its places lie between characters of
the text, or they end beyond the text and no statement is removed. -/
theorem isSafeIn_resolveIn_iff (hd : w.document? r.file = some d)
    (h : op.anchor? r = some (start, stop)) (hle : start ≤ stop) :
    (op.resolveIn r d).IsSafeIn w ↔
      isBoundary d.text.toList start = true ∧ isBoundary d.text.toList stop = true ∨
        op.cutsFirst = false ∧ d.text.utf8ByteSize < stop := by
  cases hop : op.cutsFirst with
  | true =>
    have hresolve := resolveIn_of_cutsFirst hop h hle d
    split at hresolve
    · next hboundaries =>
      obtain ⟨e, hedits, hfile, hfits⟩ := hresolve
      rw [hedits, isSafeIn_edits_iff (hfile ▸ hd)]
      exact iff_of_true hfits (Or.inl hboundaries)
    · next hboundaries =>
      rw [hresolve]
      refine iff_of_false not_isSafeIn_crashed ?_
      rintro (h | ⟨h, -⟩)
      · exact hboundaries h
      · cases h
  | false =>
    obtain ⟨replacement, hresolve⟩ := resolveIn_of_cutsFirst_eq_false hop h d
    rw [hresolve]
    split
    · next hsize =>
      rw [isSafeIn_edits_iff hd]
      constructor
      · intro hfits
        exact Or.inl ⟨hfits.start, hfits.stop⟩
      · rintro (⟨hstart, hstop⟩ | ⟨-, hbeyond⟩)
        · exact ⟨hstart, hstop, hle⟩
        · exact absurd hsize (Nat.not_le_of_gt hbeyond)
    · next hsize =>
      exact iff_of_true (Or.inl rfl) (Or.inr ⟨rfl, Nat.lt_of_not_le hsize⟩)

/-- Only removing a statement fails, and only if its places are not found in the text. -/
theorem resolveIn_eq_crashed_iff (h : op.anchor? r = some (start, stop)) (hle : start ≤ stop) :
    op.resolveIn r d = .crashed ↔ op.cutsFirst = true ∧
      ¬ (isBoundary d.text.toList start = true ∧ isBoundary d.text.toList stop = true) := by
  cases hop : op.cutsFirst with
  | true =>
    have hresolve := resolveIn_of_cutsFirst hop h hle d
    split at hresolve
    · next hboundaries =>
      obtain ⟨e, hedits, -, -⟩ := hresolve
      rw [hedits]
      exact iff_of_false (by simp) fun hnot => hnot.2 hboundaries
    · next hboundaries => exact iff_of_true hresolve ⟨rfl, hboundaries⟩
  | false =>
    obtain ⟨replacement, hresolve⟩ := resolveIn_of_cutsFirst_eq_false hop h d
    rw [hresolve]
    split <;> simp

/-- With a registration and its document, the change is that of its text. -/
theorem resolve_eq_resolveIn (hr : a.registrations[op.registration]? = some r)
    (hd : w.document? r.file = some d) : op.resolve a w = op.resolveIn r d := by
  simp only [resolve, hr, hd]

/-- The change is declined, or there are a registration, a document and places for it. -/
theorem resolve_cases (op : Operation) (a : Audit) (w : Workspace) :
    (op.resolve a w = .declined ∧ ∀ r d places, a.registrations[op.registration]? = some r →
        w.document? r.file = some d → op.anchor? r ≠ some places) ∨
      ∃ r d places, a.registrations[op.registration]? = some r ∧
        w.document? r.file = some d ∧ op.anchor? r = some places := by
  cases hr : a.registrations[op.registration]? with
  | none => exact Or.inl ⟨by simp only [resolve, hr], fun r _ _ h => nomatch h⟩
  | some r =>
    cases hd : w.document? r.file with
    | none =>
      refine Or.inl ⟨by simp only [resolve, hr, hd], ?_⟩
      rintro _ d _ ⟨⟩ hfound
      exact absurd (hd.symm.trans hfound) (by simp)
    | some d =>
      cases hanchor : op.anchor? r with
      | none =>
        refine Or.inl ⟨?_, ?_⟩
        · rw [resolve_eq_resolveIn hr hd, resolveIn_of_anchor?_eq_none hanchor]
        · rintro _ _ _ ⟨⟩ - hplaces
          exact absurd (hanchor.symm.trans hplaces) (by simp)
      | some places => exact Or.inr ⟨r, d, places, rfl, hd, hanchor⟩

/-- **When a change is safe in a workspace that may have changed.**  Let there be an audit with
no place that stops before its start, whatever it was made of, and a change of its
registrations in any workspace.  The change is declined, or
its edit can be made, exactly if the registration, its document or the places in its chain do
not exist, if the places lie between characters of the document, or if they end beyond it and
no statement is removed.  Looking for the lines of a statement fails exactly if one of its
places does not lie between characters. -/
theorem isSafeIn_iff (ha : a.IsOrdered) (w : Workspace) (op : Operation) :
    ((op.resolve a w).IsSafeIn w ↔
      ∀ r d start stop, a.registrations[op.registration]? = some r →
        w.document? r.file = some d → op.anchor? r = some (start, stop) →
          isBoundary d.text.toList start = true ∧ isBoundary d.text.toList stop = true ∨
            op.cutsFirst = false ∧ d.text.utf8ByteSize < stop) ∧
      (op.resolve a w = .crashed ↔ op.cutsFirst = true ∧
        ∃ r d start stop, a.registrations[op.registration]? = some r ∧
          w.document? r.file = some d ∧ op.anchor? r = some (start, stop) ∧
            ¬ (isBoundary d.text.toList start = true ∧ isBoundary d.text.toList stop = true)) := by
  rcases resolve_cases op a w with
    ⟨hdeclined, hnone⟩ | ⟨r, d, ⟨start, stop⟩, hr, hd, hanchor⟩
  · rw [hdeclined]
    refine ⟨iff_of_true (Or.inl rfl) fun r d start stop hr hd hanchor => ?_,
      iff_of_false (by simp) ?_⟩
    · exact absurd hanchor (hnone r d _ hr hd)
    · rintro ⟨-, r, d, start, stop, hr, hd, hanchor, -⟩
      exact hnone r d _ hr hd hanchor
  · have hle := anchor?_ordered (ha r (List.mem_of_getElem? hr)) hanchor
    -- The registration, the document and the places are the only ones.
    have hunique {r' d' start' stop'}
        (hr' : a.registrations[op.registration]? = some r')
        (hd' : w.document? r'.file = some d') (hanchor' : op.anchor? r' = some (start', stop')) :
        d' = d ∧ start' = start ∧ stop' = stop := by
      obtain rfl := Option.some.inj (hr.symm.trans hr')
      obtain rfl := Option.some.inj (hd.symm.trans hd')
      obtain ⟨rfl, rfl⟩ := Prod.mk.inj (Option.some.inj (hanchor.symm.trans hanchor'))
      exact ⟨rfl, rfl, rfl⟩
    rw [resolve_eq_resolveIn hr hd, isSafeIn_resolveIn_iff hd hanchor hle,
      resolveIn_eq_crashed_iff hanchor hle]
    constructor
    · constructor
      · intro hsafe r' d' start' stop' hr' hd' hanchor'
        obtain ⟨rfl, rfl, rfl⟩ := hunique hr' hd' hanchor'
        exact hsafe
      · intro hall
        exact hall r d start stop hr hd hanchor
    · constructor
      · rintro ⟨hop, hplaces⟩
        exact ⟨hop, r, d, start, stop, hr, hd, hanchor, hplaces⟩
      · rintro ⟨hop, r', d', start', stop', hr', hd', hanchor', hplaces⟩
        obtain ⟨rfl, rfl, rfl⟩ := hunique hr' hd' hanchor'
        exact ⟨hop, hplaces⟩

/-- An audit is ordered, when the nodes that are read are. -/
theorem isOrdered_audit (hreader : reader.LiesInTexts) (auditor : Auditor) (w : Workspace) :
    (auditor.audit w).IsOrdered := by
  intro r hr s hs
  obtain ⟨d, -, -, hfits⟩ := Workspace.exists_document_of_mem_registrations hreader hr
  exact (hfits s hs).ordered

end

/-- A registration that is looked for in an earlier document of the same path. -/
def repeatedPath : Workspace :=
  .ofSources [("P.cs", "//xéééééééééééééééééééé"),
    ("P.cs", "AddMaps(c=>\x7bc.CreateMap<S,D>();\x7d);record S(int X);record D(int Y);")]

/-- Its audit. -/
def repeatedPathAudit : Audit := (Auditor.ofSettings {}).audit repeatedPath

/-- The change that ignores the destination member. -/
def ignoreY : Operation := .appendCall 0 "ForMember(dest => dest.Y, opt => opt.Ignore())"

/-- Its edit. -/
def ignoreYEdit : Edit := ⟨"P.cs", 30, 30, ".ForMember(dest => dest.Y, opt => opt.Ignore())"⟩

set_option maxRecDepth 100000 in
/-- The place for the call lies within a character of the first document. -/
theorem resolve_repeatedPath :
    ignoreY.resolve repeatedPathAudit repeatedPath = .edits [ignoreYEdit] ∧
      (removeStatement 0).resolve repeatedPathAudit repeatedPath = .crashed ∧
        (repeatedPath.document? "P.cs").map (fun d => isBoundary d.text.toList 30) =
          some false := by
  decide +kernel

/-- **Changes that are not safe.**  The registration stands in the second document, and its
places are looked for in the first one, where they lie within characters.  The call is put
there, by an edit that cannot be made, and removing the statement fails. -/
theorem not_isSafeIn_repeatedPath :
    ¬ (ignoreY.resolve ((Auditor.ofSettings {}).audit repeatedPath) repeatedPath).IsSafeIn
        repeatedPath ∧
      (removeStatement 0).resolve ((Auditor.ofSettings {}).audit repeatedPath) repeatedPath =
        .crashed := by
  obtain ⟨hedits, hcrashed, hboundary⟩ := resolve_repeatedPath
  rw [repeatedPathAudit] at hedits hcrashed
  refine ⟨?_, hcrashed⟩
  obtain ⟨d, hd, hwithin⟩ := Option.map_eq_some_iff.1 hboundary
  rw [hedits, isSafeIn_edits_iff (e := ignoreYEdit) hd]
  intro hfits
  exact Bool.false_ne_true (hwithin.symm.trans hfits.start)

/-- The audit is ordered, so it is told which changes are safe: removing the statement is
not. -/
theorem isSafeIn_iff_repeatedPath : repeatedPathAudit.IsOrdered ∧
    ¬ ((removeStatement 0).resolve repeatedPathAudit repeatedPath).IsSafeIn repeatedPath ∧
      ∃ r d start stop, repeatedPathAudit.registrations[0]? = some r ∧
        repeatedPath.document? r.file = some d ∧
          (removeStatement 0).anchor? r = some (start, stop) ∧
            ¬ (isBoundary d.text.toList start = true ∧ isBoundary d.text.toList stop = true) := by
  have hordered : repeatedPathAudit.IsOrdered :=
    isOrdered_audit CSharp.Grammar.liesInTexts (.ofSettings {}) repeatedPath
  obtain ⟨hsafe, hcrashes⟩ := isSafeIn_iff hordered repeatedPath (removeStatement 0)
  obtain ⟨-, hcrashed, -⟩ := resolve_repeatedPath
  refine ⟨hordered, ?_, (hcrashes.1 hcrashed).2⟩
  rw [hcrashed]
  exact not_isSafeIn_crashed

/-! ### Changes of audited workspaces -/

section

variable [reader : CSharp.Reader] {w : Workspace}

/-- **In the workspace that was audited every change is safe**, when its documents have
different paths. -/
theorem isSafeIn_audited (hreader : reader.LiesInTexts) (auditor : Auditor)
    (hw : w.HasDistinctPaths) (op : Operation) :
    (op.resolve (auditor.audit w) w).IsSafeIn w := by
  rcases resolve_cases op (auditor.audit w) w with
    ⟨hdeclined, -⟩ | ⟨r, d, ⟨start, stop⟩, hr, hd, hanchor⟩
  · exact Or.inl hdeclined
  · have hmem := List.mem_of_getElem? hr
    have hfits := Workspace.fitsIn_of_mem_registrations hreader hw hmem hd
    have hle := anchor?_ordered (isOrdered_audit hreader auditor w r hmem) hanchor
    rw [resolve_eq_resolveIn hr hd, isSafeIn_resolveIn_iff hd hanchor hle]
    exact Or.inl (isBoundary_of_anchor? hfits hanchor)

end

end Operation

section

variable [reader : CSharp.Reader] (hreader : reader.LiesInTexts)
include hreader

/-- What settles a finding of an audited workspace is found without a failure. -/
theorem Action.crashes_eq_false {auditor : Auditor} {w : Workspace} (hw : w.HasDistinctPaths)
    (f : Finding) : crashes w (auditor.audit w) f = false := by
  rw [crashes, Option.any_eq_false]
  intro s hs
  obtain ⟨r, -, rfl⟩ := Option.map_eq_some_iff.1 hs
  have hne : (Operation.removeStatement r.id).resolve (auditor.audit w) w ≠ .crashed := by
    intro hcrashed
    have hsafe := Operation.isSafeIn_audited hreader auditor hw (.removeStatement r.id)
    rw [hcrashed] at hsafe
    exact Operation.not_isSafeIn_crashed hsafe
  rw [Site.crashes, beq_false_of_ne hne, Bool.and_false]

namespace Repair

variable {auditor : Auditor} {o : RepairOptions}

/-- A round comes to an action, or to the end of its findings. -/
theorem pickCrashes_eq_false {r : Repair} (hr : r.current.HasDistinctPaths) (fs : List Finding) :
    pickCrashes o r (auditor.audit r.current) fs = false := by
  induction fs with
  | nil => rfl
  | cons f fs ih => rw [pickCrashes, Action.crashes_eq_false hreader hr, ih, Bool.and_false, Bool.or_self]

/-- An action that is made keeps the paths, and one that is declined keeps the workspace. -/
theorem hasDistinctPaths_make {r : Repair} {x : Action} (hr : r.current.HasDistinctPaths)
    (hx : x ∈ eligible auditor o r.current) : (make r x).current.HasDistinctPaths := by
  rcases make_cases r x with ⟨w, hedit, -, -, hmake⟩ | ⟨why, -, -, hmake⟩
  · rw [hmake]
    exact hasDistinctPaths_of_mem_eligible hreader hr hx hedit
  · rw [hmake]
    exact hr

/-- No round fails. -/
theorem roundsCrash_eq_false (n : Nat) {r : Repair} (hr : r.current.HasDistinctPaths) :
    roundsCrash auditor o n r = false := by
  induction n generalizing r with
  | zero => rfl
  | succ n ih =>
    simp only [roundsCrash, pickCrashes_eq_false hreader hr, Bool.false_or]
    split
    · rfl
    · next skipped x hchoose =>
      have hfind := (choose_snd auditor o r).symm.trans (congrArg Prod.snd hchoose)
      have hkept : ({ r with skipped } : Repair).current.HasDistinctPaths := hr
      exact ih (hasDistinctPaths_make hreader hkept (List.mem_of_find?_eq_some hfind))

/-- **A repair comes to its end**, when the documents have different paths. -/
theorem crashes_eq_false {w : Workspace} (hw : w.HasDistinctPaths) :
    crashes auditor o w = false :=
  roundsCrash_eq_false hreader o.maxRounds hw

end Repair

end

end MappingAudit
