/-
# Fixes can be made

An action changes the chain of a registration at places that were read from the text of a
document.  These places lie between characters of that text, so the edit of the action can
be made, and it changes no other document.  Documents are found by their paths, which have
to be different: else the places might be looked for in another text.  A repair makes the
actions one at a time on texts that it reads again, so none of them fails, and what it
reports as errors are actions that would lead back to earlier texts.
-/

import MappingAudit.Proofs.ChainTiles
import MappingAudit.Proofs.MemberClasses
import MappingAudit.Proofs.RegisteredTwice
import MappingAudit.Proofs.RepairHistory
import MappingAudit.Proofs.SplicedEdits
import MappingAudit.Proofs.TextPieces

namespace MappingAudit

/-! ### Edits of a text -/

namespace Pieces

/-- What follows a line, up to the line break that ends it. -/
theorem exists_append_line (cs : List Char) :
    let line := cs.takeWhile (· != '\n')
    let lineBreak := (cs.drop line.length).take 1
    ∃ rest, cs = line ++ (lineBreak ++ rest) ∧ byteLength lineBreak = lineBreak.length := by
  intro line lineBreak
  have hsplit : line ++ cs.dropWhile (· != '\n') = cs := List.takeWhile_append_dropWhile
  have hdrop : cs.drop line.length = cs.dropWhile (· != '\n') :=
    calc cs.drop line.length
        = (line ++ cs.dropWhile (· != '\n')).drop line.length := by rw [hsplit]
      _ = cs.dropWhile (· != '\n') := List.drop_left
  refine ⟨(cs.drop line.length).drop 1, ?_, ?_⟩
  · rw [List.take_append_drop, hdrop, hsplit]
  · cases hrest : cs.dropWhile (· != '\n') with
    | nil => simp [lineBreak, hdrop, hrest, byteLength]
    | cons c rest =>
      have hne : cs.dropWhile (· != '\n') ≠ [] := by simp [hrest]
      have hhead := List.head_dropWhile_not (· != '\n') hne
      obtain rfl : c = '\n' := by simpa [hrest] using hhead
      have hbreak : lineBreak = ['\n'] := by simp [lineBreak, hdrop, hrest]
      rw [hbreak]
      rfl

end Pieces

namespace Edit

open Pieces (byteLength)

variable {e : Edit} {text : String}

/-- The text with the replacement of an edit in place of its stretch. -/
def replaceIn (e : Edit) (text : String) : String := String.ofList (splice 0 text.toList [e])

/-- **A single edit between characters can be made.** -/
theorem FitsIn.applyAll_eq (h : e.FitsIn text.toList) :
    applyAll text [e] = .ok (e.replaceIn text) := by
  simp only [applyAll, List.mergeSort_singleton, List.findSome?_cons, List.findSome?_nil,
    h.fault?_eq_none, overlap?, replaceIn]

/-- What stands around the stretch of an edit stays. -/
theorem FitsIn.exists_replaceIn_eq (h : e.FitsIn text.toList) : ∃ a b c,
    text.toList = a ++ (b ++ c) ∧ byteLength a = e.start ∧ byteLength b = e.stop - e.start ∧
      (e.replaceIn text).toList = a ++ e.replacement.toList ++ c := by
  obtain ⟨a, b, c, hsplit, ha, hb⟩ := h.exists_split
  refine ⟨a, b, c, hsplit, ha, hb, ?_⟩
  have hordered := h.ordered
  rw [replaceIn, String.toList_ofList, hsplit, Takes.splice_cons (by omega) (by omega)]
  rfl

end Edit

/-! ### Edits of a chain -/

namespace Registration

variable {r : Registration} {c : Source.Call}

/-- The span of a call is among the places of its chain. -/
theorem span_mem_spans (hc : c ∈ r.chain.calls) : c.span ∈ r.chain.spans :=
  List.mem_append_right _ (List.mem_flatMap.2 ⟨c, hc, List.mem_cons_self⟩)

/-- So is the span of its statement. -/
theorem statement_mem_spans {st : Source.StatementSite} (h : r.chain.statement = some st) :
    st.span ∈ r.chain.spans :=
  List.mem_append_left _ (List.mem_cons_of_mem _ (by rw [h]; exact List.mem_singleton_self _))

/-- So is the segment of a call after the first. -/
theorem segment_mem_spans {i : Nat} (h : r.laterCall? i = some c) : c.segment ∈ r.chain.spans := by
  have hc : c ∈ r.chain.calls := by
    rw [laterCall?] at h
    split at h
    · cases h
    · exact List.mem_of_getElem? h
  have hsegment : c.segment ∈ c.spans := List.mem_cons_of_mem _ List.mem_cons_self
  exact List.mem_append_right _ (List.mem_flatMap.2 ⟨c, hc, hsegment⟩)

/-- What configures the mapping ends where a call or the chain does. -/
theorem exists_forwardEnd_eq (r : Registration) :
    ∃ s ∈ r.chain.spans, r.forwardEnd = s.endByte := by
  have hchain : r.chain.span ∈ r.chain.spans := List.mem_cons_self
  cases hreverse : r.reverse with
  | none => exact ⟨_, hchain, by rw [forwardEnd, hreverse]⟩
  | some back =>
    cases hcall : (if back.callIndex = 0 then none else r.chain.calls[back.callIndex - 1]?) with
    | none => exact ⟨_, hchain, by simp only [forwardEnd, hreverse, hcall]⟩
    | some c =>
      have hc : c ∈ r.chain.calls := by
        split at hcall
        · cases hcall
        · exact List.mem_of_getElem? hcall
      exact ⟨_, span_mem_spans hc, by simp only [forwardEnd, hreverse, hcall]⟩

end Registration

namespace Operation

open Edit (isBoundary isBoundary_byteLength)
open Pieces (byteLength)

variable {text : List Char} {start stop a b : Nat}

/-- A stretch between characters that is widened to whole lines stays between characters. -/
theorem isBoundary_of_wholeLines? (h : wholeLines? text start stop = some (a, b)) :
    isBoundary text a = true ∧ isBoundary text b = true ∧ a ≤ start ∧ stop ≤ b := by
  obtain ⟨⟨before, behind⟩, hstart, h⟩ := Option.bind_eq_some_iff.1 h
  obtain ⟨⟨upTo, after⟩, hstop, h⟩ := Option.bind_eq_some_iff.1 h
  obtain ⟨hsplit, rfl⟩ := Pieces.eq_append_of_cut? hstart
  obtain ⟨hsplit', rfl⟩ := Pieces.eq_append_of_cut? hstop
  dsimp only at h
  split at h
  · obtain ⟨rfl, rfl⟩ := Prod.mk.inj (Option.some.inj h)
    obtain ⟨first, hfirst⟩ := Pieces.exists_append_lastPiece (· == '\n') before
    obtain ⟨rest, hrest, hbreak⟩ := Pieces.exists_append_line after
    refine ⟨?_, ?_, Nat.sub_le _ _, by omega⟩
    · have hlength : byteLength before - byteLength (Pieces.lastPiece (· == '\n') before) =
          byteLength first := by
        have hsum := congrArg byteLength hfirst
        rw [Pieces.byteLength_append] at hsum
        omega
      rw [hlength, hsplit, hfirst, List.append_assoc]
      exact isBoundary_byteLength _ _
    · have hcut : text = upTo ++ after.takeWhile (· != '\n') ++
          (after.drop (after.takeWhile (· != '\n')).length).take 1 ++ rest := by
        rw [hsplit', List.append_assoc, List.append_assoc]
        exact congrArg (upTo ++ ·) hrest
      rw [← hbreak, ← Pieces.byteLength_append, ← Pieces.byteLength_append, hcut]
      exact isBoundary_byteLength _ _
  · obtain ⟨rfl, rfl⟩ := Prod.mk.inj (Option.some.inj h)
    refine ⟨?_, ?_, Nat.le_refl _, Nat.le_refl _⟩
    · rw [hsplit]
      exact isBoundary_byteLength _ _
    · rw [hsplit']
      exact isBoundary_byteLength _ _

/-- **An edit that changes a chain fits in its text**, if the places in the chain do. -/
theorem fitsIn_of_edit? {r : Registration} (hr : ∀ s ∈ r.chain.spans, s.FitsIn text)
    {op : Operation} {e : Edit} (h : op.edit? r text = some e) :
    e.file = r.file ∧ e.FitsIn text := by
  cases op with
  | appendCall i call =>
    obtain ⟨s, hs, hstop⟩ := r.exists_forwardEnd_eq
    obtain rfl := Option.some.inj h
    have hboundary : isBoundary text r.forwardEnd = true := by
      rw [hstop]
      exact (hr s hs).stop
    exact ⟨rfl, hboundary, hboundary, Nat.le_refl _⟩
  | replaceCall i index call =>
    obtain ⟨c, hc, h⟩ := Option.bind_eq_some_iff.1 h
    obtain rfl := Option.some.inj h
    have hsegment := hr _ (Registration.segment_mem_spans hc)
    exact ⟨rfl, hsegment.start, hsegment.stop, hsegment.ordered⟩
  | removeCall i index =>
    obtain ⟨c, hc, h⟩ := Option.bind_eq_some_iff.1 h
    obtain rfl := Option.some.inj h
    have hsegment := hr _ (Registration.segment_mem_spans hc)
    exact ⟨rfl, hsegment.start, hsegment.stop, hsegment.ordered⟩
  | insertStatements i statements =>
    obtain ⟨st, hst, h⟩ := Option.bind_eq_some_iff.1 h
    obtain rfl := Option.some.inj h
    have hstatement := hr _ (Registration.statement_mem_spans hst)
    exact ⟨rfl, hstatement.stop, hstatement.stop, Nat.le_refl _⟩
  | removeStatement i =>
    obtain ⟨st, hst, h⟩ := Option.bind_eq_some_iff.1 h
    obtain ⟨⟨a, b⟩, hlines, h⟩ := Option.bind_eq_some_iff.1 h
    obtain rfl := Option.some.inj h
    have hordered := (hr _ (Registration.statement_mem_spans hst)).ordered
    obtain ⟨hstart, hstop, hbefore, hbehind⟩ := isBoundary_of_wholeLines? hlines
    exact ⟨rfl, hstart, hstop, by dsimp only; omega⟩

/-- A change that has edits has a single one, in the document of its registration. -/
theorem exists_of_edits? [CSharp.Reader] {op : Operation} {a : Audit} {w : Workspace} {es : List Edit}
    (h : op.edits? a w = some es) : ∃ r d e, a.registrations[op.registration]? = some r ∧
      w.document? r.file = some d ∧ op.edit? r d.text.toList = some e ∧ es = [e] := by
  rw [edits?, resolve] at h
  cases hr : a.registrations[op.registration]? with
  | none => simp [hr, Resolution.edits?] at h
  | some r =>
    cases hd : w.document? r.file with
    | none => simp [hr, hd, Resolution.edits?] at h
    | some d =>
      simp only [hr, hd, resolveIn] at h
      split at h
      · cases h
      · split at h
        · next e he =>
          split at h
          · exact ⟨r, d, e, rfl, hd, he, (Option.some.inj h).symm⟩
          · cases h
        · cases h

end Operation

/-! ### Documents and their registrations -/

section

variable [reader : CSharp.Reader]

namespace Workspace

/-- The documents have different paths. -/
def HasDistinctPaths (w : Workspace) : Prop := (w.documents.map (·.path)).Nodup

instance (w : Workspace) : Decidable w.HasDistinctPaths :=
  inferInstanceAs (Decidable (List.Nodup _))

variable {w : Workspace} {d : Document}

/-- The places in the chain of a registration lie between characters of a document, when those
of the nodes that are read do. -/
theorem exists_document_of_mem_registrations (hreader : reader.LiesInTexts) {r : Registration} (hr : r ∈ w.registrations) :
    ∃ d ∈ w.documents, d.path = r.file ∧ ∀ s ∈ r.chain.spans, s.FitsIn d.text.toList := by
  obtain ⟨f, hf, chain, hchain, i, id, hr⟩ := Registration.exists_of_mem_ofFiles hr
  obtain ⟨-, root, types, -, -, rfl⟩ := Registration.ofChain?_eq_some_iff.1 hr
  obtain ⟨d, hd, rfl⟩ := List.mem_map.1 hf
  have hpath : d.file.path = d.path := by rw [d.file_eq]; rfl
  rw [d.file_eq] at hchain
  rw [Registration.file_ofCalls, Registration.chain_ofCalls]
  exact ⟨d, hd, hpath.symm, fun s hs => Source.isPlaced_of_mem_spans (hreader _) hchain hs⟩

/-- With different paths, this is the document that is found by the file of the registration. -/
theorem fitsIn_of_mem_registrations (hreader : reader.LiesInTexts) (hw : w.HasDistinctPaths)
    {r : Registration} (hr : r ∈ w.registrations) (hd : w.document? r.file = some d) :
    ∀ s ∈ r.chain.spans, s.FitsIn d.text.toList := by
  obtain ⟨d', hd', hpath, hfits⟩ := exists_document_of_mem_registrations hreader hr
  rw [← hpath] at hd
  obtain rfl : d' = d := Option.some.inj ((find?_name_of_mem hw hd').symm.trans hd)
  exact hfits

/-- The document of a path is found where it is, and a new text is put there. -/
theorem document?_and_withText? (hw : w.HasDistinctPaths) {i : Nat}
    (hd : w.documents[i]? = some d) (text : String) : w.document? d.path = some d ∧
      w.withText? d.path text = some ⟨w.documents.set i (Document.read d.path text)⟩ := by
  refine ⟨find?_name_of_mem hw (List.mem_of_getElem? hd), ?_⟩
  obtain ⟨hi, hget⟩ := List.getElem?_eq_some_iff.1 hd
  have hindex : w.documents.findIdx? (·.path == d.path) = some i := by
    rw [List.findIdx?_eq_some_iff_getElem]
    refine ⟨hi, by rw [hget]; exact beq_self_eq_true d.path, ?_⟩
    intro j hj hpath
    have hsame : (w.documents.map (·.path))[j]? = (w.documents.map (·.path))[i]? := by
      rw [List.getElem?_map, List.getElem?_map, hd, List.getElem?_eq_getElem (Nat.lt_trans hj hi)]
      exact congrArg some (beq_iff_eq.1 hpath)
    have hjlt : j < (w.documents.map (·.path)).length := by
      rw [List.length_map]
      exact Nat.lt_trans hj hi
    exact absurd ((List.getElem?_inj hjlt hw).1 hsame) (Nat.ne_of_lt hj)
  rw [withText?, hindex, Option.map_some]

/-- A text in the place of another changes no path. -/
theorem hasDistinctPaths_set (hw : w.HasDistinctPaths) {i : Nat} (hd : w.documents[i]? = some d)
    (text : String) : HasDistinctPaths ⟨w.documents.set i (Document.read d.path text)⟩ := by
  have hpath : (w.documents.map (·.path))[i]? = some d.path := by
    rw [List.getElem?_map, hd, Option.map_some]
  have hsame : (w.documents.map (·.path)).set i d.path = w.documents.map (·.path) := by
    obtain ⟨hi, hget⟩ := List.getElem?_eq_some_iff.1 hpath
    rw [← hget, List.set_getElem_self hi]
  rw [HasDistinctPaths, List.map_set]
  exact (congrArg List.Nodup hsame).mpr hw

end Workspace

/-- **An edit of one document of a workspace.** -/
structure Edit.Applies (e : Edit) (w : Workspace) (i : Nat) (d : Document) : Prop where
  document : w.documents[i]? = some d
  file : e.file = d.path
  /-- The stretch lies between characters of the document. -/
  fits : e.FitsIn d.text.toList
  size : e.stop ≤ d.text.utf8ByteSize
  /-- What stands around the stretch stays. -/
  around : ∃ a b c, d.text.toList = a ++ (b ++ c) ∧ Pieces.byteLength a = e.start ∧
    Pieces.byteLength b = e.stop - e.start ∧
      (e.replaceIn d.text).toList = a ++ e.replacement.toList ++ c
  /-- The edit can be made.  The document is read again from the new text, and the other
  documents stay as they are. -/
  made : w.edit [e] = .ok ⟨w.documents.set i (Document.read d.path (e.replaceIn d.text))⟩

/-- An edit between characters of a document of the workspace applies to it. -/
theorem Edit.FitsIn.applies {w : Workspace} (hw : w.HasDistinctPaths) {i : Nat} {d : Document}
    (hd : w.documents[i]? = some d) {e : Edit} (hfile : e.file = d.path)
    (h : e.FitsIn d.text.toList) : e.Applies w i d where
  document := hd
  file := hfile
  fits := h
  size := by
    rw [← Pieces.byteLength_toList]
    exact Edit.le_of_isBoundary h.stop
  around := h.exists_replaceIn_eq
  made := by
    obtain ⟨hfound, hset⟩ := Workspace.document?_and_withText? hw hd (e.replaceIn d.text)
    have hfiles : Edit.files [e] = [d.path] := by
      rw [Edit.files, List.map_singleton, List.mergeSort_singleton, hfile]
      rfl
    have hedits : [e].filter (·.file == d.path) = [e] := by simp [hfile]
    rw [Workspace.edit, hfiles]
    simp only [List.foldlM_cons, List.foldlM_nil, Workspace.editFile, hfound, hedits,
      h.applyAll_eq, hset, Option.getD_some]
    rfl

/-! ### What actions offer -/

namespace Site

variable {s : Site}

/-- The edits of an action are those of its change. -/
def Makes (s : Site) (x : Action) : Prop :=
  x.operation.edits? s.audit s.workspace = some x.edits

/-- Whatever action is offered has the edits of its change. -/
def Offers (s : Site) (o : Option Action) : Prop := ∀ x, o = some x → s.Makes x

/-- Where no action is offered, none has other edits. -/
theorem offers_none : s.Offers none := fun _ h => nomatch h

/-- What was found first may decide on the action. -/
theorem Offers.bind {α : Type} {o : Option α} {f : α → Option Action} (h : ∀ a, s.Offers (f a)) :
    s.Offers (o.bind f) := by
  intro x hx
  obtain ⟨a, -, ha⟩ := Option.bind_eq_some_iff.1 hx
  exact h a x ha

/-- The key of an action has no part in its edits. -/
theorem Offers.withKey {o : Option Action} (h : s.Offers o) (key : String) :
    s.Offers (o.bind fun x => some { x with key }) := by
  intro x hx
  obtain ⟨y, hy, hxy⟩ := Option.bind_eq_some_iff.1 hx
  obtain rfl := Option.some.inj hxy
  exact h y hy

section

variable {strategy subject title options expr : String} {confidence : Confidence}

/-- An action of one operation makes its change. -/
theorem offers_action? {op : Operation} :
    s.Offers (s.action? strategy subject title confidence op) := by
  intro x hx
  obtain ⟨edits, hedits, rfl⟩ := Option.map_eq_some_iff.1 hx
  exact hedits

/-- Configuring a member makes a change. -/
theorem offers_memberAction? : s.Offers (s.memberAction? strategy title options confidence) :=
  .bind fun _ => offers_action?

/-- So does mapping it from an expression. -/
theorem offers_mapFrom? : s.Offers (s.mapFrom? strategy title expr confidence) :=
  offers_memberAction?

/-- So does ignoring it. -/
theorem offers_ignore? : s.Offers (s.ignore? confidence) :=
  .bind fun _ => offers_memberAction?

/-- So does converting it. -/
theorem offers_convert? : s.Offers s.convert? :=
  .bind fun _ => .bind fun _ => .bind fun _ => .bind fun _ => offers_mapFrom?

/-- So does writing a value in place of null. -/
theorem offers_substituteNull? : s.Offers s.substituteNull? :=
  .bind fun _ => .bind fun _ => .bind fun _ => .bind fun _ => offers_mapFrom?

/-- So does making a collection of another kind. -/
theorem offers_materialize? : s.Offers s.materialize? :=
  .bind fun _ => .bind fun _ => .bind fun _ => .bind fun _ => .bind fun _ => .bind fun _ =>
    offers_mapFrom?

/-- So does converting the elements. -/
theorem offers_project? : s.Offers s.project? :=
  .bind fun _ => .bind fun _ => .bind fun _ => .bind fun _ => .bind fun _ => .bind fun _ =>
    .bind fun _ => .bind fun _ => offers_mapFrom?

/-- So does leaving a source member unread. -/
theorem offers_exempt? : s.Offers s.exempt? :=
  .bind fun _ => offers_action?

/-- So does naming a source member as it is spelled. -/
theorem offers_nameExactly? : s.Offers s.nameExactly? :=
  .bind fun _ => .bind fun _ => offers_mapFrom?

/-- So does registering what is missing. -/
theorem offers_registerMissing? : s.Offers s.registerMissing? := by
  refine .bind fun encoded => ?_
  dsimp only
  split <;> exact .bind fun _ => .withKey offers_action? _

/-- So does taking a mapping back out. -/
theorem offers_dropReverse? : s.Offers s.dropReverse? :=
  .bind fun _ => .bind fun _ => .bind fun _ => offers_action?

/-- So does taking a registration out. -/
theorem offers_dropRegistration? : s.Offers s.dropRegistration? := by
  rw [dropRegistration?]
  split
  · exact offers_action?
  · exact offers_none

/-- So does taking a directive out. -/
theorem offers_dropDirective? : s.Offers (s.dropDirective? strategy confidence) :=
  .bind fun _ => .bind fun _ => .bind fun _ => offers_action?

end

/-- **The edits of an action are those of its change**, whatever settles the finding. -/
theorem makes_of_mem_offers {x : Action} (h : some x ∈ s.offers) : s.Makes x := by
  have hall : ∀ o ∈ s.offers, s.Offers o := by
    rw [offers]
    split <;> simp only [List.forall_mem_cons, List.not_mem_nil, false_imp_iff, implies_true,
      and_true]
    · exact ⟨offers_convert?, offers_ignore?⟩
    · exact offers_substituteNull?
    · exact offers_materialize?
    · exact offers_exempt?
    · exact offers_nameExactly?
    · exact offers_ignore?
    · exact offers_ignore?
    · exact offers_registerMissing?
    · exact ⟨offers_project?, offers_registerMissing?⟩
    · exact ⟨offers_action?, offers_action?⟩
    · exact ⟨offers_dropReverse?, offers_dropRegistration?⟩
    · exact offers_dropDirective?
    · exact offers_dropDirective?
  exact hall _ h x rfl

end Site
namespace Action

/-- An action for a finding changes a registration of the audit, and the edits of the change
are its edits. -/
theorem edits?_of_mem_forFinding {w : Workspace} {a : Audit} {f : Finding} {x : Action}
    (h : x ∈ forFinding w a f) : x.operation.edits? a w = some x.edits := by
  rw [forFinding] at h
  split at h
  · next s hs =>
    obtain ⟨r, -, rfl⟩ := Option.map_eq_some_iff.1 hs
    obtain ⟨o, ho, rfl⟩ := List.mem_filterMap.1 h
    exact Site.makes_of_mem_offers ho
  · exact absurd h List.not_mem_nil

/-- The action has one edit, and the edit applies to a document of the workspace. -/
def Applies (w : Workspace) (x : Action) : Prop :=
  ∃ e i d, x.edits = [e] ∧ e.Applies w i d

/-- **Actions apply.** -/
theorem applies_of_mem_forFinding (hreader : reader.LiesInTexts) {auditor : Auditor}
    {w : Workspace} (hw : w.HasDistinctPaths) {f : Finding} {x : Action}
    (h : x ∈ forFinding w (auditor.audit w) f) : x.Applies w := by
  obtain ⟨r, d, e, hr, hd, he, hedits⟩ := Operation.exists_of_edits? (edits?_of_mem_forFinding h)
  have hplaces := Workspace.fitsIn_of_mem_registrations hreader hw (List.mem_of_getElem? hr) hd
  obtain ⟨hfile, hfits⟩ := Operation.fitsIn_of_edit? hplaces he
  have hpath : d.path = r.file := beq_iff_eq.1 (List.find?_some hd :)
  obtain ⟨i, hi⟩ := List.mem_iff_getElem?.1 (List.mem_of_find?_eq_some hd)
  exact ⟨e, i, d, hedits, hfits.applies hw hi (hfile.trans hpath.symm)⟩

end Action

namespace Repair

variable {auditor : Auditor} {o : RepairOptions}

section

variable (hreader : reader.LiesInTexts)
include hreader

/-- An action leads from a workspace with different paths to such a workspace. -/
theorem hasDistinctPaths_of_mem_eligible {w v : Workspace} {x : Action} (hw : w.HasDistinctPaths)
    (hx : x ∈ eligible auditor o w) (hedit : w.edit x.edits = .ok v) : v.HasDistinctPaths := by
  obtain ⟨f, -, -, hf, -⟩ := mem_eligible.1 hx
  obtain ⟨e, i, d, hedits, happlies⟩ := Action.applies_of_mem_forFinding hreader hw hf
  rw [hedits, happlies.made] at hedit
  obtain rfl := Except.ok.inj hedit
  exact Workspace.hasDistinctPaths_set hw happlies.document _

/-- All workspaces on a path from such a workspace are such workspaces. -/
theorem hasDistinctPaths_of_isPath {w : Workspace} {steps : List (Action × Workspace)}
    (h : IsPath auditor o w steps) (hw : w.HasDistinctPaths) :
    ∀ u ∈ visited w steps, u.HasDistinctPaths := by
  induction steps generalizing w with
  | nil =>
    intro u hu
    rwa [List.mem_singleton.1 hu]
  | cons step steps ih =>
    obtain ⟨x, v⟩ := step
    obtain ⟨hx, hedit, hrest⟩ := h
    rw [visited_cons]
    exact List.forall_mem_cons.2 ⟨hw, ih hrest (hasDistinctPaths_of_mem_eligible hreader hw hx hedit)⟩

end

/-- **What is reported was refused.**  An error at the end is one from the start, or it names
an action that some round tried and refused. -/
theorem Rounds.errors_cases {n : Nat} {r r' : Repair} {log : List Attempt}
    (h : Rounds auditor o n r log r') {error : String} (herror : error ∈ r'.errors) :
    error ∈ r.errors ∨ ∃ a ∈ log, ∃ why, Refused r'.seen a.before a.action why ∧
      error = a.action.key ++ ": " ++ why := by
  induction h with
  | limit r => exact Or.inl herror
  | done h => exact Or.inl herror
  | keep h hw hnew hr ih =>
    rcases ih herror with hold | ⟨a, ha, hrest⟩
    · exact Or.inl hold
    · exact Or.inr ⟨a, List.mem_cons_of_mem _ ha, hrest⟩
  | decline h hx hr ih =>
    rcases ih herror with hold | ⟨a, ha, hrest⟩
    · rcases List.mem_append.1 hold with hold | hnew
      · exact Or.inl hold
      · exact Or.inr ⟨_, List.mem_cons_self, _, hx.mono hr.subset_seen, List.mem_singleton.1 hnew⟩
    · exact Or.inr ⟨a, List.mem_cons_of_mem _ ha, hrest⟩

/-- Where rounds try something, there is something to try at their start. -/
theorem Rounds.exists_mem_eligible {n : Nat} {r r' : Repair} {log : List Attempt} {a : Attempt}
    (h : Rounds auditor o n r log r') (ha : a ∈ log) : ∃ x, x ∈ eligible auditor o r.current := by
  cases h with
  | limit r => exact absurd ha List.not_mem_nil
  | done h => exact absurd ha List.not_mem_nil
  | keep h hw hnew hr => exact ⟨_, List.mem_of_find?_eq_some h⟩
  | decline h hx hr => exact ⟨_, List.mem_of_find?_eq_some h⟩

/-- The error says of an action that was tried that it leads to a workspace whose fingerprint
was there before. -/
def ReportsCycle (auditor : Auditor) (o : RepairOptions) (w : Workspace) (error : String) : Prop :=
  ∃ a ∈ attempts auditor o w, error = a.action.key ++ ": fix cycle" ∧
    ∃ v, a.before.edit a.action.edits = .ok v ∧
      ∃ u ∈ visited w (kept (attempts auditor o w)), v.fingerprint = u.fingerprint

/-- An error of a repair reports a cycle. -/
theorem reportsCycle_of_mem_errors (hreader : reader.LiesInTexts) {w : Workspace}
    (hw : w.HasDistinctPaths) {error : String}
    (herror : error ∈ (run auditor o w).errors) : ReportsCycle auditor o w error := by
  have hrun := run_rounds auditor o w
  rcases hrun.errors_cases herror with hold | ⟨a, ha, why, hrefused, rfl⟩
  · exact absurd hold List.not_mem_nil
  · have hbefore := hasDistinctPaths_of_isPath hreader hrun.isPath hw _ (hrun.before_mem a ha)
    obtain ⟨f, -, -, hf, -⟩ := mem_eligible.1 (hrun.action_mem a ha)
    obtain ⟨e, i, d, hedits, happlies⟩ := Action.applies_of_mem_forFinding hreader hbefore hf
    cases hrefused with
    | fails hedit =>
      rw [hedits, happlies.made] at hedit
      cases hedit
    | @cycle v hedit hseen =>
      rw [seen_run, List.mem_reverse, List.mem_map] at hseen
      obtain ⟨u, hu, hfingerprint⟩ := hseen
      exact ⟨a, ha, by rw [String.append_assoc]; rfl, v, hedit, u, hu, hfingerprint.symm⟩

/-- **Fixes apply.**  Take any reader whose nodes lie between characters of their texts, each
within its parent, and documents with different paths, whatever the checks and the settings.
Each action for a finding has exactly one edit; the edit takes a stretch of one
document between two of its characters, it can be made, and all other documents stay as they
are.  Whatever a repair reports as an error is an action that can be made and leads back to a
fingerprint that was there before. -/
theorem fixes_apply (hreader : reader.LiesInTexts) (auditor : Auditor) (o : RepairOptions)
    (w : Workspace) (h : w.HasDistinctPaths) :
    (∀ f, ∀ x ∈ Action.forFinding w (auditor.audit w) f, x.Applies w) ∧
      ∀ error ∈ (run auditor o w).errors, ReportsCycle auditor o w error :=
  ⟨fun _ _ hx => Action.applies_of_mem_forFinding hreader h hx,
    fun _ he => reportsCycle_of_mem_errors hreader h he⟩

end Repair

end

namespace Repair

/-- The grammar is such a reader, and the action that settles the finding of `caseVariants`
applies. -/
theorem fixes_apply_caseVariants : CSharp.Grammar.reader.LiesInTexts ∧
    caseVariants.HasDistinctPaths ∧
    (∃ f, ∃ x ∈ Action.forFinding caseVariants (Auditor.audit (.ofSettings {}) caseVariants) f,
      x.Applies caseVariants) ∧
    ∀ error ∈ (run (.ofSettings {}) {} caseVariants).errors,
      ReportsCycle (.ofSettings {}) {} caseVariants error := by
  have hpaths : caseVariants.HasDistinctPaths := List.nodup_singleton _
  obtain ⟨hactions, herrors⟩ :=
    fixes_apply CSharp.Grammar.liesInTexts (.ofSettings {}) {} caseVariants hpaths
  refine ⟨CSharp.Grammar.liesInTexts, hpaths, ?_, herrors⟩
  obtain ⟨-, -, a, ha, -⟩ := caseVariants_attempts
  obtain ⟨x, hx⟩ := (run_rounds (.ofSettings {}) {} caseVariants).exists_mem_eligible ha
  obtain ⟨f, -, -, hf, -⟩ := mem_eligible.1 hx
  exact ⟨f, x, hf, hactions f x hf⟩

end Repair
end MappingAudit
