/-
# Edits that are made together

Edits of one text are made together if each of them takes a stretch between characters and
none starts before the one in front of it ends, in the order of their places.  That only
neighbours are compared is enough: the edits then take stretches one after the other
(`Edit.Takes`).

The text that comes of it has two readings.  From left to right it is made of what the edits
leave alone and of their replacements (`Edit.assembled?`).  From right to left it is what
replacing one stretch after the other makes of the text, where each stretch is still found at
its old place (`Edit.replace?`).  Neither cuts a text within a character or beyond its end.
-/

import MappingAudit.Proofs.StableSort
import MappingAudit.Proofs.TextPlaces
import Mathlib.Data.List.Chain

namespace MappingAudit
namespace Edit

open Pieces (byteLength)

variable {e : Edit} {es : List Edit} {text : String} {a b c d cs : List Char} {n : Nat}

/-! ### Stretches of a text -/

/-- Between two texts there is a boundary. -/
theorem isBoundary_byteLength (a b : List Char) : isBoundary (a ++ b) (byteLength a) = true :=
  isBoundary_iff.2 ⟨a, b, rfl, rfl⟩

/-- A text is cut between its two parts. -/
theorem cutAt_byteLength (a b : List Char) : cutAt (byteLength a) (a ++ b) = (a, b) := by
  rw [cutAt, Pieces.cut?_byteLength, Option.getD_some]

/-- A text without bytes is empty. -/
theorem eq_nil_of_byteLength_eq_zero (h : byteLength cs = 0) : cs = [] := by
  cases cs with
  | nil => rfl
  | cons c cs =>
    have hpos := c.utf8Size_pos
    rw [byteLength] at h
    omega

/-- Of two cuts of a text, the one after fewer bytes comes first. -/
theorem exists_of_append_eq_append (h : a ++ b = c ++ d) (hle : byteLength a ≤ byteLength c) :
    ∃ m, c = a ++ m ∧ b = m ++ d := by
  rcases List.append_eq_append_iff.1 h with ⟨m, hc, hb⟩ | ⟨m, rfl, rfl⟩
  · exact ⟨m, hc, hb⟩
  · rw [Pieces.byteLength_append] at hle
    obtain rfl : m = [] := eq_nil_of_byteLength_eq_zero (by omega)
    exact ⟨[], by simp, rfl⟩

/-- The edit takes a stretch of a text between two of its characters. -/
structure FitsIn (e : Edit) (text : List Char) : Prop where
  start : isBoundary text e.start = true
  stop : isBoundary text e.stop = true
  ordered : e.start ≤ e.stop

/-- An edit that fits has no fault. -/
theorem FitsIn.fault?_eq_none (h : e.FitsIn cs) : fault? cs e = none := by
  have hinside : (decide (e.stop < e.start) || decide (byteLength cs < e.stop)) = false := by
    have hle := le_of_isBoundary h.stop
    have hordered := h.ordered
    rw [Bool.or_eq_false_iff, decide_eq_false_iff_not, decide_eq_false_iff_not]
    omega
  simp only [fault?, hinside, h.start, h.stop, Bool.and_self, if_true, Bool.false_eq_true, if_false]

/-- Edits without a fault are those that fit. -/
theorem fault?_eq_none_iff : fault? cs e = none ↔ e.FitsIn cs := by
  refine ⟨fun h => ?_, FitsIn.fault?_eq_none⟩
  by_cases hinside : (decide (e.stop < e.start) || decide (byteLength cs < e.stop)) = true
  · simp [fault?, hinside] at h
  by_cases hboundary : (isBoundary cs e.start && isBoundary cs e.stop) = true
  · rw [Bool.and_eq_true] at hboundary
    rw [Bool.not_eq_true, Bool.or_eq_false_iff, decide_eq_false_iff_not] at hinside
    exact ⟨hboundary.1, hboundary.2, Nat.le_of_not_lt hinside.1⟩
  · simp [fault?, hinside, hboundary] at h

/-- The text falls into what stands before, in and behind the stretch of an edit. -/
theorem FitsIn.exists_split (h : e.FitsIn cs) :
    ∃ a b c, cs = a ++ (b ++ c) ∧ byteLength a = e.start ∧ byteLength b = e.stop - e.start := by
  obtain ⟨a, rest, rfl, ha⟩ := isBoundary_iff.1 h.start
  obtain ⟨before, c, hsplit, hbefore⟩ := isBoundary_iff.1 h.stop
  have hordered := h.ordered
  obtain ⟨b, rfl, rfl⟩ := exists_of_append_eq_append hsplit (by omega)
  rw [Pieces.byteLength_append] at hbefore
  exact ⟨a, b, c, rfl, ha, by omega⟩

/-- The stretch of a text between two places, if these lie between characters. -/
def slice? (text : List Char) (start stop : Nat) : Option (List Char) := do
  let (before, _) ← Pieces.cut? stop text
  let (_, stretch) ← Pieces.cut? start before
  pure stretch

/-- The middle one of three texts is sliced out of them. -/
theorem slice?_byteLength (a b c : List Char) :
    slice? (a ++ (b ++ c)) (byteLength a) (byteLength (a ++ b)) = some b := by
  rw [← List.append_assoc]
  simp only [slice?, Pieces.cut?_byteLength, Option.bind_eq_bind, Option.bind_some, Option.pure_def]

/-! ### Edits in their order -/

/-- Edits are made in the order of the places where they start, then of those where they
stop. -/
def place (e : Edit) : Nat ×ₗ Nat := toLex (e.start, e.stop)

/-- Edits are sorted by their places. -/
theorem notAfter_iff (e f : Edit) : notAfter e f = true ↔ e.place ≤ f.place := by
  rw [notAfter, place, place, Prod.Lex.toLex_le_toLex]
  simp

/-- **Edits are put in order by a stable sort.** -/
theorem isStableSort_mergeSort (edits : List Edit) :
    IsStableSort place edits (edits.mergeSort notAfter) :=
  .mergeSort notAfter_iff edits

/-- Neighbours do not overlap: none starts before the one in front of it ends. -/
theorem overlap?_eq_none_iff :
    overlap? es = none ↔ es.IsChain fun e f => e.stop ≤ f.start := by
  induction es using overlap?.induct with
  | case1 e f rest hlt => simp [overlap?, hlt]
  | case2 e f rest hle ih =>
    rw [overlap?, if_neg hle, ih, List.isChain_cons_cons]
    exact ⟨fun h => ⟨Nat.le_of_not_lt hle, h⟩, fun h => h.2⟩
  | case3 es hshort =>
    match es with
    | [] => simp [overlap?]
    | [e] => simp [overlap?]
    | e :: f :: rest => exact absurd rfl (hshort e f rest)

/-- The edits take stretches of a text one after the other.  The text starts at byte `n`. -/
inductive Takes : Nat → List Char → List Edit → Prop where
  | nil (n : Nat) (cs : List Char) : Takes n cs []
  | cons {n : Nat} {a b c : List Char} {e : Edit} {es : List Edit}
      (start : n + byteLength a = e.start) (stop : e.start + byteLength b = e.stop)
      (rest : Takes e.stop c es) :
      Takes n (a ++ (b ++ c)) (e :: es)

/-- **Edits whose neighbours do not overlap take stretches one after the other.** -/
theorem takes_of_isChain (hfits : ∀ e ∈ es, e.FitsIn (a ++ b))
    (hchain : es.IsChain fun e f => e.stop ≤ f.start)
    (hfirst : ∀ e ∈ es.head?, byteLength a ≤ e.start) : Takes (byteLength a) b es := by
  induction es generalizing a b with
  | nil => exact .nil _ _
  | cons e es ih =>
    obtain ⟨he, hes⟩ := List.forall_mem_cons.1 hfits
    obtain ⟨hnext, hchain⟩ := List.isChain_cons.1 hchain
    have hordered := he.ordered
    have hstart := hfirst e rfl
    obtain ⟨before, stretch, rest, hsplit, hbefore, hstretch⟩ := he.exists_split
    obtain ⟨kept, rfl, rfl⟩ := exists_of_append_eq_append hsplit (by omega)
    rw [Pieces.byteLength_append] at hbefore
    have hstop : byteLength (a ++ kept ++ stretch) = e.stop := by
      rw [Pieces.byteLength_append, Pieces.byteLength_append]
      omega
    refine .cons hbefore (by omega) ?_
    rw [← hstop]
    refine ih ?_ hchain ?_
    · intro f hf
      have hfit := hes f hf
      rwa [List.append_assoc, List.append_assoc]
    · intro f hf
      rw [hstop]
      exact hnext f hf

/-! ### The text that comes of edits -/

/-- From byte `done` on, the stretches of a text that edits leave alone, with the replacements
between them. -/
def assembled? (text : List Char) (done : Nat) : List Edit → Option (List Char)
  | [] => slice? text done (byteLength text)
  | e :: es => do
    let kept ← slice? text done e.start
    let rest ← assembled? text e.stop es
    pure (kept ++ e.replacement.toList ++ rest)

/-- The text with a replacement in the place of a stretch, which has to lie between characters
of the text. -/
def replace? (e : Edit) (text : List Char) : Option (List Char) := do
  let (before, _) ← Pieces.cut? e.start text
  let (_, after) ← Pieces.cut? e.stop text
  if e.start ≤ e.stop then pure (before ++ e.replacement.toList ++ after) else none

namespace Takes

/-- Splicing starts with the text up to the first edit and its replacement. -/
theorem splice_cons (hstart : n + byteLength a = e.start)
    (hstop : e.start + byteLength b = e.stop) :
    splice n (a ++ (b ++ c)) (e :: es) = a ++ e.replacement.toList ++ splice e.stop c es := by
  have hkept : e.start - n = byteLength a := by omega
  have hstretch : e.stop - e.start = byteLength b := by omega
  simp only [splice, hkept, hstretch, cutAt_byteLength]

/-- From left to right, the text is made of what edits leave alone and of replacements. -/
theorem assembled?_eq (h : Takes n cs es) (hn : byteLength d = n) :
    assembled? (d ++ cs) n es = some (splice n cs es) := by
  induction h generalizing d with
  | nil n cs =>
    have hslice := slice?_byteLength d cs []
    rw [List.append_nil, hn] at hslice
    exact hslice
  | @cons n a b c e es hstart hstop _ ih =>
    have hsplit : d ++ (a ++ (b ++ c)) = d ++ a ++ b ++ c := by simp
    have hkept : slice? (d ++ (a ++ (b ++ c))) n e.start = some a := by
      have hslice := slice?_byteLength d a (b ++ c)
      rwa [Pieces.byteLength_append, hn, hstart] at hslice
    have hrest : assembled? (d ++ (a ++ (b ++ c))) e.stop es = some (splice e.stop c es) := by
      rw [hsplit]
      exact ih (by rw [Pieces.byteLength_append, Pieces.byteLength_append, hn, hstart, hstop])
    rw [assembled?, hkept, hrest, splice_cons hstart hstop]
    rfl

/-- A stretch is found at its place when all behind it has changed. -/
theorem replace?_eq (hstart : byteLength a = e.start) (hstop : byteLength (a ++ b) = e.stop)
    (c : List Char) : e.replace? (a ++ b ++ c) = some (a ++ e.replacement.toList ++ c) := by
  have hle : e.start ≤ e.stop := by
    rw [← hstart, ← hstop, Pieces.byteLength_append]
    exact Nat.le_add_right _ _
  have hbefore : Pieces.cut? e.start (a ++ b ++ c) = some (a, b ++ c) := by
    rw [← hstart, List.append_assoc, Pieces.cut?_byteLength]
  have hafter : Pieces.cut? e.stop (a ++ b ++ c) = some (a ++ b, c) := by
    rw [← hstop, Pieces.cut?_byteLength]
  rw [replace?, hbefore, hafter]
  exact if_pos hle

/-- From right to left, the stretches can be replaced one after the other. -/
theorem foldrM_replace?_eq (h : Takes n cs es) (hn : byteLength d = n) :
    es.foldrM replace? (d ++ cs) = some (d ++ splice n cs es) := by
  induction h generalizing d with
  | nil n cs => rfl
  | @cons n a b c e es hstart hstop _ ih =>
    have hsplit : d ++ (a ++ (b ++ c)) = d ++ a ++ b ++ c := by simp
    have hbefore : byteLength (d ++ a) = e.start := by rw [Pieces.byteLength_append, hn, hstart]
    have hupTo : byteLength (d ++ a ++ b) = e.stop := by
      rw [Pieces.byteLength_append, hbefore, hstop]
    rw [List.foldrM_cons, hsplit, ih hupTo, splice_cons hstart hstop]
    exact (replace?_eq hbefore hupTo _).trans (by simp)

end Takes

/-- Edits are made if each fits in the text and neighbours do not overlap in their order. -/
theorem applyAll_eq_ok_iff {edits : List Edit} {out : String} : applyAll text edits = .ok out ↔
    (∀ e ∈ edits, e.FitsIn text.toList) ∧
      (edits.mergeSort notAfter).IsChain (fun e f => e.stop ≤ f.start) ∧
        out = String.ofList (splice 0 text.toList (edits.mergeSort notAfter)) := by
  have hfits : (edits.mergeSort notAfter).findSome? (fault? text.toList) = none ↔
      ∀ e ∈ edits, e.FitsIn text.toList := by
    rw [List.findSome?_eq_none_iff]
    simp only [fault?_eq_none_iff, List.mem_mergeSort]
  rw [← hfits, ← overlap?_eq_none_iff, applyAll]
  cases hfault : (edits.mergeSort notAfter).findSome? (fault? text.toList) with
  | some fault => simp
  | none =>
    cases hoverlap : overlap? (edits.mergeSort notAfter) with
    | some fault => simp
    | none => simp [eq_comm]

/-- **Edits are spliced into a text, in whatever order they come.**  They are made exactly if
each of them takes a stretch of the text between two characters and, put in order by a stable
sort, none starts before the one in front of it ends.  The text that comes of it is made, from
left to right, of what the edits leave alone and of their replacements.  It is also what
replacing the stretches one at a time from the last to the first makes of the text, and none
of these replacements fails.  When the edits have different places, their order does not
matter. -/
theorem applyAll_splices (text : String) (edits : List Edit) :
    ∃ ordered, IsStableSort place edits ordered ∧
      ((∃ out, applyAll text edits = .ok out) ↔
        (∀ e ∈ edits, e.FitsIn text.toList ∧ e.stop ≤ text.utf8ByteSize) ∧
          ordered.IsChain fun e f => e.stop ≤ f.start) ∧
      (∀ out, applyAll text edits = .ok out →
        assembled? text.toList 0 ordered = some out.toList ∧
          ordered.foldrM replace? text.toList = some out.toList) ∧
      ((edits.map place).Nodup →
        ∀ edits', edits.Perm edits' → applyAll text edits' = applyAll text edits) := by
  refine ⟨edits.mergeSort notAfter, isStableSort_mergeSort edits, ?_, ?_, ?_⟩
  · constructor
    · rintro ⟨out, hout⟩
      obtain ⟨hfits, hchain, -⟩ := applyAll_eq_ok_iff.1 hout
      refine ⟨fun e he => ⟨hfits e he, ?_⟩, hchain⟩
      rw [← Pieces.byteLength_toList]
      exact le_of_isBoundary (hfits e he).stop
    · rintro ⟨hfits, hchain⟩
      exact ⟨_, applyAll_eq_ok_iff.2 ⟨fun e he => (hfits e he).1, hchain, rfl⟩⟩
  · intro out hout
    obtain ⟨hfits, hchain, rfl⟩ := applyAll_eq_ok_iff.1 hout
    have htakes : Takes 0 text.toList (edits.mergeSort notAfter) :=
      takes_of_isChain (a := []) (fun e he => hfits e (List.mem_mergeSort.1 he)) hchain
        fun _ _ => Nat.zero_le _
    rw [String.toList_ofList]
    exact ⟨htakes.assembled?_eq (d := []) rfl, htakes.foldrM_replace?_eq (d := []) rfl⟩
  · intro hplaces edits' hperm
    have hsorted := (isStableSort_mergeSort edits).of_perm hperm hplaces
    have hsame : edits'.mergeSort notAfter = edits.mergeSort notAfter :=
      (isStableSort_mergeSort edits').unique hsorted
    rw [applyAll, applyAll, hsame]

/-- A stretch of two bytes is replaced, and two texts are inserted at its end. -/
def aroundAccent : List Edit := [⟨"P.cs", 3, 3, "c"⟩, ⟨"P.cs", 1, 3, "b"⟩, ⟨"P.cs", 3, 3, "d"⟩]

/-- The edits of `aroundAccent` replace the character between the slashes. -/
theorem applyAll_aroundAccent : applyAll "/é/" aroundAccent = .ok "/bcd/" := by
  have hsorted : aroundAccent.mergeSort notAfter =
      [⟨"P.cs", 1, 3, "b"⟩, ⟨"P.cs", 3, 3, "c"⟩, ⟨"P.cs", 3, 3, "d"⟩] := by
    simp [aroundAccent, List.mergeSort, List.MergeSort.Internal.splitInTwo, notAfter]
  rw [applyAll, hsorted]
  decide +kernel

/-- The inserted texts stand behind the replacement, in the order of the list. -/
theorem applyAll_splices_aroundAccent : ∃ ordered, IsStableSort place aroundAccent ordered ∧
    assembled? "/é/".toList 0 ordered = some "/bcd/".toList ∧
      ordered.foldrM replace? "/é/".toList = some "/bcd/".toList := by
  obtain ⟨ordered, hsorted, -, hmade, -⟩ := applyAll_splices "/é/" aroundAccent
  exact ⟨ordered, hsorted, hmade _ applyAll_aroundAccent⟩

end Edit
end MappingAudit
