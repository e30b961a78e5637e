/-
# Outermost smells

Of smells that lie in one another the outermost is kept.  They are put in order first: those
that start earlier, and of these the longer ones.  After that a smell can only lie in one that
comes before it (`Smell.contains_of_notAfter`), so that looking back at what is kept is enough.

`outermost_maximal` says which smells are kept: those that lie in no larger place, and of
several at one place the first of the list.
-/

import MappingAudit.Smell.Basic
import MappingAudit.Proofs.StableSort
import Mathlib.Data.List.Perm.Subperm

namespace MappingAudit

/-- The spans cover the same bytes. -/
def Span.samePlace (a b : Span) : Bool := a.startByte == b.startByte && a.endByte == b.endByte

/-- Spans of one place contain each other. -/
theorem Span.samePlace_iff {a b : Span} :
    a.samePlace b = true ↔ a.contains b = true ∧ b.contains a = true := by
  rw [samePlace, Bool.and_eq_true, beq_iff_eq, beq_iff_eq, contains_iff, contains_iff]
  omega

namespace Smell

variable {s t : Smell} {kept ss smells : List Smell}

/-! ### The order of smells -/

/-- The place by which smells are put in order. -/
def place (s : Smell) : Nat ×ₗ Natᵒᵈ := toLex (s.span.startByte, .toDual s.span.endByte)

/-- Smells are sorted by their places. -/
theorem notAfter_iff (s t : Smell) : notAfter s t = true ↔ s.place ≤ t.place := by
  rw [notAfter, place, place, Prod.Lex.toLex_le_toLex]
  simp

/-- Smells have one place when their spans have. -/
theorem place_eq_iff : t.place = s.place ↔ t.span.samePlace s.span = true := by
  simp [place, Span.samePlace]

/-- **Smells are put in order by a stable sort.** -/
theorem isStableSort_mergeSort (smells : List Smell) :
    IsStableSort place smells (smells.mergeSort notAfter) :=
  .mergeSort notAfter_iff smells

/-- What lies in a smell after it has the same place. -/
theorem contains_of_notAfter (h : notAfter s t = true) (hcontains : t.span.contains s.span = true) :
    s.span.contains t.span = true := by
  rw [Span.contains_iff] at hcontains ⊢
  simp only [notAfter, Bool.or_eq_true, Bool.and_eq_true, decide_eq_true_eq, beq_iff_eq] at h
  omega

/-- Sorting keeps which smell of a place is the first. -/
theorem find?_mergeSort (smells : List Smell) (s : Smell) :
    (smells.mergeSort notAfter).find? (·.span.samePlace s.span) =
      smells.find? (·.span.samePlace s.span) := by
  have hkept := (isStableSort_mergeSort smells).kept s.place
  have hplace : (fun t : Smell => decide (t.place = s.place)) = (·.span.samePlace s.span) := by
    funext t
    rw [Bool.eq_iff_iff, decide_eq_true_eq, place_eq_iff]
  rw [hplace] at hkept
  rw [← List.head?_filter, ← List.head?_filter, hkept]

/-! ### What is kept -/

/-- The smell lies in one of some others. -/
def LiesIn (s : Smell) (ss : List Smell) : Prop := ∃ t ∈ ss, t.span.contains s.span = true

/-- A smell lies in the first one or in one of the others. -/
theorem liesIn_cons_iff : s.LiesIn (t :: ss) ↔ t.span.contains s.span = true ∨ s.LiesIn ss := by
  simp [LiesIn]

/-- A smell lies in one of the first smells or in one of the second. -/
theorem liesIn_append_iff : s.LiesIn (ss ++ kept) ↔ s.LiesIn ss ∨ s.LiesIn kept := by
  simp [LiesIn, or_and_right, exists_or]

/-- What lies in a smell lies where that one does. -/
theorem LiesIn.trans (hst : t.span.contains s.span = true) (h : t.LiesIn ss) : s.LiesIn ss :=
  h.imp fun _ hr => ⟨hr.1, Span.contains_trans hr.2 hst⟩

/-- Asking for a span around a smell asks whether the smell lies in some other. -/
theorem any_contains_iff : kept.any (·.span.contains s.span) = true ↔ s.LiesIn kept :=
  List.any_eq_true

/-- The smell stands in a list where it lies in none before it. -/
def StandsFree (s : Smell) (ss : List Smell) : Prop :=
  ∃ before after, ss = before ++ s :: after ∧ ¬ s.LiesIn before

/-- A smell stands free when it comes first, or when it is free of the first one and stands free
behind it. -/
theorem standsFree_cons_iff : s.StandsFree (t :: ss) ↔
    s = t ∨ (¬ t.span.contains s.span = true ∧ s.StandsFree ss) := by
  constructor
  · rintro ⟨before, after, hss, hbefore⟩
    cases before with
    | nil => exact .inl (List.cons.inj hss).1.symm
    | cons r before =>
      obtain ⟨rfl, rfl⟩ := List.cons.inj hss
      rw [liesIn_cons_iff, not_or] at hbefore
      exact .inr ⟨hbefore.1, before, after, rfl, hbefore.2⟩
  · rintro (rfl | ⟨hst, before, after, rfl, hbefore⟩)
    · exact ⟨[], ss, rfl, by simp [LiesIn]⟩
    · refine ⟨t :: before, after, rfl, ?_⟩
      rw [liesIn_cons_iff]
      exact not_or.2 ⟨hst, hbefore⟩

/-- What is looked at is kept if it lies neither in what is kept nor in what comes before. -/
theorem mem_keepOutermost_iff :
    s ∈ keepOutermost kept ss ↔ s ∈ kept ∨ (¬ s.LiesIn kept ∧ s.StandsFree ss) := by
  induction ss generalizing kept with
  | nil => simp [keepOutermost, StandsFree]
  | cons t ss ih =>
    rw [keepOutermost]
    split
    · next hkept =>
      rw [any_contains_iff] at hkept
      rw [ih, standsFree_cons_iff]
      refine or_congr_right ⟨?_, ?_⟩
      · rintro ⟨hno, hfree⟩
        exact ⟨hno, .inr ⟨fun hst => hno (LiesIn.trans hst hkept), hfree⟩⟩
      · rintro ⟨hno, rfl | ⟨-, hfree⟩⟩
        · exact absurd hkept hno
        · exact ⟨hno, hfree⟩
    · next hkept =>
      rw [any_contains_iff] at hkept
      rw [ih, standsFree_cons_iff, List.mem_append, List.mem_singleton, or_assoc, liesIn_append_iff,
        liesIn_cons_iff, not_or, not_or]
      refine or_congr_right ⟨?_, ?_⟩
      · rintro (rfl | ⟨⟨hno, hst, -⟩, hfree⟩)
        · exact ⟨hkept, .inl rfl⟩
        · exact ⟨hno, .inr ⟨hst, hfree⟩⟩
      · rintro ⟨hno, rfl | ⟨hst, hfree⟩⟩
        · exact .inl rfl
        · exact .inr ⟨⟨hno, hst, by simp [LiesIn]⟩, hfree⟩

/-- The outermost smells are some of the smells. -/
theorem mem_of_mem_outermost (h : s ∈ outermost smells) : s ∈ smells := by
  rcases mem_keepOutermost_iff.1 h with hnil | ⟨-, before, after, hsorted, -⟩
  · exact absurd hnil List.not_mem_nil
  · rw [← (List.mergeSort_perm smells notAfter).mem_iff, hsorted]
    exact List.mem_append_right _ List.mem_cons_self

/-- What is kept stays in order. -/
theorem keepOutermost_sublist (kept ss : List Smell) :
    (keepOutermost kept ss).Sublist (kept ++ ss) := by
  induction ss generalizing kept with
  | nil => simp [keepOutermost]
  | cons t ss ih =>
    rw [keepOutermost]
    split
    · exact (ih kept).trans ((List.sublist_cons_self t ss).append_left kept)
    · simpa using ih (kept ++ [t])

/-- No smell that is kept lies in one kept before. -/
theorem pairwise_keepOutermost (h : kept.Pairwise fun s t => ¬ s.span.contains t.span = true) :
    (keepOutermost kept ss).Pairwise fun s t => ¬ s.span.contains t.span = true := by
  induction ss generalizing kept with
  | nil => exact h
  | cons t ss ih =>
    rw [keepOutermost]
    split
    · exact ih h
    · next hkept =>
      rw [any_contains_iff] at hkept
      refine ih (List.pairwise_append.2 ⟨h, List.pairwise_singleton _ _, ?_⟩)
      intro s hs r hr hcontains
      obtain rfl := List.mem_singleton.1 hr
      exact hkept ⟨s, hs, hcontains⟩

/-- Every smell lies in one that is kept. -/
theorem liesIn_keepOutermost (hs : s.LiesIn (kept ++ ss)) : s.LiesIn (keepOutermost kept ss) := by
  induction ss generalizing kept with
  | nil => simpa [keepOutermost] using hs
  | cons t ss ih =>
    rw [keepOutermost]
    split
    · next hkept =>
      rw [any_contains_iff] at hkept
      refine ih ?_
      rw [liesIn_append_iff, liesIn_cons_iff] at hs
      rw [liesIn_append_iff]
      rcases hs with hs | hst | hs
      · exact .inl hs
      · exact .inl (LiesIn.trans hst hkept)
      · exact .inr hs
    · exact ih (by simpa using hs)

/-- What is kept is the first smell of its place, and lies in no larger place. -/
theorem mem_outermost_iff : s ∈ outermost smells ↔
    smells.find? (·.span.samePlace s.span) = some s ∧
      ∀ t ∈ smells, t.span.contains s.span = true → t.span.samePlace s.span = true := by
  have hsorted : (smells.mergeSort notAfter).Pairwise fun s t => notAfter s t = true :=
    (isStableSort_mergeSort smells).sorted.imp fun h => (notAfter_iff _ _).2 h
  have hperm := List.mergeSort_perm smells notAfter
  rw [outermost, mem_keepOutermost_iff, ← find?_mergeSort]
  constructor
  · rintro (hnil | ⟨-, before, after, hsplit, hbefore⟩)
    · exact absurd hnil List.not_mem_nil
    refine ⟨?_, fun t ht hts => ?_⟩
    · rw [hsplit, List.find?_append, List.find?_eq_none.2, Option.none_or, List.find?_cons_of_pos]
      · exact Span.samePlace_iff.2 ⟨Span.contains_self _, Span.contains_self _⟩
      · exact fun t ht hsame => hbefore ⟨t, ht, (Span.samePlace_iff.1 hsame).1⟩
    · rw [← hperm.mem_iff, hsplit, List.mem_append, List.mem_cons] at ht
      rw [Span.samePlace_iff]
      rcases ht with ht | rfl | ht
      · exact absurd ⟨t, ht, hts⟩ hbefore
      · exact ⟨hts, hts⟩
      · rw [hsplit] at hsorted
        have hle := List.rel_of_pairwise_cons (List.pairwise_append.1 hsorted).2.1 ht
        exact ⟨hts, contains_of_notAfter hle hts⟩
  · rintro ⟨hfirst, hmaximal⟩
    obtain ⟨-, before, after, hsplit, hbefore⟩ := List.find?_eq_some_iff_append.1 hfirst
    refine .inr ⟨by simp [LiesIn], before, after, hsplit, ?_⟩
    rintro ⟨t, ht, hts⟩
    have hmem : t ∈ smells := by
      rw [← hperm.mem_iff, hsplit]
      exact List.mem_append_left _ ht
    simpa [hmaximal t hmem hts] using hbefore t ht

end Smell

/-- **Exactly the outermost smells are kept.**  What is kept of any smells is part of them, in
the order in which they start, and none of it lies in another.  Every smell lies in one that is
kept.  A smell is kept if and only if it is the first of the list at its place, and every place
that holds its place is the same. -/
theorem outermost_maximal (smells : List Smell) :
    (Smell.outermost smells).Subperm smells ∧
    ((Smell.outermost smells).Pairwise fun s t => s.span.startByte ≤ t.span.startByte ∧
      s.span.contains t.span = false ∧ t.span.contains s.span = false) ∧
    (∀ s ∈ smells, ∃ t ∈ Smell.outermost smells, t.span.contains s.span = true) ∧
    ∀ s, s ∈ Smell.outermost smells ↔ smells.find? (·.span.samePlace s.span) = some s ∧
      ∀ t ∈ smells, t.span.contains s.span = true → t.span.samePlace s.span = true := by
  have hsub : (Smell.outermost smells).Sublist (smells.mergeSort Smell.notAfter) :=
    Smell.keepOutermost_sublist [] _
  refine ⟨hsub.subperm.trans (List.mergeSort_perm _ _).subperm, ?_, fun s hs => ?_,
    fun s => Smell.mem_outermost_iff⟩
  · have horder := ((Smell.isStableSort_mergeSort smells).sorted.sublist hsub).imp
      fun {s t} h => (Smell.notAfter_iff s t).2 h
    have hapart : (Smell.outermost smells).Pairwise fun s t => ¬ s.span.contains t.span = true :=
      Smell.pairwise_keepOutermost List.Pairwise.nil
    refine (horder.and hapart).imp fun {s t} h => ⟨?_, ?_, ?_⟩
    · have hle := h.1
      simp only [Smell.notAfter, Bool.or_eq_true, Bool.and_eq_true, decide_eq_true_eq,
        beq_iff_eq] at hle
      omega
    · exact Bool.eq_false_of_not_eq_true h.2
    · exact Bool.eq_false_of_not_eq_true fun hts => h.2 (Smell.contains_of_notAfter h.1 hts)
  · refine Smell.liesIn_keepOutermost ?_
    exact ⟨s, List.mem_mergeSort.2 hs, Span.contains_self _⟩

end MappingAudit
