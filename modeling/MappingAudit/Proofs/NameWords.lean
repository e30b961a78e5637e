/-
# Words make up a name

The scan of a name gives an answer for every name: a word starts at a capital only when a word
is at hand, and then the character before the capital is the last one of that word
(`Scan.Reads.getLast?_eq`).

The words are the name without its underscores, cut into pieces.  Where it is cut hangs on the
characters around the place alone (`Words.Breaks`), and each step of the scan keeps this for
the part of the name that is read (`Scan.Reads.step`).  `words_partition` says so for letters
that stand next to each other.
-/

import MappingAudit.Model.Words
import Mathlib.Data.List.Basic

namespace MappingAudit
namespace Words

variable {name done rest front p q : List Char} {ws : List (List Char)} {w : List Char}
variable {s : Scan} {a b c : Char}

/-! ### Where words end -/

/-- A text without its underscores. -/
def letters (cs : List Char) : List Char := cs.filter (· != '_')

/-- An empty text has no letters. -/
@[simp] theorem letters_nil : letters [] = [] := rfl

/-- The letters of two parts are those of one and of the other. -/
@[simp] theorem letters_append : letters (p ++ q) = letters p ++ letters q :=
  List.filter_append ..

/-- An underscore is no letter. -/
@[simp] theorem letters_underscore : letters ['_'] = [] := rfl

/-- Any other character is one. -/
theorem letters_singleton (h : c ≠ '_') : letters [c] = [c] :=
  List.filter_cons_of_pos (bne_iff_ne.2 h)

/-- Two parts with a character behind them both end with it, if the second one is not empty. -/
theorem exists_append_singleton (h : done ++ [c] = p ++ q) (hq : q ≠ []) :
    ∃ q', q = q' ++ [c] ∧ done = p ++ q' := by
  obtain ⟨q', d, rfl⟩ := (List.eq_nil_or_concat q).resolve_left hq
  rw [List.concat_eq_append, ← List.append_assoc] at h
  obtain ⟨hdone, hd⟩ := List.append_inj' h rfl
  obtain ⟨rfl, -⟩ := List.cons.inj hd
  exact ⟨q', List.concat_eq_append, hdone⟩

/-- A word ends after the first letters. -/
def Cut (ws : List (List Char)) (front : List Char) : Prop :=
  ∃ us vs, ws = us ++ vs ∧ us.flatten = front

/-- A word ends after all letters. -/
theorem cut_flatten : Cut ws ws.flatten := ⟨ws, [], by simp, rfl⟩

/-- The last word does not matter before its end. -/
theorem cut_append_iff (h : front.length < (ws ++ [w]).flatten.length) :
    Cut (ws ++ [w]) front ↔ Cut ws front := by
  constructor
  · rintro ⟨us, vs, hws, rfl⟩
    rcases List.eq_nil_or_concat vs with rfl | ⟨vs, v, rfl⟩
    · rw [List.append_nil] at hws
      rw [hws] at h
      exact absurd h (Nat.lt_irrefl _)
    · rw [List.concat_eq_append, ← List.append_assoc] at hws
      exact ⟨us, vs, (List.append_inj' hws rfl).1, rfl⟩
  · rintro ⟨us, vs, rfl, rfl⟩
    exact ⟨us, vs ++ [w], by simp, rfl⟩

/-- No word ends after more letters than there are. -/
theorem not_cut_of_lt (h : ws.flatten.length < front.length) : ¬ Cut ws front := by
  rintro ⟨us, vs, rfl, rfl⟩
  rw [List.flatten_append, List.length_append] at h
  omega

/-- Letters next to each other lie in different words: `a` ends a word and `b` starts the next
one.  Before `a` there are the letters `front`. -/
def Apart (ws : List (List Char)) (front : List Char) (a b : Char) : Prop :=
  ∃ us u v vs, ws = us ++ (u ++ [a]) :: (b :: v) :: vs ∧ us.flatten ++ u = front

/-- Letters next to each other lie in different words exactly when a word ends between them. -/
theorem apart_iff_cut (hws : ∀ w ∈ ws, w ≠ []) {back : List Char}
    (hflatten : ws.flatten = front ++ a :: b :: back) :
    Apart ws front a b ↔ Cut ws (front ++ [a]) := by
  constructor
  · rintro ⟨us, u, v, vs, rfl, rfl⟩
    exact ⟨us ++ [u ++ [a]], (b :: v) :: vs, by simp, by simp⟩
  · rintro ⟨us, vs, rfl, hus⟩
    have hvs : vs.flatten = b :: back := by
      rw [List.flatten_append, hus] at hflatten
      simpa using hflatten
    rcases List.eq_nil_or_concat us with rfl | ⟨us, u, rfl⟩
    · simp at hus
    cases vs with
    | nil => cases hvs
    | cons v vs =>
      have hu : u ≠ [] := hws u (by simp)
      have hv : v ≠ [] := hws v (by simp)
      obtain ⟨u, d, rfl⟩ := (List.eq_nil_or_concat u).resolve_left hu
      obtain ⟨e, v, rfl⟩ := List.exists_cons_of_ne_nil hv
      rw [List.concat_eq_append, List.concat_eq_append, List.flatten_append, List.flatten_singleton,
        ← List.append_assoc] at hus
      obtain ⟨hfront, hd⟩ := List.append_inj' hus rfl
      obtain ⟨rfl, -⟩ := List.cons.inj hvs
      obtain ⟨rfl, -⟩ := List.cons.inj hd
      exact ⟨us, u, v, vs, by simp, hfront⟩

/-! ### Where words start -/

/-- A word ends between two parts of a name: at the ends of the name, at underscores, and
before capitals that start a word. -/
def Breaks (p q : List Char) : Prop :=
  ∀ a ∈ p.getLast?, ∀ b ∈ q.head?,
    a = '_' ∨ b = '_' ∨ (CharClass.capital b = true ∧ turns a q.tail.head? = true)

/-- Whether a word ends between two characters depends on them and on the next one. -/
theorem breaks_cons_iff : Breaks (p ++ [a]) (b :: q) ↔
    a = '_' ∨ b = '_' ∨ (CharClass.capital b = true ∧ turns a q.head? = true) := by
  simp [Breaks]

/-- A word ends before every underscore. -/
theorem breaks_underscore (p q : List Char) : Breaks p ('_' :: q) := by
  intro a _ b hb
  obtain rfl : '_' = b := by simpa using hb
  exact .inr (.inl rfl)

/-- A capital starts a word after a small letter, after a digit and before a small letter. -/
theorem turns_iff {after : Option Char} : turns a after = true ↔
    CharClass.small a = true ∨ a.isDigit = true ∨ ∃ n ∈ after, CharClass.small n = true := by
  simp [turns, Option.any_eq_true, or_assoc]

/-- The character before a position is the last one that was read. -/
theorem before?_eq_getLast? (done rest : List Char) :
    before? (done ++ rest) done.length = done.getLast? := by
  rcases List.eq_nil_or_concat done with rfl | ⟨front, a, rfl⟩
  · rfl
  · simp [before?]

namespace Scan

/-- What holds of a scan after the part `done` of a name, before the part `rest`. -/
structure Reads (s : Scan) (done rest : List Char) : Prop where
  flatten_ended : s.ended.flatten = letters done
  isWord : ∀ w ∈ s.ended, w ≠ [] ∧ '_' ∉ w
  /-- Behind an underscore no word is at hand. -/
  current_eq_nil_iff : s.current = [] ↔ ∀ a ∈ done.getLast?, a = '_'
  cut_iff : ∀ p q, done = p ++ q → q ≠ [] → (Cut s.ended (letters p) ↔ Breaks p (q ++ rest))

/-- Without letters since the last word there is no further word. -/
theorem ended_of_eq_nil (h : s.current = []) : s.ended = s.words := by simp [ended, h]

/-- The letters since the last word are a word at the end. -/
theorem ended_of_ne_nil (h : s.current ≠ []) : s.ended = s.words ++ [s.current] := by
  simp [ended, h]

namespace Reads

/-- A scan starts at the start of a name. -/
theorem start (name : List Char) : Reads {} [] name where
  flatten_ended := rfl
  isWord := by simp [ended]
  current_eq_nil_iff := by simp
  cut_iff := fun p q h hq => absurd (List.append_eq_nil_iff.1 h.symm).2 hq

/-- The character before the next one is there when a word is at hand. -/
theorem getLast?_eq (h : s.Reads done rest) (hs : s.current ≠ []) :
    ∃ a, done.getLast? = some a ∧ a ≠ '_' := by
  rw [Ne, h.current_eq_nil_iff] at hs
  push Not at hs
  exact hs

/-- A word has ended when there are no letters since it. -/
theorem breaks_of_eq_nil (h : s.Reads done (c :: rest)) (hs : s.current = []) :
    Breaks done (c :: rest) :=
  fun a ha _ _ => .inl (h.current_eq_nil_iff.1 hs a ha)

/-- At a break nothing changes about where words end, and one ends at the break. -/
theorem cut_iff_of_breaks (h : s.Reads done (c :: rest)) (hbreaks : Breaks done (c :: rest))
    (hdone : done ++ [c] = p ++ q) (hq : q ≠ []) :
    Cut s.ended (letters p) ↔ Breaks p (q ++ rest) := by
  obtain ⟨q, rfl, rfl⟩ := exists_append_singleton hdone hq
  cases q with
  | nil =>
    rw [List.append_nil] at h hbreaks
    refine iff_of_true ?_ hbreaks
    rw [← h.flatten_ended]
    exact cut_flatten
  | cons b q =>
    have hcut := h.cut_iff p (b :: q) rfl (List.cons_ne_nil _ _)
    simpa using hcut

/-- An underscore ends the word at hand. -/
theorem underscore (h : s.Reads done ('_' :: rest)) :
    Reads ⟨s.ended, []⟩ (done ++ ['_']) rest := by
  have hended : ended ⟨s.ended, []⟩ = s.ended := ended_of_eq_nil rfl
  refine ⟨?_, ?_, by simp, ?_⟩
  · rw [hended, h.flatten_ended, letters_append, letters_underscore, List.append_nil]
  · rw [hended]
    exact h.isWord
  · intro p q hdone hq
    rw [hended]
    exact h.cut_iff_of_breaks (breaks_underscore done rest) hdone hq

/-- A character behind a break starts a word. -/
theorem starts (h : s.Reads done (c :: rest)) (hc : c ≠ '_') (hbreaks : Breaks done (c :: rest)) :
    Reads ⟨s.ended, [c]⟩ (done ++ [c]) rest := by
  have hended : ended ⟨s.ended, [c]⟩ = s.ended ++ [[c]] := ended_of_ne_nil (List.cons_ne_nil _ _)
  have hflatten : (s.ended ++ [[c]]).flatten = letters (done ++ [c]) := by
    rw [List.flatten_append, h.flatten_ended, letters_append, letters_singleton hc,
      List.flatten_singleton]
  refine ⟨by rw [hended, hflatten], ?_, by simp [hc], ?_⟩
  · rw [hended]
    intro w hw
    rcases List.mem_append.1 hw with hw | hw
    · exact h.isWord w hw
    · obtain rfl := List.mem_singleton.1 hw
      exact ⟨List.cons_ne_nil _ _, by simpa using hc.symm⟩
  · intro p q hdone hq
    have hlength : (letters p).length < (s.ended ++ [[c]]).flatten.length := by
      obtain ⟨q, rfl, rfl⟩ := exists_append_singleton hdone hq
      rw [hflatten, letters_append, letters_append, letters_singleton hc, List.length_append,
        List.length_append, List.length_singleton]
      omega
    rw [hended, cut_append_iff hlength]
    exact h.cut_iff_of_breaks hbreaks hdone hq

/-- Any other character goes on with the word at hand. -/
theorem continues (h : s.Reads done (c :: rest)) (hc : c ≠ '_')
    (hbreaks : ¬ Breaks done (c :: rest)) :
    Reads ⟨s.words, s.current ++ [c]⟩ (done ++ [c]) rest := by
  have hs : s.current ≠ [] := fun hs => hbreaks (h.breaks_of_eq_nil hs)
  have hold : s.ended = s.words ++ [s.current] := ended_of_ne_nil hs
  have hended : ended ⟨s.words, s.current ++ [c]⟩ = s.words ++ [s.current ++ [c]] :=
    ended_of_ne_nil (by simp)
  have hflatten : (s.words ++ [s.current]).flatten = letters done := hold ▸ h.flatten_ended
  have hflatten' : (s.words ++ [s.current ++ [c]]).flatten = letters done ++ [c] := by
    rw [← hflatten]
    simp
  refine ⟨?_, ?_, by simp [hc], ?_⟩
  · rw [hended, hflatten', letters_append, letters_singleton hc]
  · rw [hended]
    intro w hw
    rcases List.mem_append.1 hw with hw | hw
    · exact h.isWord w (hold ▸ List.mem_append_left _ hw)
    · obtain rfl := List.mem_singleton.1 hw
      have hcurrent := h.isWord s.current (hold ▸ by simp)
      exact ⟨by simp, by simp [hcurrent.2, hc.symm]⟩
  · intro p q hdone hq
    obtain ⟨q, rfl, rfl⟩ := exists_append_singleton hdone hq
    rw [letters_append] at hflatten hflatten'
    have hlength : (letters p).length < (s.words ++ [s.current ++ [c]]).flatten.length := by
      rw [hflatten', List.length_append, List.length_append, List.length_singleton]
      omega
    rw [hended, cut_append_iff hlength]
    cases q with
    | nil =>
      rw [List.append_nil] at hbreaks
      refine iff_of_false (not_cut_of_lt ?_) hbreaks
      have hpos := List.length_pos_iff.2 hs
      have hsum := congrArg List.length hflatten
      simp at hsum
      simp
      omega
    | cons b q =>
      -- The last character before `c` is a letter, so the word at hand ends behind it.
      obtain ⟨a, ha, hne⟩ := h.getLast?_eq hs
      have hmem : a ∈ letters (b :: q) := by
        rw [List.getLast?_append_of_ne_nil _ (List.cons_ne_nil _ _)] at ha
        exact List.mem_filter.2 ⟨List.mem_of_getLast? ha, bne_iff_ne.2 hne⟩
      have hshort : (letters p).length < (s.words ++ [s.current]).flatten.length := by
        have hpos := List.length_pos_of_mem hmem
        rw [hflatten, List.length_append]
        omega
      have hcut := h.cut_iff p (b :: q) rfl (List.cons_ne_nil _ _)
      rw [hold, cut_append_iff hshort] at hcut
      simpa using hcut

/-- Whether a word starts at a character is known, and it does so behind a break. -/
theorem exists_startsAt? (h : s.Reads done (c :: rest)) :
    ∃ starts, s.startsAt? (done ++ c :: rest) done.length c = some starts ∧
      (c ≠ '_' → (Breaks done (c :: rest) ↔ s.current = [] ∨ starts = true)) := by
  by_cases hs : s.current = []
  · refine ⟨false, by simp [startsAt?, hs], fun _ => ?_⟩
    exact iff_of_true (h.breaks_of_eq_nil hs) (.inl hs)
  · obtain ⟨a, ha, hne⟩ := h.getLast?_eq hs
    have hafter : (done ++ c :: rest)[done.length + 1]? = rest.head? := by
      rw [List.getElem?_append_right (by omega)]
      cases rest <;> simp
    refine ⟨CharClass.capital c && turns a rest.head?, ?_, fun hc => ?_⟩
    · rw [startsAt?, before?_eq_getLast?, ha, hafter]
      cases CharClass.capital c <;> simp [hs]
    · simp [Breaks, ha, hs, hne, hc]

/-- **Each step gives an answer, and keeps what holds of the scan.** -/
theorem step (h : s.Reads done (c :: rest)) :
    ∃ s', s.step? (done ++ c :: rest) done.length c = some s' ∧ s'.Reads (done ++ [c]) rest := by
  obtain ⟨starts, hstarts, hbreaks⟩ := h.exists_startsAt?
  rw [step?, hstarts, Option.map_some]
  refine ⟨_, rfl, ?_⟩
  by_cases hc : c = '_'
  · subst hc
    rw [if_pos rfl]
    exact h.underscore
  rw [if_neg hc]
  cases starts with
  | true => exact h.starts hc ((hbreaks hc).2 (.inr rfl))
  | false =>
    by_cases hs : s.current = []
    · have hbreak := h.starts hc (h.breaks_of_eq_nil hs)
      rw [ended_of_eq_nil hs] at hbreak
      simpa [hs] using hbreak
    · exact h.continues hc fun hbreak => by simpa [hs] using (hbreaks hc).1 hbreak

/-- The scan comes to the end of the name. -/
theorem run (h : s.Reads done rest) :
    ∃ s', s.run? (done ++ rest) done.length rest = some s' ∧ s'.Reads (done ++ rest) [] := by
  induction rest generalizing s done with
  | nil => exact ⟨s, rfl, by rwa [List.append_nil]⟩
  | cons c rest ih =>
    obtain ⟨s', hstep, hreads⟩ := h.step
    obtain ⟨t, hrun, ht⟩ := ih hreads
    refine ⟨t, ?_, by simpa using ht⟩
    rw [run?, hstep, Option.bind_some]
    simpa using hrun

end Reads
end Scan

/-- What is read of a whole name: its words, and where they end. -/
theorem exists_ofChars? (name : List Char) : ∃ ws, ofChars? name = some ws ∧
    ws.flatten = letters name ∧ (∀ w ∈ ws, w ≠ [] ∧ '_' ∉ w) ∧
      ∀ p q, name = p ++ q → q ≠ [] → (Cut ws (letters p) ↔ Breaks p q) := by
  obtain ⟨s, hrun, hreads⟩ := (Scan.Reads.start name).run
  refine ⟨s.ended, ?_, hreads.flatten_ended, hreads.isWord, ?_⟩
  · exact congrArg (Option.map Scan.ended) hrun
  · intro p q hname hq
    have hcut := hreads.cut_iff p q hname hq
    rwa [List.append_nil] at hcut

end Words

/-- **The words of a name make it up.**  Every name has words: no character before the name is
asked for.  Together they are the name without its underscores; none is empty or holds an
underscore.  Of two letters next to each other in the name, the second starts a new word
exactly if it is a capital, and the first is a small letter or a digit, or a small letter
follows the second.  Letters with an underscore between them lie in different words. -/
theorem words_partition (name : String) : ∃ ws, Words.ofChars? name.toList = some ws ∧
    Words.ofName name = ws.map String.ofList ∧
    ws.flatten = name.toList.filter (· != '_') ∧ (∀ w ∈ ws, w ≠ [] ∧ '_' ∉ w) ∧
    (∀ before a b after, name.toList = before ++ a :: b :: after → a ≠ '_' → b ≠ '_' →
      (Words.Apart ws (before.filter (· != '_')) a b ↔ CharClass.capital b = true ∧
        (CharClass.small a = true ∨ a.isDigit = true ∨
          ∃ n ∈ after.head?, CharClass.small n = true))) ∧
    ∀ before after, name.toList = before ++ '_' :: after →
      Words.Cut ws (before.filter (· != '_')) := by
  obtain ⟨ws, hws, hflatten, hword, hcut⟩ := Words.exists_ofChars? name.toList
  refine ⟨ws, hws, by rw [Words.ofName, hws, Option.getD_some], hflatten, hword, ?_, ?_⟩
  · intro before a b after hname ha hb
    have hletters : ws.flatten = Words.letters before ++ a :: b :: Words.letters after := by
      rw [hflatten, hname]
      simp [Words.letters, ha, hb]
    have hbreaks := hcut (before ++ [a]) (b :: after) (by simp [hname]) (List.cons_ne_nil _ _)
    rw [Words.letters_append, Words.letters_singleton ha, Words.breaks_cons_iff] at hbreaks
    rw [← Words.turns_iff]
    refine (Words.apart_iff_cut (fun w hw => (hword w hw).1) hletters).trans ?_
    simpa [ha, hb] using hbreaks
  · intro before after hname
    exact (hcut before ('_' :: after) hname (List.cons_ne_nil _ _)).2
      (Words.breaks_underscore before after)

/-- The last capital of a run belongs to the small letter after it. -/
example : Words.ofName "HTTPStatus_ofLine2Text" = ["HTTP", "Status", "of", "Line2", "Text"] := by
  decide +kernel

end MappingAudit
