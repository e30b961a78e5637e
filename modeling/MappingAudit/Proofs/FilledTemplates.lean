/-
# What fills a template

From left to right a template falls into pieces: a place, which is digits between braces, where
one starts, and else a single character (`Message.FallsInto`).  There is one way to do so, and
it hangs on the template alone.

A place becomes the argument at its number, and nothing if there is none, however long the
number is; every other character stays.  `filled_in_one_pass` says that the message is what the
pieces become, one after the other.  So an argument is copied as it is, with the braces in it.
-/

import MappingAudit.Finding.Message
import Mathlib.Data.Nat.Digits.Defs

namespace MappingAudit
namespace Message

variable {cs rest digits : List Char} {args : List String} {c : Char} {n : Nat}

/-! ### Pieces of a template -/

/-- The decimal number that digits write. -/
def value (digits : List Char) : Nat :=
  Nat.ofDigits 10 (digits.reverse.map fun d => d.toNat - '0'.toNat)

/-- A piece of a template. -/
inductive Piece where
  | letter (c : Char)
  | place (digits : List Char)
  deriving Repr, DecidableEq

namespace Piece

/-- How a piece is written. -/
def text : Piece → List Char
  | letter c => [c]
  | place digits => '{' :: (digits ++ ['}'])

/-- What a piece becomes. -/
def filled (args : List String) : Piece → List Char
  | letter c => [c]
  | place digits => ((args[value digits]?).getD "").toList

end Piece

/-- A text starts with a place: a brace, one or more digits, and a brace that closes them. -/
def StartsPlace (cs : List Char) : Prop :=
  ∃ digits rest, digits ≠ [] ∧ (∀ d ∈ digits, d.isDigit = true) ∧
    cs = (Piece.place digits).text ++ rest

/-- The pieces of a text from left to right. -/
inductive FallsInto : List Char → List Piece → Prop where
  | nil : FallsInto [] []
  | place {digits rest : List Char} {ps : List Piece} (hne : digits ≠ [])
      (hdigits : ∀ d ∈ digits, d.isDigit = true) (hrest : FallsInto rest ps) :
      FallsInto ((Piece.place digits).text ++ rest) (.place digits :: ps)
  | letter {c : Char} {rest : List Char} {ps : List Piece} (hno : ¬ StartsPlace (c :: rest))
      (hrest : FallsInto rest ps) : FallsInto (c :: rest) (.letter c :: ps)

/-- A place starts with a brace that digits and a closing brace follow. -/
theorem startsPlace_iff : StartsPlace (c :: cs) ↔ c = '{' ∧ (place? cs).isSome = true := by
  rw [Option.isSome_iff_exists]
  constructor
  · rintro ⟨digits, rest, hne, hdigits, htext⟩
    obtain ⟨rfl, rfl⟩ : c = '{' ∧ cs = digits ++ '}' :: rest := by simpa [Piece.text] using htext
    exact ⟨rfl, _, place?_eq_some_iff.2 ⟨digits, hne, hdigits, rfl, rfl⟩⟩
  · rintro ⟨rfl, ⟨n, rest⟩, hplace⟩
    obtain ⟨digits, hne, hdigits, -, rfl⟩ := place?_eq_some_iff.1 hplace
    exact ⟨digits, rest, hne, hdigits, by simp [Piece.text]⟩

instance : DecidablePred StartsPlace
  | [] => .isFalse fun ⟨_, _, _, _, htext⟩ => by cases htext
  | _ :: _ => decidable_of_iff' _ startsPlace_iff

/-- Every text falls into pieces. -/
theorem exists_fallsInto (cs : List Char) : ∃ ps, FallsInto cs ps := by
  induction hlength : cs.length using Nat.strong_induction_on generalizing cs with
  | _ n ih =>
    subst hlength
    cases cs with
    | nil => exact ⟨[], .nil⟩
    | cons c cs =>
      by_cases hplace : StartsPlace (c :: cs)
      · obtain ⟨digits, rest, hne, hdigits, htext⟩ := hplace
        have hshort : rest.length < (c :: cs).length := by
          rw [htext, Piece.text, List.length_append, List.length_cons]
          omega
        obtain ⟨ps, hps⟩ := ih _ hshort rest rfl
        exact ⟨.place digits :: ps, htext ▸ .place hne hdigits hps⟩
      · obtain ⟨ps, hps⟩ := ih _ (Nat.lt_succ_self _) cs rfl
        exact ⟨.letter c :: ps, .letter hplace hps⟩

/-- Where the digits end is known from the text. -/
theorem place_inj {digits' rest' : List Char} (hdigits : ∀ d ∈ digits, d.isDigit = true)
    (hdigits' : ∀ d ∈ digits', d.isDigit = true)
    (h : (Piece.place digits).text ++ rest = (Piece.place digits').text ++ rest') :
    digits = digits' ∧ rest = rest' := by
  have htake {ds rest : List Char} (hds : ∀ d ∈ ds, d.isDigit = true) :
      (ds ++ '}' :: rest).takeWhile Char.isDigit = ds := by
    rw [List.takeWhile_append_of_pos hds, List.takeWhile_cons_of_neg (by decide), List.append_nil]
  have hsame : digits ++ '}' :: rest = digits' ++ '}' :: rest' := by
    simpa [Piece.text] using h
  obtain rfl : digits = digits' := by rw [← htake hdigits, hsame, htake hdigits']
  exact ⟨rfl, by simpa using hsame⟩

/-- There is one way to fall into pieces. -/
theorem FallsInto.unique {ps qs : List Piece} (hps : FallsInto cs ps) (hqs : FallsInto cs qs) :
    ps = qs := by
  induction hps generalizing qs with
  | nil =>
    cases hqs
    rfl
  | @place digits rest ps hne hdigits _ ih =>
    generalize hcs : (Piece.place digits).text ++ rest = cs at hqs
    cases hqs with
    | nil => cases hcs
    | place hne' hdigits' hrest' =>
      obtain ⟨rfl, rfl⟩ := place_inj hdigits hdigits' hcs
      rw [ih hrest']
    | letter hno _ => exact absurd ⟨digits, rest, hne, hdigits, hcs.symm⟩ hno
  | @letter c rest ps hno _ ih =>
    generalize hcs : c :: rest = cs at hqs
    cases hqs with
    | nil => cases hcs
    | @place digits _ _ hne hdigits _ => exact absurd ⟨digits, _, hne, hdigits, hcs⟩ hno
    | letter _ hrest' =>
      obtain ⟨rfl, rfl⟩ := List.cons.inj hcs
      rw [ih hrest']

/-! ### Numbers of places -/

/-- The number that digits are read as is their value. -/
theorem number_eq_value (digits : List Char) : number digits = value digits := by
  rw [value, Nat.ofDigits_eq_foldr, List.map_reverse, List.foldr_reverse, List.foldl_map, number]
  congr
  funext n d
  exact Nat.add_comm _ _

/-- Digits are read as their value, if it is below the limit. -/
theorem natural?_of_digits {limit : Nat} (hne : digits ≠ [])
    (hdigits : ∀ d ∈ digits, d.isDigit = true) :
    natural? limit digits = if value digits < limit then some (value digits) else none := by
  have hall : digits.all Char.isDigit = true := List.all_eq_true.2 hdigits
  unfold natural?
  split
  · -- A plus sign is no digit.
    exact absurd (hdigits '+' List.mem_cons_self) (by decide)
  · by_cases hlt : value digits < limit <;> simp [hne, hall, number_eq_value, hlt]

/-- **The index of a place finds the argument at its number**, also when the number is too long
for a word: then there is no such argument. -/
theorem getElem?_index (hargs : args.length < wordLimit) (hne : digits ≠ [])
    (hdigits : ∀ d ∈ digits, d.isDigit = true) :
    args[index digits]? = args[value digits]? := by
  rw [index, natural?_of_digits hne hdigits]
  split
  · rfl
  · next hlong =>
    rw [Option.getD_none, List.getElem?_eq_none (by omega), List.getElem?_eq_none (by omega)]

/-! ### Filling the pieces -/

/-- Filling a template fills its pieces, from left to right. -/
theorem FallsInto.fillChars_eq {ps : List Piece} (h : FallsInto cs ps)
    (hargs : args.length < wordLimit) : fillChars args cs = ps.flatMap (Piece.filled args) := by
  induction h with
  | nil => rw [fillChars, List.flatMap_nil]
  | @place digits rest ps hne hdigits _ ih =>
    have hplace : place? (digits ++ '}' :: rest) = some (index digits, rest) :=
      place?_eq_some_iff.2 ⟨digits, hne, hdigits, rfl, rfl⟩
    have htext : (Piece.place digits).text ++ rest = '{' :: (digits ++ '}' :: rest) := by
      simp [Piece.text]
    rw [htext, fillChars, if_pos rfl, List.flatMap_cons, ← ih]
    split
    · next n after hfound =>
      obtain ⟨rfl, rfl⟩ := Prod.mk.inj (Option.some.inj (hplace.symm.trans hfound))
      rw [Piece.filled, getElem?_index hargs hne hdigits]
    · next hnone => cases hplace.symm.trans hnone
  | @letter c rest ps hno _ ih =>
    rw [fillChars, List.flatMap_cons, ← ih]
    split
    · next hc =>
      split
      · next n after hfound =>
        exact absurd (startsPlace_iff.2 ⟨hc, by rw [hfound]; rfl⟩) hno
      · rfl
    · rfl

/-- **Templates are filled in one pass.**  A template falls into pieces from left to right, in
one way.  Whatever the arguments are, as many as a word can count, the message is what these
pieces become: a place becomes the argument at its number, or nothing if there is none, and
every other character stays.  Arguments are not looked into. -/
theorem filled_in_one_pass (template : String) : ∃ ps, FallsInto template.toList ps ∧
    (∀ qs, FallsInto template.toList qs → qs = ps) ∧
    ∀ args : List String, args.length < wordLimit →
      (fill template args).toList = ps.flatMap (Piece.filled args) := by
  obtain ⟨ps, hps⟩ := exists_fallsInto template.toList
  refine ⟨ps, hps, fun qs hqs => hqs.unique hps, fun args hargs => ?_⟩
  rw [fill, String.toList_ofList]
  exact hps.fillChars_eq hargs

/-- A place, a place within braces, a number that no word holds, and a place that is not
closed. -/
def bracedPlaces : String := "{0}\x7b{01}\x7d{18446744073709551616}\x7b1"

/-- The pieces of the example, with places between braces and a place whose number is too large.
-/
theorem fallsInto_bracedPlaces : FallsInto bracedPlaces.toList
    [.place ['0'], .letter '{', .place ['0', '1'], .letter '}',
      .place "18446744073709551616".toList, .letter '{', .letter '1'] := by
  refine @FallsInto.place ['0'] "\x7b{01}\x7d{18446744073709551616}\x7b1".toList _
    (by decide) (List.all_eq_true.1 (by decide)) ?_
  refine .letter (by decide) ?_
  refine @FallsInto.place ['0', '1'] "\x7d{18446744073709551616}\x7b1".toList _
    (by decide) (List.all_eq_true.1 (by decide)) ?_
  refine .letter (by decide) ?_
  refine @FallsInto.place "18446744073709551616".toList "\x7b1".toList _
    (by decide) (List.all_eq_true.1 (by decide)) ?_
  exact .letter (by decide) (.letter (by decide) .nil)

/-- The place in an argument stays as it is. -/
theorem filled_bracedPlaces : ["{1}", "b"].length < wordLimit ∧
    fill bracedPlaces ["{1}", "b"] = "{1}{b}\x7b1" := by
  obtain ⟨ps, -, hunique, hfill⟩ := filled_in_one_pass bracedPlaces
  obtain rfl := hunique _ fallsInto_bracedPlaces
  have hargs : ["{1}", "b"].length < wordLimit := by decide
  refine ⟨hargs, String.toList_injective ?_⟩
  rw [hfill _ hargs]
  decide

end Message
end MappingAudit
