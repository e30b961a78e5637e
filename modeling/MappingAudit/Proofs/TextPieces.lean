/-
# Pieces of a text

A text that is cut at a character and joined with the same character is itself again.  Texts
that do not hold the character are the pieces of what they are joined to.

Names that differ in the case of ASCII letters only are the same name.
-/

import MappingAudit.Text.Pieces
import Mathlib.Data.List.Basic

namespace MappingAudit
namespace Pieces

variable {sep : Char → Bool} {a : List Char}

/-! ### Pieces -/

/-- Every text has a piece. -/
theorem splitAt_ne_nil (sep : Char → Bool) (cs : List Char) : splitAt sep cs ≠ [] := by
  cases cs with
  | nil => exact List.cons_ne_nil _ _
  | cons c cs =>
    rw [splitAt]
    split
    · exact List.cons_ne_nil _ _
    · split <;> exact List.cons_ne_nil _ _

/-- A single piece is the whole text. -/
theorem eq_of_splitAt_eq_singleton {cs p : List Char} (h : splitAt sep cs = [p]) : p = cs := by
  induction cs generalizing p with
  | nil => exact (List.singleton_inj.1 h).symm
  | cons c cs ih =>
    rw [splitAt] at h
    split at h
    · exact absurd (List.cons.inj h).2 (splitAt_ne_nil sep cs)
    · split at h
      · next hnil => exact absurd hnil (splitAt_ne_nil sep cs)
      · next q qs hsplit =>
        obtain ⟨rfl, rfl⟩ := List.cons.inj h
        rw [ih hsplit]

/-- The last piece ends a text. -/
theorem exists_append_lastPiece (sep : Char → Bool) (cs : List Char) :
    ∃ before, cs = before ++ lastPiece sep cs := by
  induction cs with
  | nil => exact ⟨[], rfl⟩
  | cons c cs ih =>
    obtain ⟨before, hcs⟩ := ih
    cases hsplit : splitAt sep cs with
    | nil => exact absurd hsplit (splitAt_ne_nil sep cs)
    | cons p ps =>
      rw [lastPiece, hsplit] at hcs
      rw [lastPiece, splitAt, hsplit]
      split
      · exact ⟨c :: before, congrArg (c :: ·) hcs⟩
      · cases ps with
        | nil => exact ⟨[], by rw [← eq_of_splitAt_eq_singleton hsplit]; rfl⟩
        | cons q qs => exact ⟨c :: before, congrArg (c :: ·) hcs⟩

/-- A text without a separator is one piece. -/
theorem splitAt_of_forall (h : ∀ c ∈ a, sep c = false) : splitAt sep a = [a] := by
  induction a with
  | nil => rfl
  | cons c cs ih =>
    rw [splitAt, if_neg (by simp [h c List.mem_cons_self]),
      ih fun d hd => h d (List.mem_cons_of_mem _ hd)]

/-- The pieces on both sides of a separator. -/
theorem splitAt_append {s : Char} (hs : sep s = true) (a rest : List Char) :
    splitAt sep (a ++ s :: rest) = splitAt sep a ++ splitAt sep rest := by
  induction a with
  | nil => simp [splitAt, hs]
  | cons c cs ih =>
    rw [List.cons_append, splitAt, splitAt, ih]
    split
    · rfl
    · cases hsplit : splitAt sep cs with
      | nil => exact absurd hsplit (splitAt_ne_nil sep cs)
      | cons p ps => rfl

/-! ### Joined again -/

/-- Parts without the character between them are found again. -/
theorem splitAt_join {parts : List String} (hne : parts ≠ [])
    (h : ∀ p ∈ parts, ∀ c ∈ p.toList, c ≠ ';') :
    splitAt (· == ';') (join ";" parts).toList = parts.map String.toList := by
  induction parts with
  | nil => exact absurd rfl hne
  | cons p parts ih =>
    have hp : ∀ c ∈ p.toList, (c == ';') = false :=
      fun c hc => beq_eq_false_iff_ne.2 (h p List.mem_cons_self c hc)
    cases parts with
    | nil => simpa [join] using splitAt_of_forall hp
    | cons q parts =>
      have hrest := ih (List.cons_ne_nil _ _) fun x hx => h x (List.mem_cons_of_mem _ hx)
      have hsplit : splitAt (· == ';') (p.toList ++ ';' :: (join ";" (q :: parts)).toList) =
          p.toList :: (q :: parts).map String.toList := by
        rw [splitAt_append rfl, hrest, splitAt_of_forall hp, List.singleton_append]
      simpa [join, String.toList_append] using hsplit

/-- The pieces with the separator between them make the text. -/
theorem intercalate_splitAt (sep : Char) (cs : List Char) :
    [sep].intercalate (splitAt (· == sep) cs) = cs := by
  induction cs with
  | nil => rfl
  | cons c cs ih =>
    rw [splitAt]
    cases hsplit : splitAt (· == sep) cs with
    | nil =>
      rw [hsplit] at ih
      rw [← ih] at hsplit
      cases hsplit
    | cons p ps =>
      rw [hsplit] at ih
      split
      · next h => rw [List.intercalate_cons_cons, ih, ← beq_iff_eq.1 h]; rfl
      · cases ps with
        | nil => rw [List.intercalate_singleton] at ih ⊢; rw [ih]
        | cons q ps =>
          rw [List.intercalate_cons_cons] at ih ⊢
          rw [List.cons_append, List.cons_append, ih]

/-- A text is what its pieces are joined to. -/
theorem join_splitText (text : String) : join "." (splitText '.' text) = text := by
  have hmap : String.toList ∘ String.ofList = id := funext fun cs => String.toList_ofList
  rw [← String.toList_inj, join, String.toList_intercalate, splitText, List.map_map, hmap,
    List.map_id]
  exact intercalate_splitAt '.' text.toList

/-- Every text has a piece. -/
theorem splitText_ne_nil (sep : Char) (text : String) : splitText sep text ≠ [] := fun h =>
  splitAt_ne_nil _ _ (List.map_eq_nil_iff.1 h)

/-- Texts with a dot between them have the pieces of both. -/
theorem splitText_append (a rest : String) :
    splitText '.' (a ++ "." ++ rest) = splitText '.' a ++ splitText '.' rest := by
  have hchars : (a ++ "." ++ rest).toList = a.toList ++ '.' :: rest.toList := by
    simp [String.toList_append]
  rw [splitText, hchars, splitAt_append rfl, List.map_append]
  rfl

/-- What two lists of parts are joined to has the separator between them. -/
theorem join_append {as bs : List String} (has : as ≠ []) (hbs : bs ≠ []) :
    join "." (as ++ bs) = join "." as ++ "." ++ join "." bs := by
  induction as with
  | nil => exact absurd rfl has
  | cons a as ih =>
    match as, bs, hbs with
    | [], b :: bs, _ => simp [join, String.append_assoc]
    | a' :: as, bs, _ =>
      have hrest := ih (List.cons_ne_nil _ _)
      simp only [List.cons_append] at hrest
      simp [join, String.append_assoc] at hrest ⊢
      rw [hrest]

/-- A text that is joined holds the characters of its parts and of what is between them. -/
theorem forall_mem_join {sep : String} {parts : List String} {p : Char → Prop}
    (hsep : ∀ c ∈ sep.toList, p c) (hparts : ∀ q ∈ parts, ∀ c ∈ q.toList, p c) :
    ∀ c ∈ (join sep parts).toList, p c := by
  induction parts with
  | nil => simp [join]
  | cons q parts ih =>
    have hq := hparts q List.mem_cons_self
    cases parts with
    | nil => simpa [join] using hq
    | cons r parts =>
      have hrest := ih fun s hs => hparts s (List.mem_cons_of_mem _ hs)
      have hall := List.forall_mem_append.2 ⟨hq, List.forall_mem_append.2 ⟨hsep, hrest⟩⟩
      simpa [join, String.toList_append] using hall

/-! ### Names in any case -/

/-- Names are the same that have the same small letters. -/
theorem sameName_iff {a b : String} :
    sameName a b = true ↔ a.toList.map Char.toLower = b.toList.map Char.toLower :=
  beq_iff_eq

/-- Every name is the same as itself. -/
@[simp] theorem sameName_refl (a : String) : sameName a a = true := sameName_iff.2 rfl

/-- Either of two names may be compared with the other. -/
theorem sameName_symm {a b : String} (h : sameName a b = true) : sameName b a = true :=
  sameName_iff.2 (sameName_iff.1 h).symm

/-- Names that are the same as a third one are the same. -/
theorem sameName_trans {a b c : String} (hab : sameName a b = true) (hbc : sameName b c = true) :
    sameName a c = true :=
  sameName_iff.2 ((sameName_iff.1 hab).trans (sameName_iff.1 hbc))

/-- Names that are the same are the same as the same names. -/
theorem sameName_congr {a b : String} (h : sameName a b = true) (c : String) :
    sameName c a = sameName c b :=
  Bool.eq_iff_iff.2 ⟨fun ha => sameName_trans ha h, fun hb => sameName_trans hb (sameName_symm h)⟩

end Pieces
end MappingAudit
