/-
# Places in texts

A place in a text is a number of bytes.  Texts are cut and edited at places between two
characters, which are those where some of the first characters end (`Edit.isBoundary_iff`).
A span fits in a text if it runs from one such place to another.
-/

import MappingAudit.Edit
import MappingAudit.Text.Span

namespace MappingAudit

/-! ### Bytes of a text -/

namespace Pieces

/-- Texts behind each other have the bytes of both. -/
@[simp] theorem byteLength_append (a b : List Char) :
    byteLength (a ++ b) = byteLength a + byteLength b := by
  induction a with
  | nil => simp [byteLength]
  | cons c a ih => simp [byteLength, ih, Nat.add_assoc]

/-- The bytes are those of the text in UTF-8. -/
theorem byteLength_eq_utf8ByteSize (cs : List Char) :
    byteLength cs = (String.ofList cs).utf8ByteSize := by
  induction cs with
  | nil => simp [byteLength]
  | cons c cs ih =>
    have hcons : String.ofList (c :: cs) = String.singleton c ++ String.ofList cs := by
      rw [String.singleton_eq_ofList, ← String.ofList_append]
      rfl
    rw [byteLength, ih, hcons, String.utf8ByteSize_append, String.utf8ByteSize_singleton]

/-- The bytes of a text are those of its characters. -/
theorem byteLength_toList (s : String) : byteLength s.toList = s.utf8ByteSize := by
  rw [byteLength_eq_utf8ByteSize, String.ofList_toList]

/-- A text can be cut where some of its characters end. -/
theorem cut?_byteLength (a b : List Char) : cut? (byteLength a) (a ++ b) = some (a, b) := by
  induction a with
  | nil => rw [byteLength, List.nil_append, cut?]
  | cons c a ih =>
    obtain ⟨n, hn⟩ : ∃ n, byteLength (c :: a) = n + 1 :=
      Nat.exists_eq_succ_of_ne_zero (by rw [byteLength]; have := c.utf8Size_pos; omega)
    have hrest : n + 1 - c.utf8Size = byteLength a := by
      rw [← hn, byteLength]
      omega
    have hle : c.utf8Size ≤ n + 1 := by
      rw [← hn, byteLength]
      omega
    rw [hn, List.cons_append, cut?, if_pos hle, hrest, ih]
    rfl

/-- A text that is cut is the two parts, the first of the length asked for. -/
theorem eq_append_of_cut? {n : Nat} {cs a b : List Char} (h : cut? n cs = some (a, b)) :
    cs = a ++ b ∧ byteLength a = n := by
  induction n, cs using cut?.induct generalizing a b with
  | case1 cs =>
    rw [cut?] at h
    obtain ⟨rfl, rfl⟩ := Prod.mk.inj (Option.some.inj h)
    exact ⟨rfl, rfl⟩
  | case2 n =>
    rw [cut?] at h
    cases h
  | case3 n c cs hle ih =>
    rw [cut?, if_pos hle] at h
    obtain ⟨⟨a', b'⟩, hcut, hpair⟩ := Option.map_eq_some_iff.1 h
    obtain ⟨rfl, rfl⟩ := Prod.mk.inj hpair
    obtain ⟨rfl, hlength⟩ := ih hcut
    refine ⟨rfl, ?_⟩
    rw [byteLength, hlength]
    omega
  | case4 n c cs hle =>
    rw [cut?, if_neg hle] at h
    cases h

end Pieces

namespace Edit

open Pieces (byteLength)

variable {text : List Char} {n : Nat}

/-- A place between two characters comes after some of them. -/
theorem isBoundary_iff : isBoundary text n = true ↔ ∃ a b, text = a ++ b ∧ byteLength a = n := by
  constructor
  · intro h
    obtain ⟨⟨a, b⟩, hcut⟩ := Option.isSome_iff_exists.1 h
    exact ⟨a, b, Pieces.eq_append_of_cut? hcut⟩
  · rintro ⟨a, b, rfl, rfl⟩
    rw [isBoundary, Pieces.cut?_byteLength]
    rfl

/-- Boundaries lie within the text. -/
theorem le_of_isBoundary (h : isBoundary text n = true) : n ≤ byteLength text := by
  obtain ⟨a, b, rfl, rfl⟩ := isBoundary_iff.1 h
  rw [Pieces.byteLength_append]
  omega

end Edit

namespace Position

/-- A character moves the position on by its bytes. -/
@[simp] theorem byte_after (p : Position) (c : Char) : (p.after c).byte = p.byte + c.utf8Size := by
  rw [after]
  split
  · next h =>
    subst h
    rfl
  · rfl

/-- So does every character of a text. -/
@[simp] theorem byte_afterAll (p : Position) (cs : List Char) :
    (p.afterAll cs).byte = p.byte + Pieces.byteLength cs := by
  induction cs generalizing p with
  | nil => rfl
  | cons c cs ih =>
    have hstep : p.afterAll (c :: cs) = (p.after c).afterAll cs := rfl
    rw [hstep, ih, byte_after, Pieces.byteLength, Nat.add_assoc]

end Position

namespace Span

/-- The span starts and stops at places, and does not stop before its start.  `P` tells which
places there are. -/
structure IsPlaced (P : Nat → Prop) (s : Span) : Prop where
  start : P s.startByte
  stop : P s.endByte
  ordered : s.startByte ≤ s.endByte

variable {P Q : Nat → Prop} {s t : Span}

/-- A span stays placed when there are more places. -/
theorem IsPlaced.imp (h : s.IsPlaced P) (hPQ : ∀ b, P b → Q b) : s.IsPlaced Q :=
  ⟨hPQ _ h.start, hPQ _ h.stop, h.ordered⟩

/-- What follows a placed span up to a later end is placed too. -/
theorem IsPlaced.trailing (hs : s.IsPlaced P) (ht : t.IsPlaced P) (hle : s.endByte ≤ t.endByte) :
    (Span.trailing s t).IsPlaced P :=
  ⟨hs.stop, ht.stop, hle⟩

/-- The span lies between characters of the text. -/
abbrev FitsIn (s : Span) (text : List Char) : Prop :=
  s.IsPlaced fun b => Edit.isBoundary text b = true

end Span

end MappingAudit
