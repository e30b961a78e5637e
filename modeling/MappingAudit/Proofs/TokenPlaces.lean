/-
# The places of tokens

The grammar cuts tokens off the front of a text and skips blanks between them, so tokens
stand in the order of the text and do not overlap.  A position counts the bytes of what
was read before it; the places of tokens lie between two characters therefore, which is
where a text may be edited.
-/

import MappingAudit.CSharp.Lexer
import MappingAudit.Proofs.TextPlaces
import Mathlib.Data.List.Pairwise

namespace MappingAudit
namespace CSharp
namespace Lexer

open Pieces (byteLength)

/-! ### Tokens in the order of the text -/

/-- The tokens are cut off a text that starts at a position, one after the other. -/
inductive Cuts : Position → List Char → List Token → Prop where
  | done (p : Position) (cs : List Char) : Cuts p cs []
  | gap {p : Position} {c : Char} {cs : List Char} {ts : List Token} (h : Cuts (p.after c) cs ts) :
      Cuts p (c :: cs) ts
  | token {p : Position} {taken rest : List Char} {ts : List Token} (k : TokenKind)
      (h : Cuts (p.afterAll taken) rest ts) :
      Cuts p (taken ++ rest)
        (⟨k, String.ofList taken, Span.between p (p.afterAll taken)⟩ :: ts)

/-- The tokens cut the text, from every position and in every state. -/
theorem cuts_tokensFrom (states : List State) (lineStart : Bool) (p : Position) (cs : List Char) :
    Cuts p cs (tokensFrom states lineStart p cs).1 := by
  induction states, lineStart, p, cs using tokensFrom.induct with
  | case1 states lineStart p =>
    rw [tokensFrom]
    exact .done p []
  | case2 states lineStart p c cs hgap ih =>
    rw [tokensFrom, if_pos hgap]
    exact .gap ih
  | case3 states lineStart p c cs hgap found hnone =>
    simp only [found, dite_eq_ite] at hnone
    rw [tokensFrom, if_neg hgap]
    simp only [hnone]
    exact .done p (c :: cs)
  | case4 states lineStart p c cs hgap found kind n states' hsome taken q tokens complete hrest ih =>
    simp only [found, dite_eq_ite] at hsome
    rw [tokensFrom, if_neg hgap]
    simp only [hsome]
    have hcs : c :: cs = taken ++ cs.drop (n - 1) :=
      (List.take_append_drop (n - 1 + 1) (c :: cs)).symm
    have hcuts := Cuts.token (p := p) kind ih
    rw [← hcs] at hcuts
    exact hcuts

namespace Cuts

variable {p : Position} {cs : List Char} {ts : List Token} {t : Token}

/-- A token covers a stretch of the text, which is its own text. -/
theorem exists_of_mem (h : Cuts p cs ts) (ht : t ∈ ts) : ∃ a c, cs = a ++ t.text.toList ++ c ∧
    t.span.startByte = p.byte + byteLength a ∧
      t.span.endByte = p.byte + byteLength (a ++ t.text.toList) := by
  induction h with
  | done p cs => exact absurd ht List.not_mem_nil
  | @gap p d cs ts _ ih =>
    obtain ⟨a, c, rfl, hstart, hstop⟩ := ih ht
    refine ⟨d :: a, c, rfl, ?_, ?_⟩
    · rw [hstart, Position.byte_after, byteLength, Nat.add_assoc]
    · rw [hstop, Position.byte_after, List.cons_append, byteLength, Nat.add_assoc]
  | @token p taken rest ts k _ ih =>
    rcases List.mem_cons.1 ht with rfl | ht
    · refine ⟨[], rest, ?_, rfl, ?_⟩
      · rw [String.toList_ofList, List.nil_append]
      · rw [String.toList_ofList, List.nil_append]
        exact Position.byte_afterAll p taken
    · obtain ⟨a, c, rfl, hstart, hstop⟩ := ih ht
      refine ⟨taken ++ a, c, by simp, ?_, ?_⟩
      · rw [hstart, Position.byte_afterAll, Pieces.byteLength_append, Nat.add_assoc]
      · rw [hstop, Position.byte_afterAll, List.append_assoc, Pieces.byteLength_append taken,
          Nat.add_assoc]

/-- A token ends before the next one starts. -/
theorem pairwise (h : Cuts p cs ts) :
    ts.Pairwise fun s t => s.span.endByte ≤ t.span.startByte := by
  induction h with
  | done p cs => exact List.Pairwise.nil
  | gap _ ih => exact ih
  | @token p taken rest ts k h ih =>
    refine List.pairwise_cons.2 ⟨?_, ih⟩
    intro t ht
    obtain ⟨a, c, -, hstart, -⟩ := h.exists_of_mem ht
    rw [hstart]
    exact Nat.le_add_right _ _

end Cuts

variable {text : String}

/-- A token is a part of the text, and its span tells where. -/
theorem exists_of_mem_tokens {t : Token} (ht : t ∈ (tokens text).1) :
    ∃ a c, text.toList = a ++ t.text.toList ++ c ∧ t.span.startByte = byteLength a ∧
      t.span.endByte = byteLength (a ++ t.text.toList) := by
  obtain ⟨a, c, hsplit, hstart, hstop⟩ :=
    (cuts_tokensFrom [] true .start text.toList).exists_of_mem ht
  have hzero : Position.start.byte = 0 := rfl
  rw [hzero, Nat.zero_add] at hstart hstop
  exact ⟨a, c, hsplit, hstart, hstop⟩

/-- **Tokens lie between characters.** -/
theorem fitsIn_of_mem_tokens {t : Token} (ht : t ∈ (tokens text).1) :
    t.span.FitsIn text.toList := by
  obtain ⟨a, c, hsplit, hstart, hstop⟩ := exists_of_mem_tokens ht
  constructor
  · exact Edit.isBoundary_iff.2
      ⟨a, t.text.toList ++ c, by rw [hsplit, List.append_assoc], hstart.symm⟩
  · exact Edit.isBoundary_iff.2 ⟨a ++ t.text.toList, c, hsplit, hstop.symm⟩
  · rw [hstart, hstop, Pieces.byteLength_append]
    exact Nat.le_add_right _ _

/-- **Tokens stand in the order of the text** and do not overlap. -/
theorem pairwise_tokens (text : String) :
    (tokens text).1.Pairwise fun s t => s.span.endByte ≤ t.span.startByte :=
  (cuts_tokensFrom [] true .start text.toList).pairwise

end Lexer
end CSharp
end MappingAudit
