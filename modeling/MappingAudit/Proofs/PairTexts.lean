/-
# Pairs of types as one text

A finding about missing mappings carries the pairs of types in one text: the two types of a pair
with `=>` between them, the pairs with `;` between them.  The texts of types that are read from
texts hold neither of the marks and no blanks around them, so the pairs are found again in
their order (`pairs_found_again`).
-/

import MappingAudit.Check.Nested
import MappingAudit.Proofs.ShapeNames
import MappingAudit.Proofs.TypeCharacters

namespace MappingAudit

namespace Pieces

/-- A text is split at its first arrow. -/
theorem splitOnce?_arrow {a : List Char} (h : ∀ c ∈ a, c ≠ '=') (b : List Char) :
    splitOnce? ['=', '>'] (a ++ '=' :: '>' :: b) = some (a, b) := by
  induction a with
  | nil => rfl
  | cons c cs ih =>
    have hdrop : dropHead? ['=', '>'] (c :: (cs ++ '=' :: '>' :: b)) = none :=
      if_neg (h c List.mem_cons_self).symm
    rw [List.cons_append, splitOnce?, hdrop]
    simp only [ih fun d hd => h d (List.mem_cons_of_mem _ hd), Option.map_some]

end Pieces

namespace Missing

open TypeExpr (IsLegible IsFromText)

/-- The texts of both types. -/
def codes (p : ShapePair) : String × String := (p.1.code, p.2.code)

/-- The text that names the pair. -/
def pairText (p : ShapePair) : String := p.1.code ++ "=>" ++ p.2.code

/-- The text of several mappings has the texts of each between semicolons. -/
theorem encode_eq (ps : List ShapePair) : encode ps = Pieces.join ";" (ps.map pairText) := rfl

/-- The text of a mapping has the types around an arrow. -/
theorem toList_pairText (p : ShapePair) :
    (pairText p).toList = p.1.code.toList ++ '=' :: '>' :: p.2.code.toList := by
  simp [pairText, String.toList_append]

variable {p : ShapePair} {ps : List ShapePair}

/-- No type is written with a semicolon or an equals sign. -/
theorem ne_of_isTypeChar {c : Char} (h : TypeExpr.Token.isTypeChar c = true) :
    c ≠ ';' ∧ c ≠ '=' := by
  constructor <;> (rintro rfl; exact absurd h (by decide))

/-- The mark between two types is the first one in the text of the pair. -/
theorem decodePart?_codes (hs : p.1.expr.IsLegible) (hd : p.2.expr.IsLegible) :
    decodePart? (pairText p).toList = some (codes p) := by
  have hsplit := Pieces.splitOnce?_arrow (a := p.1.code.toList)
    (fun c hc => (ne_of_isTypeChar (hs.1.isTypeChar c hc)).2) p.2.code.toList
  have hne {cs : List Char} (hcs : TypeExpr.IsSolid cs) : cs.isEmpty = false := by
    simpa using hcs.ne_nil
  rw [decodePart?, toList_pairText, hsplit]
  simp only [Option.bind_eq_bind, Option.bind_some, Shape.code, hs.isSolid.trim_eq,
    hd.isSolid.trim_eq, hne hs.isSolid, hne hd.isSolid, String.ofList_toList]
  rfl

/-- The text of a mapping has no semicolon. -/
theorem ne_of_mem_pairText (hs : p.1.expr.IsLegible) (hd : p.2.expr.IsLegible) :
    ∀ c ∈ (pairText p).toList, c ≠ ';' := by
  rw [toList_pairText]
  exact List.forall_mem_append.2 ⟨fun c hc => (ne_of_isTypeChar (hs.1.isTypeChar c hc)).1,
    List.forall_mem_cons.2 ⟨by decide, List.forall_mem_cons.2 ⟨by decide,
      fun c hc => (ne_of_isTypeChar (hd.1.isTypeChar c hc)).1⟩⟩⟩

/-- Pairs of legible types are found again in their text. -/
theorem decode_encode_of_isLegible (h : ∀ p ∈ ps, p.1.expr.IsLegible ∧ p.2.expr.IsLegible) :
    decode (encode ps) = ps.map codes := by
  cases ps with
  | nil => rfl
  | cons q qs =>
    have hne : (q :: qs).map pairText ≠ [] := List.cons_ne_nil _ _
    have hapart : ∀ t ∈ (q :: qs).map pairText, ∀ c ∈ t.toList, c ≠ ';' := by
      intro t ht
      obtain ⟨p, hp, rfl⟩ := List.mem_map.1 ht
      exact ne_of_mem_pairText (h p hp).1 (h p hp).2
    have hpart : ∀ p ∈ q :: qs, (decodePart? ∘ String.toList ∘ pairText) p = (some ∘ codes) p :=
      fun p hp => decodePart?_codes (h p hp).1 (h p hp).2
    rw [decode, encode_eq, Pieces.splitAt_join hne hapart, List.map_map, List.filterMap_map,
      List.filterMap_congr hpart, List.filterMap_eq_map]

/-- **The pairs are found again in their text**, in their order, when their types come from texts
and no segment of a name is empty. -/
theorem pairs_found_again (ps : List ShapePair)
    (htexts : ∀ p ∈ ps, p.1.expr.IsFromText ∧ p.2.expr.IsFromText)
    (hnames : ∀ p ∈ ps, ∀ n ∈ p.1.expr.names ++ p.2.expr.names, n ≠ "") :
    decode (encode ps) = ps.map fun p => (p.1.code, p.2.code) := by
  refine decode_encode_of_isLegible fun p hp => ?_
  obtain ⟨hs, hd⟩ := List.forall_mem_append.1 (hnames p hp)
  exact ⟨⟨(htexts p hp).1.isSpelled, hs⟩, ⟨(htexts p hp).2.isSpelled, hd⟩⟩

/-- The type `A.Box<T>`. -/
def boxType : TypeExpr := .named ["A", "Box"] [.named ["T"] []]

/-- What stands for `T`: the type `(int, B[,])?`. -/
def boxContents : TypeExpr.Bindings :=
  [("T", .nullable (.tuple [.named ["int"] [], .array (.named ["B"] []) 2]))]

/-- The box with its contents and a type of the name `Ö_1`, mapped to each other. -/
def boxPairs : List ShapePair :=
  let box := Shape.describe {} none (boxType.substitute boxContents)
  let other := Shape.describe {} none (.named ["Ö_1"] [])
  [(box, other), (other, box)]

/-- The types of the example come from texts. -/
theorem isFromText_boxPairs :
    ∀ p ∈ boxPairs, p.1.expr.IsFromText ∧ p.2.expr.IsFromText := by
  have hread {t : TypeExpr} (h : t.isCanonical = true) : t.IsFromText :=
    .read (TypeExpr.read?_toText h)
  have hcontents : ∀ q ∈ boxContents, q.2.IsFromText :=
    List.forall_mem_singleton.2 (hread (by decide +kernel))
  have hbox : (boxType.substitute boxContents).IsFromText :=
    .substitute (hread (by decide +kernel)) (TypeExpr.Bindings.forall_of_forall_mem hcontents)
  have hother : (TypeExpr.named ["Ö_1"] []).IsFromText := hread (by decide +kernel)
  simp only [boxPairs, List.forall_mem_cons, Shape.expr_describe]
  exact ⟨⟨hbox, hother⟩, ⟨hother, hbox⟩, fun _ hp => absurd hp List.not_mem_nil⟩

/-- The commas and blanks of the first type stay in it. -/
theorem pairs_found_again_boxPairs :
    (∀ p ∈ boxPairs, p.1.expr.IsFromText ∧ p.2.expr.IsFromText) ∧
      (∀ p ∈ boxPairs, ∀ n ∈ p.1.expr.names ++ p.2.expr.names, n ≠ "") ∧
        encode boxPairs = "A.Box<(int, B[,])?>=>Ö_1;Ö_1=>A.Box<(int, B[,])?>" ∧
          decode (encode boxPairs) = boxPairs.map fun p => (p.1.code, p.2.code) := by
  have hnames : ∀ p ∈ boxPairs, ∀ n ∈ p.1.expr.names ++ p.2.expr.names, n ≠ "" := by
    decide +kernel
  exact ⟨isFromText_boxPairs, hnames, by decide +kernel,
    pairs_found_again boxPairs isFromText_boxPairs hnames⟩

end Missing
end MappingAudit
