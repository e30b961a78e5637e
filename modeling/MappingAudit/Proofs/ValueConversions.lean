/-
# Conversions of the values of a dictionary

The conversion of an element is written for the name `x` and then brought to `kv.Value`, the
value of an entry, by a pass over its characters.  The pass has to find the converted name
among the names of types, in which the letter may stand as well.

A text is inert (`IsInert`) when the pass copies it, whatever stands around it: texts without
the letter are, names of two and more characters are, and inert texts behind each other are.
So is the text of a type when no segment of its names is the name `x` itself
(`isInert_toText`).  Every conversion puts its expression between two inert texts
(`IsFrame`), and the expression touches no name there.
-/

import MappingAudit.Fix.Conversion
import MappingAudit.Proofs.TypeCharacters

namespace MappingAudit

namespace Shape

/-- A type that is no longer optional has the names that it had. -/
theorem names_underlying (s : Shape) : s.underlying.expr.names = s.expr.names := by
  cases s <;> rfl

end Shape

namespace Conversion

/-! ### Texts without the converted name -/

/-- The text is copied wherever it stands. -/
def IsInert (cs : List Char) : Prop :=
  ∀ before rest, valueOf before (cs ++ rest) = cs ++ valueOf (cs.getLast?.or before) rest

/-- The last character, or else the one before the text, when a character is in front. -/
theorem getLast?_cons_or (c : Char) (cs : List Char) (before : Option Char) :
    (c :: cs).getLast?.or before = cs.getLast?.or (some c) := by
  rw [List.getLast?_cons, Option.some_or]
  cases cs.getLast? <;> rfl

/-- Characters that do not stand alone are copied. -/
theorem valueOf_cons {before : Option Char} {c : Char} {cs : List Char}
    (h : c = 'x' → before.any (fun b => CharClass.segment b || b == '.') = true ∨
      cs.head?.any CharClass.segment = true) :
    valueOf before (c :: cs) = c :: valueOf (some c) cs := by
  have hnot : (c == 'x' && !before.any (fun b => CharClass.segment b || b == '.') &&
      !cs.head?.any CharClass.segment) = false := by
    refine Bool.eq_false_iff.2 fun halone => ?_
    simp only [Bool.and_eq_true, Bool.not_eq_true', beq_iff_eq] at halone
    obtain ⟨⟨hc, hbefore⟩, hafter⟩ := halone
    rcases h hc with hsome | hsome
    · rw [hbefore] at hsome
      cases hsome
    · rw [hafter] at hsome
      cases hsome
  simp only [valueOf, hnot]
  rfl

namespace IsInert

/-- An empty text is inert. -/
theorem nil : IsInert [] := fun _ _ => rfl

/-- Inert texts behind each other are inert. -/
theorem append {cs ds : List Char} (hcs : IsInert cs) (hds : IsInert ds) : IsInert (cs ++ ds) := by
  intro before rest
  rw [List.append_assoc, hcs, hds, List.getLast?_append, Option.or_assoc, List.append_assoc]

/-- Texts without the letter. -/
theorem ofAll {cs : List Char} (h : cs.all (· != 'x') = true) : IsInert cs := by
  induction cs with
  | nil => exact nil
  | cons c cs ih =>
    intro before rest
    rw [List.all_cons, Bool.and_eq_true, bne_iff_ne] at h
    rw [List.cons_append, valueOf_cons fun hc => absurd hc h.1, ih h.2, getLast?_cons_or,
      List.cons_append]

/-- Characters of names behind a character of a name. -/
theorem valueOf_of_segment {cs : List Char} (hcs : cs.all CharClass.segment = true) {b : Char}
    (hb : CharClass.segment b = true) (rest : List Char) :
    valueOf (some b) (cs ++ rest) = cs ++ valueOf (cs.getLast?.or (some b)) rest := by
  induction cs generalizing b with
  | nil => rfl
  | cons c cs ih =>
    rw [List.all_cons, Bool.and_eq_true] at hcs
    have hbehind : (some b).any (fun b => CharClass.segment b || b == '.') = true := by
      rw [Option.any_some, hb, Bool.true_or]
    rw [List.cons_append, valueOf_cons fun _ => .inl hbehind, ih hcs.2 hcs.1, getLast?_cons_or,
      List.cons_append]

/-- A name other than the letter alone: its first character has a character of a name behind
it, the others have one before them. -/
theorem ofName {n : List Char} (hsegment : n.all CharClass.segment = true) (hne : n ≠ ['x']) :
    IsInert n := by
  intro before rest
  cases n with
  | nil => rfl
  | cons c cs =>
    rw [List.all_cons, Bool.and_eq_true] at hsegment
    have hfirst : c = 'x' → before.any (fun b => CharClass.segment b || b == '.') = true ∨
        (cs ++ rest).head?.any CharClass.segment = true := by
      rintro rfl
      cases cs with
      | nil => exact absurd rfl hne
      | cons d ds =>
        rw [List.all_cons, Bool.and_eq_true] at hsegment
        exact .inr hsegment.2.1
    rw [List.cons_append, valueOf_cons hfirst, valueOf_of_segment hsegment.2 hsegment.1,
      getLast?_cons_or, List.cons_append]

/-- Inert texts with inert separators are inert. -/
theorem join {sep : String} {parts : List String} (hsep : IsInert sep.toList)
    (hparts : ∀ p ∈ parts, IsInert p.toList) : IsInert (Pieces.join sep parts).toList := by
  induction parts with
  | nil => exact nil
  | cons p parts ih =>
    have hp := hparts p List.mem_cons_self
    cases parts with
    | nil => simpa [Pieces.join] using hp
    | cons q parts =>
      have hrest := ih fun r hr => hparts r (List.mem_cons_of_mem _ hr)
      simpa [Pieces.join, String.toList_append] using hp.append (hsep.append hrest)

end IsInert

/-- The segment is a run of letters, digits and underscores, and not the converted name. -/
def IsOther (n : String) : Prop := n.toList.all CharClass.segment = true ∧ n ≠ "x"

/-- Another name than the converted one is inert. -/
theorem IsOther.isInert {n : String} (h : IsOther n) : IsInert n.toList :=
  .ofName h.1 fun heq => h.2 (String.toList_inj.1 heq)

mutual

/-- The text of a type none of whose names has the converted name as a segment. -/
theorem isInert_toText : ∀ t : TypeExpr, (∀ n ∈ t.names, IsOther n) → IsInert t.toText.toList
  | .named path args, h => by
    rw [TypeExpr.names, List.forall_mem_append] at h
    have hpath : IsInert (Pieces.join "." path).toList :=
      .join (.ofAll (by decide)) fun n hn => (h.1 n hn).isInert
    have hargs : IsInert (Pieces.join ", " (args.map TypeExpr.toText)).toList :=
      .join (.ofAll (by decide)) (isInert_texts args h.2)
    rw [TypeExpr.toText_named, String.toList_append]
    split
    · exact hpath.append .nil
    · have hopen : IsInert "<".toList := .ofAll (by decide)
      have hclose : IsInert ">".toList := .ofAll (by decide)
      rw [String.toList_append, String.toList_append]
      exact hpath.append ((hopen.append hargs).append hclose)
  | .array element rank, h => by
    have hopen : IsInert "[".toList := .ofAll (by decide)
    have hclose : IsInert "]".toList := .ofAll (by decide)
    have hcommas : IsInert (String.ofList (List.replicate (rank - 1) ',')).toList := by
      rw [String.toList_ofList]
      exact .ofAll (List.all_eq_true.2 fun c hc => by rw [List.eq_of_mem_replicate hc]; decide)
    rw [TypeExpr.toText, String.toList_append, String.toList_append, String.toList_append]
    exact (((isInert_toText element h).append hopen).append hcommas).append hclose
  | .nullable inner, h => by
    rw [TypeExpr.toText, String.toList_append]
    exact (isInert_toText inner h).append (.ofAll (by decide))
  | .tuple items, h => by
    have hopen : IsInert "(".toList := .ofAll (by decide)
    have hclose : IsInert ")".toList := .ofAll (by decide)
    have hitems : IsInert (Pieces.join ", " (items.map TypeExpr.toText)).toList :=
      .join (.ofAll (by decide)) (isInert_texts items h)
    rw [TypeExpr.toText, TypeExpr.texts_eq_map, String.toList_append, String.toList_append]
    exact (hopen.append hitems).append hclose

/-- The texts of several types of other names are inert. -/
theorem isInert_texts : ∀ ts : List TypeExpr, (∀ n ∈ TypeExpr.namesOfAll ts, IsOther n) →
    ∀ p ∈ ts.map TypeExpr.toText, IsInert p.toList
  | [], _ => fun _ hp => absurd hp List.not_mem_nil
  | t :: ts, h => by
    rw [TypeExpr.namesOfAll, List.forall_mem_append] at h
    exact List.forall_mem_cons.2 ⟨isInert_toText t h.1, isInert_texts ts h.2⟩

end

/-- The name between two inert texts that it does not touch is the one that is replaced. -/
theorem valueOf_append {pre post : List Char} (hpre : IsInert pre) (hpost : IsInert post)
    (hlast : pre.getLast?.any (fun b => CharClass.segment b || b == '.') = false)
    (hfirst : post.head?.any CharClass.segment = false) :
    valueOf none (pre ++ 'x' :: post) = pre ++ ("kv.Value".toList ++ post) := by
  have hrest := hpost (some 'x') []
  rw [List.append_nil, valueOf, List.append_nil] at hrest
  rw [hpre, Option.or_none, valueOf, hlast, hfirst, hrest]
  rfl

/-! ### What stands around a converted expression -/

/-- The texts that a conversion to a type puts before and behind an expression. -/
inductive IsFrame (d : Shape) : String → String → Prop
  | same : IsFrame d "" ""
  | text {after : String} (h : after ∈ [".ToString()", "?.ToString()"]) : IsFrame d "" after
  | enumeration : IsFrame d ("Enum.Parse<" ++ d.underlying.code ++ ">(") ")"
  | parsed {name : String} (h : name ∈ parseable) : IsFrame d (name ++ ".Parse(") ")"
  | number {name m : String} (h : method? name = some m) : IsFrame d ("Convert." ++ m ++ "(") ")"

/-- Either nothing is converted, or every expression is, between the same two texts. -/
def Frames (d : Shape) (f : String → Option Rated) : Prop :=
  (∀ e, f e = none) ∨
    ∃ before after c, IsFrame d before after ∧ ∀ e, f e = some (before ++ e ++ after, c)

namespace Frames

variable {d : Shape} {f g : String → Option Rated}

/-- Of two ways to put an expression into frames either may be taken. -/
theorem ite (b : Bool) (hf : Frames d f) (hg : Frames d g) :
    Frames d fun e => if b then f e else g e := by
  cases b with
  | true => exact hf
  | false => exact hg

/-- The second way may be taken where the first gives nothing. -/
theorem orElse (hf : Frames d f) (hg : Frames d g) :
    Frames d fun e => match f e with
      | some r => some r
      | none => g e := by
  rcases hf with hnone | ⟨before, after, c, hframe, hsome⟩
  · simpa only [hnone] using hg
  · exact .inr ⟨before, after, c, hframe, fun e => by simp only [hsome]⟩

/-- A text is read within a frame. -/
theorem fromText? (d : Shape) : Frames d fun e => fromText? e d.underlying := by
  unfold Conversion.fromText?
  refine .ite _ (.inr ⟨_, _, _, .enumeration, fun _ => rfl⟩) ?_
  cases hname : parseable.contains d.underlying.name with
  | true => exact .inr ⟨_, _, _, .parsed (List.contains_iff_mem.1 hname), fun _ => rfl⟩
  | false => exact .inl fun _ => rfl

/-- A number is converted within a frame. -/
theorem fromNumber? (s d : Shape) : Frames d fun e => fromNumber? e s d.underlying := by
  unfold Conversion.fromNumber?
  refine .ite _ ?_ (.inl fun _ => rfl)
  cases hmethod : method? d.underlying.name with
  | none => exact .inl fun _ => rfl
  | some m => exact .inr ⟨_, _, _, .number hmethod, fun _ => rfl⟩

end Frames

/-- Which conversion is known depends on the types alone. -/
theorem frames_convert? (s d : Shape) : Frames d fun e => convert? e s d := by
  unfold convert?
  refine .ite _ (.inr ⟨_, _, .high, .same, fun e => ?_⟩) (.ite _ ?_ ?_)
  · rw [String.empty_append, String.append_empty]
  · have hafter : (if s.isNullable then "?.ToString()" else ".ToString()") ∈
        [".ToString()", "?.ToString()"] := by
      cases s.isNullable <;> decide
    exact .inr ⟨_, _, .high, .text hafter, fun e => by rw [String.empty_append]⟩
  · exact .orElse (.ite _ (.fromText? d) (.inl fun _ => rfl)) (.fromNumber? _ d)

namespace IsFrame

variable {d : Shape} {before after : String}

/-- What a frame puts before an expression is inert, for a destination of other names. -/
theorem isInert_before (h : IsFrame d before after) (hd : ∀ n ∈ d.expr.names, IsOther n) :
    IsInert before.toList := by
  cases h with
  | same => exact .nil
  | text => exact .nil
  | enumeration =>
    have hopen : IsInert "Enum.Parse<".toList := .ofAll (by decide)
    have hclose : IsInert ">(".toList := .ofAll (by decide)
    have hcode : IsInert d.underlying.code.toList :=
      isInert_toText _ (Shape.names_underlying d ▸ hd)
    rw [String.toList_append, String.toList_append]
    exact (hopen.append hcode).append hclose
  | parsed hname =>
    have hnames : ∀ n ∈ parseable, (n ++ ".Parse(").toList.all (· != 'x') = true := by decide
    exact .ofAll (hnames _ hname)
  | number hmethod =>
    unfold method? at hmethod
    split at hmethod
    all_goals first
      | cases hmethod; done
      | (obtain rfl := Option.some.inj hmethod; exact .ofAll (by decide))

/-- So is what it puts behind, for every destination. -/
theorem isInert_after (h : IsFrame d before after) : IsInert after.toList := by
  have htexts : ∀ t ∈ [".ToString()", "?.ToString()"], t.toList.all (· != 'x') = true := by decide
  cases h with
  | same => exact .nil
  | text hafter => exact .ofAll (htexts _ hafter)
  | enumeration => exact .ofAll (by decide)
  | parsed => exact .ofAll (by decide)
  | number => exact .ofAll (by decide)

/-- Nothing stands before the expression, or a bracket does. -/
theorem last_before (h : IsFrame d before after) :
    before.toList.getLast?.any (fun b => CharClass.segment b || b == '.') = false := by
  cases h with
  | same => rfl
  | text => rfl
  | enumeration =>
    rw [String.toList_append, List.getLast?_append]
    rfl
  | parsed =>
    rw [String.toList_append, List.getLast?_append]
    rfl
  | number =>
    rw [String.toList_append, List.getLast?_append]
    rfl

/-- Nothing stands behind the expression, or a mark does. -/
theorem first_after (h : IsFrame d before after) :
    after.toList.head?.any CharClass.segment = false := by
  have htexts : ∀ t ∈ [".ToString()", "?.ToString()"],
      t.toList.head?.any CharClass.segment = false := by decide
  cases h with
  | same => rfl
  | text hafter => exact htexts _ hafter
  | enumeration => rfl
  | parsed => rfl
  | number => rfl

end IsFrame

/-- The expression of an element is brought to the value of an entry, when no segment of the names
in the destination is the converted name. -/
theorem Frames.valueOf_body {d : Shape} {f : String → Option Rated} (hf : Frames d f)
    (hd : ∀ n ∈ d.expr.names, IsOther n) {body : String} {c : Confidence}
    (h : f "x" = some (body, c)) :
    ∃ value, f "kv.Value" = some (value, c) ∧ valueOf none body.toList = value.toList := by
  rcases hf with hnone | ⟨before, after, c', hframe, hsome⟩
  · exact absurd ((hnone "x").symm.trans h) (by simp)
  obtain ⟨rfl, rfl⟩ := Prod.mk.inj (Option.some.inj ((hsome "x").symm.trans h))
  refine ⟨_, hsome "kv.Value", ?_⟩
  rw [String.toList_append, String.toList_append, String.toList_append, String.toList_append,
    List.append_assoc, List.append_assoc]
  exact valueOf_append (hframe.isInert_before hd) hframe.isInert_after hframe.last_before
    hframe.first_after

/-- Reading a text as a member of an enumeration spells the enumeration, with every `x` in it. -/
example : fromText? "x" (.declared ["Ajax", "x1"] [] 0 .enumeration "Ajax.x1") =
      some ("Enum.Parse<Ajax.x1>(x)", .medium) ∧
    valueOf none "Enum.Parse<Ajax.x1>(x)".toList = "Enum.Parse<Ajax.x1>(kv.Value)".toList := by
  decide +kernel

/-! ### Dictionaries -/

/-- A known conversion of elements is brought to the values of a dictionary as it is written for
them, when no segment of the names in the destination is the converted name. -/
theorem dictionary_values_converted {s d : Shape} (hd : ∀ n ∈ d.expr.names, IsOther n)
    {body : String} {c : Confidence} (h : convert? "x" s d = some (body, c)) :
    ∃ value, convert? "kv.Value" s d = some (value, c) ∧
      valueOf none body.toList = value.toList ∧
      ∀ expr, project? expr s d .dictionary =
        some (expr ++ ".ToDictionary(kv => kv.Key, kv => " ++ value ++ ")", c) := by
  obtain ⟨value, hvalue, hbody⟩ := (frames_convert? s d).valueOf_body hd h
  refine ⟨value, hvalue, hbody, fun expr => ?_⟩
  have helement : element s d = (body, c) := by
    rw [element, h]
    rfl
  rw [project?, helement]
  dsimp only
  rw [hbody, String.ofList_toList]
  rfl

/-- Texts become optional numbers. -/
theorem dictionary_values_converted_optionalInt :
    (∀ n ∈ (Shape.nullable (.builtin ["int"])).expr.names, IsOther n) ∧
      convert? "x" (.builtin ["string"]) (.nullable (.builtin ["int"])) =
        some ("int.Parse(x)", .medium) ∧
      ∃ value, convert? "kv.Value" (.builtin ["string"]) (.nullable (.builtin ["int"])) =
          some (value, .medium) ∧
        valueOf none "int.Parse(x)".toList = value.toList ∧
        ∀ expr, project? expr (.builtin ["string"]) (.nullable (.builtin ["int"])) .dictionary =
          some (expr ++ ".ToDictionary(kv => kv.Key, kv => " ++ value ++ ")", .medium) := by
  have hnames : ∀ n ∈ (Shape.nullable (.builtin ["int"])).expr.names, IsOther n := by
    simp only [Shape.expr, TypeExpr.names, TypeExpr.namesOfAll, IsOther]
    decide
  have hconvert : convert? "x" (.builtin ["string"]) (.nullable (.builtin ["int"])) =
      some ("int.Parse(x)", .medium) := by
    decide +kernel
  exact ⟨hnames, hconvert, dictionary_values_converted hnames hconvert⟩

end Conversion
end MappingAudit
