/-
# What written types are made of

A type that is read from a text is spelled (`TypeExpr.IsSpelled`): its dotted names have
segments, these are runs of name characters, and its tuples have items.  Reading brings names
to a single form, which keeps that, and so does putting spelled types in place of names; so
every type that comes from texts is spelled (`IsFromText.isSpelled`).

The text of a spelled type has no characters but those of names, the marks of types and blanks
(`IsSpelled.isTypeChar`), and none of the blanks stands first or last when no segment of a name
is empty (`IsLegible.isSolid`).
-/

import MappingAudit.Proofs.Substitutions
import MappingAudit.Proofs.TextPieces
import MappingAudit.Proofs.TypeTexts

namespace MappingAudit

/-! ### Characters of a type -/

namespace CharTable

/-- The stretches between blanks that are no ASCII characters, without their ends. -/
def blankGaps : List (Nat × Nat) :=
  [(0x3000, 0x110000), (0x205F, 0x3000), (0x202F, 0x205F), (0x2029, 0x202F), (0x200A, 0x2028),
    (0x1680, 0x2000), (0xA0, 0x1680), (0x85, 0xA0)]

/-- The range lies within a stretch between blanks. -/
def isGapped (r : CharRange) : Bool := blankGaps.any fun g => g.1 < r.first && r.last < g.2

/-- No range of the table holds a blank. -/
theorem has_eq_false_of_blank (table : Array CharRange) (htable : table.toList.all isGapped = true)
    {c : Char} (hblank : CharClass.blank c = true) (hascii : CharClass.ascii c = false) :
    has table c = false := by
  refine Bool.eq_false_iff.2 fun hhas => ?_
  rw [has, ← Array.any_toList] at hhas
  obtain ⟨r, hr, hcontains⟩ := List.any_eq_true.1 hhas
  have hgap := List.all_eq_true.1 htable r hr
  simp only [isGapped, blankGaps, List.any_cons, List.any_nil, Bool.or_false, Bool.or_eq_true,
    Bool.and_eq_true, decide_eq_true_eq] at hgap
  simp only [CharRange.contains, Bool.and_eq_true, decide_eq_true_eq, beq_iff_eq] at hcontains
  simp only [CharClass.blank, Bool.or_eq_true, Bool.and_eq_true, decide_eq_true_eq,
    beq_iff_eq] at hblank
  simp only [CharClass.ascii, decide_eq_false_iff_not] at hascii
  omega

end CharTable

/-- Blanks are neither letters nor numbers. -/
theorem CharClass.not_alphanumeric_of_blank {c : Char} (hblank : blank c = true)
    (hascii : ascii c = false) : alphanumeric c = false := by
  have hletters := CharTable.has_eq_false_of_blank CharTable.letters (by decide +kernel) hblank
    hascii
  have hmarks := CharTable.has_eq_false_of_blank CharTable.marks (by decide +kernel) hblank hascii
  have hnumbers := CharTable.has_eq_false_of_blank CharTable.numbers (by decide +kernel) hblank
    hascii
  simp only [alphanumeric, alphabetic, hascii, hletters, hmarks, hnumbers]
  rfl

namespace TypeExpr
namespace Token

/-- The characters of tokens, and those between them. -/
def isTypeChar (c : Char) : Bool :=
  nameChar c || CharClass.blank c || (ofMark? c).isSome || c == ':'

/-- Names have no blanks in them. -/
theorem not_blank_of_nameChar {c : Char} (h : nameChar c = true) : CharClass.blank c = false := by
  refine Bool.eq_false_iff.2 fun hblank => ?_
  cases hascii : CharClass.ascii c with
  | true =>
    have hcode : c.toNat ∈ [9, 10, 11, 12, 13, 0x20] := by
      simp only [CharClass.blank, CharClass.ascii, Bool.or_eq_true, Bool.and_eq_true,
        decide_eq_true_eq, beq_iff_eq] at hblank hascii
      simp only [List.mem_cons, List.not_mem_nil, or_false]
      omega
    have hnone : ∀ n ∈ [9, 10, 11, 12, 13, 0x20], nameChar (Char.ofNat n) = false := by decide
    have hnot := hnone c.toNat hcode
    rw [Char.ofNat_toNat, h] at hnot
    cases hnot
  | false =>
    rw [nameChar, CharClass.not_alphanumeric_of_blank hblank hascii, Bool.false_or, Bool.or_eq_true,
      beq_iff_eq, beq_iff_eq] at h
    rcases h with rfl | rfl <;> cases hascii

end Token

/-- The text has characters, and no blank comes first or last. -/
structure IsSolid (cs : List Char) : Prop where
  ne_nil : cs ≠ []
  head : ∀ c ∈ cs.head?, CharClass.blank c = false
  last : ∀ c ∈ cs.getLast?, CharClass.blank c = false

namespace IsSolid

/-- Trimming leaves a solid text as it is. -/
theorem trim_eq {cs : List Char} (h : IsSolid cs) : Pieces.trim cs = cs := by
  have hdrop {ds : List Char} (hds : ∀ c ∈ ds.head?, CharClass.blank c = false) :
      ds.dropWhile CharClass.blank = ds := by
    cases ds with
    | nil => rfl
    | cons c ds => rw [List.dropWhile_cons_of_neg (by simp [hds c rfl])]
  have hlast : ∀ c ∈ cs.reverse.head?, CharClass.blank c = false := by
    rw [List.head?_reverse]
    exact h.last
  rw [Pieces.trim, Pieces.trimStart, Pieces.trimEnd, hdrop h.head, hdrop hlast,
    List.reverse_reverse]

/-- A character that is no blank makes a solid text. -/
theorem singleton {c : Char} (h : CharClass.blank c = false) : IsSolid [c] where
  ne_nil := List.cons_ne_nil _ _
  head := fun _ hd => Option.some.inj hd ▸ h
  last := fun _ hd => Option.some.inj hd ▸ h

/-- Solid texts around anything make a solid text. -/
theorem append {cs ds : List Char} (hcs : IsSolid cs) (mid : List Char) (hds : IsSolid ds) :
    IsSolid (cs ++ mid ++ ds) where
  ne_nil := by simp [hcs.ne_nil]
  head := by
    obtain ⟨c, cs', rfl⟩ := List.exists_cons_of_ne_nil hcs.ne_nil
    exact hcs.head
  last := by
    have hlast := List.getLast?_eq_some_getLast hds.ne_nil
    rw [List.getLast?_append, hlast, Option.some_or, ← hlast]
    exact hds.last

/-- A name of name characters is solid. -/
theorem name {n : String} (hne : n ≠ "") (h : ∀ c ∈ n.toList, Token.nameChar c = true) :
    IsSolid n.toList where
  ne_nil := fun hnil => hne (String.toList_eq_nil_iff.1 hnil)
  head := fun c hc => Token.not_blank_of_nameChar (h c (List.mem_of_mem_head? hc))
  last := fun c hc => Token.not_blank_of_nameChar (h c (List.mem_of_getLast? hc))

/-- Solid names with dots between them make a solid text. -/
theorem path {names : List String} (hne : names ≠ []) (h : ∀ n ∈ names, IsSolid n.toList) :
    IsSolid (Pieces.join "." names).toList := by
  induction names with
  | nil => exact absurd rfl hne
  | cons n names ih =>
    have hn := h n List.mem_cons_self
    cases names with
    | nil => simpa [Pieces.join] using hn
    | cons m names =>
      have hrest := ih (List.cons_ne_nil _ _) fun k hk => h k (List.mem_cons_of_mem _ hk)
      simpa [Pieces.join, String.toList_append] using hn.append ['.'] hrest

end IsSolid

/-! ### Spelled types -/

mutual

/-- The segments of the names in a type. -/
def names : TypeExpr → List String
  | named path args => path ++ namesOfAll args
  | array element _ => names element
  | nullable inner => names inner
  | tuple items => namesOfAll items

/-- The segments of the names in several types. -/
def namesOfAll : List TypeExpr → List String
  | [] => []
  | t :: ts => names t ++ namesOfAll ts

end

/-- The type is made of dotted names whose segments are runs of name characters, and of tuples
with items. -/
inductive IsSpelled : TypeExpr → Prop
  | named {path : List String} {args : List TypeExpr} (hne : path ≠ [])
    (hnames : ∀ n ∈ path, ∀ c ∈ n.toList, Token.nameChar c = true)
    (hargs : ∀ a ∈ args, IsSpelled a) : IsSpelled (named path args)
  | array {element : TypeExpr} {rank : Nat} (h : IsSpelled element) :
    IsSpelled (array element rank)
  | nullable {inner : TypeExpr} (h : IsSpelled inner) : IsSpelled (nullable inner)
  | tuple {items : List TypeExpr} (hne : items ≠ []) (hitems : ∀ a ∈ items, IsSpelled a) :
    IsSpelled (tuple items)

/-- The type is spelled, and no segment of its names is empty. -/
def IsLegible (t : TypeExpr) : Prop := t.IsSpelled ∧ ∀ n ∈ t.names, n ≠ ""

namespace Token

/-- The names among some tokens are runs of name characters. -/
def AreNames (ts : List Token) : Prop :=
  ∀ n, ident n ∈ ts → ∀ c ∈ n.toList, nameChar c = true

/-- Names among fewer tokens remain names. -/
theorem AreNames.subset {ts us : List Token} (h : AreNames us) (hsub : ts ⊆ us) : AreNames ts :=
  fun n hn => h n (hsub hn)

/-- The name that a scan has come to is one, when its characters are. -/
theorem areNames_close {name : List Char} {ts : List Token}
    (hname : ∀ c ∈ name, nameChar c = true) (hts : AreNames ts) :
    AreNames (scanFrom.close name ts) := by
  intro n hn
  rw [scanFrom.close] at hn
  split at hn
  · exact hts n hn
  · rcases List.mem_cons.1 hn with heq | hn
    · obtain rfl := Token.ident.inj heq
      rw [String.toList_ofList]
      exact fun c hc => hname c (List.mem_reverse.1 ((List.dropWhile_sublist _).subset hc))
    · exact hts n hn

/-- A token that is no name may stand in front. -/
theorem areNames_cons {ts : List Token} {t : Token} (ht : ∀ n, t ≠ .ident n)
    (hts : AreNames ts) : AreNames (t :: ts) := by
  intro n hn
  rcases List.mem_cons.1 hn with heq | hn
  · exact absurd heq.symm (ht n)
  · exact hts n hn

/-- A mapped result comes from a result. -/
theorem ok_of_map_eq_ok {α β : Type} {f : α → β} {e : Except Char α} {b : β}
    (h : e.map f = .ok b) : ∃ a, e = .ok a ∧ f a = b := by
  cases e with
  | error c => cases h
  | ok a => exact ⟨a, rfl, Except.ok.inj h⟩

/-- Marks are no names. -/
theorem ofMark?_ne_ident {c : Char} {t : Token} (h : ofMark? c = some t) (n : String) :
    t ≠ .ident n := by
  rintro rfl
  unfold ofMark? at h
  split at h <;> cases h

/-- A text is cut into names of name characters. -/
theorem areNames_of_scanFrom {name cs : List Char} {ts : List Token}
    (hname : ∀ c ∈ name, nameChar c = true) (h : scanFrom name cs = .ok ts) : AreNames ts := by
  have hnil : ∀ c ∈ ([] : List Char), nameChar c = true := fun c hc => absurd hc List.not_mem_nil
  fun_induction scanFrom name cs generalizing ts with
  | case1 =>
    obtain rfl := Except.ok.inj h
    exact areNames_close hname fun n hn => absurd hn List.not_mem_nil
  | case2 name rest ih =>
    obtain ⟨us, hus, rfl⟩ := ok_of_map_eq_ok h
    exact areNames_close hname (areNames_cons (fun _ => Token.noConfusion) (ih hnil hus))
  | case3 name c cs _ hc ih => exact ih (List.forall_mem_cons.2 ⟨hc, hname⟩) h
  | case4 name c cs _ _ hblank ih =>
    obtain ⟨us, hus, rfl⟩ := ok_of_map_eq_ok h
    exact areNames_close hname (ih hnil hus)
  | case5 name c cs _ _ _ t hmark ih =>
    obtain ⟨us, hus, rfl⟩ := ok_of_map_eq_ok h
    exact areNames_close hname (areNames_cons (ofMark?_ne_ident hmark) (ih hnil hus))
  | case6 => cases h

end Token

open Token (AreNames)

/-- Suffixes of spelled types make spelled types. -/
theorem IsSuffix.isSpelled {ss : List Token} {f : TypeExpr → TypeExpr} (hs : IsSuffix ss f)
    {t : TypeExpr} (h : t.IsSpelled) : (f t).IsSpelled := by
  cases hs with
  | question =>
    rw [optional]
    split
    · exact h
    · exact .nullable h
  | brackets commas => exact .array h
  | star => exact h

mutual

/-- A type that derives from names of name characters is spelled. -/
theorem isSpelled_of_isType : ∀ {ts : List Token} {t : TypeExpr}, IsType ts t →
    AreNames ts → t.IsSpelled
  | _, _, .tuple (.parens h), hts =>
    have hitems := isSpelled_of_isItems h (hts.subset (by simp))
    .tuple hitems.1 hitems.2
  | _, _, .named h, hts =>
    have hpath := isSpelled_of_isPath h hts
    .named hpath.1 hpath.2.1 hpath.2.2
  | _, _, IsType.suffix h hs, hts => hs.isSpelled (isSpelled_of_isType h (hts.subset (by simp)))

/-- A path of names has segments, all of name characters, and spelled arguments. -/
theorem isSpelled_of_isPath : ∀ {ts : List Token} {path : List String} {args : List TypeExpr},
    IsPath ts path args → AreNames ts → path ≠ [] ∧
      (∀ n ∈ path, ∀ c ∈ n.toList, Token.nameChar c = true) ∧ ∀ a ∈ args, a.IsSpelled
  | _, _, _, .one h, hts =>
    have hsegment := isSpelled_of_isSegment h hts
    ⟨List.cons_ne_nil _ _, List.forall_mem_singleton.2 hsegment.1, hsegment.2⟩
  | _, _, _, .dot h hpath, hts =>
    have hsegment := isSpelled_of_isSegment h (hts.subset (by simp))
    have hmore := isSpelled_of_isPath hpath (hts.subset (by simp))
    ⟨List.cons_ne_nil _ _, List.forall_mem_cons.2 ⟨hsegment.1, hmore.2.1⟩,
      List.forall_mem_append.2 ⟨hsegment.2, hmore.2.2⟩⟩

/-- So has each segment of it. -/
theorem isSpelled_of_isSegment : ∀ {ts : List Token} {name : String} {args : List TypeExpr},
    IsSegment ts name args → AreNames ts →
      (∀ c ∈ name.toList, Token.nameChar c = true) ∧ ∀ a ∈ args, a.IsSpelled
  | _, _, _, .plain name, hts =>
    ⟨hts name List.mem_cons_self, fun _ ha => absurd ha List.not_mem_nil⟩
  | _, _, _, .generic name h, hts =>
    ⟨hts name List.mem_cons_self, isSpelled_of_isArgs h (hts.subset fun _ ht => by simp [ht])⟩

/-- Arguments that are read from names are spelled. -/
theorem isSpelled_of_isArgs : ∀ {ts : List Token} {args : List TypeExpr}, IsArgs ts args →
    AreNames ts → ∀ a ∈ args, a.IsSpelled
  | _, _, .none _, _ => fun _ ha => absurd ha List.not_mem_nil
  | _, _, .some _ _ h, hts => isSpelled_of_isTypes h (hts.subset (by simp))

/-- So are types between commas. -/
theorem isSpelled_of_isTypes : ∀ {ts : List Token} {args : List TypeExpr}, IsTypes ts args →
    AreNames ts → ∀ a ∈ args, a.IsSpelled
  | _, _, .one h, hts => List.forall_mem_singleton.2 (isSpelled_of_isType h hts)
  | _, _, .more _ h hmore, hts =>
    List.forall_mem_cons.2 ⟨isSpelled_of_isType h (hts.subset (by simp)),
      isSpelled_of_isTypes hmore (hts.subset (by simp))⟩

/-- A tuple that is read from names has items, all of them spelled. -/
theorem isSpelled_of_isItems : ∀ {ts : List Token} {items : List TypeExpr}, IsItems ts items →
    AreNames ts → items ≠ [] ∧ ∀ a ∈ items, a.IsSpelled
  | _, _, .one h, hts =>
    ⟨List.cons_ne_nil _ _, List.forall_mem_singleton.2 (isSpelled_of_isItem h hts)⟩
  | _, _, .more h hmore, hts =>
    ⟨List.cons_ne_nil _ _, List.forall_mem_cons.2 ⟨isSpelled_of_isItem h (hts.subset (by simp)),
      (isSpelled_of_isItems hmore (hts.subset (by simp))).2⟩⟩

/-- An item is spelled, with a name or without one. -/
theorem isSpelled_of_isItem : ∀ {ts : List Token} {t : TypeExpr}, IsItem ts t →
    AreNames ts → t.IsSpelled
  | _, _, .plain h, hts => isSpelled_of_isType h hts
  | _, _, .named h _, hts => isSpelled_of_isType h (hts.subset (by simp))

end

/-! ### Types that come from texts -/

/-- Several types are normalized one by one. -/
theorem normalizeAll_eq_map (ts : List TypeExpr) : normalizeAll ts = ts.map normalize := by
  induction ts with
  | nil => rfl
  | cons t ts ih => rw [normalizeAll, ih, List.map_cons]

/-- The names that keywords stand for are made of name characters. -/
theorem nameChar_of_keyword? {name k : String} (h : keyword? name = some k) :
    ∀ c ∈ k.toList, Token.nameChar c = true := by
  unfold keyword? at h
  split at h
  all_goals first
    | cases h; done
    | (obtain rfl := Option.some.inj h; exact List.all_eq_true.1 (by decide))

/-- The single form of a name. -/
theorem names_useKeyword {path : List String} {p : String → Prop} (hne : path ≠ [])
    (hp : ∀ n ∈ path, p n) (hk : ∀ n k, keyword? n = some k → p k) :
    useKeyword path ≠ [] ∧ ∀ n ∈ useKeyword path, p n := by
  unfold useKeyword
  split
  · next name =>
    refine ⟨List.cons_ne_nil _ _, List.forall_mem_singleton.2 ?_⟩
    cases hname : keyword? name with
    | none => exact hp name List.mem_cons_self
    | some k => exact hk name k hname
  · next name =>
    split
    · next k hname => exact ⟨List.cons_ne_nil _ _, List.forall_mem_singleton.2 (hk name k hname)⟩
    · exact ⟨List.cons_ne_nil _ _, hp⟩
  · exact ⟨hne, hp⟩

/-- A path without `global` still has segments. -/
theorem dropGlobal_ne_nil {path : List String} (h : path ≠ []) : dropGlobal path ≠ [] := by
  unfold dropGlobal
  split
  · exact List.cons_ne_nil _ _
  · exact h

/-- Its segments were there before. -/
theorem dropGlobal_subset (path : List String) : dropGlobal path ⊆ path := by
  unfold dropGlobal
  split
  · exact List.subset_cons_self _ _
  · exact List.Subset.refl _

namespace IsSpelled

variable {t : TypeExpr} {path : List String} {args : List TypeExpr}

/-- A name with its arguments, `Nullable` among them. -/
theorem ofPath (h : (TypeExpr.named path args).IsSpelled) : (TypeExpr.ofPath path args).IsSpelled := by
  unfold TypeExpr.ofPath
  split
  · next inner =>
    split
    · cases h with
      | named _ _ hargs => exact .nullable (hargs inner List.mem_cons_self)
    · exact h
  · exact h

/-- The single form of a spelled type is spelled. -/
theorem normalize (h : t.IsSpelled) : t.normalize.IsSpelled := by
  induction h with
  | @named path args hne hnames _ ih =>
    obtain ⟨hne', hnames'⟩ := names_useKeyword (dropGlobal_ne_nil hne)
      (fun n hn => hnames n (dropGlobal_subset path hn)) fun _ _ => nameChar_of_keyword?
    rw [TypeExpr.normalize, normalizeAll_eq_map]
    exact ofPath (.named hne' hnames' (List.forall_mem_map.2 ih))
  | array _ ih =>
    rw [TypeExpr.normalize]
    exact .array ih
  | nullable _ ih =>
    rw [TypeExpr.normalize]
    exact .nullable ih
  | tuple hne _ ih =>
    rw [TypeExpr.normalize, normalizeAll_eq_map]
    exact .tuple (by simpa using hne) (List.forall_mem_map.2 ih)

/-- A spelled type with spelled types in place of names is spelled. -/
theorem substitute {b : Bindings} (h : t.IsSpelled)
    (hb : ∀ name u, b.lookup name = some u → u.IsSpelled) : (t.substitute b).IsSpelled := by
  induction h with
  | @named path args hne hnames hargs ih =>
    have hplain : (TypeExpr.named path args).IsSpelled := .named hne hnames hargs
    unfold TypeExpr.substitute
    split
    · next name heq =>
      cases hlookup : b.lookup name with
      | none => exact heq ▸ hplain
      | some u => exact hb name u hlookup
    · next heq =>
      obtain ⟨rfl, rfl⟩ := TypeExpr.named.inj heq
      rw [substituteAll_eq_map]
      exact .named hne hnames (List.forall_mem_map.2 ih)
    · next heq => cases heq
    · next heq => cases heq
    · next heq => cases heq
  | array _ ih =>
    rw [TypeExpr.substitute]
    exact .array ih
  | nullable _ ih =>
    rw [TypeExpr.substitute, optional]
    split
    · exact ih
    · exact .nullable ih
  | tuple hne _ ih =>
    rw [TypeExpr.substitute, substituteAll_eq_map]
    exact .tuple (by simpa using hne) (List.forall_mem_map.2 ih)

end IsSpelled

/-- The types that are read from texts, and those that come out when such types are put in place
of names in such types. -/
inductive IsFromText : TypeExpr → Prop
  | read {text : String} {t : TypeExpr} (h : read? text = some t) : IsFromText t
  | substitute {t : TypeExpr} {b : Bindings} (h : IsFromText t)
    (hb : ∀ name u, b.lookup name = some u → IsFromText u) : IsFromText (t.substitute b)

/-- What is read is spelled: it derives from the names that its text is cut into. -/
theorem isSpelled_of_read? {text : String} {t : TypeExpr} (h : read? text = some t) :
    t.IsSpelled := by
  rw [read?, read] at h
  split at h
  · cases h
  · next ts hscan =>
    cases htokens : readTokens text ts with
    | error e =>
      rw [htokens] at h
      cases h
    | ok u =>
      rw [htokens] at h
      obtain rfl := Option.some.inj h
      have hnames := Token.areNames_of_scanFrom (fun _ hc => absurd hc List.not_mem_nil) hscan
      exact (isSpelled_of_isType (readTokens_eq_ok_iff.1 htokens) hnames).normalize

/-- What comes from texts is spelled. -/
theorem IsFromText.isSpelled {t : TypeExpr} (h : t.IsFromText) : t.IsSpelled := by
  induction h with
  | read h => exact isSpelled_of_read? h
  | substitute _ _ iht ihb => exact iht.substitute ihb

/-! ### Their texts -/

/-- Several types are written one by one. -/
theorem texts_eq_map (ts : List TypeExpr) : texts ts = ts.map toText := by
  induction ts with
  | nil => rfl
  | cons t ts ih => rw [texts, ih, List.map_cons]

/-- The arguments behind a name. -/
theorem toText_named (path : List String) (args : List TypeExpr) :
    (named path args).toText = Pieces.join "." path ++
      if args = [] then "" else "<" ++ Pieces.join ", " (args.map toText) ++ ">" := by
  cases args with
  | nil => simp [toText]
  | cons a as => simp [toText, texts_eq_map, String.append_assoc]

namespace IsSpelled

variable {t : TypeExpr}

/-- The text of a spelled type holds characters of types only. -/
theorem isTypeChar (h : t.IsSpelled) : ∀ c ∈ t.toText.toList, Token.isTypeChar c = true := by
  have hmarks {t : String} (ht : t.toList.all Token.isTypeChar = true) :
      ∀ c ∈ t.toList, Token.isTypeChar c = true := List.all_eq_true.1 ht
  have hjoin {ts : List TypeExpr}
      (hts : ∀ t ∈ ts, ∀ c ∈ t.toText.toList, Token.isTypeChar c = true) :
      ∀ c ∈ (Pieces.join ", " (ts.map toText)).toList, Token.isTypeChar c = true :=
    Pieces.forall_mem_join (hmarks (by decide)) (List.forall_mem_map.2 hts)
  induction h with
  | @named path args _ hnames _ ih =>
    have hpath : ∀ c ∈ (Pieces.join "." path).toList, Token.isTypeChar c = true := by
      refine Pieces.forall_mem_join (hmarks (by decide)) fun n hn c hc => ?_
      rw [Token.isTypeChar, hnames n hn c hc]
      rfl
    rw [toText_named, String.toList_append]
    refine List.forall_mem_append.2 ⟨hpath, ?_⟩
    split
    · exact fun c hc => absurd hc List.not_mem_nil
    · rw [String.toList_append, String.toList_append]
      exact List.forall_mem_append.2 ⟨List.forall_mem_append.2
      ⟨hmarks (by decide), hjoin ih⟩, hmarks (by decide)⟩
  | @array element rank _ ih =>
    have hcommas : ∀ c ∈ List.replicate (rank - 1) ',', Token.isTypeChar c = true := by
      intro c hc
      rw [List.eq_of_mem_replicate hc]
      decide
    simp only [toText, String.toList_append, String.toList_ofList]
    exact List.forall_mem_append.2 ⟨List.forall_mem_append.2
      ⟨List.forall_mem_append.2 ⟨ih, hmarks (by decide)⟩, hcommas⟩, hmarks (by decide)⟩
  | nullable _ ih =>
    rw [toText, String.toList_append]
    exact List.forall_mem_append.2 ⟨ih, hmarks (by decide)⟩
  | tuple _ _ ih =>
    rw [toText, texts_eq_map, String.toList_append, String.toList_append]
    exact List.forall_mem_append.2 ⟨List.forall_mem_append.2
      ⟨hmarks (by decide), hjoin ih⟩, hmarks (by decide)⟩

end IsSpelled

/-- No blank stands first or last in the text of a legible type. -/
theorem IsLegible.isSolid {t : TypeExpr} (h : t.IsLegible) : IsSolid t.toText.toList := by
  obtain ⟨h, hne⟩ := h
  induction h with
  | @named path args hpath hnames _ _ =>
    have hsolid : IsSolid (Pieces.join "." path).toList := by
      refine .path hpath fun n hn => .name (hne n ?_) (hnames n hn)
      rw [names]
      exact List.mem_append_left _ hn
    rw [toText_named]
    split
    · simpa using hsolid
    · simpa [String.toList_append] using hsolid.append
        ('<' :: (Pieces.join ", " (args.map toText)).toList) (.singleton (c := '>') rfl)
  | @array element rank _ ih =>
    simpa [toText, String.toList_append] using (ih (by simpa [names] using hne)).append
      ('[' :: List.replicate (rank - 1) ',') (.singleton (c := ']') rfl)
  | nullable _ ih =>
    simpa [toText, String.toList_append] using (ih (by simpa [names] using hne)).append []
      (.singleton (c := '?') rfl)
  | @tuple items _ _ _ =>
    simpa [toText, String.toList_append] using (IsSolid.singleton (c := '(') rfl).append
      (Pieces.join ", " (texts items)).toList (.singleton (c := ')') rfl)

mutual

/-- Types in single form are legible. -/
theorem isLegible_of_isCanonical : ∀ t : TypeExpr, t.isCanonical = true → t.IsLegible
  | .named path args, h => by
    simp only [isCanonical, Bool.and_eq_true, List.all_eq_true] at h
    obtain ⟨⟨⟨⟨hpath, hnames⟩, -⟩, -⟩, hargs⟩ := h
    have hname {n : String} (hn : n ∈ path) :
        n ≠ "" ∧ ∀ c ∈ n.toList, Token.nameChar c = true := by
      have hn := hnames n hn
      simp only [isName, Bool.and_eq_true, List.all_eq_true] at hn
      exact ⟨by simpa using hn.1.1, hn.1.2⟩
    have hargs := areLegible_of_areCanonical args hargs
    refine ⟨.named (by simpa using hpath) (fun n hn => (hname hn).2) hargs.1, ?_⟩
    rw [names]
    exact List.forall_mem_append.2 ⟨fun n hn => (hname hn).1, hargs.2⟩
  | .array element rank, h => by
    rw [isCanonical, Bool.and_eq_true] at h
    exact ⟨.array (isLegible_of_isCanonical element h.1).1,
      (isLegible_of_isCanonical element h.1).2⟩
  | .nullable inner, h => by
    rw [isCanonical, Bool.and_eq_true] at h
    exact ⟨.nullable (isLegible_of_isCanonical inner h.1).1,
      (isLegible_of_isCanonical inner h.1).2⟩
  | .tuple items, h => by
    rw [isCanonical, Bool.and_eq_true] at h
    exact ⟨.tuple (by simpa using h.1) (areLegible_of_areCanonical items h.2).1,
      (areLegible_of_areCanonical items h.2).2⟩

/-- Canonical types are spelled, and no segment of their names is empty. -/
theorem areLegible_of_areCanonical : ∀ ts : List TypeExpr, areCanonical ts = true →
    (∀ t ∈ ts, t.IsSpelled) ∧ ∀ n ∈ namesOfAll ts, n ≠ ""
  | [], _ => ⟨fun _ ht => absurd ht List.not_mem_nil, fun _ hn => absurd hn List.not_mem_nil⟩
  | t :: ts, h => by
    rw [areCanonical, Bool.and_eq_true] at h
    have ht := isLegible_of_isCanonical t h.1
    have hts := areLegible_of_areCanonical ts h.2
    exact ⟨List.forall_mem_cons.2 ⟨ht.1, hts.1⟩, List.forall_mem_append.2 ⟨ht.2, hts.2⟩⟩

end

end TypeExpr
end MappingAudit
