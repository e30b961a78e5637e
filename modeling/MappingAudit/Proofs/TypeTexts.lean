/-
# Types read back from their texts

A type is read back from its written form (`read?_toText`) when it is in single form and
spells a type at all: its names are identifiers, no `global` stands in front of them, and
no optional type is made optional again.  The text is cut into the tokens that the type is
made of (`scan_toText`), and these derive the type (`isType_tokens`), so they are read as it.
-/

import MappingAudit.Proofs.TypeGrammar

namespace MappingAudit
namespace TypeExpr

/-- A name that an identifier spells. -/
def isName (name : String) : Bool :=
  !name.toList.isEmpty && name.toList.all Token.nameChar && name.toList.head? != some '@'

mutual

/-- The type is in single form and reads as it is written. -/
def isCanonical : TypeExpr → Bool
  | named path args =>
    !path.isEmpty && path.all isName && useKeyword (dropGlobal path) == path &&
      !(path.getLast? == some "Nullable" && args.length == 1) && areCanonical args
  | array element rank => isCanonical element && 0 < rank
  | nullable inner => isCanonical inner && !inner.isNullable
  | tuple items => !items.isEmpty && areCanonical items

/-- The types are in single form and read as they are written. -/
def areCanonical : List TypeExpr → Bool
  | [] => true
  | t :: ts => isCanonical t && areCanonical ts

end

/-! ### Tokens of a type -/

/-- The tokens of a dotted name. -/
def pathTokens : List String → List Token
  | [] => []
  | [name] => [.ident name]
  | name :: next :: path => .ident name :: .dot :: pathTokens (next :: path)

mutual

/-- The tokens of a written type. -/
def tokens : TypeExpr → List Token
  | named path [] => pathTokens path
  | named path (a :: as) => pathTokens path ++ .less :: (listTokens (a :: as) ++ [.greater])
  | array element rank =>
    tokens element ++ .leftBracket :: (List.replicate (rank - 1) .comma ++ [.rightBracket])
  | nullable inner => tokens inner ++ [.question]
  | tuple items => .leftParen :: (listTokens items ++ [.rightParen])

/-- The tokens of several types with commas between them. -/
def listTokens : List TypeExpr → List Token
  | [] => []
  | [t] => tokens t
  | t :: u :: ts => tokens t ++ .comma :: listTokens (u :: ts)

end

/-! ### Cutting texts into tokens -/

/-- No character of a name comes first. -/
def StartsApart (cs : List Char) : Prop := ∀ c ∈ cs.head?, Token.nameChar c = false

/-- The text is cut into these tokens, whatever follows apart from it. -/
def Scans (cs : List Char) (ts : List Token) : Prop :=
  ∀ rest, StartsApart rest →
    Token.scanFrom [] (cs ++ rest) = (Token.scanFrom [] rest).map (ts ++ ·)

namespace Token

/-- A mark is no part of a name and no blank. -/
theorem mark_apart {c : Char} {t : Token} (h : ofMark? c = some t) :
    c ≠ ':' ∧ nameChar c = false ∧ CharClass.blank c = false := by
  unfold ofMark? at h
  split at h <;> first | decide | cases h

/-- A mark is a token of its own. -/
theorem scanFrom_mark {c : Char} {t : Token} (h : ofMark? c = some t) (cs : List Char) :
    scanFrom [] (c :: cs) = (scanFrom [] cs).map (t :: ·) := by
  obtain ⟨hcolon, hname, hblank⟩ := mark_apart h
  rw [scanFrom]
  · rw [if_neg (by simp [hname]), if_neg (by simp [hblank]), h]
    rfl
  · rintro rest rfl
    exact absurd rfl hcolon

/-- A blank between tokens is none. -/
theorem scanFrom_blank (cs : List Char) : scanFrom [] (' ' :: cs) = scanFrom [] cs := by
  rw [scanFrom]
  · rw [if_neg (by decide), if_pos (by decide)]
    cases scanFrom [] cs <;> rfl
  · rintro rest ⟨⟩

/-- Characters of a name are put before what was read so far. -/
theorem scanFrom_append {name : List Char} (h : ∀ c ∈ name, nameChar c = true)
    (before rest : List Char) :
    scanFrom before (name ++ rest) = scanFrom (name.reverse ++ before) rest := by
  induction name generalizing before with
  | nil => rfl
  | cons c cs ih =>
    have hc := h c List.mem_cons_self
    rw [List.cons_append, scanFrom]
    · rw [if_pos hc, ih (fun d hd => h d (List.mem_cons_of_mem _ hd)), List.reverse_cons,
        List.append_assoc]
      rfl
    · rintro rest rfl
      exact absurd hc (by decide)

/-- What follows apart closes the name. -/
theorem scanFrom_close (name : List Char) {rest : List Char} (h : StartsApart rest) :
    scanFrom name rest = (scanFrom [] rest).map (scanFrom.close name) := by
  have hnil (ts : List Token) : scanFrom.close [] ts = ts := rfl
  unfold scanFrom
  split
  · rfl
  · next tail => cases scanFrom [] tail <;> simp [Except.map, hnil]
  · next c cs _ =>
    have hc : nameChar c = false := h c rfl
    simp only [hc, Bool.false_eq_true, if_false]
    split
    · cases scanFrom [] cs <;> simp [Except.map, hnil]
    · split
      · cases scanFrom [] cs <;> simp [Except.map, hnil]
      · rfl

end Token

namespace Scans

variable {cs ds : List Char} {ts us : List Token}

/-- An empty text has no tokens. -/
theorem nil : Scans [] [] := fun rest _ => by
  rw [List.nil_append]
  cases Token.scanFrom [] rest <;> rfl

/-- A mark in front of a text is the first token. -/
theorem mark {c : Char} {t : Token} (ht : Token.ofMark? c = some t) (h : Scans cs ts) :
    Scans (c :: cs) (t :: ts) := fun rest hrest => by
  rw [List.cons_append, Token.scanFrom_mark ht, h rest hrest]
  cases Token.scanFrom [] rest <;> rfl

/-- A blank in front of a text changes nothing. -/
theorem blank (h : Scans cs ts) : Scans (' ' :: cs) ts := fun rest hrest => by
  rw [List.cons_append, Token.scanFrom_blank, h rest hrest]

/-- A mark keeps apart what stands before it and after it. -/
theorem append_mark (h : Scans cs ts) {c : Char} {t : Token} (ht : Token.ofMark? c = some t)
    (h' : Scans ds us) : Scans (cs ++ c :: ds) (ts ++ t :: us) := fun rest hrest => by
  have hapart : StartsApart (c :: ds ++ rest) := by
    intro d hd
    obtain rfl := Option.some.inj hd
    exact (Token.mark_apart ht).2.1
  rw [List.append_assoc, h _ hapart, mark ht h' rest hrest]
  cases Token.scanFrom [] rest <;> simp [Except.map]

/-- A name is one token. -/
theorem name {n : String} (h : isName n = true) : Scans n.toList [.ident n] := by
  intro rest hrest
  simp only [isName, Bool.and_eq_true, Bool.not_eq_true', List.all_eq_true, bne_iff_ne] at h
  obtain ⟨⟨hne, hall⟩, hat⟩ := h
  have hdrop : n.toList.dropWhile (· == '@') = n.toList := by
    cases hn : n.toList with
    | nil => rfl
    | cons c cs =>
      have hc : c ≠ '@' := fun heq => hat (by rw [hn, heq]; rfl)
      rw [List.dropWhile_cons_of_neg (by simpa using hc)]
  have hclose (ts : List Token) : Token.scanFrom.close n.toList.reverse ts = .ident n :: ts := by
    rw [Token.scanFrom.close, if_neg (by simpa using hne), List.reverse_reverse, Token.ofName,
      hdrop, String.ofList_toList]
  rw [Token.scanFrom_append hall, List.append_nil, Token.scanFrom_close _ hrest]
  cases Token.scanFrom [] rest <;> simp [Except.map, hclose]

/-- Commas between the brackets of an array. -/
theorem commas (n : Nat) : Scans (List.replicate n ',' ++ [']'])
    (List.replicate n .comma ++ [.rightBracket]) := by
  induction n with
  | zero => exact mark rfl nil
  | succ n ih => exact mark rfl ih

/-- A dotted name is cut into its segments and dots. -/
theorem path {names : List String} (h : ∀ n ∈ names, isName n = true) :
    Scans (Pieces.join "." names).toList (pathTokens names) := by
  induction names with
  | nil => simpa [Pieces.join, pathTokens] using nil
  | cons n names ih =>
    have hn := name (h n List.mem_cons_self)
    cases names with
    | nil => simpa [Pieces.join, pathTokens] using hn
    | cons m names =>
      have hrest := ih fun k hk => h k (List.mem_cons_of_mem _ hk)
      have hsplit := hn.append_mark (c := '.') rfl hrest
      simpa [Pieces.join, pathTokens, String.toList_append] using hsplit

end Scans

mutual

/-- The text of a canonical type is cut into its tokens. -/
theorem scans_toText : ∀ t : TypeExpr, t.isCanonical = true → Scans t.toText.toList t.tokens
  | .named path [], h => by
    simp only [isCanonical, Bool.and_eq_true, List.all_eq_true] at h
    rw [toText, tokens]
    exact .path h.1.1.1.2
  | .named path (a :: as), h => by
    simp only [isCanonical, Bool.and_eq_true, List.all_eq_true] at h
    have hargs := (scans_texts (a :: as) h.2).append_mark (c := '>') rfl .nil
    have hsplit := (Scans.path h.1.1.1.2).append_mark (c := '<') rfl hargs
    rw [toText, tokens]
    simpa [String.toList_append] using hsplit
  | .array element rank, h => by
    simp only [isCanonical, Bool.and_eq_true] at h
    have hsplit := (scans_toText element h.1).append_mark (c := '[') rfl (.commas (rank - 1))
    rw [toText, tokens]
    simpa [String.toList_append] using hsplit
  | .nullable inner, h => by
    simp only [isCanonical, Bool.and_eq_true] at h
    have hsplit := (scans_toText inner h.1).append_mark (c := '?') rfl .nil
    rw [toText, tokens]
    simpa [String.toList_append] using hsplit
  | .tuple items, h => by
    simp only [isCanonical, Bool.and_eq_true] at h
    have hitems := (scans_texts items h.2).append_mark (c := ')') rfl .nil
    rw [toText, tokens]
    simpa [String.toList_append] using Scans.mark (c := '(') rfl hitems

/-- So are the texts of several types with commas between them. -/
theorem scans_texts : ∀ ts : List TypeExpr, areCanonical ts = true →
    Scans (Pieces.join ", " (texts ts)).toList (listTokens ts)
  | [], _ => by simpa [Pieces.join, texts, listTokens] using Scans.nil
  | [t], h => by
    simp only [areCanonical, Bool.and_eq_true] at h
    simpa [Pieces.join, texts, listTokens] using scans_toText t h.1
  | t :: u :: ts, h => by
    rw [areCanonical, Bool.and_eq_true] at h
    have hsplit := (scans_toText t h.1).append_mark (c := ',') rfl
      (.blank (scans_texts (u :: ts) h.2))
    simpa [Pieces.join, texts, listTokens, String.toList_append] using hsplit

end

/-- **The text of a type is cut into its tokens.** -/
theorem scan_toText {t : TypeExpr} (h : t.isCanonical = true) :
    Token.scan t.toText.toList = .ok t.tokens := by
  have hscan := scans_toText t h [] (fun c hc => by cases hc)
  rwa [List.append_nil, Token.scanFrom, Except.map, show Token.scanFrom.close [] [] = [] from rfl,
    List.append_nil] at hscan

/-! ### Deriving a type from its tokens -/

/-- The tokens of a dotted name make a path. -/
theorem isPath_pathTokens {path : List String} (hpath : path ≠ []) :
    IsPath (pathTokens path) path [] := by
  induction path with
  | nil => exact absurd rfl hpath
  | cons name path ih =>
    cases path with
    | nil => exact .one (.plain name)
    | cons next path => exact .dot (.plain name) (ih (List.cons_ne_nil _ _))

/-- The type arguments of a dotted name stand after its last segment. -/
theorem isPath_pathTokens_args {path : List String} (hpath : path ≠ []) {ts : List Token}
    {args : List TypeExpr} (h : IsArgs ts args) :
    IsPath (pathTokens path ++ .less :: (ts ++ [.greater])) path args := by
  induction path with
  | nil => exact absurd rfl hpath
  | cons name path ih =>
    cases path with
    | nil => exact .one (.generic name h)
    | cons next path => exact .dot (.plain name) (ih (List.cons_ne_nil _ _))

/-- Types between commas are arguments. -/
theorem IsTypes.isArgs {ts : List Token} {args : List TypeExpr} (h : IsTypes ts args) :
    IsArgs ts args := by
  have hargs := IsArgs.some 0 0 h
  rwa [List.replicate_zero, List.nil_append, List.append_nil] at hargs

mutual

/-- **The tokens of a type derive the type.** -/
theorem isType_tokens : ∀ t : TypeExpr, t.isCanonical = true → IsType t.tokens t
  | .named path [], h => by
    simp only [isCanonical, Bool.and_eq_true] at h
    rw [tokens]
    exact .named (isPath_pathTokens (by simpa using h.1.1.1.1))
  | .named path (a :: as), h => by
    simp only [isCanonical, Bool.and_eq_true] at h
    have hargs := (isTypes_listTokens (a :: as) (List.cons_ne_nil _ _) h.2).isArgs
    rw [tokens]
    exact .named (isPath_pathTokens_args (by simpa using h.1.1.1.1) hargs)
  | .array element rank, h => by
    simp only [isCanonical, Bool.and_eq_true, decide_eq_true_eq] at h
    have harray := (isType_tokens element h.1).suffix (.brackets (rank - 1))
    rw [Nat.sub_add_cancel h.2] at harray
    rwa [tokens]
  | .nullable inner, h => by
    simp only [isCanonical, Bool.and_eq_true, Bool.not_eq_true'] at h
    have hnullable := (isType_tokens inner h.1).suffix .question
    rw [optional, h.2] at hnullable
    rwa [tokens]
  | .tuple items, h => by
    simp only [isCanonical, Bool.and_eq_true] at h
    rw [tokens]
    exact .tuple (.parens (isItems_listTokens items (by simpa using h.1) h.2))

/-- The tokens of several types make types between commas. -/
theorem isTypes_listTokens : ∀ ts : List TypeExpr, ts ≠ [] → areCanonical ts = true →
    IsTypes (listTokens ts) ts
  | [], hne, _ => absurd rfl hne
  | [t], _, h => by
    simp only [areCanonical, Bool.and_eq_true] at h
    exact .one (isType_tokens t h.1)
  | t :: u :: ts, _, h => by
    rw [areCanonical, Bool.and_eq_true] at h
    exact .more 0 (isType_tokens t h.1) (isTypes_listTokens (u :: ts) (List.cons_ne_nil _ _) h.2)

/-- They make the items of a tuple. -/
theorem isItems_listTokens : ∀ ts : List TypeExpr, ts ≠ [] → areCanonical ts = true →
    IsItems (listTokens ts) ts
  | [], hne, _ => absurd rfl hne
  | [t], _, h => by
    simp only [areCanonical, Bool.and_eq_true] at h
    exact .one (.plain (isType_tokens t h.1))
  | t :: u :: ts, _, h => by
    rw [areCanonical, Bool.and_eq_true] at h
    exact .more (.plain (isType_tokens t h.1))
      (isItems_listTokens (u :: ts) (List.cons_ne_nil _ _) h.2)

end

/-! ### The single form -/

mutual

/-- A canonical type is normal. -/
theorem normalize_of_isCanonical : ∀ t : TypeExpr, t.isCanonical = true → t.normalize = t
  | .named path args, h => by
    simp only [isCanonical, Bool.and_eq_true, beq_iff_eq, Bool.not_eq_true',
      Bool.and_eq_false_iff] at h
    rw [normalize, h.1.1.2, normalizeAll_of_areCanonical args h.2]
    match args, h.1.2 with
    | [], _ => rfl
    | [inner], hnullable => exact if_neg (by simpa using hnullable)
    | _ :: _ :: _, _ => rfl
  | .array element rank, h => by
    simp only [isCanonical, Bool.and_eq_true] at h
    rw [normalize, normalize_of_isCanonical element h.1]
  | .nullable inner, h => by
    simp only [isCanonical, Bool.and_eq_true] at h
    rw [normalize, normalize_of_isCanonical inner h.1]
  | .tuple items, h => by
    simp only [isCanonical, Bool.and_eq_true] at h
    rw [normalize, normalizeAll_of_areCanonical items h.2]

/-- So are several canonical types. -/
theorem normalizeAll_of_areCanonical : ∀ ts : List TypeExpr, areCanonical ts = true →
    normalizeAll ts = ts
  | [], _ => rfl
  | t :: ts, h => by
    rw [areCanonical, Bool.and_eq_true] at h
    rw [normalizeAll, normalize_of_isCanonical t h.1, normalizeAll_of_areCanonical ts h.2]

end

/-- **A type in single form is read back from its text.** -/
theorem read?_toText {t : TypeExpr} (h : t.isCanonical = true) : read? t.toText = some t := by
  have htokens : readTokens t.toText t.tokens = .ok t := readTokens_eq_ok_iff.2 (isType_tokens t h)
  rw [read?, read, scan_toText h]
  simp only [htokens, Except.map, Except.toOption, normalize_of_isCanonical t h]

end TypeExpr
end MappingAudit
