/-
# The grammar of type expressions

A type is a tuple or a dotted name with any number of suffixes.  The relations `IsType`, `IsPath`
and so on are this grammar, rule by rule: each says that a list of tokens derives from a symbol
of the grammar, and which type the derivation stands for.

Reading follows the grammar exactly (`read_follows_grammar`).  What is read derives from it
(`readsAs_readType`), and what derives from it is read (`readType_of_isType`).  The bound on the
depth of nesting plays no part in this: from `3 * n + 1` on, for `n` tokens, the outcome is the
same, be it a type or an error (`readType_eq`).
-/

import MappingAudit.TypeExpr.Reader

namespace MappingAudit
namespace TypeExpr

/-! ### Derivations -/

/-- `Suffix := ? | [ ,* ] | *`, and what the suffix makes of the type before it. -/
inductive IsSuffix : List Token → (TypeExpr → TypeExpr) → Prop
  | question : IsSuffix [.question] optional
  | brackets (commas : Nat) :
    IsSuffix (.leftBracket :: (List.replicate commas .comma ++ [.rightBracket]))
      (array · (commas + 1))
  | star : IsSuffix [.star] id

mutual

/-- `Type := (Tuple | Named) Suffix*` -/
inductive IsType : List Token → TypeExpr → Prop
  | tuple {ts : List Token} {items : List TypeExpr} (h : IsTuple ts items) :
    IsType ts (tuple items)
  | named {ts : List Token} {path : List String} {args : List TypeExpr}
    (h : IsPath ts path args) : IsType ts (named path args)
  | suffix {ts ss : List Token} {t : TypeExpr} {f : TypeExpr → TypeExpr} (h : IsType ts t)
    (hs : IsSuffix ss f) : IsType (ts ++ ss) (f t)

/-- `Named := Seg (. Seg)*`, with the type arguments of all segments. -/
inductive IsPath : List Token → List String → List TypeExpr → Prop
  | one {ts : List Token} {name : String} {args : List TypeExpr} (h : IsSegment ts name args) :
    IsPath ts [name] args
  | dot {ts us : List Token} {name : String} {path : List String} {args more : List TypeExpr}
    (h : IsSegment ts name args) (hpath : IsPath us path more) :
    IsPath (ts ++ .dot :: us) (name :: path) (args ++ more)

/-- `Seg := Ident (< Args >)?` -/
inductive IsSegment : List Token → String → List TypeExpr → Prop
  | plain (name : String) : IsSegment [.ident name] name []
  | generic {ts : List Token} {args : List TypeExpr} (name : String) (h : IsArgs ts args) :
    IsSegment (.ident name :: .less :: (ts ++ [.greater])) name args

/-- `Args := ,* (Types ,*)?` -/
inductive IsArgs : List Token → List TypeExpr → Prop
  | none (commas : Nat) : IsArgs (List.replicate commas .comma) []
  | some {ts : List Token} {args : List TypeExpr} (before after : Nat) (h : IsTypes ts args) :
    IsArgs (List.replicate before .comma ++ (ts ++ List.replicate after .comma)) args

/-- `Types := Type (,+ Type)*` -/
inductive IsTypes : List Token → List TypeExpr → Prop
  | one {ts : List Token} {t : TypeExpr} (h : IsType ts t) : IsTypes ts [t]
  | more {ts us : List Token} {t : TypeExpr} {types : List TypeExpr} (commas : Nat)
    (h : IsType ts t) (hmore : IsTypes us types) :
    IsTypes (ts ++ (List.replicate (commas + 1) .comma ++ us)) (t :: types)

/-- `Tuple := ( Items )` -/
inductive IsTuple : List Token → List TypeExpr → Prop
  | parens {ts : List Token} {items : List TypeExpr} (h : IsItems ts items) :
    IsTuple (.leftParen :: (ts ++ [.rightParen])) items

/-- `Items := Elem (, Elem)*` -/
inductive IsItems : List Token → List TypeExpr → Prop
  | one {ts : List Token} {t : TypeExpr} (h : IsItem ts t) : IsItems ts [t]
  | more {ts us : List Token} {t : TypeExpr} {items : List TypeExpr} (h : IsItem ts t)
    (hmore : IsItems us items) : IsItems (ts ++ .comma :: us) (t :: items)

/-- `Elem := Type Ident?` -/
inductive IsItem : List Token → TypeExpr → Prop
  | plain {ts : List Token} {t : TypeExpr} (h : IsType ts t) : IsItem ts t
  | named {ts : List Token} {t : TypeExpr} (h : IsType ts t) (name : String) :
    IsItem (ts ++ [.ident name]) t

end

/-! ### What derives from the grammar is read -/

/-- The type goes on with nothing that belongs to its name. -/
def NameEnds (rest : List Token) : Prop := ∀ t ∈ rest.head?, t ≠ .dot ∧ t ≠ .less

/-- A name ends before every token but a dot and an angle bracket. -/
theorem nameEnds_cons {t : Token} (h : t ≠ .dot ∧ t ≠ .less) {rest : List Token} :
    NameEnds (t :: rest) :=
  fun _ hu => Option.some.inj hu ▸ h

/-- The commas between brackets are counted. -/
theorem readSuffixes_rank (t : TypeExpr) (k n : Nat) (rest : List Token) :
    readSuffixes t (some k) (List.replicate n .comma ++ .rightBracket :: rest) =
      readSuffixes (array t (k + n)) none rest := by
  induction n generalizing k with
  | zero => rfl
  | succ n ih =>
    rw [List.replicate_succ, List.cons_append, readSuffixes, ih, Nat.add_right_comm, Nat.add_assoc]

namespace IsSuffix

variable {ss : List Token} {f : TypeExpr → TypeExpr}

/-- A name ends before the suffixes of its type. -/
theorem nameEnds (h : IsSuffix ss f) (rest : List Token) : NameEnds (ss ++ rest) := by
  cases h <;> exact nameEnds_cons ⟨Token.noConfusion, Token.noConfusion⟩

/-- Suffixes are read off, and what they make of a type is made. -/
theorem readSuffixes_eq (h : IsSuffix ss f) (t : TypeExpr) (rest : List Token) :
    readSuffixes t none (ss ++ rest) = readSuffixes (f t) none rest := by
  cases h with
  | question => rfl
  | brackets commas =>
    rw [List.cons_append, List.append_assoc, List.singleton_append, readSuffixes,
      readSuffixes_rank, Nat.add_comm]
  | star => rfl

end IsSuffix

/-- Commas without a type before them are skipped. -/
theorem readArgs_commas (n commas : Nat) (rest : List Token) :
    readArgs (n + commas) (List.replicate commas .comma ++ rest) = readArgs n rest := by
  induction commas with
  | zero => rfl
  | succ commas ih => rw [List.replicate_succ, List.cons_append, ← Nat.add_assoc, readArgs, ih]

/-- Commas without types are the places of an open generic type. -/
theorem readArgs_commas_greater {n commas : Nat} (hn : commas + 1 ≤ n) (rest : List Token) :
    readArgs n (List.replicate commas .comma ++ .greater :: rest) = .ok ([], .greater :: rest) := by
  obtain ⟨n, rfl⟩ := Nat.exists_eq_add_of_le hn
  rw [show commas + 1 + n = n + 1 + commas by omega, readArgs_commas]
  rfl

/-- Only types that start with a name or a parenthesis are read. -/
theorem exists_cons_of_readType {n : Nat} {ts : List Token} {r : TypeExpr × List Token}
    (h : readType n ts = .ok r) :
    ∃ tok rest, ts = tok :: rest ∧ (tok = .leftParen ∨ ∃ name, tok = .ident name) := by
  unfold readType at h
  split at h
  · exact ⟨_, _, rfl, Or.inl rfl⟩
  · exact ⟨_, _, rfl, Or.inr ⟨_, rfl⟩⟩
  · cases h

/-- A type and a comma are read before further arguments. -/
theorem readArgs_of_comma {n : Nat} {t : TypeExpr} {us : List TypeExpr} {ts rest tail : List Token}
    (ht : readType n ts = .ok (t, .comma :: rest)) (hmore : readArgs n rest = .ok (us, tail)) :
    readArgs (n + 1) ts = .ok (t :: us, tail) := by
  obtain ⟨tok, more, rfl, rfl | ⟨name, rfl⟩⟩ := exists_cons_of_readType ht
  · simp only [readArgs, ht, hmore, bind, Except.bind, pure, Except.pure]
  · simp only [readArgs, ht, hmore, bind, Except.bind, pure, Except.pure]

/-- The last argument is read up to the closing bracket. -/
theorem readArgs_of_greater {n : Nat} {t : TypeExpr} {ts rest : List Token}
    (ht : readType n ts = .ok (t, .greater :: rest)) :
    readArgs (n + 1) ts = .ok ([t], .greater :: rest) := by
  obtain ⟨tok, more, rfl, rfl | ⟨name, rfl⟩⟩ := exists_cons_of_readType ht
  · simp only [readArgs, ht, bind, Except.bind, pure, Except.pure]
  · simp only [readArgs, ht, bind, Except.bind, pure, Except.pure]

/-- A segment starts with its name. -/
theorem exists_ident_of_isSegment {ts : List Token} {name : String} {args : List TypeExpr}
    (h : IsSegment ts name args) : ∃ rest, ts = .ident name :: rest := by
  cases h with
  | plain => exact ⟨_, rfl⟩
  | generic => exact ⟨_, rfl⟩

/-- A path starts with the name of its first segment. -/
theorem exists_ident_of_isPath {ts : List Token} {path : List String} {args : List TypeExpr}
    (h : IsPath ts path args) : ∃ name rest, ts = .ident name :: rest := by
  cases h with
  | one h =>
    obtain ⟨rest, rfl⟩ := exists_ident_of_isSegment h
    exact ⟨_, rest, rfl⟩
  | dot h hpath =>
    obtain ⟨rest, rfl⟩ := exists_ident_of_isSegment h
    exact ⟨_, _, List.cons_append⟩

mutual

/-- **A type is read up to its suffixes**, however it goes on. -/
theorem readType_of_isType : ∀ {ts : List Token} {t : TypeExpr}, IsType ts t →
    ∀ {n : Nat} {rest : List Token}, 3 * ts.length + 1 ≤ n → NameEnds rest →
      readType n (ts ++ rest) = readSuffixes t none rest
  | _, _, IsType.tuple (IsTuple.parens h), n, rest, hn, _ => by
    rw [List.length_cons, List.length_append] at hn
    obtain ⟨n, rfl⟩ := Nat.exists_eq_succ_of_ne_zero (show n ≠ 0 by omega)
    have hitems := readItems_of_isItems h (n := n) rest (by omega)
    rw [List.cons_append, List.append_assoc, List.singleton_append, readType, hitems]
    rfl
  | ts, _, IsType.named h, n, rest, hn, hrest => by
    obtain ⟨n, rfl⟩ := Nat.exists_eq_succ_of_ne_zero (show n ≠ 0 by omega)
    have hpath := readPath_of_isPath h (n := n) (by omega) hrest
    obtain ⟨name, more, rfl⟩ := exists_ident_of_isPath h
    rw [List.cons_append] at hpath ⊢
    rw [readType, hpath]
    rfl
  | _, _, IsType.suffix h hs, n, rest, hn, _ => by
    rw [List.length_append] at hn
    rw [List.append_assoc, readType_of_isType h (by omega) (hs.nameEnds rest),
      hs.readSuffixes_eq]

/-- A path is read, whatever follows the end of its last name. -/
theorem readPath_of_isPath : ∀ {ts : List Token} {path : List String} {args : List TypeExpr},
    IsPath ts path args → ∀ {n : Nat} {rest : List Token}, 3 * ts.length ≤ n → NameEnds rest →
      readPath n (ts ++ rest) = .ok ((path, args), rest)
  | _, _, _, IsPath.one h, _, _, hn, hrest => (readPath_of_isSegment h hn).1 hrest
  | _, _, _, IsPath.dot h hpath, n, rest, hn, hrest => by
    rw [List.length_append, List.length_cons] at hn
    obtain ⟨n, rfl⟩ := Nat.exists_eq_succ_of_ne_zero (show n ≠ 0 by omega)
    have hmore := readPath_of_isPath hpath (n := n) (by omega) hrest
    rw [List.append_assoc, List.cons_append]
    exact (readPath_of_isSegment h (by omega)).2 hmore

/-- A segment at the end of a name, and one that a dot follows. -/
theorem readPath_of_isSegment : ∀ {ts : List Token} {name : String} {args : List TypeExpr},
    IsSegment ts name args → ∀ {n : Nat}, 3 * ts.length ≤ n →
      (∀ {rest}, NameEnds rest → readPath n (ts ++ rest) = .ok (([name], args), rest)) ∧
        ∀ {us rest path more}, readPath (n - 1) us = .ok ((path, more), rest) →
          readPath n (ts ++ .dot :: us) = .ok ((name :: path, args ++ more), rest)
  | _, _, _, IsSegment.plain name, n, hn => by
    obtain ⟨n, rfl⟩ := Nat.exists_eq_succ_of_ne_zero (show n ≠ 0 by simp at hn; omega)
    constructor
    · intro rest hrest
      cases rest with
      | nil => rfl
      | cons tok rest =>
        obtain ⟨hdot, hless⟩ := hrest tok rfl
        cases tok <;> first | rfl | exact absurd rfl hdot | exact absurd rfl hless
    · intro us rest path more hmore
      rw [Nat.succ_sub_one] at hmore
      rw [List.singleton_append, readPath, hmore]
      rfl
  | _, _, _, IsSegment.generic name h, n, hn => by
    rw [List.length_cons, List.length_cons, List.length_append] at hn
    obtain ⟨n, rfl⟩ := Nat.exists_eq_succ_of_ne_zero (show n ≠ 0 by omega)
    have hargs (rest : List Token) := readArgs_of_isArgs h (n := n) rest (by omega)
    constructor
    · intro rest hrest
      rw [List.cons_append, List.cons_append, List.append_assoc, List.singleton_append, readPath,
        hargs]
      cases rest with
      | nil => rfl
      | cons tok rest =>
        have hdot := (hrest tok rfl).1
        cases tok <;> first | rfl | exact absurd rfl hdot
    · intro us rest path more hmore
      rw [Nat.succ_sub_one] at hmore
      rw [List.cons_append, List.cons_append, List.append_assoc, List.singleton_append, readPath,
        hargs]
      simp only [bind, Except.bind, hmore, pure, Except.pure]

/-- Arguments are read up to the closing bracket. -/
theorem readArgs_of_isArgs : ∀ {ts : List Token} {args : List TypeExpr}, IsArgs ts args →
    ∀ {n : Nat} (rest : List Token), 3 * ts.length + 2 ≤ n →
      readArgs n (ts ++ .greater :: rest) = .ok (args, .greater :: rest)
  | _, _, IsArgs.none commas, n, rest, hn => by
    rw [List.length_replicate] at hn
    exact readArgs_commas_greater (by omega) rest
  | _, _, IsArgs.some before after h, n, rest, hn => by
    rw [List.length_append, List.length_append, List.length_replicate,
      List.length_replicate] at hn
    obtain ⟨n, rfl⟩ := Nat.exists_eq_add_of_le (show before ≤ n by omega)
    rw [Nat.add_comm, List.append_assoc, readArgs_commas, List.append_assoc]
    exact readArgs_of_isTypes h after rest (by omega)

/-- So are types between commas, with more commas behind the last. -/
theorem readArgs_of_isTypes : ∀ {ts : List Token} {args : List TypeExpr}, IsTypes ts args →
    ∀ (after : Nat) {n : Nat} (rest : List Token), 3 * ts.length + after + 2 ≤ n →
      readArgs n (ts ++ (List.replicate after .comma ++ .greater :: rest)) =
        .ok (args, .greater :: rest)
  | _, _, IsTypes.one h, after, n, rest, hn => by
    obtain ⟨n, rfl⟩ := Nat.exists_eq_succ_of_ne_zero (show n ≠ 0 by omega)
    cases after with
    | zero =>
      refine readArgs_of_greater ?_
      rw [List.replicate_zero, List.nil_append, readType_of_isType h (by omega)
        (nameEnds_cons ⟨Token.noConfusion, Token.noConfusion⟩)]
      rfl
    | succ after =>
      refine readArgs_of_comma ?_ (readArgs_commas_greater (show after + 1 ≤ n by omega) rest)
      rw [List.replicate_succ, List.cons_append, readType_of_isType h (by omega)
        (nameEnds_cons ⟨Token.noConfusion, Token.noConfusion⟩)]
      rfl
  | _, _, IsTypes.more commas h hmore, after, n, rest, hn => by
    rw [List.length_append, List.length_append, List.length_replicate] at hn
    obtain ⟨n, rfl⟩ := Nat.exists_eq_add_of_le (show commas + 1 ≤ n by omega)
    rw [show commas + 1 + n = n + commas + 1 by omega]
    have htypes := readArgs_of_isTypes hmore after (n := n) rest (by omega)
    refine readArgs_of_comma ?_ ((readArgs_commas n commas _).trans htypes)
    rw [List.replicate_succ, List.cons_append, List.append_assoc, List.cons_append,
      List.append_assoc, readType_of_isType h (by omega)
        (nameEnds_cons ⟨Token.noConfusion, Token.noConfusion⟩)]
    rfl

/-- The items of a tuple are read up to the closing parenthesis. -/
theorem readItems_of_isItems : ∀ {ts : List Token} {items : List TypeExpr}, IsItems ts items →
    ∀ {n : Nat} (rest : List Token), 3 * ts.length + 2 ≤ n →
      readItems n (ts ++ .rightParen :: rest) = .ok (items, rest)
  | _, _, IsItems.one h, n, rest, hn => by
    obtain ⟨n, rfl⟩ := Nat.exists_eq_succ_of_ne_zero (show n ≠ 0 by omega)
    obtain ⟨tail, hitem, hdrop⟩ := readType_of_isItem h (n := n) rest (by omega)
      (Or.inr rfl)
    rw [readItems, hitem]
    simp only [bind, Except.bind, hdrop, pure, Except.pure]
  | _, _, @IsItems.more _ us _ _ h hmore, n, rest, hn => by
    rw [List.length_append, List.length_cons] at hn
    obtain ⟨n, rfl⟩ := Nat.exists_eq_succ_of_ne_zero (show n ≠ 0 by omega)
    have hitems := readItems_of_isItems hmore (n := n) rest (by omega)
    obtain ⟨tail, hitem, hdrop⟩ := readType_of_isItem h (n := n)
      (us ++ .rightParen :: rest) (by omega) (Or.inl rfl)
    rw [List.append_assoc, List.cons_append, readItems, hitem]
    simp only [bind, Except.bind, hdrop, hitems, pure, Except.pure]

/-- The name of an element is dropped. -/
theorem readType_of_isItem : ∀ {ts : List Token} {t : TypeExpr}, IsItem ts t →
    ∀ {n : Nat} {tok : Token} (rest : List Token), 3 * ts.length + 1 ≤ n →
      tok = .comma ∨ tok = .rightParen →
        ∃ tail, readType n (ts ++ tok :: rest) = .ok (t, tail) ∧ dropName tail = tok :: rest
  | _, _, IsItem.plain h, n, tok, rest, hn, htok => by
    refine ⟨tok :: rest, ?_, ?_⟩
    · rw [readType_of_isType h hn (nameEnds_cons (by rcases htok with rfl | rfl <;> simp))]
      rcases htok with rfl | rfl <;> rfl
    · rcases htok with rfl | rfl <;> rfl
  | _, _, IsItem.named h name, n, tok, rest, hn, _ => by
    rw [List.length_append] at hn
    refine ⟨.ident name :: tok :: rest, ?_, rfl⟩
    rw [List.append_assoc, List.singleton_append, readType_of_isType h (by omega)
      (nameEnds_cons ⟨Token.noConfusion, Token.noConfusion⟩)]
    rfl

end

/-! ### What is read derives from the grammar -/

namespace ReadError

/-- The token that was found in place of an expected one; the inner `none` at the end. -/
def found? : ReadError → Option (Option Token)
  | token _ found => some found
  | typeExpected found => some found
  | nameExpected found => some found
  | tupleEnd found => some found
  | character _ _ => none
  | trailing _ => none

/-- Reading stopped at one of the tokens, or at their end. -/
def StopsWithin (ts : List Token) (e : ReadError) : Prop :=
  ∃ rest, rest <:+ ts ∧ e.found? = some rest.head?

/-- An error within the end of some tokens is an error within them. -/
theorem StopsWithin.mono {ts us : List Token} {e : ReadError} (h : StopsWithin ts e)
    (hts : ts <:+ us) : StopsWithin us e := by
  obtain ⟨rest, hrest, hfound⟩ := h
  exact ⟨rest, hrest.trans hts, hfound⟩

/-- An error at the first token is one within the tokens. -/
theorem stopsWithin_head {ts : List Token} {e : ReadError} (h : e.found? = some ts.head?) :
    StopsWithin ts e :=
  ⟨ts, List.suffix_rfl, h⟩

end ReadError

/-- Tokens from the front of `ts` satisfy `P` with what is read from them, or reading stops
within `ts`. -/
def ReadsAs {α : Type} (P : List Token → α → Prop) (ts : List Token) :
    Except ReadError (α × List Token) → Prop
  | .ok (a, rest) => ∃ used, ts = used ++ rest ∧ P used a
  | .error e => e.StopsWithin ts

namespace ReadsAs

variable {α β : Type} {P : List Token → α → Prop} {Q : List Token → β → Prop} {ts : List Token}

/-- What was read may be described by less. -/
theorem mono {P' : List Token → α → Prop} {r : Except ReadError (α × List Token)}
    (h : ReadsAs P ts r) (himp : ∀ used a, P used a → P' used a) : ReadsAs P' ts r := by
  cases r with
  | ok b =>
    obtain ⟨used, hts, hP⟩ := h
    exact ⟨used, hts, himp used _ hP⟩
  | error e => exact h

/-- Tokens read before others. -/
theorem append {rest : List Token} {r : Except ReadError (β × List Token)} (before : List Token)
    (h : ReadsAs (fun more b => Q (before ++ more) b) rest r) : ReadsAs Q (before ++ rest) r := by
  cases r with
  | ok b =>
    obtain ⟨used, rfl, hQ⟩ := h
    exact ⟨before ++ used, (List.append_assoc ..).symm, hQ⟩
  | error e => exact ReadError.StopsWithin.mono h (List.suffix_append before rest)

/-- A token in front is part of what was read. -/
theorem cons {tok : Token} {rest : List Token} {r : Except ReadError (β × List Token)}
    (h : ReadsAs (fun more b => Q (tok :: more) b) rest r) : ReadsAs Q (tok :: rest) r :=
  append [tok] h

/-- Readings behind each other read the tokens of both. -/
theorem bind {r : Except ReadError (α × List Token)}
    {f : α × List Token → Except ReadError (β × List Token)} (h : ReadsAs P ts r)
    (hf : ∀ used a rest, P used a →
      ReadsAs (fun more b => Q (used ++ more) b) rest (f (a, rest))) :
    ReadsAs Q ts (r >>= f) := by
  cases r with
  | ok b =>
    obtain ⟨used, rfl, hP⟩ := h
    exact append used (hf used b.1 b.2 hP)
  | error e => exact h

/-- Reading nothing leaves all tokens. -/
theorem pure {a : α} (h : P [] a) : ReadsAs P ts (.ok (a, ts)) := ⟨[], rfl, h⟩

end ReadsAs

/-- The suffixes of a type, also within brackets of which `k` commas were read. -/
theorem readsAs_readSuffixes (ts : List Token) :
    (∀ {used : List Token} {t : TypeExpr}, IsType used t →
      ReadsAs (fun more u => IsType (used ++ more) u) ts (readSuffixes t none ts)) ∧
    ∀ {used : List Token} {t : TypeExpr} (k : Nat), IsType used t →
      ReadsAs (fun more u =>
          IsType (used ++ (.leftBracket :: (List.replicate k .comma ++ more))) u) ts
        (readSuffixes t (some (k + 1)) ts) := by
  induction ts with
  | nil =>
    constructor
    · intro used t h
      exact .pure (by rwa [List.append_nil])
    · intro used t k _
      exact ReadError.stopsWithin_head rfl
  | cons tok ts ih =>
    constructor
    · intro used t h
      have hsuffix {f : TypeExpr → TypeExpr} (hf : IsSuffix [tok] f) :
          ReadsAs (fun more u => IsType (used ++ more) u) (tok :: ts)
            (readSuffixes (f t) none ts) := by
        refine .cons ((ih.1 (h.suffix hf)).mono fun more u hu => ?_)
        rwa [List.append_assoc, List.singleton_append] at hu
      have hstop : ReadsAs (fun more u => IsType (used ++ more) u) (tok :: ts)
          (.ok (t, tok :: ts)) := .pure (by rwa [List.append_nil])
      cases tok with
      | question => exact hsuffix .question
      | star => exact hsuffix .star
      | leftBracket => exact .cons (ih.2 0 h)
      | _ => exact hstop
    · intro used t k h
      cases tok with
      | comma =>
        refine .cons ((ih.2 (k + 1) h).mono fun more u hu => ?_)
        rwa [List.replicate_succ', List.append_assoc, List.singleton_append] at hu
      | rightBracket =>
        refine .cons ((ih.1 (h.suffix (.brackets k))).mono fun more u hu => ?_)
        rwa [List.append_assoc, List.cons_append, List.append_assoc,
          List.singleton_append] at hu
      | _ => exact ReadError.stopsWithin_head rfl

/-- A comma in front of arguments leaves a place open. -/
theorem IsArgs.comma {ts : List Token} {args : List TypeExpr} (h : IsArgs ts args) :
    IsArgs (.comma :: ts) args := by
  cases h with
  | none commas => exact .none (commas + 1)
  | some before after h => exact .some (before + 1) after h

/-- A type and a comma in front of arguments add an argument. -/
theorem IsArgs.cons {ts us : List Token} {t : TypeExpr} {args : List TypeExpr} (ht : IsType ts t)
    (h : IsArgs us args) : IsArgs (ts ++ .comma :: us) (t :: args) := by
  cases h with
  | none commas => exact .some 0 (commas + 1) (.one ht)
  | @some us _ before after h =>
    have hmore := IsArgs.some 0 after (.more before ht h)
    rwa [List.replicate_zero, List.nil_append, List.append_assoc, List.append_assoc] at hmore

/-- A type and the name that may follow it. -/
theorem exists_name_of_isType {ts : List Token} {t : TypeExpr} (h : IsType ts t)
    (rest : List Token) : ∃ name, rest = name ++ dropName rest ∧ IsItem (ts ++ name) t := by
  have hplain : IsItem (ts ++ []) t := by
    rw [List.append_nil]
    exact .plain h
  cases rest with
  | nil => exact ⟨[], rfl, hplain⟩
  | cons tok rest =>
    cases tok with
    | ident name => exact ⟨[.ident name], rfl, .named h name⟩
    | _ => exact ⟨[], rfl, hplain⟩

mutual

/-- **What is read as a type derives from the grammar.** -/
theorem readsAs_readType : ∀ (n : Nat) (ts : List Token), ReadsAs IsType ts (readType n ts)
  | 0, _ => ReadError.stopsWithin_head rfl
  | _ + 1, [] => ReadError.stopsWithin_head rfl
  | n + 1, tok :: ts => by
    cases tok with
    | leftParen =>
      rw [readType]
      refine .cons ((readsAs_readItems n ts).bind ?_)
      rintro used items rest ⟨us, rfl, hitems⟩
      exact (readsAs_readSuffixes rest).1 (.tuple (.parens hitems))
    | ident name =>
      rw [readType]
      refine (readsAs_readPath n (.ident name :: ts)).bind ?_
      rintro used ⟨path, args⟩ rest hpath
      exact (readsAs_readSuffixes rest).1 (.named hpath)
    | _ => exact ReadError.stopsWithin_head rfl

/-- What is read as a path is one. -/
theorem readsAs_readPath : ∀ (n : Nat) (ts : List Token),
    ReadsAs (fun used p => IsPath used p.1 p.2) ts (readPath n ts)
  | 0, _ => ReadError.stopsWithin_head rfl
  | n + 1, ts => by
    unfold readPath
    split
    · next k name rest hk =>
      obtain rfl := Nat.succ.inj hk
      refine .cons (.cons ((readsAs_readArgs n rest).bind ?_))
      intro used args rest' hargs
      dsimp only
      split
      · next rest'' =>
        refine .cons (.cons ((readsAs_readPath n rest'').bind ?_))
        rintro more ⟨path, args'⟩ tail hpath
        refine .pure ?_
        have hdot := IsPath.dot (.generic name hargs) hpath
        rwa [List.cons_append, List.cons_append, List.append_assoc, ← List.append_nil more] at hdot
      · exact .cons (.pure (.one (.generic name hargs)))
      · exact ReadError.stopsWithin_head rfl
    · next k name rest hk =>
      obtain rfl := Nat.succ.inj hk
      refine .cons (.cons ((readsAs_readPath n rest).bind ?_))
      rintro used ⟨path, args⟩ rest' hpath
      refine .pure ?_
      rw [List.append_nil]
      exact .dot (.plain name) hpath
    · next name _ _ _ _ => exact .cons (.pure (.one (.plain name)))
    · exact ReadError.stopsWithin_head rfl

/-- What is read as arguments are some. -/
theorem readsAs_readArgs : ∀ (n : Nat) (ts : List Token), ReadsAs IsArgs ts (readArgs n ts)
  | 0, _ => ReadError.stopsWithin_head rfl
  | n + 1, ts => by
    unfold readArgs
    dsimp only
    split
    · exact .pure (.none 0)
    · next rest => exact .cons ((readsAs_readArgs n rest).mono fun _ _ h => h.comma)
    · refine (readsAs_readType n ts).bind ?_
      intro used t rest ht
      dsimp only
      split
      · next rest' =>
        refine .cons ((readsAs_readArgs n rest').bind ?_)
        intro more args tail hargs
        refine .pure ?_
        rw [List.append_nil]
        exact .cons ht hargs
      · exact .pure (by simpa using IsArgs.some 0 0 (.one ht))

/-- The types of a tuple and its closing parenthesis. -/
theorem readsAs_readItems : ∀ (n : Nat) (ts : List Token),
    ReadsAs (fun used items => ∃ us, used = us ++ [.rightParen] ∧ IsItems us items) ts
      (readItems n ts)
  | 0, _ => ReadError.stopsWithin_head rfl
  | n + 1, ts => by
    unfold readItems
    dsimp only
    refine (readsAs_readType n ts).bind ?_
    intro used t rest ht
    obtain ⟨name, hrest, hitem⟩ := exists_name_of_isType ht rest
    dsimp only
    generalize dropName rest = tail at hrest ⊢
    subst hrest
    refine .append name ?_
    split
    · next rest' =>
      refine .cons ((readsAs_readItems n rest').bind ?_)
      rintro more items rest ⟨us, rfl, hitems⟩
      refine .pure ⟨used ++ name ++ .comma :: us, ?_, .more hitem hitems⟩
      simp
    · exact .cons (.pure ⟨used ++ name, by simp, .one hitem⟩)
    · exact ReadError.stopsWithin_head rfl

end

/-! ### The bound on nesting plays no part -/

/-- What follows depends on what was read alone. -/
theorem ReadsAs.bind_congr {α β : Type} {P : List Token → α → Prop} {ts : List Token}
    {r : Except ReadError (α × List Token)} {f g : α × List Token → Except ReadError β}
    (h : ReadsAs P ts r) (hfg : ∀ a rest, rest.length ≤ ts.length → f (a, rest) = g (a, rest)) :
    r >>= f = r >>= g := by
  cases r with
  | ok b =>
    obtain ⟨used, hts, -⟩ := h
    refine hfg b.1 b.2 ?_
    rw [hts, List.length_append]
    omega
  | error e => rfl

/-- Dropping a name leaves no more tokens. -/
theorem length_dropName_le (ts : List Token) : (dropName ts).length ≤ ts.length := by
  cases ts with
  | nil => exact Nat.le_refl _
  | cons tok ts => cases tok <;> simp [dropName]

mutual

/-- **More depth than the tokens need changes nothing**, neither a type nor an error. -/
theorem readType_eq : ∀ {n m : Nat} {ts : List Token}, 3 * ts.length + 1 ≤ n →
    3 * ts.length + 1 ≤ m → readType n ts = readType m ts
  | n + 1, m + 1, [], _, _ => rfl
  | n + 1, m + 1, tok :: ts, hn, hm => by
    rw [List.length_cons] at hn hm
    cases tok with
    | leftParen => rw [readType, readType, readItems_eq (n := n) (m := m) (by omega) (by omega)]
    | ident name =>
      rw [readType, readType, readPath_eq (n := n) (m := m)
        (by rw [List.length_cons]; omega) (by rw [List.length_cons]; omega)]
    | _ => rfl

/-- Bounds that are large enough for the tokens read the same path. -/
theorem readPath_eq : ∀ {n m : Nat} {ts : List Token}, 3 * ts.length ≤ n → 3 * ts.length ≤ m →
    readPath n ts = readPath m ts
  | 0, 0, _, _, _ => rfl
  | 0, m + 1, ts, hn, _ => by
    obtain rfl := List.length_eq_zero_iff.1 (show ts.length = 0 by omega)
    rfl
  | n + 1, 0, ts, _, hm => by
    obtain rfl := List.length_eq_zero_iff.1 (show ts.length = 0 by omega)
    rfl
  | n + 1, m + 1, [], _, _ => rfl
  | n + 1, m + 1, [tok], _, _ => by cases tok <;> rfl
  | n + 1, m + 1, tok :: next :: ts, hn, hm => by
    rw [List.length_cons, List.length_cons] at hn hm
    cases tok with
    | ident name =>
      cases next with
      | less =>
        rw [readPath, readPath, readArgs_eq (n := n) (m := m) (by omega) (by omega)]
        refine (readsAs_readArgs m ts).bind_congr fun args rest hrest => ?_
        dsimp only
        split
        · next rest' =>
          rw [List.length_cons, List.length_cons] at hrest
          rw [readPath_eq (n := n) (m := m) (by omega) (by omega)]
        · rfl
        · rfl
      | dot => rw [readPath, readPath, readPath_eq (n := n) (m := m) (by omega) (by omega)]
      | _ => rfl
    | _ => rfl

/-- They read the same arguments. -/
theorem readArgs_eq : ∀ {n m : Nat} {ts : List Token}, 3 * ts.length + 2 ≤ n →
    3 * ts.length + 2 ≤ m → readArgs n ts = readArgs m ts
  | n + 1, m + 1, ts, hn, hm => by
    unfold readArgs
    dsimp only
    split
    · rfl
    · next rest =>
      rw [List.length_cons] at hn hm
      exact readArgs_eq (by omega) (by omega)
    · rw [readType_eq (n := n) (m := m) (by omega) (by omega)]
      refine (readsAs_readType m ts).bind_congr fun t rest hrest => ?_
      dsimp only
      split
      · next rest' =>
        rw [List.length_cons] at hrest
        rw [readArgs_eq (n := n) (m := m) (by omega) (by omega)]
      · rfl

/-- They read the same items of a tuple. -/
theorem readItems_eq : ∀ {n m : Nat} {ts : List Token}, 3 * ts.length + 2 ≤ n →
    3 * ts.length + 2 ≤ m → readItems n ts = readItems m ts
  | n + 1, m + 1, ts, hn, hm => by
    unfold readItems
    dsimp only
    rw [readType_eq (n := n) (m := m) (by omega) (by omega)]
    refine (readsAs_readType m ts).bind_congr fun t rest hrest => ?_
    have hdrop := length_dropName_le rest
    dsimp only
    split
    · next rest' heq =>
      rw [heq, List.length_cons] at hdrop
      rw [readItems_eq (n := n) (m := m) (by omega) (by omega)]
    · rfl
    · rfl

end

/-! ### Whole texts -/

/-- The tokens are read as one type, which they derive. -/
theorem readType_eq_ok_iff {n : Nat} {ts : List Token} {t : TypeExpr} (hn : 3 * ts.length + 1 ≤ n) :
    readType n ts = .ok (t, []) ↔ IsType ts t := by
  constructor
  · intro h
    have hreads := readsAs_readType n ts
    rw [h] at hreads
    obtain ⟨used, rfl, ht⟩ := hreads
    rwa [List.append_nil]
  · intro h
    have hends : NameEnds [] := fun _ ht => by cases ht
    have hread := readType_of_isType h hn hends
    rwa [List.append_nil] at hread

/-- Tokens are read as a type exactly when they derive it. -/
theorem readTokens_eq_ok_iff {text : String} {ts : List Token} {t : TypeExpr} :
    readTokens text ts = .ok t ↔ IsType ts t := by
  rw [← readType_eq_ok_iff (n := 3 * ts.length + 3) (by omega), readTokens]
  cases readType (3 * ts.length + 3) ts with
  | error e => simp [bind, Except.bind]
  | ok r =>
    obtain ⟨u, rest⟩ := r
    cases rest <;> simp [bind, Except.bind, pure, Except.pure]

namespace ReadError

/-- What an error says about a text: its first character that starts no token, the token or the
end at which reading stopped, or that more stands behind a type. -/
inductive IsFor (text : String) : ReadError → Prop
  | character {c : Char} (h : Token.scan text.toList = .error c) : IsFor text (.character c text)
  | stops {ts : List Token} {e : ReadError} (h : Token.scan text.toList = .ok ts)
    (hstops : e.StopsWithin ts) : IsFor text e
  | trailing {used rest : List Token} {t : TypeExpr}
    (h : Token.scan text.toList = .ok (used ++ rest)) (ht : IsType used t) (hrest : rest ≠ []) :
    IsFor text (.trailing text)

end ReadError

/-- An error of reading lies within the text that was scanned. -/
theorem isFor_of_readTokens {text : String} {ts : List Token} {e : ReadError}
    (hscan : Token.scan text.toList = .ok ts) (h : readTokens text ts = .error e) :
    e.IsFor text := by
  have hreads := readsAs_readType (3 * ts.length + 3) ts
  rw [readTokens] at h
  cases hread : readType (3 * ts.length + 3) ts with
  | error e' =>
    rw [hread] at h hreads
    obtain rfl := Except.error.inj h
    exact .stops hscan hreads
  | ok r =>
    obtain ⟨t, rest⟩ := r
    rw [hread] at h hreads
    obtain ⟨used, rfl, ht⟩ := hreads
    cases rest with
    | nil => cases h
    | cons tok rest =>
      obtain rfl := Except.error.inj h
      exact .trailing hscan ht (List.cons_ne_nil _ _)

/-- **Reading follows the grammar.**  A text is read as a type exactly when it is cut into tokens
that derive one, and the type is the single form of the one derived.  Any other text gives an
error about the text, at a token of it or at its end.  The outcome does not depend on the bound
on nesting. -/
theorem read_follows_grammar (text : String) :
    (∀ t, read text = .ok t ↔
      ∃ ts u, Token.scan text.toList = .ok ts ∧ IsType ts u ∧ normalize u = t) ∧
    ((¬ ∃ ts u, Token.scan text.toList = .ok ts ∧ IsType ts u) →
      ∃ e, read text = .error e ∧ e.IsFor text) ∧
    ∀ ts, Token.scan text.toList = .ok ts → ∀ n, 3 * ts.length + 1 ≤ n →
      readType n ts = readType (3 * ts.length + 3) ts := by
  have hread {ts : List Token} (hscan : Token.scan text.toList = .ok ts) :
      read text = (readTokens text ts).map normalize := by
    rw [read, hscan]
  refine ⟨fun t => ⟨fun h => ?_, ?_⟩, fun hnone => ?_, fun ts _ n hn => readType_eq hn (by omega)⟩
  · cases hscan : Token.scan text.toList with
    | error c =>
      rw [read, hscan] at h
      cases h
    | ok ts =>
      rw [hread hscan] at h
      cases hts : readTokens text ts with
      | error e =>
        rw [hts] at h
        cases h
      | ok u =>
        rw [hts] at h
        exact ⟨ts, u, rfl, readTokens_eq_ok_iff.1 hts, Except.ok.inj h⟩
  · rintro ⟨ts, u, hscan, hu, rfl⟩
    rw [hread hscan, readTokens_eq_ok_iff.2 hu]
    rfl
  · cases hscan : Token.scan text.toList with
    | error c => exact ⟨_, by rw [read, hscan], .character hscan⟩
    | ok ts =>
      cases hts : readTokens text ts with
      | error e => exact ⟨e, by rw [hread hscan, hts]; rfl, isFor_of_readTokens hscan hts⟩
      | ok u => exact absurd ⟨ts, u, hscan, readTokens_eq_ok_iff.1 hts⟩ hnone

end TypeExpr
end MappingAudit
