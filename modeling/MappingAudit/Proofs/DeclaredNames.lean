/-
# Names of declared types

The name of a declared type is an identifier of the text: a node over one token that may name
something (`Source.exists_token_of_declaration?`).  Such a token is made of characters of
identifiers and of escapes, and no dot is among these.  So a qualified name ends in the name
of its type after the last dot (`Source.lastSegment_qualify`), and types of one qualified name
have one name.
-/

import MappingAudit.Proofs.ChainTiles
import MappingAudit.Proofs.NameLookup
import Mathlib.Data.List.TakeWhile
import Mathlib.Data.String.Basic

namespace MappingAudit
namespace CSharp

/-! ### Tokens that name something -/

namespace Lexer

variable {cs : List Char} {k : TokenKind} {n : Nat}

/-- Tokens of these kinds may name something. -/
def isWordKind (k : TokenKind) : Bool := k == .word || k == .escapedWord

/-- A character that ends a run is not in the run. -/
theorem not_mem_take_takeWhile {p : Char → Bool} {c : Char} (hc : p c = false) (n : Nat)
    (h : n ≤ (cs.takeWhile p).length) : c ∉ cs.take n := by
  intro hmem
  have hfront : cs.take n <+: cs.takeWhile p :=
    List.prefix_of_prefix_length_le (List.take_prefix n cs) (List.takeWhile_prefix p)
      (Nat.le_trans (List.length_take_le n cs) h)
  have hp := List.mem_takeWhile_imp (hfront.subset hmem)
  rw [hc] at hp
  cases hp

/-- An escape is a backslash, a letter and digits. -/
theorem dot_not_mem_codePointEscape (cs : List Char) : '.' ∉ cs.take (codePointEscape cs) := by
  have hhex : isHex '.' = false := by decide
  unfold codePointEscape
  split
  · next rest =>
    split
    · next hdigits =>
      have hrest := not_mem_take_takeWhile hhex 4 hdigits
      simpa using hrest
    · exact List.not_mem_nil
  · next rest =>
    split
    · next hdigits =>
      have hrest := not_mem_take_takeWhile hhex 8 hdigits
      simpa using hrest
    · exact List.not_mem_nil
  · exact List.not_mem_nil

/-- No dot is within the characters of an identifier. -/
theorem dot_not_mem_identifierBody (n : Nat) (cs : List Char) :
    '.' ∉ cs.take (identifierBody n cs) := by
  have hdot : CharClass.identifierPart '.' = false := by decide
  induction n generalizing cs with
  | zero => exact List.not_mem_nil
  | succ n ih =>
    have hescape := dot_not_mem_codePointEscape cs
    rw [identifierBody.eq_def]
    simp only
    split
    · next c rest _ =>
      split
      · next hc =>
        rw [Nat.add_comm, List.take_succ_cons]
        intro hmem
        rcases List.mem_cons.1 hmem with rfl | hmem
        · rw [hdot] at hc
          cases hc
        · exact ih rest hmem
      · exact List.not_mem_nil
    · rw [List.take_add]
      intro hmem
      rcases List.mem_append.1 hmem with hmem | hmem
      · exact hescape hmem
      · exact ih _ hmem

/-- No dot is within an identifier. -/
theorem dot_not_mem_identifierLength (cs : List Char) :
    '.' ∉ cs.take (identifierLength cs) := by
  rw [identifierLength.eq_def]
  split
  · exact List.not_mem_nil
  · split
    · exact dot_not_mem_identifierBody _ _
    · exact List.not_mem_nil

/-- A token of some length keeps the kind it was given. -/
theorem kind_eq_of_map {o : Option Nat} {k' : TokenKind} {f : Nat → Nat}
    (h : (o.map fun n => (k', f n)) = some (k, n)) : k' = k := by
  obtain ⟨_, -, h⟩ := Option.map_eq_some_iff.1 h
  exact (Prod.mk.inj h).1

/-- Where a word is cut off, at least one character is. -/
theorem dot_not_mem_next? (h : next? cs = some (k, n)) (hk : isWordKind k = true) :
    '.' ∉ cs.take (n - 1 + 1) := by
  unfold next? at h
  split at h
  case h_1 => cases h
  case h_2 =>
    obtain ⟨rfl, -⟩ := Prod.mk.inj (Option.some.inj h)
    cases hk
  case h_3 =>
    obtain rfl := kind_eq_of_map h
    cases hk
  case h_4 =>
    obtain rfl := kind_eq_of_map h
    cases hk
  case h_5 rest _ =>
    -- An identifier with a sign in front.
    split at h
    · cases h
    · obtain ⟨-, rfl⟩ := Prod.mk.inj (Option.some.inj h)
      rw [Nat.add_sub_cancel, List.take_succ_cons]
      intro hmem
      rcases List.mem_cons.1 hmem with hat | hmem
      · cases hat
      · exact dot_not_mem_identifierLength rest hmem
  case h_6 =>
    dsimp only at h
    split at h <;> obtain rfl := kind_eq_of_map h <;> cases hk
  case h_7 =>
    obtain rfl := kind_eq_of_map h
    cases hk
  case h_8 c rest _ _ _ _ _ _ =>
    split at h
    · obtain ⟨rfl, -⟩ := Prod.mk.inj (Option.some.inj h)
      cases hk
    · split at h
      · cases h
      · obtain ⟨rfl, -⟩ := Prod.mk.inj (Option.some.inj h)
        cases hk
      · next hlength _ =>
        obtain ⟨-, rfl⟩ := Prod.mk.inj (Option.some.inj h)
        have hpos : identifierLength (c :: rest) ≠ 0 := hlength
        rw [Nat.sub_add_cancel (Nat.one_le_iff_ne_zero.2 hpos)]
        exact dot_not_mem_identifierLength (c :: rest)

variable {states states' below : List State} {style : Style}

/-- Parts of a text with holes are no words. -/
theorem not_isWordKind_of_nextText? (h : nextText? style below cs = some (k, n, states')) :
    isWordKind k = false := by
  unfold nextText? at h
  split at h
  · obtain ⟨rfl, -⟩ := Prod.mk.inj (Option.some.inj h)
    rfl
  · obtain ⟨rfl, -⟩ := Prod.mk.inj (Option.some.inj h)
    rfl
  · cases h
  · obtain ⟨rfl, -⟩ := Prod.mk.inj (Option.some.inj h)
    rfl

/-- Words are cut off in code only, where they are the next token. -/
theorem next?_of_nextIn? (h : nextIn? states cs = some (k, n, states'))
    (hk : isWordKind k = true) : next? cs = some (k, n) := by
  have hmap {g : TokenKind × Nat → TokenKind × Nat × List State}
      (hg : ∀ x, ((g x).1, (g x).2.1) = x) (h : (next? cs).map g = some (k, n, states')) :
      next? cs = some (k, n) := by
    obtain ⟨x, hnext, hpair⟩ := Option.map_eq_some_iff.1 h
    have hx := hg x
    rw [hpair] at hx
    rw [hnext, ← hx]
  unfold nextIn? at h
  split at h
  · rw [not_isWordKind_of_nextText? h] at hk
    cases hk
  · unfold nextCode? at h
    split at h
    · obtain ⟨rfl, -⟩ := Prod.mk.inj (Option.some.inj h)
      cases hk
    · split at h
      · obtain ⟨rfl, -⟩ := Prod.mk.inj (Option.some.inj h)
        cases hk
      · split at h
        · exact hmap (fun _ => rfl) h
        · obtain ⟨rfl, -⟩ := Prod.mk.inj (Option.some.inj h)
          cases hk
      · exact hmap (fun _ => rfl) h

/-- **Words hold no dots.** -/
theorem dot_not_mem_of_mem_tokensFrom (states : List State) (lineStart : Bool) (p : Position)
    (cs : List Char) : ∀ t ∈ (tokensFrom states lineStart p cs).1, isWordKind t.kind = true →
      '.' ∉ t.text.toList := by
  induction states, lineStart, p, cs using tokensFrom.induct with
  | case1 states lineStart p =>
    rw [tokensFrom]
    exact fun t ht => absurd ht List.not_mem_nil
  | case2 states lineStart p c cs hgap ih =>
    rw [tokensFrom, if_pos hgap]
    exact ih
  | case3 states lineStart p c cs hgap found hnone =>
    simp only [found, dite_eq_ite] at hnone
    rw [tokensFrom, if_neg hgap]
    simp only [hnone]
    exact fun t ht => absurd ht List.not_mem_nil
  | case4 states lineStart p c cs hgap found kind n states' hsome taken q tokens complete hrest ih =>
    simp only [found, dite_eq_ite] at hsome
    rw [tokensFrom, if_neg hgap]
    simp only [hsome]
    intro t ht hword
    rcases List.mem_cons.1 ht with rfl | ht
    · rw [String.toList_ofList]
      split at hsome
      · obtain ⟨_, -, hpair⟩ := Option.map_eq_some_iff.1 hsome
        obtain ⟨rfl, -⟩ := Prod.mk.inj hpair
        cases hword
      · exact dot_not_mem_next? (next?_of_nextIn? hsome hword) hword
    · exact ih t ht hword

end Lexer

/-- Identifiers are words. -/
theorem Token.isWordKind_of_isIdentifier {t : Token} (h : t.isIdentifier = true) :
    Lexer.isWordKind t.kind = true := by
  rw [Token.isIdentifier, Bool.or_eq_true] at h
  rw [Lexer.isWordKind, Bool.or_eq_true]
  exact h.symm.imp_left fun h => (Bool.and_eq_true_iff.1 h).1

/-! ### Identifiers of a tree -/

/-- The node is no identifier, or it stands over one of the tokens that may name something. -/
def NamesToken (ts : List Token) (n : Node) : Prop :=
  n.kind = .identifier → ∃ t ∈ ts, t.isIdentifier = true ∧ n.span = t.span

/-- A node named by one of some tokens is named by one of more tokens. -/
theorem NamesToken.mono {ts us : List Token} {n : Node} (h : NamesToken ts n) (hsub : ts ⊆ us) :
    NamesToken us n := by
  intro hkind
  obtain ⟨t, ht, hname, hspan⟩ := h hkind
  exact ⟨t, hsub ht, hname, hspan⟩

namespace Node.Everywhere

variable {p : Node → Prop} {n : Node} {cs : List Node}

/-- What depends on the kind and the place of nodes only, and holds of comments, is kept when
comments are put into a node. -/
theorem withComments (hsame : ∀ m m' : Node, m.kind = m'.kind → m.span = m'.span → p m → p m')
    (h : cs.Pairwise fun c d => c.span.startByte ≤ d.span.startByte)
    (hcs : ∀ c ∈ cs, Everywhere p c) (hn : Everywhere p n) :
    Everywhere p (n.withComments cs) := by
  induction hn generalizing cs with
  | @mk k s kids here below ih =>
    have hhere : p ((Node.mk k s kids).withComments cs) :=
      hsame _ _ (kind_withComments cs _).symm (span_withComments cs _).symm here
    rw [Node.withComments] at hhere ⊢
    refine .mk hhere fun x hx => ?_
    rcases mem_place h hx with hx | ⟨m, hm, inside, hinside, -, rfl⟩
    · exact hcs x hx
    · exact ih m hm (h.sublist hinside) fun c hc => hcs c (hinside.subset hc)

end Node.Everywhere

/-- The nodes that spell tokens are named by these. -/
theorem Spells.namesToken {xs : List Node} {ts : List Token} (h : Spells xs ts) :
    ∀ x ∈ xs, x.Everywhere (NamesToken ts) := by
  induction h with
  | nil => exact nofun
  | @leaf k t hname =>
    intro x hx
    obtain rfl := List.mem_singleton.1 hx
    exact .mk (fun hk => ⟨t, List.mem_cons_self, hname hk, rfl⟩) nofun
  | @append xs ys ts us _ _ ihx ihy =>
    intro x hx
    rcases List.mem_append.1 hx with hx | hx
    · exact (ihx x hx).imp fun n hn => hn.mono (List.subset_append_left ts us)
    · exact (ihy x hx).imp fun n hn => hn.mono (List.subset_append_right ts us)
  | @node k xs ts _ hne hname _ ih =>
    intro x hx
    rw [List.mem_singleton.1 hx, Node.wrap_eq_mk hne]
    exact .mk (fun hk => absurd hk hname) ih
  | @solid k xs ts _ _ hname _ =>
    intro x hx
    rw [List.mem_singleton.1 hx]
    exact .mk (fun hk => absurd hk hname) nofun

namespace SyntaxTree

variable {text : String}

/-- So are the children of a text that is read. -/
theorem namesToken_of_mem_children {x : Node} (hx : x ∈ (read text).root.children) :
    x.Everywhere (NamesToken (Lexer.tokens text).1) := by
  obtain ⟨items, used, rest, hsolid, hspells, hroot⟩ := exists_root_eq text
  have hcomments := areComments text
  have hused : used ⊆ (Lexer.tokens text).1 := by
    intro t ht
    exact (List.mem_filter.1 (hsolid ▸ List.mem_append_left rest ht)).1
  have hcomment : ∀ c ∈ ((Lexer.tokens text).1.filter (·.kind == .comment)).map
      (Rule.leaf .comment), c.Everywhere (NamesToken (Lexer.tokens text).1) := by
    intro c hc
    obtain ⟨t, -, rfl⟩ := List.mem_map.1 hc
    exact .mk nofun nofun
  rw [hroot, Node.children_withComments, Node.children_wrap] at hx
  rcases Node.mem_place hcomments.sorted hx with hx | ⟨n, hn, inside, hinside, -, rfl⟩
  · exact hcomment x hx
  · refine .withComments ?_ (hcomments.sorted.sublist hinside)
      (fun c hc => hcomment c (hinside.subset hc))
      ((hspells.namesToken n hn).imp fun m hm => hm.mono hused)
    intro m m' hkind hspan hm hk
    rw [← hspan]
    exact hm (hkind.trans hk)

/-- The identifiers throughout the tree of a text stand over tokens that may name something. -/
theorem read_namesToken (text : String) :
    (read text).Throughout (NamesToken (Lexer.tokens text).1) where
  not_call := by simp [kind_root]
  not_statement := by simp [kind_root]
  nodes := fun _ => namesToken_of_mem_children

end SyntaxTree

/-! ### The text of a name -/

/-- A token covers its own text. -/
theorem Lexer.slice_of_mem_tokens {source : String} {t : Token} (ht : t ∈ (tokens source).1) :
    t.span.slice source = t.text := by
  obtain ⟨a, c, hsplit, hstart, hstop⟩ := exists_of_mem_tokens ht
  have hlen (cs : List Char) : Pieces.byteLength cs = String.utf8Len cs := by
    rw [Pieces.byteLength_eq_utf8ByteSize, String.utf8ByteSize_ofList]
  have hsource : source = String.ofList (a ++ t.text.toList ++ c) := by
    rw [← hsplit, String.ofList_toList]
  rw [Span.slice, hstart, hstop, Pieces.byteLength_append, hlen, hlen, hsource,
    String.extract_of_valid, String.ofList_toList]

end CSharp

namespace Source

open CSharp (Node Kind)

variable {source : String} {site : Site} {d : Declaration}

/-- The name of a declared type is a token of the text that may name something. -/
theorem exists_token_of_declaration?
    (hsite : site ∈ sites source {} [] (CSharp.SyntaxTree.read source).root)
    (hd : declaration? source site = some d) :
    ∃ t ∈ (CSharp.Lexer.tokens source).1, t.isIdentifier = true ∧ d.name = t.text := by
  rw [declaration?] at hd
  simp only at hd
  split at hd
  · cases hd
  · next hdeclares =>
    obtain ⟨name, hname, hd⟩ := Option.bind_eq_some_iff.1 hd
    obtain rfl := Option.some.inj hd
    obtain ⟨n, hn, rfl⟩ := Option.map_eq_some_iff.1 hname
    have hkind : site.node.kind ≠ (CSharp.SyntaxTree.read source).root.kind := by
      intro hroot
      rw [hroot, CSharp.SyntaxTree.kind_root] at hdeclares
      exact hdeclares rfl
    obtain ⟨hnames, -⟩ :=
      everywhere_of_mem_sites (CSharp.SyntaxTree.read_namesToken source) hsite hkind
    have hidentifier : n.kind = .identifier := by
      have hfound := List.find?_some (show List.find? _ _ = some n from hn)
      exact beq_iff_eq.1 hfound
    obtain ⟨t, ht, hword, hspan⟩ := (hnames.child? hn).self hidentifier
    refine ⟨t, ht, hword, ?_⟩
    show n.text source = t.text
    rw [Node.text, hspan, CSharp.Lexer.slice_of_mem_tokens ht]

/-- The names of the declared types hold no dots. -/
def File.HasPlainNames (f : File) : Prop := ∀ d ∈ f.declarations, '.' ∉ d.name.toList

/-- **Names that are read from a text hold no dots.** -/
theorem hasPlainNames_read (path source : String) : (File.read path source).HasPlainNames := by
  intro d hd
  obtain ⟨site, hsite, hd⟩ := List.mem_filterMap.1 hd
  obtain ⟨t, ht, hword, hname⟩ := exists_token_of_declaration? hsite hd
  rw [hname]
  exact CSharp.Lexer.dot_not_mem_of_mem_tokensFrom [] true .start source.toList t ht
    (CSharp.Token.isWordKind_of_isIdentifier hword)

/-- A qualified name ends in the name after its last dot. -/
theorem lastSegment_qualify {name : String} (hname : '.' ∉ name.toList) (ns : Option String)
    (containers : List String) :
    Catalog.lastSegment (qualify ns (containers ++ [name])) = name := by
  rw [qualify, ← List.append_assoc]
  by_cases hnil : ns.toList ++ containers = []
  · have hself : Pieces.join "." (ns.toList ++ containers ++ [name]) = name := by
      rw [hnil]
      simp [Pieces.join]
    rw [hself, Catalog.lastSegment_eq_self hname]
  · have hsplit : Pieces.splitAt (· == '.') name.toList = [name.toList] :=
      Pieces.splitAt_of_forall fun c hc => beq_eq_false_iff_ne.2 fun heq => hname (heq ▸ hc)
    have hlist : (Pieces.join "." (ns.toList ++ containers ++ [name])).toList =
        (Pieces.join "." (ns.toList ++ containers)).toList ++ '.' :: name.toList := by
      rw [Pieces.join_append hnil (List.cons_ne_nil _ _)]
      simp [Pieces.join]
    have hpieces (a rest : List Char) : Pieces.splitAt (· == '.') (a ++ '.' :: rest) =
        Pieces.splitAt (· == '.') a ++ Pieces.splitAt (· == '.') rest := by
      apply Pieces.splitAt_append
      exact beq_self_eq_true '.'
    rw [Catalog.lastSegment, Pieces.lastPiece, hlist, hpieces, hsplit]
    simp

end Source
end MappingAudit
