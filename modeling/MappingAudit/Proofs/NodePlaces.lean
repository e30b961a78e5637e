/-
# The places of nodes

The grammar puts a node where its first token starts and its last token stops, so its
children lie within it and the first child starts with it.  Comments are put between the
children of the innermost node around them; as they do not overlap with tokens, they lie
within that node, and behind the start of its first child.  So the tree that the grammar
makes of a text is what edits rely on (`SyntaxTree.read_placed`): all places lie between
characters of the text, children lie within their parents, and a first child starts with its
parent.
-/

import MappingAudit.Proofs.PlacedTrees
import MappingAudit.Proofs.SpelledGrammar
import MappingAudit.Proofs.TokenPlaces

namespace MappingAudit
namespace CSharp

namespace Node

/-- A node around others reaches from the first to the last of them. -/
theorem span_wrap {k : Kind} {cs : List Node} {a b : Node} (ha : cs.head? = some a)
    (hb : cs.getLast? = some b) : (wrap k cs).span = a.span.cover b.span := by
  rw [wrap, ha, hb]
  rfl

/-- Its children are the nodes it is put around. -/
theorem children_wrap (k : Kind) (cs : List Node) : (wrap k cs).children = cs := by
  rw [wrap]
  split
  · rfl
  · next h =>
    cases cs with
    | nil => rfl
    | cons a cs => exact absurd (List.getLast?_eq_some_getLast (List.cons_ne_nil a cs)) (h a _ rfl)

/-- Around some nodes it is built with the span that they cover. -/
theorem wrap_eq_mk {k : Kind} {cs : List Node} (h : cs ≠ []) :
    wrap k cs = mk k (wrap k cs).span cs := by
  have ha := List.head?_eq_some_head h
  have hb := List.getLast?_eq_some_getLast h
  rw [span_wrap ha hb, wrap, ha, hb]

end Node

/-! ### Nodes over tokens -/

/-- The nodes start and stop where some of the tokens do, the first one with the first
token and the last one with the last. -/
structure LinesUp (xs : List Node) (ts : List Token) : Prop where
  head : xs.head?.map (·.span.startByte) = ts.head?.map (·.span.startByte)
  last : xs.getLast?.map (·.span.endByte) = ts.getLast?.map (·.span.endByte)
  start : ∀ x ∈ xs, ∃ t ∈ ts, x.span.startByte = t.span.startByte
  stop : ∀ x ∈ xs, ∃ t ∈ ts, x.span.endByte = t.span.endByte

namespace LinesUp

variable {xs ys : List Node} {ts us : List Token}

/-- A leaf stands where its token does. -/
theorem leaf (k : Kind) (t : Token) : LinesUp [Rule.leaf k t] [t] where
  head := rfl
  last := rfl
  start := by simp [Rule.leaf, Node.span]
  stop := by simp [Rule.leaf, Node.span]

/-- Nodes behind each other stand where their tokens do. -/
theorem append (hx : LinesUp xs ts) (hy : LinesUp ys us) : LinesUp (xs ++ ys) (ts ++ us) where
  head := by
    rw [List.head?_append, List.head?_append, Option.map_or, Option.map_or, hx.head, hy.head]
  last := by
    rw [List.getLast?_append, List.getLast?_append, Option.map_or, Option.map_or, hx.last, hy.last]
  start x h := by
    rcases List.mem_append.1 h with h | h
    · obtain ⟨t, ht, hstart⟩ := hx.start x h
      exact ⟨t, List.mem_append_left us ht, hstart⟩
    · obtain ⟨t, ht, hstart⟩ := hy.start x h
      exact ⟨t, List.mem_append_right ts ht, hstart⟩
  stop x h := by
    rcases List.mem_append.1 h with h | h
    · obtain ⟨t, ht, hstop⟩ := hx.stop x h
      exact ⟨t, List.mem_append_left us ht, hstop⟩
    · obtain ⟨t, ht, hstop⟩ := hy.stop x h
      exact ⟨t, List.mem_append_right ts ht, hstop⟩

/-- One node in place of several that it covers. -/
theorem covered (h : LinesUp xs ts) (hne : xs ≠ []) (k : Kind) (cs : List Node) :
    LinesUp [.mk k (Node.wrap k xs).span cs] ts := by
  have ha := List.head?_eq_some_head hne
  have hb := List.getLast?_eq_some_getLast hne
  have hspan := Node.span_wrap (k := k) ha hb
  constructor
  · rw [← h.head, ha, hspan]
    rfl
  · rw [← h.last, hb, hspan]
    rfl
  · intro x hx
    rw [List.mem_singleton.1 hx, hspan]
    exact h.start (xs.head hne) (List.head_mem hne)
  · intro x hx
    rw [List.mem_singleton.1 hx, hspan]
    exact h.stop (xs.getLast hne) (List.getLast_mem hne)

end LinesUp

/-- Tokens in the order of the text that start and stop at places. -/
structure InOrder (P : Nat → Prop) (ts : List Token) : Prop where
  pairwise : ts.Pairwise fun s t => s.span.endByte ≤ t.span.startByte
  start : ∀ t ∈ ts, P t.span.startByte
  stop : ∀ t ∈ ts, P t.span.endByte
  ordered : ∀ t ∈ ts, t.span.startByte ≤ t.span.endByte

namespace InOrder

variable {P : Nat → Prop} {ts us : List Token} {t : Token}

/-- Some of the tokens are in order too. -/
theorem of_sublist (h : InOrder P ts) (hsub : us.Sublist ts) : InOrder P us where
  pairwise := h.pairwise.sublist hsub
  start t ht := h.start t (hsub.subset ht)
  stop t ht := h.stop t (hsub.subset ht)
  ordered t ht := h.ordered t (hsub.subset ht)

/-- No token starts before the first one. -/
theorem head_le (h : InOrder P ts) {first : Token} (hfirst : ts.head? = some first) (ht : t ∈ ts) :
    first.span.startByte ≤ t.span.startByte := by
  obtain ⟨rest, rfl⟩ := List.head?_eq_some_iff.1 hfirst
  rcases List.mem_cons.1 ht with rfl | ht
  · exact Nat.le_refl _
  · have hnext := (List.pairwise_cons.1 h.pairwise).1 t ht
    have hordered := h.ordered first List.mem_cons_self
    omega

/-- No token ends after the last one. -/
theorem le_last (h : InOrder P ts) {last : Token} (hlast : ts.getLast? = some last) (ht : t ∈ ts) :
    t.span.endByte ≤ last.span.endByte := by
  obtain ⟨init, rfl⟩ := List.getLast?_eq_some_iff.1 hlast
  rcases List.mem_append.1 ht with hinit | hsingle
  · have hbefore := (List.pairwise_append.1 h.pairwise).2.2 t hinit last List.mem_cons_self
    have hordered := h.ordered last (by simp)
    omega
  · obtain rfl := List.mem_singleton.1 hsingle
    exact Nat.le_refl _

/-- The nodes over tokens in order lie between the outermost ones. -/
theorem contains_span (h : InOrder P ts) {xs : List Node} (hxs : LinesUp xs ts) (hne : xs ≠ [])
    {k : Kind} {x : Node} (hx : x ∈ xs) : (Node.wrap k xs).span.contains x.span = true := by
  have ha := List.head?_eq_some_head hne
  have hb := List.getLast?_eq_some_getLast hne
  have hspan := Node.span_wrap (k := k) ha hb
  obtain ⟨first, hfirst, hstart⟩ := Option.map_eq_some_iff.1 (hxs.head.symm.trans (by rw [ha]; rfl))
  obtain ⟨last, hlast, hstop⟩ := Option.map_eq_some_iff.1 (hxs.last.symm.trans (by rw [hb]; rfl))
  obtain ⟨t, ht, hxstart⟩ := hxs.start x hx
  obtain ⟨u, hu, hxstop⟩ := hxs.stop x hx
  rw [hspan, Span.contains_iff]
  constructor
  · calc (xs.head hne).span.startByte = first.span.startByte := hstart.symm
      _ ≤ t.span.startByte := h.head_le hfirst ht
      _ = x.span.startByte := hxstart.symm
  · calc x.span.endByte = u.span.endByte := hxstop
      _ ≤ last.span.endByte := h.le_last hlast hu
      _ = (xs.getLast hne).span.endByte := hstop

end InOrder

namespace Spells

variable {P : Nat → Prop} {xs : List Node} {ts : List Token}

/-- The nodes that spell tokens stand where these do. -/
theorem linesUp (h : Spells xs ts) : LinesUp xs ts := by
  induction h with
  | nil => exact ⟨rfl, rfl, nofun, nofun⟩
  | @leaf k t _ => exact .leaf k t
  | append _ _ ihx ihy => exact ihx.append ihy
  | @node k xs ts h hne _ _ ih =>
    rw [Node.wrap_eq_mk hne]
    exact ih.covered hne k xs
  | @solid k xs ts h hne _ ih => exact ih.covered hne k []

/-- A node over placed nodes is placed. -/
theorem isPlaced_wrap (h : Spells xs ts) (hts : InOrder P ts) (hne : xs ≠ []) (k : Kind)
    (hxs : ∀ x ∈ xs, x.Placed P) : (Node.wrap k xs).span.IsPlaced P := by
  have hspan := Node.span_wrap (k := k) (List.head?_eq_some_head hne)
    (List.getLast?_eq_some_getLast hne)
  have hhead := (hxs _ (List.head_mem hne)).self
  have hlast := (hxs _ (List.getLast_mem hne)).self
  have hordered := hhead.ordered
  obtain ⟨hstart, hstop⟩ := Span.contains_iff.1
    (hts.contains_span h.linesUp hne (k := k) (List.head_mem hne))
  refine ⟨?_, ?_, by omega⟩
  · rw [hspan]
    exact hhead.start
  · rw [hspan]
    exact hlast.stop

/-- **Nodes over tokens in order have their places.** -/
theorem placed (h : Spells xs ts) (hts : InOrder P ts) : ∀ x ∈ xs, x.Placed P := by
  induction h with
  | nil => exact nofun
  | @leaf k t _ =>
    intro x hx
    rw [List.mem_singleton.1 hx]
    have ht : t ∈ [t] := List.mem_cons_self
    have hplaced : t.span.IsPlaced P := ⟨hts.start t ht, hts.stop t ht, hts.ordered t ht⟩
    refine .mk ⟨⟨hplaced, ?_⟩, ?_, ?_⟩ ?_
    · exact nofun
    · exact nofun
    · exact fun _ => nofun
    · exact nofun
  | @append xs ys ts us _ _ ihx ihy =>
    intro x hx
    rcases List.mem_append.1 hx with hx | hx
    · exact ihx (hts.of_sublist (List.sublist_append_left ts us)) x hx
    · exact ihy (hts.of_sublist (List.sublist_append_right ts us)) x hx
  | @node k xs ts h hne _ hcall ih =>
    intro x hx
    rw [List.mem_singleton.1 hx, Node.wrap_eq_mk hne]
    have hplaced := ih hts
    refine .mk ⟨⟨h.isPlaced_wrap hts hne k hplaced, ?_⟩, ?_, hcall⟩ hplaced
    · exact fun c hc => hts.contains_span h.linesUp hne hc
    · intro c hc _
      have hspan : (Node.wrap k xs).span = c.span.cover (xs.getLast hne).span :=
        Node.span_wrap hc (List.getLast?_eq_some_getLast hne)
      exact (congrArg Span.startByte hspan).symm
  | @solid k xs ts h hne _ ih =>
    intro x hx
    rw [List.mem_singleton.1 hx]
    exact .mk ⟨⟨h.isPlaced_wrap hts hne k (ih hts), nofun⟩, nofun, fun _ => nofun⟩ nofun

end Spells

/-! ### Comments -/

/-- Comments in the order of the text; none of them lies across a place of a token. -/
structure AreComments (P Q : Nat → Prop) (cs : List Node) : Prop where
  kind : ∀ c ∈ cs, c.kind = .comment
  placed : ∀ c ∈ cs, c.Placed Q
  apart : ∀ c ∈ cs, ∀ b, P b → b ≤ c.span.startByte ∨ c.span.endByte ≤ b
  sorted : cs.Pairwise fun c d => c.span.startByte ≤ d.span.startByte

/-- Some of the comments are comments in order too. -/
theorem AreComments.of_sublist {P Q : Nat → Prop} {cs ds : List Node} (h : AreComments P Q cs)
    (hsub : ds.Sublist cs) : AreComments P Q ds where
  kind c hc := h.kind c (hsub.subset hc)
  placed c hc := h.placed c (hsub.subset hc)
  apart c hc := h.apart c (hsub.subset hc)
  sorted := h.sorted.sublist hsub

/-- A comment that starts within a span ends within it, if the end is a place of a token. -/
theorem AreComments.contains {P Q : Nat → Prop} {cs : List Node} (h : AreComments P Q cs)
    {s : Span} (hs : P s.endByte) {c : Node} (hc : c ∈ cs)
    (hstart : s.startByte ≤ c.span.startByte) (hlt : c.span.startByte < s.endByte) :
    s.contains c.span = true := by
  have hordered := (h.placed c hc).self.ordered
  have hapart := h.apart c hc s.endByte hs
  exact Span.contains_iff.2 ⟨hstart, by omega⟩

namespace Node

variable {P Q : Nat → Prop} {n x : Node} {cs ns : List Node}

/-- Comments do not change the kind of a node. -/
theorem kind_withComments (cs : List Node) (n : Node) : (n.withComments cs).kind = n.kind := by
  cases n
  rw [withComments]
  rfl

/-- They are put among its children. -/
theorem children_withComments (cs : List Node) (n : Node) :
    (n.withComments cs).children = place cs n.children := by
  cases n
  rw [withComments]
  rfl

/-- They do not change where it stands. -/
theorem span_withComments (cs : List Node) (n : Node) : (n.withComments cs).span = n.span := by
  cases n
  rw [withComments]
  rfl

/-- Comments in order are cut at a byte into those that start before it and the others. -/
theorem exists_cut (h : cs.Pairwise fun c d => c.span.startByte ≤ d.span.startByte) (b : Nat) :
    ∃ before rest, cs = before ++ rest ∧
      (cs.takeWhile fun c => c.span.startByte < b) = before ∧ cs.drop before.length = rest ∧
        (∀ c ∈ before, c.span.startByte < b) ∧ ∀ c ∈ rest, b ≤ c.span.startByte := by
  induction cs with
  | nil => exact ⟨[], [], rfl, rfl, rfl, nofun, nofun⟩
  | cons c cs ih =>
    obtain ⟨hnext, hrest⟩ := List.pairwise_cons.1 h
    by_cases hlt : c.span.startByte < b
    · obtain ⟨before, rest, hsplit, htake, hdrop, hbefore, hge⟩ := ih hrest
      refine ⟨c :: before, rest, by rw [hsplit]; rfl, by simp [hlt, htake], hdrop, ?_, hge⟩
      intro d hd
      rcases List.mem_cons.1 hd with rfl | hd
      · exact hlt
      · exact hbefore d hd
    · refine ⟨[], c :: cs, rfl, by simp [hlt], rfl, nofun, ?_⟩
      intro d hd
      rcases List.mem_cons.1 hd with rfl | hd
      · omega
      · have hle := hnext d hd
        omega

/-- Around a node comments are put before it, into it and behind it, by where they start. -/
theorem exists_place_cons (h : cs.Pairwise fun c d => c.span.startByte ≤ d.span.startByte)
    (n : Node) (ns : List Node) : ∃ before inside rest, cs = before ++ (inside ++ rest) ∧
      place cs (n :: ns) = before ++ n.withComments inside :: place rest ns ∧
        (∀ c ∈ before, c.span.startByte < n.span.startByte) ∧
          ∀ c ∈ inside, n.span.startByte ≤ c.span.startByte ∧
            c.span.startByte < n.span.endByte := by
  obtain ⟨before, behind, hcs, htake, hdrop, hbefore, hge⟩ := exists_cut h n.span.startByte
  have hsorted := h.sublist (hcs ▸ List.sublist_append_right before behind)
  obtain ⟨inside, rest, hbehind, htake', hdrop', hinside, -⟩ := exists_cut hsorted n.span.endByte
  refine ⟨before, inside, rest, hbehind ▸ hcs, ?_, hbefore, ?_⟩
  · rw [place]
    simp only [htake, hdrop, htake', hdrop']
  · intro c hc
    exact ⟨hge c (hbehind ▸ List.mem_append_left rest hc), hinside c hc⟩

/-- A comment that is put among nodes stands between them, or within one of them. -/
theorem mem_place (h : cs.Pairwise fun c d => c.span.startByte ≤ d.span.startByte)
    (hx : x ∈ place cs ns) : x ∈ cs ∨ ∃ n ∈ ns, ∃ inside, inside.Sublist cs ∧
      (∀ c ∈ inside, n.span.startByte ≤ c.span.startByte ∧ c.span.startByte < n.span.endByte) ∧
        x = n.withComments inside := by
  induction ns generalizing cs with
  | nil =>
    rw [place] at hx
    exact Or.inl hx
  | cons n ns ih =>
    obtain ⟨before, inside, rest, rfl, hplace, -, hinside⟩ := exists_place_cons h n ns
    have hrest : rest.Sublist (before ++ (inside ++ rest)) := by simp
    rw [hplace] at hx
    rcases List.mem_append.1 hx with hx | hx
    · exact Or.inl (List.mem_append_left _ hx)
    · rcases List.mem_cons.1 hx with rfl | hx
      · exact Or.inr ⟨n, List.mem_cons_self, inside, by simp, hinside, rfl⟩
      · rcases ih (h.sublist hrest) hx with hx | ⟨m, hm, inside', hsub, hstart, rfl⟩
        · exact Or.inl (hrest.subset hx)
        · exact Or.inr ⟨m, List.mem_cons_of_mem n hm, inside', hsub.trans hrest, hstart, rfl⟩

/-- A node among which comments are put is a comment, or of the kind of a node that was
there. -/
theorem kind_of_mem_place (h : AreComments P Q cs) (hx : x ∈ place cs ns) :
    x.kind = .comment ∨ ∃ n ∈ ns, x.kind = n.kind := by
  rcases mem_place h.sorted hx with hx | ⟨n, hn, inside, -, -, rfl⟩
  · exact Or.inl (h.kind x hx)
  · exact Or.inr ⟨n, hn, kind_withComments inside n⟩

/-- If no comment comes first, the first node does. -/
theorem mem_head?_place (h : AreComments P Q cs) (hx : x ∈ (place cs ns).head?)
    (hkind : x.kind ≠ .comment) : ∃ n ∈ ns.head?, x.kind = n.kind ∧ x.span = n.span := by
  cases ns with
  | nil =>
    rw [place] at hx
    exact absurd (h.kind x (List.mem_of_mem_head? hx)) hkind
  | cons n ns =>
    obtain ⟨before, inside, rest, hcs, hplace, -, -⟩ := exists_place_cons h.sorted n ns
    rw [hplace] at hx
    cases before with
    | nil =>
      obtain rfl := Option.some.inj hx
      exact ⟨n, rfl, kind_withComments inside n, span_withComments inside n⟩
    | cons c before =>
      obtain rfl := Option.some.inj hx
      exact absurd (h.kind c (hcs ▸ List.mem_cons_self)) hkind

/-- A later node that is no comment was a later one before, or it was the first one and a
comment starts before it. -/
theorem mem_tail_place (h : AreComments P Q cs) (hx : x ∈ (place cs ns).tail)
    (hkind : x.kind ≠ .comment) : (∃ n ∈ ns.tail, x.kind = n.kind) ∨
      ∃ n ∈ ns.head?, x.kind = n.kind ∧ ∃ c ∈ cs, c.span.startByte < n.span.startByte := by
  have hcomment : x ∉ cs := fun hmem => hkind (h.kind x hmem)
  cases ns with
  | nil =>
    rw [place] at hx
    exact absurd (List.mem_of_mem_tail hx) hcomment
  | cons n ns =>
    obtain ⟨before, inside, rest, hcs, hplace, hbefore, -⟩ := exists_place_cons h.sorted n ns
    have hrest : rest.Sublist cs := by
      rw [hcs]
      simp
    have hnext (hmem : x ∈ place rest ns) : ∃ m ∈ ns, x.kind = m.kind :=
      (kind_of_mem_place (h.of_sublist hrest) hmem).resolve_left hkind
    rw [hplace] at hx
    cases before with
    | nil => exact Or.inl (hnext hx)
    | cons c before =>
      have hc : c ∈ cs := hcs ▸ List.mem_cons_self
      rcases List.mem_append.1 hx with hx | hx
      · exact absurd (hcs ▸ List.mem_append_left _ (List.mem_cons_of_mem c hx)) hcomment
      · rcases List.mem_cons.1 hx with rfl | hx
        · exact Or.inr ⟨n, rfl, kind_withComments inside n, c, hc, hbefore c List.mem_cons_self⟩
        · exact Or.inl (hnext hx)

/-- **A node keeps its place when comments are put into it**, if they start within it. -/
theorem Placed.withComments (hn : n.Placed P) (hPQ : ∀ b, P b → Q b) (h : AreComments P Q cs)
    (hin : ∀ c ∈ cs, n.span.startByte ≤ c.span.startByte ∧ c.span.startByte < n.span.endByte) :
    (n.withComments cs).Placed Q := by
  induction hn generalizing cs with
  | @mk k s kids here below ih =>
    rw [Node.withComments]
    refine .mk ⟨⟨here.toIsPlaced.imp hPQ, ?within⟩, ?first, ?called⟩ ?below
    case within =>
      intro x hx
      rcases mem_place h.sorted hx with hx | ⟨n, hn, inside, -, -, rfl⟩
      · obtain ⟨hstart, hlt⟩ := hin x hx
        exact h.contains here.stop hx hstart hlt
      · rw [span_withComments]
        exact here.within n hn
    case first =>
      intro x hx hkind
      obtain ⟨n, hn, hsame, hspan⟩ := mem_head?_place h hx hkind
      rw [hspan]
      exact here.first n hn (hsame ▸ hkind)
    case called =>
      intro hcall x hx haccess
      rcases mem_tail_place h hx (by simp [haccess]) with
        ⟨n, hn, hsame⟩ | ⟨n, hn, hsame, c, hc, hbefore⟩
      · exact here.called hcall n hn (hsame ▸ haccess)
      · -- A comment before what is called would start before the call.
        have hstart : n.span.startByte = s.startByte :=
          here.first n hn (by simp [← hsame, haccess])
        have hwithin : s.startByte ≤ c.span.startByte := (hin c hc).1
        omega
    case below =>
      intro x hx
      rcases mem_place h.sorted hx with hx | ⟨n, hn, inside, hinside, hstart, rfl⟩
      · exact h.placed x hx
      · exact ih n hn (h.of_sublist hinside) hstart

end Node

/-! ### Trees of texts -/

/-- One of the tokens ends before the other starts. -/
def Token.IsApart (t u : Token) : Prop :=
  t.span.endByte ≤ u.span.startByte ∨ u.span.endByte ≤ t.span.startByte

instance : Std.Symm Token.IsApart := ⟨fun _ _ => Or.symm⟩

namespace SyntaxTree

variable {text : String}

/-- A token that the grammar reads starts or stops at the byte. -/
def IsTokenPlace (text : String) (b : Nat) : Prop :=
  ∃ t ∈ (Lexer.tokens text).1, t.isTrivia = false ∧ (b = t.span.startByte ∨ b = t.span.endByte)

/-- A place of a token is a place of the text. -/
theorem isTextPlace_of_isTokenPlace {b : Nat} (h : IsTokenPlace text b) : IsTextPlace text b := by
  obtain ⟨t, ht, -, rfl | rfl⟩ := h
  · exact (Lexer.fitsIn_of_mem_tokens ht).start
  · exact (Lexer.fitsIn_of_mem_tokens ht).stop

/-- The tokens that the grammar reads are in order. -/
theorem inOrder_solid (text : String) :
    InOrder (IsTokenPlace text) ((Lexer.tokens text).1.filter fun t => !t.isTrivia) where
  pairwise := (Lexer.pairwise_tokens text).sublist List.filter_sublist
  start t ht := by
    obtain ⟨hmem, hsolid⟩ := List.mem_filter.1 ht
    exact ⟨t, hmem, by simpa using hsolid, Or.inl rfl⟩
  stop t ht := by
    obtain ⟨hmem, hsolid⟩ := List.mem_filter.1 ht
    exact ⟨t, hmem, by simpa using hsolid, Or.inr rfl⟩
  ordered t ht := (Lexer.fitsIn_of_mem_tokens (List.mem_filter.1 ht).1).ordered

/-- Of two different tokens one ends before the other starts. -/
theorem isApart_of_ne {t u : Token} (ht : t ∈ (Lexer.tokens text).1)
    (hu : u ∈ (Lexer.tokens text).1) (hne : t ≠ u) : t.IsApart u := by
  have hapart : (Lexer.tokens text).1.Pairwise Token.IsApart :=
    (Lexer.pairwise_tokens text).imp Or.inl
  exact hapart.forall ht hu hne

/-- The comments of a text are in order, and none of them lies across a token. -/
theorem areComments (text : String) : AreComments (IsTokenPlace text) (IsTextPlace text)
    (((Lexer.tokens text).1.filter (·.kind == .comment)).map (Rule.leaf .comment)) := by
  have hmem {c : Node} (hc : c ∈ ((Lexer.tokens text).1.filter (·.kind == .comment)).map
      (Rule.leaf .comment)) : ∃ u ∈ (Lexer.tokens text).1, u.kind = .comment ∧
        Rule.leaf .comment u = c := by
    obtain ⟨u, hu, rfl⟩ := List.mem_map.1 hc
    obtain ⟨hu, hkind⟩ := List.mem_filter.1 hu
    exact ⟨u, hu, beq_iff_eq.1 hkind, rfl⟩
  constructor
  · intro c hc
    obtain ⟨u, -, -, rfl⟩ := hmem hc
    rfl
  · intro c hc
    obtain ⟨u, hu, -, rfl⟩ := hmem hc
    exact .mk ⟨⟨Lexer.fitsIn_of_mem_tokens hu, nofun⟩, nofun, fun _ => nofun⟩ nofun
  · intro c hc b hb
    obtain ⟨u, hu, hkind, rfl⟩ := hmem hc
    obtain ⟨t, ht, hsolid, hplace⟩ := hb
    have hne : t ≠ u := by
      rintro rfl
      simp [Token.isTrivia, hkind] at hsolid
    have hordered := (Lexer.fitsIn_of_mem_tokens ht).ordered
    have hspan : (Rule.leaf .comment u).span = u.span := rfl
    rw [hspan]
    rcases isApart_of_ne ht hu hne with hapart | hapart <;> rcases hplace with rfl | rfl <;> omega
  · rw [List.pairwise_map]
    refine ((Lexer.pairwise_tokens text).sublist List.filter_sublist).imp_of_mem ?_
    intro t u ht _ hle
    have hordered := (Lexer.fitsIn_of_mem_tokens (List.mem_filter.1 ht).1).ordered
    exact Nat.le_trans hordered hle

/-- The tree of a text has the comments among the items that were read. -/
theorem exists_root_eq (text : String) : ∃ items used rest,
    (Lexer.tokens text).1.filter (fun t => !t.isTrivia) = used ++ rest ∧ Spells items used ∧
      (read text).root = (Node.wrap .compilationUnit items).withComments
        (((Lexer.tokens text).1.filter (·.kind == .comment)).map (Rule.leaf .comment)) := by
  rw [read]
  simp only
  split
  · next items rest hitems =>
    obtain ⟨used, hsolid, hspells⟩ := Grammar.spells_items hitems
    exact ⟨items, used, rest, hsolid, hspells, rfl⟩
  · exact ⟨[], [], _, rfl, .nil, rfl⟩

/-- A text is read as a compilation unit. -/
theorem kind_root (text : String) : (read text).root.kind = .compilationUnit := by
  obtain ⟨items, used, rest, -, -, hroot⟩ := exists_root_eq text
  rw [hroot, Node.kind_withComments, Node.kind_wrap]

/-- **The nodes of a text lie between its characters**, and each within its parent. -/
theorem placed_of_mem_children {x : Node} (hx : x ∈ (read text).root.children) :
    x.Placed (IsTextPlace text) := by
  obtain ⟨items, used, rest, hsolid, hspells, hroot⟩ := exists_root_eq text
  have hcomments := areComments text
  rw [hroot, Node.children_withComments, Node.children_wrap] at hx
  rcases Node.mem_place hcomments.sorted hx with hx | ⟨n, hn, inside, hinside, hstart, rfl⟩
  · exact hcomments.placed x hx
  · have horder : InOrder (IsTokenPlace text) used :=
      (inOrder_solid text).of_sublist (hsolid ▸ List.sublist_append_left used rest)
    exact (hspells.placed horder n hn).withComments (fun _ => isTextPlace_of_isTokenPlace)
      (hcomments.of_sublist hinside) hstart

/-- **The tree that the grammar makes of a text is what edits rely on.** -/
theorem read_placed (text : String) : (read text).Throughout (Node.Fits (IsTextPlace text)) where
  not_call := by simp [kind_root]
  not_statement := by simp [kind_root]
  nodes := fun _ => placed_of_mem_children

/-- So its nodes lie in the text. -/
theorem read_fitsIn (text : String) : (read text).FitsIn text := by
  have hle (b : Nat) (hb : IsTextPlace text b) : b ≤ text.utf8ByteSize := by
    rw [← Pieces.byteLength_toList]
    exact Edit.le_of_isBoundary hb
  exact (read_placed text).imp fun _ h => ⟨⟨h.toIsPlaced.imp hle, h.within⟩, h.toLeads⟩

end SyntaxTree

/-- The grammar is a reader whose nodes lie in the texts. -/
theorem Grammar.liesInTexts : Grammar.reader.LiesInTexts := fun text =>
  (SyntaxTree.read_placed text).imp fun _ h => h.toLies

end CSharp
end MappingAudit
