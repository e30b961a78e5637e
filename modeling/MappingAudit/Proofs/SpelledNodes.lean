/-
# The tokens under a tree

A rule takes tokens from the front of a list and makes nodes over them.  `Spells` says
that nodes stand over tokens: read from left to right, the leaves of the nodes are these
tokens, none is left out, and a node spans what its children span.  Every rule of the
grammar keeps to that (`Reads`), and the rules for single constructs read at least one
node (`ReadsSome`).  Rules that continue nodes read before, such as postfix forms, put
nodes over the old tokens and the new ones (`Continues`).

Rules are put together from a few combinators.  Each combinator passes these properties
on, so that they hold of a rule of the grammar because of the shape of its definition.
-/

import MappingAudit.CSharp.Declarations
import Mathlib.Logic.Basic

namespace MappingAudit
namespace CSharp

/-- A node is of the kind that it was built as. -/
theorem Node.kind_wrap (k : Kind) (cs : List Node) : (Node.wrap k cs).kind = k := by
  rw [wrap]
  split <;> rfl

/-- The nodes stand over the tokens, and identifiers over single tokens that may name
something.  Among the children of a call a member access comes first or not at all: it is
what is called. -/
inductive Spells : List Node → List Token → Prop where
  | nil : Spells [] []
  | leaf {k : Kind} {t : Token} (hname : k = .identifier → t.isIdentifier = true) :
      Spells [Rule.leaf k t] [t]
  | append {xs ys : List Node} {ts us : List Token} (hx : Spells xs ts) (hy : Spells ys us) :
      Spells (xs ++ ys) (ts ++ us)
  | node {k : Kind} {xs : List Node} {ts : List Token} (h : Spells xs ts) (hne : xs ≠ [])
      (hname : k ≠ .identifier)
      (hcall : k = .invocation → ∀ x ∈ xs.tail, x.kind ≠ .memberAccess) :
      Spells [.wrap k xs] ts
  | solid {k : Kind} {xs : List Node} {ts : List Token} (h : Spells xs ts) (hne : xs ≠ [])
      (hname : k ≠ .identifier) : Spells [.mk k (Node.wrap k xs).span []] ts

namespace Spells

variable {xs : List Node} {ts : List Token}

/-- There are nodes where there are tokens, and only there. -/
theorem nil_iff (h : Spells xs ts) : xs = [] ↔ ts = [] := by
  induction h with
  | nil => simp
  | leaf _ => simp
  | append _ _ ihx ihy => rw [List.append_eq_nil_iff, List.append_eq_nil_iff, ihx, ihy]
  | node _ hne _ _ ih => simp [← ih, hne]
  | solid _ hne _ ih => simp [← ih, hne]

end Spells

/-- The condition holds by computation. -/
class Holds (b : Bool) : Prop where
  eq_true : b = true

instance holds_true : Holds true := ⟨rfl⟩

/-- Nodes of the kind are neither calls nor identifiers. -/
abbrev Kind.isPlain : Kind → Bool
  | .invocation | .identifier => false
  | _ => true

/-- A plain kind is not that of calls. -/
theorem Kind.ne_invocation (k : Kind) [h : Holds k.isPlain] : k ≠ .invocation := by
  rintro rfl
  cases h.eq_true

/-- A plain kind is not that of identifiers. -/
theorem Kind.ne_identifier (k : Kind) [h : Holds k.isPlain] : k ≠ .identifier := by
  rintro rfl
  cases h.eq_true

/-- The rule makes nodes over the tokens that it takes from the front. -/
class Reads (r : Rule) : Prop where
  spells {ts rest : List Token} {xs : List Node} (h : r ts = some (xs, rest)) :
    ∃ used, ts = used ++ rest ∧ Spells xs used

/-- The rule makes nodes, and at least one. -/
class ReadsSome (r : Rule) : Prop extends Reads r where
  ne_nil {ts rest : List Token} {xs : List Node} (h : r ts = some (xs, rest)) : xs ≠ []

/-- What is known of every outcome of a rule is known of the rule. -/
theorem readsSome_of {r : Rule} (h : ∀ ts rest xs, r ts = some (xs, rest) →
    xs ≠ [] ∧ ∃ used, ts = used ++ rest ∧ Spells xs used) : ReadsSome r where
  spells hr := (h _ _ _ hr).2
  ne_nil hr := (h _ _ _ hr).1

/-- The rule makes nodes over the tokens under `xs` and those that it takes. -/
class Continues (xs : List Node) (r : Rule) : Prop where
  spells {before ts rest : List Token} {ys : List Node} (hxs : Spells xs before)
    (h : r ts = some (ys, rest)) : ∃ used, ts = used ++ rest ∧ Spells ys (before ++ used)

namespace Rule

variable {a b r separator : Rule} {rs : List Rule} {k : Kind} {xs ys : List Node}

/-! ### Single tokens -/

/-- A token that is read as a name has to be one. -/
theorem readsSome_token_of {p : Token → Bool}
    (hname : k = .identifier → ∀ t, p t = true → t.isIdentifier = true) :
    ReadsSome (token k p) := by
  refine readsSome_of fun ts rest xs h => ?_
  cases ts with
  | nil => cases h
  | cons t ts =>
    rw [token] at h
    split at h
    · next hp =>
      obtain ⟨rfl, rfl⟩ := Prod.mk.inj (Option.some.inj h)
      exact ⟨List.cons_ne_nil _ _, [t], rfl, .leaf fun hk => hname hk t hp⟩
    · cases h

instance readsSome_token (k : Kind) (p : Token → Bool) [Holds k.isPlain] :
    ReadsSome (token k p) :=
  readsSome_token_of fun hk => absurd hk k.ne_identifier

instance readsSome_mark (m : String) : ReadsSome (mark m) := readsSome_token _ _

instance readsSome_word (w : String) : ReadsSome (word w) := readsSome_token _ _

instance readsSome_markOf (ms : List String) : ReadsSome (markOf ms) := readsSome_token _ _

instance readsSome_wordOf (ws : List String) : ReadsSome (wordOf ws) := readsSome_token _ _

instance readsSome_identifier : ReadsSome identifier := readsSome_token_of fun _ _ ht => ht

instance readsSome_modifier : ReadsSome modifier := readsSome_token _ _

instance readsSome_adjacent (m n : String) : ReadsSome (adjacent m n) := by
  refine readsSome_of fun ts rest xs h => ?_
  rw [adjacent.eq_def] at h
  split at h
  · next s t ts =>
    split at h
    · obtain ⟨rfl, rfl⟩ := Prod.mk.inj (Option.some.inj h)
      have hleaf (t : Token) : Spells [leaf .mark t] [t] := .leaf nofun
      exact ⟨List.cons_ne_nil _ _, [s, t], rfl, .append (hleaf s) (hleaf t)⟩
    · cases h
  · cases h

/-! ### Rules that read nothing -/

instance reads_empty : Reads empty where
  spells h := by
    obtain ⟨rfl, rfl⟩ := Prod.mk.inj (Option.some.inj h)
    exact ⟨[], rfl, .nil⟩

instance readsSome_never : ReadsSome never where
  spells h := nomatch h
  ne_nil h := nomatch h

instance reads_ahead (r : Rule) : Reads (ahead r) where
  spells h := by
    obtain ⟨_, -, hpair⟩ := Option.map_eq_some_iff.1 h
    obtain ⟨rfl, rfl⟩ := Prod.mk.inj hpair
    exact ⟨[], rfl, .nil⟩

instance reads_notAhead (r : Rule) : Reads (notAhead r) where
  spells h := by
    rw [notAhead] at h
    split at h
    · cases h
    · obtain ⟨rfl, rfl⟩ := Prod.mk.inj (Option.some.inj h)
      exact ⟨[], rfl, .nil⟩

/-! ### Sequences -/

/-- Two rules in sequence have both read something. -/
theorem andThen_eq_some {ts rest : List Token} {zs : List Node}
    (h : andThen a b ts = some (zs, rest)) : ∃ xs ys between,
      a ts = some (xs, between) ∧ b between = some (ys, rest) ∧ xs ++ ys = zs := by
  obtain ⟨⟨xs, between⟩, ha, h⟩ := Option.bind_eq_some_iff.1 h
  obtain ⟨⟨ys, rest'⟩, hb, h⟩ := Option.bind_eq_some_iff.1 h
  obtain ⟨rfl, rfl⟩ := Prod.mk.inj (Option.some.inj h)
  exact ⟨xs, ys, between, ha, hb, rfl⟩

/-- What follows nodes goes on after their tokens. -/
instance continues_andThen [ha : Continues xs a] [hb : Reads b] : Continues xs (andThen a b) where
  spells hxs h := by
    obtain ⟨ys, zs, between, hya, hzb, rfl⟩ := andThen_eq_some h
    obtain ⟨used, rfl, hys⟩ := ha.spells hxs hya
    obtain ⟨used', rfl, hzs⟩ := hb.spells hzb
    refine ⟨used ++ used', (List.append_assoc ..).symm, ?_⟩
    rw [← List.append_assoc]
    exact .append hys hzs

instance reads_andThen [ha : Reads a] [hb : Reads b] : Reads (andThen a b) where
  spells h := by
    obtain ⟨xs, ys, between, hxa, hyb, rfl⟩ := andThen_eq_some h
    obtain ⟨used, rfl, hxs⟩ := ha.spells hxa
    obtain ⟨used', rfl, hys⟩ := hb.spells hyb
    exact ⟨used ++ used', (List.append_assoc ..).symm, .append hxs hys⟩

/-- Two parts read some tokens when the first one does. -/
theorem readsSome_andThen_left [ha : ReadsSome a] [hb : Reads b] : ReadsSome (andThen a b) where
  ne_nil h := by
    obtain ⟨xs, ys, between, hxa, -, rfl⟩ := andThen_eq_some h
    exact List.append_ne_nil_of_left_ne_nil (ha.ne_nil hxa) ys

/-- They do so too when the second one does. -/
theorem readsSome_andThen_right [ha : Reads a] [hb : ReadsSome b] : ReadsSome (andThen a b) where
  ne_nil h := by
    obtain ⟨xs, ys, between, -, hyb, rfl⟩ := andThen_eq_some h
    exact List.append_ne_nil_of_right_ne_nil xs (hb.ne_nil hyb)

instance reads_seq_nil : Reads (seq []) := reads_empty

instance (priority := high) reads_seq_cons [Reads r] [Reads (seq rs)] : Reads (seq (r :: rs)) :=
  reads_andThen (b := seq rs)

/-- One of the rules in sequence reads something. -/
instance readsSome_seq_tail [Reads r] [ReadsSome (seq rs)] : ReadsSome (seq (r :: rs)) :=
  readsSome_andThen_right (b := seq rs)

instance readsSome_seq_head [ReadsSome r] [Reads (seq rs)] : ReadsSome (seq (r :: rs)) :=
  readsSome_andThen_left (b := seq rs)

/-! ### Alternatives -/

instance readsSome_alt_nil : ReadsSome (alt []) := readsSome_never

/-- One of the alternatives has fitted. -/
theorem alt_cons_eq_some {ts rest : List Token} (h : alt (r :: rs) ts = some (xs, rest)) :
    r ts = some (xs, rest) ∨ alt rs ts = some (xs, rest) := by
  rw [alt, List.findSome?_cons] at h
  split at h
  · next hr =>
    obtain rfl := Option.some.inj h
    exact Or.inl hr
  · exact Or.inr h

instance (priority := high) reads_alt_cons [hr : Reads r] [hrs : Reads (alt rs)] :
    Reads (alt (r :: rs)) where
  spells h := (alt_cons_eq_some h).elim hr.spells hrs.spells

instance readsSome_alt_cons [hr : ReadsSome r] [hrs : ReadsSome (alt rs)] :
    ReadsSome (alt (r :: rs)) where
  ne_nil h := (alt_cons_eq_some h).elim hr.ne_nil hrs.ne_nil

instance continues_alt_nil : Continues xs (alt []) where
  spells _ h := nomatch h

instance continues_alt_cons [hr : Continues xs r] [hrs : Continues xs (alt rs)] :
    Continues xs (alt (r :: rs)) where
  spells hxs h := (alt_cons_eq_some h).elim (hr.spells hxs) (hrs.spells hxs)

instance reads_opt [Reads r] : Reads (opt r) := inferInstanceAs (Reads (alt [r, empty]))

instance readsSome_ite {p : Prop} [Decidable p] [ha : ReadsSome a] [hb : ReadsSome b] :
    ReadsSome (if p then a else b) := by
  split
  · exact ha
  · exact hb

/-! ### Repetitions -/

instance reads_many [hr : Reads r] : Reads (many r) where
  spells {ts rest xs} h := by
    induction ts using many.induct r generalizing xs rest with
    | case1 ts hnone =>
      rw [many, hnone] at h
      obtain ⟨rfl, rfl⟩ := Prod.mk.inj (Option.some.inj h)
      exact ⟨[], rfl, .nil⟩
    | case2 ts ys between hsome hlt ih =>
      rw [many, hsome] at h
      simp only [if_pos hlt] at h
      obtain ⟨⟨zs, rest'⟩, hmany, h⟩ := Option.bind_eq_some_iff.1 h
      obtain ⟨rfl, rfl⟩ := Prod.mk.inj (Option.some.inj h)
      obtain ⟨used, rfl, hys⟩ := hr.spells hsome
      obtain ⟨used', rfl, hzs⟩ := ih hmany
      exact ⟨used ++ used', (List.append_assoc ..).symm, .append hys hzs⟩
    | case3 ts ys between hsome hlt =>
      rw [many, hsome] at h
      simp only [if_neg hlt] at h
      obtain ⟨rfl, rfl⟩ := Prod.mk.inj (Option.some.inj h)
      exact ⟨[], rfl, .nil⟩

instance readsSome_many1 [ReadsSome r] : ReadsSome (many1 r) := readsSome_andThen_left

instance readsSome_sepBy1 [Reads separator] [ReadsSome r] : ReadsSome (sepBy1 separator r) :=
  readsSome_andThen_left

instance reads_sepBy [Reads separator] [ReadsSome r] : Reads (sepBy separator r) := reads_opt

/-! ### Nodes -/

/-- The nodes of a rule are put under one node. -/
theorem node_eq_some {ts rest : List Token} {f : List Node → List Node}
    (h : (r ts).bind (fun p => some (f p.1, p.2)) = some (ys, rest)) :
    ∃ xs, r ts = some (xs, rest) ∧ f xs = ys := by
  obtain ⟨⟨xs, rest'⟩, hr, h⟩ := Option.bind_eq_some_iff.1 h
  obtain ⟨rfl, rfl⟩ := Prod.mk.inj (Option.some.inj h)
  exact ⟨xs, hr, rfl⟩

instance readsSome_node [hr : ReadsSome r] [Holds k.isPlain] : ReadsSome (node k r) := by
  refine readsSome_of fun ts rest ys h => ?_
  obtain ⟨xs, hxs, rfl⟩ := node_eq_some (f := fun xs => [.wrap k xs]) h
  obtain ⟨used, hts, hspells⟩ := hr.spells hxs
  refine ⟨List.cons_ne_nil _ _, used, hts, .node hspells (hr.ne_nil hxs) k.ne_identifier ?_⟩
  exact fun hk => absurd hk k.ne_invocation

instance readsSome_solid [hr : ReadsSome r] [Holds k.isPlain] : ReadsSome (solid k r) := by
  refine readsSome_of fun ts rest ys h => ?_
  obtain ⟨xs, hxs, rfl⟩ := node_eq_some (f := fun xs => [.mk k (Node.wrap k xs).span []]) h
  obtain ⟨used, hts, hspells⟩ := hr.spells hxs
  exact ⟨List.cons_ne_nil _ _, used, hts, .solid hspells (hr.ne_nil hxs) k.ne_identifier⟩

/-! ### Rules that continue nodes -/

/-- Nodes and those that a rule reads after them are put under one node. -/
theorem spells_wrap {before ts rest : List Token} [hr : Reads r] (hxs : Spells xs before)
    (h : r ts = some (ys, rest)) (hne : xs ++ ys ≠ []) (hname : k ≠ .identifier)
    (hcall : k = .invocation → ∀ x ∈ (xs ++ ys).tail, x.kind ≠ .memberAccess) :
    ∃ used, ts = used ++ rest ∧ Spells [.wrap k (xs ++ ys)] (before ++ used) := by
  obtain ⟨used, rfl, hys⟩ := hr.spells h
  exact ⟨used, rfl, .node (.append hxs hys) hne hname hcall⟩

instance continues_wrap {n : Node} [Reads r] [Holds k.isPlain] : Continues [n] (wrap k n r) where
  spells hn h := by
    obtain ⟨ys, hys, rfl⟩ := node_eq_some (f := fun ys => [.wrap k (n :: ys)]) h
    exact spells_wrap hn hys (List.cons_ne_nil _ _) k.ne_identifier
      fun hk => absurd hk k.ne_invocation

/-- Steps that continue nodes may be repeated. -/
instance continues_extend {step : List Node → Rule} [hstep : ∀ xs, Continues xs (step xs)] :
    Continues xs (extend step xs) where
  spells {before ts rest ys} hxs h := by
    induction xs, ts using extend.induct step generalizing before ys rest with
    | case1 xs ts zs between hsome hlt ih =>
      rw [extend, hsome] at h
      simp only [if_pos hlt] at h
      obtain ⟨used, rfl, hzs⟩ := (hstep xs).spells hxs hsome
      obtain ⟨used', rfl, hys⟩ := ih hzs h
      exact ⟨used ++ used', (List.append_assoc ..).symm, List.append_assoc before .. ▸ hys⟩
    | case2 xs ts zs between hsome hlt =>
      rw [extend, hsome] at h
      simp only [if_neg hlt] at h
      obtain ⟨rfl, rfl⟩ := Prod.mk.inj (Option.some.inj h)
      exact ⟨[], rfl, (List.append_nil before).symm ▸ hxs⟩
    | case3 xs ts hnone =>
      rw [extend, hnone] at h
      obtain ⟨rfl, rfl⟩ := Prod.mk.inj (Option.some.inj h)
      exact ⟨[], rfl, (List.append_nil before).symm ▸ hxs⟩

instance continues_suffixes {suffix : Node → Rule} [hsuffix : ∀ n, Continues [n] (suffix n)] :
    Continues xs (suffixes suffix xs) := by
  have (xs : List Node) : Continues xs (match xs with | [n] => suffix n | _ => never) := by
    split
    · next n => exact hsuffix n
    · exact ⟨fun _ h => nomatch h⟩
  exact continues_extend

/-- Nodes that are read and then continued are read. -/
theorem readsSome_continued [ha : ReadsSome a] {f : List Node → Rule}
    (hf : ∀ xs, Continues xs (f xs)) : ReadsSome fun ts => (a ts).bind fun p => f p.1 p.2 := by
  refine readsSome_of fun ts rest ys h => ?_
  obtain ⟨⟨xs, between⟩, hxs, hys⟩ := Option.bind_eq_some_iff.1 h
  obtain ⟨used, rfl, hspells⟩ := ha.spells hxs
  obtain ⟨used', rfl, hspells'⟩ := (hf xs).spells hspells hys
  have hne : used ++ used' ≠ [] :=
    List.append_ne_nil_of_left_ne_nil (hspells.nil_iff.not.1 (ha.ne_nil hxs)) used'
  exact ⟨hspells'.nil_iff.not.2 hne, used ++ used', (List.append_assoc ..).symm, hspells'⟩

instance readsSome_withSuffixes {suffix : Node → Rule} [ReadsSome a]
    [∀ n, Continues [n] (suffix n)] : ReadsSome (withSuffixes a suffix) :=
  readsSome_continued fun _ => continues_suffixes

end Rule
end CSharp
end MappingAudit
