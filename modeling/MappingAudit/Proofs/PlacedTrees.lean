/-
# What is expected of a reader

A reader is free to make of a text what it likes.  Edits of a chain rely on two things about
its trees, which are said of each node with its children.  A node starts and stops at places
of the text, and its children lie within it (`Node.Lies`).  What a call or an access is made on
comes first: the first child of a node starts with it, and only as the first child of a call
is a member access what is called (`Node.Leads`).

For the calls of a chain to lie side by side any byte up to the end of the text may be such a
place (`SyntaxTree.FitsIn`).  For edits to fit, the places have to lie between characters
(`SyntaxTree.LiesIn`).

The root of a tree is left out.  It stands for the whole file, which may have more in it than
the items that were read; all that matters is that it is no call and no statement.
-/

import MappingAudit.CSharp.Reader
import MappingAudit.Proofs.TextPlaces

namespace MappingAudit
namespace CSharp

/-! ### Nodes below a node -/

namespace Node

variable {p q : Node → Prop} {n m : Node}

/-- What holds of a node and of all nodes below it. -/
inductive Everywhere (p : Node → Prop) : Node → Prop where
  | mk {k : Kind} {s : Span} {cs : List Node} (here : p (.mk k s cs))
      (below : ∀ c ∈ cs, Everywhere p c) : Everywhere p (.mk k s cs)

/-- The named nodes below some nodes lie below one of them. -/
theorem exists_of_mem_preorderAll {ns : List Node} (h : m ∈ preorderAll ns) :
    ∃ n ∈ ns, m ∈ preorder n := by
  induction ns with
  | nil =>
    rw [preorderAll] at h
    exact absurd h List.not_mem_nil
  | cons n ns ih =>
    rw [preorderAll] at h
    rcases List.mem_append.1 h with h | h
    · split at h
      · exact absurd h List.not_mem_nil
      · exact ⟨n, List.mem_cons_self, h⟩
    · obtain ⟨n', hn', hm⟩ := ih h
      exact ⟨n', List.mem_cons_of_mem n hn', hm⟩

namespace Everywhere

/-- What holds everywhere holds of the node itself. -/
theorem self (h : Everywhere p n) : p n := by
  cases h with
  | mk here _ => exact here

/-- What holds everywhere holds everywhere in a child. -/
theorem child (h : Everywhere p n) {c : Node} (hc : c ∈ n.children) : Everywhere p c := by
  cases h with
  | mk _ below => exact below c hc

/-- A child of a kind is a child. -/
theorem child? (h : Everywhere p n) {k : Kind} {c : Node} (hc : n.child? k = some c) :
    Everywhere p c :=
  h.child (List.mem_of_find?_eq_some hc)

/-- A named child is a child. -/
theorem named (h : Everywhere p n) {c : Node} (hc : c ∈ n.named) : Everywhere p c :=
  h.child (List.mem_filter.1 hc).1

/-- What holds everywhere holds everywhere in each node below. -/
theorem of_mem_preorder (hn : Everywhere p n) (hm : m ∈ preorder n) : Everywhere p m := by
  induction hn with
  | @mk k s cs here below ih =>
    rw [preorder] at hm
    rcases List.mem_cons.1 hm with rfl | hm
    · exact .mk here below
    · obtain ⟨c, hc, hm⟩ := exists_of_mem_preorderAll hm
      exact ih c hc hm

/-- What follows from something that holds everywhere holds everywhere. -/
theorem imp (h : Everywhere p n) (hpq : ∀ m, p m → q m) : Everywhere q n := by
  induction h with
  | mk here _ ih => exact .mk (hpq _ here) ih

end Everywhere

/-! ### Places of nodes -/

/-- A node starts and stops at places, and its children lie within it.  `P` tells which places
there are. -/
structure Lies (P : Nat → Prop) (n : Node) : Prop extends n.span.IsPlaced P where
  within : ∀ c ∈ n.children, n.span.contains c.span = true

/-- What a node is made on comes first in it. -/
structure Leads (n : Node) : Prop where
  /-- The first child starts with its parent, unless it is a comment. -/
  first : ∀ c ∈ n.children.head?, c.kind ≠ .comment → c.span.startByte = n.span.startByte
  /-- Among the children of a call a member access comes first or not at all. -/
  called : n.kind = .invocation → ∀ c ∈ n.children.tail, c.kind ≠ .memberAccess

/-- What edits of a chain rely on, for one node and its children. -/
structure Fits (P : Nat → Prop) (n : Node) : Prop extends Lies P n, Leads n

/-- A node and all nodes below it have their places. -/
abbrev Placed (P : Nat → Prop) (n : Node) : Prop := n.Everywhere (Fits P)

/-- What contains a node contains all nodes below it. -/
theorem Everywhere.contained {P : Nat → Prop} {outer : Span} (h : n.Everywhere (Lies P))
    (houter : outer.contains n.span = true) :
    n.Everywhere fun m => outer.contains m.span = true := by
  induction h with
  | @mk k s cs here below ih =>
    exact .mk houter fun c hc => ih c hc (Span.contains_trans houter (here.within c hc))

end Node

/-! ### Trees and readers -/

namespace SyntaxTree

variable {text : String} {tree : SyntaxTree} {p q : Node → Prop}

/-- What holds of all nodes of a tree but for its root, which is no call and no statement. -/
structure Throughout (p : Node → Prop) (tree : SyntaxTree) : Prop where
  not_call : tree.root.kind ≠ .invocation
  not_statement : tree.root.kind ≠ .expressionStatement
  nodes : ∀ n ∈ tree.root.children, n.Everywhere p

/-- What follows from something that holds throughout a tree holds throughout the tree. -/
theorem Throughout.imp (h : tree.Throughout p) (hpq : ∀ m, p m → q m) : tree.Throughout q where
  not_call := h.not_call
  not_statement := h.not_statement
  nodes := fun n hn => (h.nodes n hn).imp hpq

/-- The byte lies between two characters of the text. -/
def IsTextPlace (text : String) (b : Nat) : Prop := Edit.isBoundary text.toList b = true

/-- The nodes of a tree lie between characters of a text, each within its parent. -/
abbrev LiesIn (text : String) (tree : SyntaxTree) : Prop :=
  tree.Throughout (Node.Lies (IsTextPlace text))

/-- The nodes of a tree lie in a text, each within its parent, and what they are made on comes
first in them. -/
abbrev FitsIn (text : String) (tree : SyntaxTree) : Prop :=
  tree.Throughout (Node.Fits (· ≤ text.utf8ByteSize))

end SyntaxTree

/-- Whatever the text, the nodes that the reader makes of it lie between its characters, each
within its parent. -/
def Reader.LiesInTexts (reader : Reader) : Prop := ∀ text, (reader.tree text).LiesIn text

end CSharp
end MappingAudit
