/-
# The two halves of a chain

A chain starts with a call of `CreateMap`.  The calls after it configure the mapping up to
the first `ReverseMap`, and the mapping back from there on, whatever they are and however
often `ReverseMap` is called again (`Registration.Halves`).  So what a chain says about the
mapping itself is what it says when it ends before that call (`Registration.reverse_splits`).
-/

import MappingAudit.CSharp.Declarations
import MappingAudit.Proofs.ReverseHalf

namespace MappingAudit

open Source (Call Chain)

/-- The position of the first `ReverseMap` after the call that starts the chain, or the
number of calls when there is none. -/
def Source.Chain.reverseIndex (chain : Chain) : Nat :=
  1 + (chain.calls.drop 1).findIdx (·.name == "ReverseMap")

/-- The chain without its calls from a position on. -/
def Source.Chain.upTo (chain : Chain) (k : Nat) : Chain :=
  { chain with calls := chain.calls.take k }

/-! ### Directives wherever they stand -/

namespace Directive

/-- The directive without the position of its call. -/
def unplaced (d : Directive) : Directive := { d with callIndex := 0 }

variable {d : Directive} {c : Call} {i : Nat} {m : String}

/-- Without its position a directive is about the same members. -/
@[simp] theorem targets_unplaced : d.unplaced.targets m = d.targets m := rfl

/-- What a call says does not depend on its position. -/
theorem map_unplaced_ofCall (i : Nat) (c : Call) : (ofCall i c).map unplaced = ofCall 0 c := by
  rw [ofCall, ofCall]
  cases callTarget? c with
  | none => rfl
  | some target =>
    simp only
    cases (optionCalls c).filterMap configOf? with
    | nil => rfl
    | cons config configs =>
      rw [List.map_map]
      rfl

/-- A directive has the position and the name of its call, which is one of those that
configure members. -/
theorem of_mem_ofCall (h : d ∈ ofCall i c) :
    d.callIndex = i ∧ d.method = c.name ∧ c.name ∈ methods := by
  rw [ofCall] at h
  cases htarget : callTarget? c with
  | none =>
    rw [htarget] at h
    exact absurd h List.not_mem_nil
  | some target =>
    have hmethod : c.name ∈ methods := by
      rw [callTarget?] at htarget
      split at htarget
      · next hcontains => exact List.contains_iff_mem.1 hcontains
      · cases htarget
    rw [htarget] at h
    simp only at h
    split at h
    · rw [List.mem_singleton.1 h]
      exact ⟨rfl, rfl, hmethod⟩
    · obtain ⟨config, -, rfl⟩ := List.mem_map.1 h
      exact ⟨rfl, rfl, hmethod⟩

end Directive

/-! ### Calls that configure the mapping, and the mapping back -/

namespace Registration

/-- A chain is its first call, the calls `front` that configure the mapping, and the calls
`back` from the first `ReverseMap` on. -/
structure Halves (root : Call) (front back : List Call) (chain : Chain) : Prop where
  calls_eq : chain.calls = root :: (front ++ back)
  front_forward : ∀ c ∈ front, c.name ≠ "ReverseMap"
  back_reversed : ∀ c ∈ back.head?, c.name = "ReverseMap"

/-- Every chain that starts with a call has two halves around its first `ReverseMap`, if it has
one. -/
theorem exists_halves {root : Call} {chain : Chain} (h : chain.calls.head? = some root) :
    ∃ front back, Halves root front back chain := by
  obtain ⟨rest, hcalls⟩ := List.head?_eq_some_iff.1 h
  refine ⟨rest.takeWhile (·.name != "ReverseMap"), rest.dropWhile (·.name != "ReverseMap"), ?_,
    fun c hc => ?_, fun c hc => ?_⟩
  · rw [List.takeWhile_append_dropWhile, hcalls]
  · simpa using List.mem_takeWhile_imp hc
  · have hnot := List.head?_dropWhile_not (·.name != "ReverseMap") rest
    rw [Option.mem_def.1 hc] at hnot
    simpa using hnot

/-- Directives of calls, wherever these stand. -/
theorem map_unplaced_flatMap (n : Nat) (calls : List Call) :
    ((indexed n calls).flatMap fun (i, c) => Directive.ofCall i c).map (·.unplaced) =
      calls.flatMap (Directive.ofCall 0) := by
  simp only [List.map_flatMap, Directive.map_unplaced_ofCall]
  conv_rhs => rw [← snd_indexed n calls, List.flatMap_map]

/-- Calls before and after one with a given position. -/
theorem exists_of_mem_indexed {n i : Nat} {c : Call} {calls : List Call}
    (h : (i, c) ∈ indexed n calls) :
    ∃ before after, calls = before ++ c :: after ∧ i = n + before.length := by
  obtain ⟨⟨d, j⟩, hmem, heq⟩ := List.mem_map.1 h
  obtain ⟨rfl, rfl⟩ := Prod.mk.inj heq
  obtain ⟨hle, hlt, hget⟩ := List.mem_zipIdx hmem
  refine ⟨calls.take (j - n), calls.drop (j - n + 1), ?_, ?_⟩
  · rw [hget, List.getElem_cons_drop, List.take_append_drop]
  · rw [List.length_take]
    omega

namespace Halves

variable {root : Call} {front back : List Call} {chain : Chain}
variable (h : Halves root front back chain)
include h

/-- The calls of the halves configure, at the positions they have in the chain. -/
theorem configuring_eq :
    configuring chain = indexed 1 front ++ indexed (1 + front.length) back := by
  rw [Registration.configuring_eq, h.calls_eq, ← List.singleton_append, indexed_append,
    indexed_append]
  rfl

/-- There is no `ReverseMap` in the first half. -/
theorem not_isReverse : ∀ c ∈ indexed 1 front, (!isReverse c) = true := by
  intro c hc
  have hmem : c.2 ∈ (indexed 1 front).map (·.2) := List.mem_map_of_mem hc
  rw [snd_indexed] at hmem
  simpa [isReverse] using h.front_forward c.2 hmem

/-- The calls of the first half configure the mapping. -/
theorem forward_eq : forward chain = indexed 1 front := by
  rw [forward, h.configuring_eq, List.takeWhile_append_of_pos h.not_isReverse]
  cases back with
  | nil => simp [indexed]
  | cons c cs => simp [indexed, isReverse, h.back_reversed c rfl]

/-- The calls of the second half configure the mapping back. -/
theorem backward_eq : backward chain = indexed (1 + front.length) back := by
  rw [backward, h.configuring_eq, List.dropWhile_append_of_pos h.not_isReverse]
  cases back with
  | nil => rfl
  | cons c cs => simp [indexed, isReverse, h.back_reversed c rfl]

variable (id fileIndex : Nat) (file : String) (ns : Option String) (types : TypeExpr × TypeExpr)

/-- The directives of the mapping come from the first half, in the order of its calls. -/
theorem directives_eq :
    (ofCalls id fileIndex file ns chain root types).directives.map (·.unplaced) =
      front.flatMap (Directive.ofCall 0) := by
  rw [directives_ofCalls, h.forward_eq]
  exact map_unplaced_flatMap 1 front

/-- Those of the mapping back come from the second half. -/
theorem reverseDirectives_eq :
    (ofCalls id fileIndex file ns chain root types).reverseDirectives.map (·.unplaced) =
      back.flatMap (Directive.ofCall 0) := by
  rw [reverseDirectives_ofCalls, h.backward_eq]
  exact map_unplaced_flatMap (1 + front.length) back

/-- A directive of the mapping comes from a call that configures it, and points at the call. -/
theorem exists_of_mem_directives {d : Directive}
    (hd : d ∈ (ofCalls id fileIndex file ns chain root types).directives) :
    ∃ before call after, front = before ++ call :: after ∧ d.callIndex = 1 + before.length ∧
      d ∈ Directive.ofCall d.callIndex call := by
  rw [directives_ofCalls, h.forward_eq] at hd
  obtain ⟨⟨i, call⟩, hcall, hd⟩ := List.mem_flatMap.1 hd
  obtain rfl : d.callIndex = i := (Directive.of_mem_ofCall hd).1
  obtain ⟨before, after, hfront, hi⟩ := exists_of_mem_indexed hcall
  exact ⟨before, call, after, hfront, hi, hd⟩

end Halves

/-- Chains around the same place that start with the same call register a mapping between
the same types, or none. -/
theorem ofChain?_eq_some {c : Catalog} {fileIndex : Nat} {file : Source.File} {id : Nat}
    {chain : Chain} {r : Registration} (h : ofChain? c fileIndex file id chain = some r) :
    ∃ ns root types, chain.calls.head? = some root ∧
      r = ofCalls id fileIndex file.path ns chain root types ∧
        ∀ calls : List Call, calls.head? = some root →
          ofChain? c fileIndex file id { chain with calls } =
            some (ofCalls id fileIndex file.path ns { chain with calls } root types) := by
  obtain ⟨hmapping, root, types, hroot, htypes, rfl⟩ := ofChain?_eq_some_iff.1 h
  exact ⟨Recognition.namespaceOf c chain, root, types, hroot, rfl, fun calls hcalls =>
    ofChain?_eq_some_iff.2 ⟨hmapping, root, types, hcalls, htypes, rfl⟩⟩

/-! ### Chains that end before the mapping back -/

/-- The calls of a chain before position `k`, but for the first one, are what its
registration is configured by; the calls after `k` configure the mapping back. -/
structure SplitsAt (r : Registration) (chain : Chain) (k : Nat) : Prop where
  directives_eq : r.directives =
    (indexed 1 ((chain.calls.take k).drop 1)).flatMap fun (i, c) => Directive.ofCall i c
  reverseDirectives_eq : r.reverseDirectives =
    (indexed (k + 1) (chain.calls.drop (k + 1))).flatMap fun (i, c) => Directive.ofCall i c
  /-- Directives point at the calls that they come from. -/
  named : ∀ d ∈ r.directives ++ r.reverseDirectives, ∃ c, chain.calls[d.callIndex]? = some c ∧
    d.method = c.name ∧ c.name ∈ Directive.methods

/-- A call of a chain stands at its position. -/
theorem getElem?_of_mem_configuring {chain : Chain} {i : Nat} {c : Call}
    (h : (i, c) ∈ configuring chain) : chain.calls[i]? = some c := by
  rw [configuring_eq] at h
  obtain ⟨before, after, hcalls, hi⟩ := exists_of_mem_indexed (List.mem_of_mem_drop h)
  rw [hcalls, hi, Nat.zero_add, List.getElem?_append_right (Nat.le_refl _), Nat.sub_self]
  rfl

namespace Halves

variable {root : Call} {front back : List Call} {chain : Chain}
variable (h : Halves root front back chain)
include h

/-- The first `ReverseMap` follows the first half. -/
theorem reverseIndex_eq : chain.reverseIndex = 1 + front.length := by
  have hfront : front.findIdx (·.name == "ReverseMap") = front.length :=
    List.findIdx_eq_length.2 fun c hc => by simpa using h.front_forward c hc
  have hback : back.findIdx (·.name == "ReverseMap") = 0 := by
    cases back with
    | nil => rfl
    | cons c cs => simp [List.findIdx_cons, h.back_reversed c rfl]
  rw [Chain.reverseIndex, h.calls_eq, List.drop_one, List.tail_cons, List.findIdx_append, hfront,
    hback, if_neg (Nat.lt_irrefl _), Nat.zero_add]

/-- The chain up to it is its first call with the first half. -/
theorem take_calls : chain.calls.take chain.reverseIndex = root :: front := by
  rw [h.reverseIndex_eq, h.calls_eq, Nat.add_comm, List.take_succ_cons, List.take_left]

/-- Without the calls from the first `ReverseMap` on there is no mapping back. -/
theorem upTo : Halves root front [] (chain.upTo chain.reverseIndex) where
  calls_eq := by rw [Chain.upTo, h.take_calls, List.append_nil]
  front_forward := h.front_forward
  back_reversed := fun c hc => absurd hc (Option.not_mem_none c)

/-- `ReverseMap` itself configures nothing. -/
theorem flatMap_backward :
    ((backward chain).flatMap fun (i, c) => Directive.ofCall i c) =
      (indexed (chain.reverseIndex + 1) (chain.calls.drop (chain.reverseIndex + 1))).flatMap
        fun (i, c) => Directive.ofCall i c := by
  have hdrop : chain.calls.drop (chain.reverseIndex + 1) = back.drop 1 := by
    have hlength : chain.reverseIndex + 1 = (root :: front).length + 1 := by
      rw [h.reverseIndex_eq, List.length_cons, Nat.add_comm front.length]
    rw [hlength, h.calls_eq, ← List.cons_append, List.drop_append, List.drop_of_length_le
      (Nat.le_succ _), List.nil_append, Nat.add_sub_cancel_left]
  rw [h.backward_eq, hdrop, h.reverseIndex_eq]
  cases back with
  | nil => rfl
  | cons c cs =>
    have hnot : c.name ∉ Directive.methods := by
      rw [h.back_reversed c rfl]
      decide
    have hcons : indexed (1 + front.length) (c :: cs) =
        (1 + front.length, c) :: indexed (1 + front.length + 1) cs := rfl
    rw [hcons, List.flatMap_cons]
    simp only [Directive.ofCall_of_not_mem_methods hnot, List.nil_append, List.drop_one,
      List.tail_cons]

variable (id fileIndex : Nat) (file : String) (ns : Option String) (types : TypeExpr × TypeExpr)

/-- **A chain splits at its first `ReverseMap`**, whatever stands around it. -/
theorem splitsAt :
    (ofCalls id fileIndex file ns chain root types).SplitsAt chain chain.reverseIndex where
  directives_eq := by
    rw [h.take_calls, List.drop_one, List.tail_cons, ← h.forward_eq, directives_ofCalls]
  reverseDirectives_eq := by rw [reverseDirectives_ofCalls, h.flatMap_backward]
  named := by
    intro d hd
    have hcall : ∃ i c, (i, c) ∈ configuring chain ∧ d ∈ Directive.ofCall i c := by
      rw [directives_ofCalls, reverseDirectives_ofCalls] at hd
      rcases List.mem_append.1 hd with hd | hd
      · obtain ⟨⟨i, c⟩, hmem, hd⟩ := List.mem_flatMap.1 hd
        exact ⟨i, c, (List.takeWhile_sublist _).subset hmem, hd⟩
      · obtain ⟨⟨i, c⟩, hmem, hd⟩ := List.mem_flatMap.1 hd
        exact ⟨i, c, (List.dropWhile_sublist _).subset hmem, hd⟩
    obtain ⟨i, c, hmem, hd⟩ := hcall
    obtain ⟨rfl, hmethod, hname⟩ := Directive.of_mem_ofCall hd
    exact ⟨c, getElem?_of_mem_configuring hmem, hmethod, hname⟩

end Halves

/-- **`ReverseMap` splits a chain.**  Let a chain register a mapping, and let `k` be the
position of its first `ReverseMap`, or the number of its calls.  The directives of the mapping
are those of the calls before `k`, in their order, and the directives of the mapping back those
of the calls after `k`; each of them points at the call that it comes from, which is one of
`ForMember`, `ForPath` and `ForCtorParam`.  The chain that ends before `k` registers a mapping
too, without a mapping back.  About the mapping itself it says the same: the same directives,
source members, included members, converter, members to be mapped, depth and references. -/
theorem reverse_splits {c : Catalog} {fileIndex : Nat} {file : Source.File} {id : Nat}
    {chain : Chain} {r : Registration} (h : ofChain? c fileIndex file id chain = some r) :
    r.SplitsAt chain chain.reverseIndex ∧
      (∀ root ∈ chain.calls.head?, root.name ≠ "ReverseMap" →
        chain.reverseIndex = chain.calls.findIdx (·.name == "ReverseMap")) ∧
      ∃ r', ofChain? c fileIndex file id (chain.upTo chain.reverseIndex) = some r' ∧
        r.SameForward r' ∧ r'.reverse = none ∧ r'.reverseDirectives = [] := by
  obtain ⟨ns, root, types, hroot, rfl, hsame⟩ := ofChain?_eq_some h
  obtain ⟨front, back, hhalves⟩ := exists_halves hroot
  refine ⟨hhalves.splitsAt id fileIndex file.path ns types, fun root' hroot' hname => ?_,
    _, hsame _ ?_, ?_, ?_, ?_⟩
  · obtain rfl : root = root' := Option.some.inj (hroot.symm.trans hroot')
    have hfalse : (root.name == "ReverseMap") = false := beq_false_of_ne hname
    rw [Chain.reverseIndex, hhalves.calls_eq, List.findIdx_cons, hfalse, Nat.add_comm]
    rfl
  · rw [hhalves.take_calls]
    rfl
  · have hforward : forward chain = forward (chain.upTo chain.reverseIndex) := by
      rw [hhalves.forward_eq, hhalves.upTo.forward_eq]
    have hhead : chain.calls.head? = (chain.upTo chain.reverseIndex).calls.head? := by
      rw [hroot, Chain.upTo, hhalves.take_calls]
      rfl
    exact sameForward_of_forward_eq hforward hhead (by rw [hhalves.calls_eq]; simp) id fileIndex
      file.path ns root types
  · have hnone : reverseOf? (chain.upTo chain.reverseIndex) = none := by
      rw [reverseOf?, hhalves.upTo.backward_eq]
      rfl
    rw [reverse_ofCalls]
    exact hnone
  · have hnil : backward (chain.upTo chain.reverseIndex) = [] := hhalves.upTo.backward_eq
    rw [reverseDirectives_ofCalls]
    exact congrArg (List.flatMap fun (i, c) => Directive.ofCall i c) hnil

/-- A mapping with two calls of `ReverseMap`, and a depth that is set between them. -/
def twiceReversed : Workspace :=
  .ofSources [("P.cs", "AddMaps(c=>c.CreateMap<S,D>().ForMember(d=>d.X,o=>o.Ignore())" ++
    ".ReverseMap().MaxDepth(2).ReverseMap().ForPath(s=>s.Y,o=>o.Ignore()));" ++
    "record S(int Y);record D(int X);")]

/-- The document as it is read. -/
def twiceReversedFile : Source.File := twiceReversed.files.head?.getD default

/-- Its chain. -/
def twiceReversedChain : Chain := twiceReversedFile.chains.head?.getD default

/-- The registration of the chain. -/
def twiceReversedRegistration? : Option Registration :=
  ofChain? twiceReversed.catalog 0 twiceReversedFile 0 twiceReversedChain

set_option maxRecDepth 100000 in
/-- Of the example one directive belongs to the mapping and one to the mapping back; the depth
is set behind `ReverseMap` and does not count. -/
theorem twiceReversed_directives : twiceReversedRegistration?.map (fun r =>
    (r.directives.map (·.callIndex), r.reverseDirectives.map (·.callIndex), r.maxDepth)) =
      some ([1], [5], none) := by
  decide +kernel

set_option maxRecDepth 100000 in
/-- Its first `ReverseMap` is the third call. -/
theorem reverseIndex_twiceReversed : twiceReversedChain.reverseIndex = 2 := by
  decide +kernel

/-- The first of the two calls of `ReverseMap` splits the chain, so the depth is not one of
the mapping. -/
theorem reverse_splits_twice : ∃ r, twiceReversedRegistration? = some r ∧ r.maxDepth = none ∧
    twiceReversedChain.reverseIndex = 2 ∧
      r.SplitsAt twiceReversedChain twiceReversedChain.reverseIndex ∧
      (∀ root ∈ twiceReversedChain.calls.head?, root.name ≠ "ReverseMap" →
        twiceReversedChain.reverseIndex =
          twiceReversedChain.calls.findIdx (·.name == "ReverseMap")) ∧
      ∃ r', ofChain? twiceReversed.catalog 0 twiceReversedFile 0
          (twiceReversedChain.upTo twiceReversedChain.reverseIndex) = some r' ∧
        r.SameForward r' ∧ r'.reverse = none ∧ r'.reverseDirectives = [] := by
  obtain ⟨r, hr, hdirectives⟩ := Option.map_eq_some_iff.1 twiceReversed_directives
  simp only [Prod.mk.injEq] at hdirectives
  exact ⟨r, hr, hdirectives.2.2, reverseIndex_twiceReversed, reverse_splits hr⟩

end Registration
end MappingAudit
