/-
# What the calls of a chain come to

The calls of a chain are read one after the other, and whether a call is read as one of the
mapping depends on the calls before it.  A step adds what its call says, before `ReverseMap`
to the mapping (`Reading.add_of_forward`) and after it to the mapping back
(`Reading.add_of_reversed`).  So the calls up to the first `ReverseMap` come to what each of
them says about the mapping (`Reading.foldl_add_forward`), and those behind it to what each
of them says about the mapping back (`Reading.foldl_add_reversed`).  Together these are the
registration of the chain, field by field (`Registration.ofCalls_eq`).
-/

import MappingAudit.Registration.OfChain
import Mathlib.Data.List.TakeWhile

namespace MappingAudit

open Source (Call Chain)

/-! ### What a call says by its name -/

/-- The pair of types that a call includes. -/
def Include.ofCall? (c : Call) : Option Include :=
  if c.name == "Include" || c.name == "IncludeBase" then Include.read? c else none

/-- What a call at a position of a chain says about a source member. -/
def SourceDirective.ofCall? (index : Nat) (c : Call) : Option SourceDirective :=
  if c.name == "ForSourceMember" then SourceDirective.read? index c else none

namespace Registration

/-- The source members whose own members a call adds. -/
def includedBy (c : Call) : List (List String) :=
  if c.name == "IncludeMembers" then includedIn c else []

/-- The converter that a call sets, as written. -/
def converterOf? (c : Call) : Option String :=
  if c.name == "ConvertUsing" then some (converterText c) else none

/-- The depth that a call sets; the inner `none` for an argument that is no number. -/
def depthOf? (c : Call) : Option (Option Nat) :=
  if c.name == "MaxDepth" then some (depthIn? c) else none

/-- The lambdas of a call that run while values are mapped. -/
def expressionsOf (c : Call) : List MappingExpression :=
  if ["ConvertUsing", "ConstructUsing", "BeforeMap", "AfterMap"].contains c.name then runIn c
  else Directive.expressionsOfCall c

/-- A call that adds the mapping back. -/
def isReverse (c : Nat × Call) : Bool := c.2.name == "ReverseMap"

/-- The mapping back that a call adds to a chain of `length` calls. -/
def reverseAt (length : Nat) (c : Nat × Call) : ReverseCall :=
  ⟨c.1, c.2.ownSpan, c.2.segment, c.1 + 1 < length⟩

end Registration

namespace Directive

variable {c : Call}

/-- A call that configures no members has no target. -/
theorem callTarget?_of_not_mem_methods (h : c.name ∉ methods) : callTarget? c = none := by
  rw [callTarget?, if_neg]
  simpa using h

/-- A call that configures no members gives no directive. -/
theorem ofCall_of_not_mem_methods (h : c.name ∉ methods) (i : Nat) : ofCall i c = [] := by
  rw [ofCall, callTarget?_of_not_mem_methods h]

/-- Nor do its lambdas run for a member. -/
theorem expressionsOfCall_of_not_mem_methods (h : c.name ∉ methods) :
    expressionsOfCall c = [] := by
  rw [expressionsOfCall, callTarget?_of_not_mem_methods h]

end Directive

/-! ### One call -/

namespace Reading

open Registration

variable {n : Nat} {s : Reading} {p : Nat × Call} {ps : List (Nat × Call)}

/-- The first `ReverseMap` adds the mapping back, and each turns to it. -/
theorem add_reverse (hp : isReverse p = true) : s.add n p =
    { registration :=
        { s.registration with reverse := s.registration.reverse.or (some (reverseAt n p)) }
      reversed := true } := by
  obtain ⟨i, c⟩ := p
  have hname : c.name = "ReverseMap" := beq_iff_eq.1 hp
  obtain ⟨r, reversed⟩ := s
  simp only [add, hname]
  cases hreverse : r.reverse with
  | none => rfl
  | some b =>
    obtain ⟨⟩ := r
    cases hreverse
    rfl

/-- **A call before `ReverseMap`** adds what it says to the mapping. -/
theorem add_of_forward (hs : s.reversed = false) (hp : isReverse p = false) : s.add n p =
    { registration :=
        { s.registration with
          directives := s.registration.directives ++ Directive.ofCall p.1 p.2
          sourceDirectives :=
            s.registration.sourceDirectives ++ (SourceDirective.ofCall? p.1 p.2).toList
          includes := s.registration.includes ++ (Include.ofCall? p.2).toList
          includedMembers := s.registration.includedMembers ++ includedBy p.2
          converter := (converterOf? p.2).or s.registration.converter
          maxDepth := (depthOf? p.2).getD s.registration.maxDepth
          preservesReferences :=
            s.registration.preservesReferences || p.2.name == "PreserveReferences"
          expressions := s.registration.expressions ++ expressionsOf p.2 }
      reversed := false } := by
  obtain ⟨i, c⟩ := p
  obtain ⟨r, reversed⟩ := s
  obtain rfl : reversed = false := hs
  simp only [add]
  split
  case h_1 hname =>
    rw [isReverse, hname] at hp
    cases hp
  -- A call of another name says nothing.
  case h_15 =>
    have hreferences : (c.name == "PreserveReferences") = false := beq_false_of_ne ‹_›
    rw [hreferences, Bool.or_false]
    simp_all [Directive.ofCall_of_not_mem_methods, Directive.methods,
      Directive.expressionsOfCall_of_not_mem_methods, SourceDirective.ofCall?, Include.ofCall?,
      includedBy, converterOf?, depthOf?, expressionsOf]
  all_goals
    rename_i hname
    simp_all [Directive.ofCall_of_not_mem_methods, Directive.methods,
      Directive.expressionsOfCall_of_not_mem_methods, SourceDirective.ofCall?, Include.ofCall?,
      includedBy, converterOf?, depthOf?, expressionsOf]

/-- **A call after `ReverseMap`** adds what it says to the mapping back; included pairs and
lambdas count as before. -/
theorem add_of_reversed (hs : s.reversed = true) (hreverse : s.registration.reverse.isSome = true) :
    s.add n p =
    { registration :=
        { s.registration with
          reverseDirectives := s.registration.reverseDirectives ++ Directive.ofCall p.1 p.2
          includes := s.registration.includes ++ (Include.ofCall? p.2).toList
          expressions := s.registration.expressions ++ expressionsOf p.2 }
      reversed := true } := by
  obtain ⟨i, c⟩ := p
  obtain ⟨r, reversed⟩ := s
  obtain rfl : reversed = true := hs
  have hsome : r.reverse.isNone = false := by
    rw [← Option.not_isSome, hreverse]
    rfl
  simp only [add, hsome]
  split
  all_goals
    rename_i hname
    simp_all [Directive.ofCall_of_not_mem_methods, Directive.methods,
      Directive.expressionsOfCall_of_not_mem_methods, Include.ofCall?, expressionsOf]

/-! ### The calls of a chain -/

/-- What is said by the first of some calls, and then by the others. -/
theorem filterMap_cons_eq {α : Type} (f : Nat × Call → Option α) :
    (p :: ps).filterMap f = (f p).toList ++ ps.filterMap f := by
  rw [List.filterMap_cons]
  cases f p <;> rfl

/-- **The calls up to the first `ReverseMap`** come to what each of them says about the
mapping.  Of several converters and depths the last one counts. -/
theorem foldl_add_forward (hs : s.reversed = false) (hps : ∀ p ∈ ps, isReverse p = false) :
    ps.foldl (add n) s =
    { registration :=
        { s.registration with
          directives := s.registration.directives ++ ps.flatMap fun p => Directive.ofCall p.1 p.2
          sourceDirectives := s.registration.sourceDirectives ++
            ps.filterMap fun p => SourceDirective.ofCall? p.1 p.2
          includes := s.registration.includes ++ ps.filterMap fun p => Include.ofCall? p.2
          includedMembers := s.registration.includedMembers ++ ps.flatMap fun p => includedBy p.2
          converter :=
            (ps.filterMap fun p => converterOf? p.2).getLast?.or s.registration.converter
          maxDepth := (ps.filterMap fun p => depthOf? p.2).getLast?.getD s.registration.maxDepth
          preservesReferences := s.registration.preservesReferences ||
            ps.any fun p => p.2.name == "PreserveReferences"
          expressions := s.registration.expressions ++ ps.flatMap fun p => expressionsOf p.2 }
      reversed := false } := by
  induction ps generalizing s with
  | nil =>
    obtain ⟨r, reversed⟩ := s
    obtain rfl : reversed = false := hs
    simp
  | cons p ps ih =>
    obtain ⟨hp, hps⟩ := List.forall_mem_cons.1 hps
    have hlast {α : Type} (a? : Option α) : a?.toList.getLast? = a? := by cases a? <;> rfl
    rw [List.foldl_cons, add_of_forward hs hp, ih rfl hps]
    simp only [filterMap_cons_eq, List.flatMap_cons, List.any_cons, List.getLast?_append, hlast,
      Option.or_assoc, Option.getD_or, Bool.or_assoc, List.append_assoc]

/-- **The calls behind the first `ReverseMap`** come to what each of them says about the
mapping back. -/
theorem foldl_add_reversed (hs : s.reversed = true)
    (hreverse : s.registration.reverse.isSome = true) : ps.foldl (add n) s =
    { registration :=
        { s.registration with
          reverseDirectives :=
            s.registration.reverseDirectives ++ ps.flatMap fun p => Directive.ofCall p.1 p.2
          includes := s.registration.includes ++ ps.filterMap fun p => Include.ofCall? p.2
          expressions := s.registration.expressions ++ ps.flatMap fun p => expressionsOf p.2 }
      reversed := true } := by
  induction ps generalizing s with
  | nil =>
    obtain ⟨r, reversed⟩ := s
    obtain rfl : reversed = true := hs
    simp
  | cons p ps ih =>
    rw [List.foldl_cons, add_of_reversed hs hreverse]
    refine (ih ?reversed ?reverse).trans ?_
    case reversed => rfl
    case reverse => exact hreverse
    simp only [filterMap_cons_eq, List.flatMap_cons, List.append_assoc]

end Reading

namespace Registration

/-- The calls that configure the mapping. -/
def forward (chain : Chain) : List (Nat × Call) :=
  (configuring chain).takeWhile fun c => !isReverse c

/-- The calls from the first `ReverseMap` on. -/
def backward (chain : Chain) : List (Nat × Call) :=
  (configuring chain).dropWhile fun c => !isReverse c

/-- The call that adds the mapping back. -/
def reverseOf? (chain : Chain) : Option ReverseCall :=
  (backward chain).head?.map (reverseAt chain.calls.length)

/-- `ReverseMap` itself says nothing but that there is a mapping back. -/
theorem says_nothing {p : Nat × Call} (hp : isReverse p = true) :
    Directive.ofCall p.1 p.2 = [] ∧ Include.ofCall? p.2 = none ∧ expressionsOf p.2 = [] := by
  have hname : p.2.name = "ReverseMap" := beq_iff_eq.1 hp
  have hnot : p.2.name ∉ Directive.methods := by
    rw [hname]
    decide
  refine ⟨Directive.ofCall_of_not_mem_methods hnot p.1, ?_, ?_⟩
  · rw [Include.ofCall?, hname]
    rfl
  · rw [expressionsOf, hname]
    exact Directive.expressionsOfCall_of_not_mem_methods hnot

variable (id fileIndex : Nat) (file : String) (ns : Option String) (chain : Chain) (root : Call)
  (types : TypeExpr × TypeExpr)

/-- **The registration of a chain, field by field.**  What is read call by call is what the
calls up to the first `ReverseMap` say about the mapping, what those from there on say about
the mapping back, and the pairs and lambdas of all of them. -/
theorem ofCalls_eq :
    ofCalls id fileIndex file ns chain root types =
    { id
      file
      fileIndex
      source := types.1
      destination := types.2
      ns
      directives := (forward chain).flatMap fun p => Directive.ofCall p.1 p.2
      reverseDirectives := (backward chain).flatMap fun p => Directive.ofCall p.1 p.2
      sourceDirectives := (forward chain).filterMap fun p => SourceDirective.ofCall? p.1 p.2
      reverse := reverseOf? chain
      includes := (configuring chain).filterMap fun p => Include.ofCall? p.2
      includedMembers := (forward chain).flatMap fun p => includedBy p.2
      converter := ((forward chain).filterMap fun p => converterOf? p.2).getLast?
      memberList := memberListOf root.args
      maxDepth := ((forward chain).filterMap fun p => depthOf? p.2).getLast?.getD none
      preservesReferences := (forward chain).any fun p => p.2.name == "PreserveReferences"
      expressions := (configuring chain).flatMap fun p => expressionsOf p.2
      chain } := by
  have hsplit : configuring chain = forward chain ++ backward chain :=
    List.takeWhile_append_dropWhile.symm
  have hforward : ∀ p ∈ forward chain, isReverse p = false := fun p hp => by
    simpa using List.mem_takeWhile_imp hp
  rw [ofCalls, hsplit, List.foldl_append, Reading.foldl_add_forward rfl hforward]
  cases hback : backward chain with
  | nil => simp [Reading.start, reverseOf?, hback]
  | cons p ps =>
    have hp : isReverse p = true := by
      have hhead := List.head?_dropWhile_not (fun c => !isReverse c) (configuring chain)
      rw [show (configuring chain).dropWhile _ = p :: ps from hback] at hhead
      simpa using hhead
    obtain ⟨hdirectives, hincludes, hexpressions⟩ := says_nothing hp
    rw [List.foldl_cons, Reading.add_reverse hp, Reading.foldl_add_reversed rfl rfl]
    simp [Reading.start, reverseOf?, hback, hdirectives, hincludes, hexpressions]

/-- The directives of the mapping are those of the calls that configure it. -/
theorem directives_ofCalls : (ofCalls id fileIndex file ns chain root types).directives =
    (forward chain).flatMap fun (i, c) => Directive.ofCall i c := by
  rw [ofCalls_eq]

/-- The directives of the mapping back are those of the calls from `ReverseMap` on. -/
theorem reverseDirectives_ofCalls :
    (ofCalls id fileIndex file ns chain root types).reverseDirectives =
      (backward chain).flatMap fun (i, c) => Directive.ofCall i c := by
  rw [ofCalls_eq]

/-- The mapping back is added by the first `ReverseMap`. -/
theorem reverse_ofCalls :
    (ofCalls id fileIndex file ns chain root types).reverse = reverseOf? chain := by
  rw [ofCalls_eq]

/-- The lambdas are those of all calls. -/
theorem expressions_ofCalls : (ofCalls id fileIndex file ns chain root types).expressions =
    (configuring chain).flatMap fun (_, c) => expressionsOf c := by
  rw [ofCalls_eq]

/-! No call changes where the chain stands and which types it names. -/

@[simp] theorem id_ofCalls : (ofCalls id fileIndex file ns chain root types).id = id := by
  rw [ofCalls_eq]

@[simp] theorem file_ofCalls : (ofCalls id fileIndex file ns chain root types).file = file := by
  rw [ofCalls_eq]

@[simp] theorem fileIndex_ofCalls :
    (ofCalls id fileIndex file ns chain root types).fileIndex = fileIndex := by
  rw [ofCalls_eq]

@[simp] theorem ns_ofCalls : (ofCalls id fileIndex file ns chain root types).ns = ns := by
  rw [ofCalls_eq]

@[simp] theorem chain_ofCalls : (ofCalls id fileIndex file ns chain root types).chain = chain := by
  rw [ofCalls_eq]

@[simp] theorem source_ofCalls :
    (ofCalls id fileIndex file ns chain root types).source = types.1 := by
  rw [ofCalls_eq]

@[simp] theorem destination_ofCalls :
    (ofCalls id fileIndex file ns chain root types).destination = types.2 := by
  rw [ofCalls_eq]

end Registration
end MappingAudit
