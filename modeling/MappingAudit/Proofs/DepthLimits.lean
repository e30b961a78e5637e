/-
# Limits on how deep values are mapped

A chain bounds how deep values are mapped when a call before its first `ReverseMap` is
`PreserveReferences`, or when the last call of `MaxDepth` there has a number as its argument
(`Registration.Bounds`).  Exactly then the members that lead back to the types of the mapping
are not reported (`Check.recursion_eq_nil_iff`).

The argument is read as text.  A constant is no number, so `MaxDepth(Limit)` bounds nothing,
and it takes away the bound of an earlier call (`Check.depth_by_name_reported`).
-/

import MappingAudit.CSharp.Declarations
import MappingAudit.Proofs.ChainHalves

namespace MappingAudit

open Source (Call Chain)

/-- The calls after the one that starts the chain, up to the first `ReverseMap`. -/
def Source.Chain.front (chain : Chain) : List Call :=
  (chain.calls.drop 1).takeWhile (·.name != "ReverseMap")

namespace Registration

/-- The text is read as a depth: digits, after an optional plus sign, with blanks around them,
of a number below `2 ^ 32`. -/
def IsDepth (text : String) : Prop :=
  ∃ digits, (Pieces.trim text.toList = digits ∨ Pieces.trim text.toList = '+' :: digits) ∧
    digits ≠ [] ∧ (∀ d ∈ digits, d.isDigit = true) ∧ Message.number digits < 0x100000000

/-- The call has a depth as its first argument. -/
def SetsDepth (c : Call) : Prop :=
  c.name = "MaxDepth" ∧ ∃ a, c.args.head? = some a ∧ IsDepth a.text

/-- The calls bound how deep values are mapped.  Of several calls of `MaxDepth` the last one
counts, also when its argument is no depth. -/
def Bounds (calls : List Call) : Prop :=
  (∃ c ∈ calls, c.name = "PreserveReferences") ∨
    ∃ before c after, calls = before ++ c :: after ∧ SetsDepth c ∧
      ∀ d ∈ after, d.name ≠ "MaxDepth"

/-! ### The depth that is read -/

/-- A number is read from digits with a sign or without, if it is below the limit. -/
theorem natural?_isSome_iff {limit : Nat} {cs : List Char} :
    (Message.natural? limit cs).isSome = true ↔
      ∃ digits, (cs = digits ∨ cs = '+' :: digits) ∧ digits ≠ [] ∧
        (∀ d ∈ digits, d.isDigit = true) ∧ Message.number digits < limit := by
  have hread : ∀ digits : List Char,
      (if digits.isEmpty || !digits.all Char.isDigit || decide (Message.number digits ≥ limit)
        then none else some (Message.number digits)).isSome = true ↔
      digits ≠ [] ∧ (∀ d ∈ digits, d.isDigit = true) ∧ Message.number digits < limit := by
    intro digits
    rw [Option.isSome_iff_exists]
    simp [Option.ite_none_left_eq_some, and_assoc]
  by_cases hplus : ∃ rest, cs = '+' :: rest
  · obtain ⟨rest, rfl⟩ := hplus
    rw [Message.natural?, hread]
    constructor
    · exact fun h => ⟨rest, Or.inr rfl, h⟩
    · rintro ⟨digits, rfl | hcons, hne, hdigits, hlt⟩
      · -- A plus sign is no digit.
        cases hdigits '+' List.mem_cons_self
      · cases hcons
        exact ⟨hne, hdigits, hlt⟩
  · have hdigits : Message.natural? limit cs = if cs.isEmpty || !cs.all Char.isDigit ||
        decide (Message.number cs ≥ limit) then none else some (Message.number cs) := by
      unfold Message.natural?
      split
      · next rest => exact absurd ⟨rest, rfl⟩ hplus
      · rfl
    rw [hdigits, hread]
    constructor
    · exact fun h => ⟨cs, Or.inl rfl, h⟩
    · rintro ⟨digits, rfl | hcons, h⟩
      · exact h
      · exact absurd ⟨digits, hcons⟩ hplus

/-- A depth is read from a text exactly when it is written as one. -/
theorem readDepth?_isSome_iff {text : String} :
    (readDepth? text).isSome = true ↔ IsDepth text := natural?_isSome_iff

/-- Only `MaxDepth` sets a depth. -/
theorem depthOf?_of_ne {c : Call} (h : c.name ≠ "MaxDepth") : depthOf? c = none := by
  rw [depthOf?, if_neg]
  rwa [beq_iff_eq]

/-- The calls that can set a depth are those of `MaxDepth`. -/
theorem depthOf?_eq_none_iff {c : Call} : depthOf? c = none ↔ c.name ≠ "MaxDepth" := by
  refine ⟨?_, depthOf?_of_ne⟩
  intro h hname
  rw [depthOf?, if_pos (beq_iff_eq.2 hname)] at h
  cases h

/-- A call sets a depth when one is read from it. -/
theorem setsDepth_iff {c : Call} : SetsDepth c ↔ ∃ n, depthOf? c = some (some n) := by
  rw [SetsDepth, depthOf?]
  constructor
  · rintro ⟨hname, a, ha, hdepth⟩
    obtain ⟨n, hn⟩ := Option.isSome_iff_exists.1 (readDepth?_isSome_iff.2 hdepth)
    refine ⟨n, ?_⟩
    rw [if_pos (beq_iff_eq.2 hname), depthIn?, ha, Option.bind_some, hn]
  · rintro ⟨n, hn⟩
    split at hn
    · next hname =>
      obtain ⟨a, ha, hread⟩ := Option.bind_eq_some_iff.1 (Option.some.inj hn)
      exact ⟨beq_iff_eq.1 hname, a, ha, readDepth?_isSome_iff.1 (Option.isSome_of_mem hread)⟩
    · cases hn

/-! ### The calls of a chain together -/

/-- Without their positions the calls that configure the mapping are the front of the chain. -/
theorem snd_forward (chain : Chain) : (forward chain).map (·.2) = chain.front := by
  rw [Chain.front, ← snd_configuring, List.takeWhile_map, forward]
  rfl

section

variable {c : Catalog} {fileIndex id : Nat} {file : Source.File} {chain : Chain}
  {r : Registration}

/-- A registration preserves references when a call in front of `ReverseMap` says so. -/
theorem preservesReferences_iff (h : ofChain? c fileIndex file id chain = some r) :
    r.preservesReferences = true ↔ ∃ c ∈ chain.front, c.name = "PreserveReferences" := by
  obtain ⟨-, root, types, -, -, rfl⟩ := ofChain?_eq_some_iff.1 h
  have hfront : (forward chain).any (·.2.name == "PreserveReferences") =
      chain.front.any (·.name == "PreserveReferences") := by
    rw [← snd_forward, List.any_map]
    rfl
  rw [ofCalls_eq, hfront, List.any_eq_true]
  simp only [beq_iff_eq]

/-- A depth is kept when the last call of `MaxDepth` sets one. -/
theorem maxDepth_isSome_iff (h : ofChain? c fileIndex file id chain = some r) :
    r.maxDepth.isSome = true ↔ ∃ before call after, chain.front = before ++ call :: after ∧
      SetsDepth call ∧ ∀ d ∈ after, d.name ≠ "MaxDepth" := by
  obtain ⟨-, root, types, -, -, rfl⟩ := ofChain?_eq_some_iff.1 h
  have hfront : (forward chain).filterMap (fun p => depthOf? p.2) =
      chain.front.filterMap depthOf? := by
    rw [← snd_forward, List.filterMap_map]
    rfl
  have hdepth : ((chain.front.filterMap depthOf?).getLast?.getD none).isSome = true ↔
      ∃ n, chain.front.reverse.findSome? depthOf? = some (some n) := by
    rw [List.getLast?_filterMap, Option.isSome_iff_exists]
    cases chain.front.reverse.findSome? depthOf? <;> simp
  rw [ofCalls_eq, hfront, hdepth]
  constructor
  · rintro ⟨n, hn⟩
    obtain ⟨after, call, before, hsplit, hcall, hafter⟩ := List.findSome?_eq_some_iff.1 hn
    refine ⟨before.reverse, call, after.reverse, ?_, setsDepth_iff.2 ⟨n, hcall⟩, ?_⟩
    · rw [← List.reverse_reverse chain.front, hsplit]
      simp
    · exact fun d hd => depthOf?_eq_none_iff.1 (hafter d (List.mem_reverse.1 hd))
  · rintro ⟨before, call, after, hsplit, hcall, hafter⟩
    obtain ⟨n, hn⟩ := setsDepth_iff.1 hcall
    refine ⟨n, List.findSome?_eq_some_iff.2 ⟨after.reverse, call, before.reverse, ?_, hn, ?_⟩⟩
    · rw [hsplit]
      simp
    · exact fun d hd => depthOf?_of_ne (hafter d (List.mem_reverse.1 hd))

/-- A registration is bounded when its calls bound it. -/
theorem isBounded_iff (h : ofChain? c fileIndex file id chain = some r) :
    Check.isBounded r = true ↔ Bounds chain.front := by
  rw [Check.isBounded, Bool.or_eq_true, maxDepth_isSome_iff h, preservesReferences_iff h, Bounds,
    or_comm]

end

end Registration

namespace Check

open Registration

variable {x : Context}

/-- What the search for members that lead back finds, when nothing bounds it. -/
theorem recursion_eq_nil_iff_leadsBack : recursion x = [] ↔ isBounded x.registration = true ∨
    ∀ s d, x.models? = some (s, d) → ∀ p ∈ x.pairs, leadsBack x s d p = false := by
  rw [recursion]
  cases hmodels : x.models? with
  | none => simp
  | some models =>
    obtain ⟨s, d⟩ := models
    simp only
    split
    · next hbounded => simp [hbounded]
    · next hbounded => simp [hbounded, List.filter_eq_nil_iff]

/-- **What silences the search for members that lead back.**  For a registration of a chain
nothing is found exactly when the calls before the first `ReverseMap` bound how deep values
are mapped, or when there is no pair of members that leads back. -/
theorem recursion_eq_nil_iff {c : Catalog} {fileIndex id : Nat} {file : Source.File}
    {chain : Chain} {r : Registration} (h : ofChain? c fileIndex file id chain = some r)
    (hx : x.registration = r) : recursion x = [] ↔ Bounds chain.front ∨
      ∀ s d, x.models? = some (s, d) → ∀ p ∈ x.pairs, leadsBack x s d p = false := by
  rw [recursion_eq_nil_iff_leadsBack, hx, isBounded_iff h]

/-- A mapping of types with members of their own types. -/
def recursiveWith (limits : String) : Workspace :=
  .ofSources [("P.cs", "AddMaps(c=>c.CreateMap<T,D>()" ++ limits ++
    ");record T(T M);record D(D M);")]

/-- The document as it is read. -/
def recursiveFile (limits : String) : Source.File :=
  (recursiveWith limits).files.head?.getD default

/-- Its chain. -/
def recursiveChain (limits : String) : Chain :=
  (recursiveFile limits).chains.head?.getD default

/-- The registration of the chain. -/
def recursiveRegistration? (limits : String) : Option Registration :=
  ofChain? (recursiveWith limits).catalog 0 (recursiveFile limits) 0 (recursiveChain limits)

/-- The calls that configure the mapping, with their arguments, and the members that are
reported. -/
def recursiveMembers (limits : String) : Option (List (String × List String) × List String) :=
  (recursiveRegistration? limits).map fun r =>
    ((recursiveChain limits).front.map fun c => (c.name, c.args.map (·.text)),
      (recursion (.ofRegistration (recursiveWith limits).catalog {} [] r)).filterMap
        (·.detail? .member))

set_option maxRecDepth 100000 in
/-- With a depth that is a number the example has no recursive members. -/
theorem recursiveMembers_number :
    recursiveMembers ".MaxDepth(Limit).MaxDepth( 2 )" =
      some ([("MaxDepth", ["Limit"]), ("MaxDepth", ["2"])], []) := by
  decide +kernel

/-- The second of two calls sets a depth, so nothing is reported. -/
theorem recursion_silenced_by_last :
    ∃ r, recursiveRegistration? ".MaxDepth(Limit).MaxDepth( 2 )" = some r ∧
      ∀ x : Context, x.registration = r → recursion x = [] := by
  obtain ⟨r, hr, hmembers⟩ := Option.map_eq_some_iff.1 recursiveMembers_number
  obtain ⟨first, rest, hfront, -, hrest⟩ := List.map_eq_cons_iff.1 (Prod.mk.inj hmembers).1
  obtain ⟨last, rest, rfl, hlast, hrest⟩ := List.map_eq_cons_iff.1 hrest
  obtain rfl := List.map_eq_nil_iff.1 hrest
  obtain ⟨hname, hargs⟩ := Prod.mk.inj hlast
  obtain ⟨a, args, hcons, htext, -⟩ := List.map_eq_cons_iff.1 hargs
  have hdepth : IsDepth a.text :=
    ⟨['2'], Or.inl (htext ▸ rfl), List.cons_ne_nil _ _, List.forall_mem_singleton.2 rfl,
      by decide⟩
  have hbounds : Bounds (recursiveChain ".MaxDepth(Limit).MaxDepth( 2 )").front :=
    Or.inr ⟨[first], last, [], hfront, ⟨hname, a, by rw [hcons]; rfl, hdepth⟩,
      fun _ hd => absurd hd List.not_mem_nil⟩
  exact ⟨r, hr, fun x hx => (recursion_eq_nil_iff hr hx).2 (Or.inl hbounds)⟩

set_option maxRecDepth 100000 in
/-- **A depth that is written as a name is reported as missing**, and it takes away the bound
of an earlier call. -/
theorem depth_by_name_reported :
    recursiveMembers ".MaxDepth(Limit)" = some ([("MaxDepth", ["Limit"])], ["M"]) ∧
      recursiveMembers ".MaxDepth(2).MaxDepth(Limit)" =
        some ([("MaxDepth", ["2"]), ("MaxDepth", ["Limit"])], ["M"]) := by
  decide +kernel

end Check
end MappingAudit
