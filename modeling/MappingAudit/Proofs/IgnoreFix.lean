/-
# Ignored members

A finding about a destination member is settled by ignoring the member.  The call that
says so goes before the mapping back (`Operation.put?`), or takes the place of a call that
holds conditions of the member alone, and keeps them.

Apart from the member the chain says the same as before, and the mapping back does not
change at all; about the member there is nothing left to report (`ignored_member_settled`).
-/

import MappingAudit.CSharp.Declarations
import MappingAudit.Fix.Action
import MappingAudit.Proofs.ConflictsRemoved

namespace MappingAudit

open Source (Call Chain OptionCall)

/-- The call ignores a member: it is a `ForMember` about this member alone, which makes the
calls `old` on the options and then one of `Ignore`. -/
structure Source.Call.IgnoresAfter (c : Call) (m : String) (old : List OptionCall) : Prop where
  name_eq : c.name = "ForMember"
  target_eq : c.args.head?.bind Directive.targetOf? = some [m]
  optionCalls_eq : ∃ o : OptionCall, o.name = "Ignore" ∧ Directive.optionCalls c = old ++ [o]

/-- The number of calls up to the first `ReverseMap`, or of all calls. -/
def Registration.forwardCount (chain : Chain) : Nat :=
  ((reverseOf? chain).map (·.callIndex)).getD chain.calls.length

/-- The chain with a new call put where the change says.  The call is made from the calls
on the options of the one whose place it takes. -/
def Operation.put? (chain : Chain) (mk : List OptionCall → Call) : Operation → Option Chain
  | appendCall _ _ =>
    let n := Registration.forwardCount chain
    some { chain with calls := chain.calls.take n ++ mk [] :: chain.calls.drop n }
  | replaceCall _ i _ =>
    (chain.calls[i]?).map fun c =>
      { chain with calls := chain.calls.set i (mk (Directive.optionCalls c)) }
  | _ => none

/-! ### Calls that ignore a member -/

namespace Directive

variable {d : Directive} {c : Call} {i : Nat} {m name : String} {old : List OptionCall}

/-- A call that configures nothing gives one directive, with what its options hold. -/
theorem ofCall_of_config_eq_none (hd : d ∈ ofCall i c) (hconfig : d.config = none) :
    d.callIndex = i ∧ ofCall i c = [d] ∧ (optionCalls c).filterMap configOf? = [] ∧
      d.nullSubstitute = (optionCalls c).any isNullSubstitute ∧
        d.condition = (optionCalls c).any isCondition := by
  rw [ofCall] at hd ⊢
  cases htarget : callTarget? c with
  | none =>
    rw [htarget] at hd
    exact absurd hd List.not_mem_nil
  | some target =>
    rw [htarget] at hd
    cases hconfigs : (optionCalls c).filterMap configOf? with
    | nil =>
      simp only [hconfigs, List.mem_singleton] at hd
      subst hd
      exact ⟨rfl, by simp only [hconfigs], rfl, rfl, rfl⟩
    | cons config configs =>
      simp only [hconfigs] at hd
      obtain ⟨k, -, rfl⟩ := List.mem_map.1 hd
      cases hconfig

/-- A call of `Ignore` on the options ignores the member. -/
theorem configOf?_of_ignore {o : OptionCall} (h : o.name = "Ignore") :
    configOf? o = some .ignored := by
  simp only [configOf?, h]

/-- A call that ignores a member keeps the conditions that its options held. -/
theorem ofCall_of_ignoresAfter (h : c.IgnoresAfter m old) (hold : old.filterMap configOf? = [])
    (i : Nat) : ∃ d : Directive, ofCall i c = [d] ∧ d.target = [m] ∧ d.config = some .ignored ∧
      d.nullSubstitute = old.any isNullSubstitute ∧ d.condition = old.any isCondition := by
  obtain ⟨o, ho, hoptions⟩ := h.optionCalls_eq
  have htarget : callTarget? c = some [m] := by
    rw [callTarget?, if_pos (by rw [h.name_eq]; decide), h.target_eq]
  have hconfigs : (optionCalls c).filterMap configOf? = [.ignored] := by
    rw [hoptions, List.filterMap_append, hold, List.nil_append,
      List.filterMap_cons_some (configOf?_of_ignore ho), List.filterMap_nil]
  have hnull : isNullSubstitute o = false := by rw [isNullSubstitute, ho]; decide
  have hcondition : isCondition o = false := by rw [isCondition, ho]; decide
  refine ⟨⟨[m], c.name, i, some .ignored, (optionCalls c).any isNullSubstitute,
    (optionCalls c).any isCondition, c.segment, c.ownSpan⟩, ?_, rfl, rfl, ?_, ?_⟩
  · rw [ofCall, htarget]
    simp only [hconfigs, List.map_cons, List.map_nil]
  · simp [hoptions, hnull]
  · simp [hoptions, hcondition]

/-- A directive about a member starts at it. -/
theorem startsAt_of_targets (h : d.targets m = true) : d.startsAt m = true := by
  rw [targets, member?] at h
  split at h
  · next name htarget =>
    rw [startsAt, htarget]
    exact h
  · cases h

/-- Members of the same name, whatever its case, have the same directives. -/
theorem targets_congr (h : Pieces.sameName name m = true) : d.targets name = d.targets m := by
  simp only [targets, Pieces.sameName_congr h]

/-- A directive whose target is a single member is about it. -/
theorem targets_of_target_eq (h : d.target = [m]) : d.targets m = true := by
  rw [targets, member?, h]
  exact Pieces.sameName_refl m

end Directive

/-! ### Members configured twice -/

namespace Check

variable {x : Context} {f : Finding} {name : String}

/-- Only members with several configurations are in conflict. -/
theorem one_lt_countP_of_mem_conflicts (h : f ∈ conflicts x)
    (hname : f.detail? .member = some name) :
    1 < (configured x.registration).countP (·.targets name) := by
  obtain ⟨earlier, d, later, heq, hconflict⟩ := exists_of_mem_conflicts h
  obtain ⟨-, member, hmember, hdetail, e, he, htargets, -⟩ := of_conflictFinding? hconflict
  obtain rfl : name = member := Option.some.inj (hname.symm.trans hdetail)
  have hd : d.targets name = true := Directive.targets_of_member? hmember
  rw [List.nil_append] at he
  have hearlier : 0 < earlier.countP (·.targets name) := List.countP_pos_iff.2 ⟨e, he, htargets⟩
  have hlater : 0 < (d :: later).countP (·.targets name) :=
    List.countP_pos_iff.2 ⟨d, List.mem_cons_self, hd⟩
  rw [heq, List.countP_append]
  omega

/-- Conflicts are found by one check. -/
theorem mem_conflicts_of_mem_report {settings : SmellSettings} (h : f ∈ report settings x)
    (hrule : f.rule = .conflict) : f ∈ conflicts x :=
  mem_findings_of_mem_report (k := ofFindings "conflicts" [.conflict] conflicts) (by simp [all]) h
    (by simp [ofFindings, hrule])

end Check

/-! ### A registration with a member ignored -/

/-- The second registration is the first one with the destination member `m` ignored. -/
structure Registration.IgnoresMember (r r' : Registration) (m : String) : Prop where
  config_eq : r'.configFor? m = some .ignored
  /-- What is said about other members, and in which order. -/
  others_eq : (r'.directives.filter (!·.targets m)).map (·.unplaced) =
    (r.directives.filter (!·.targets m)).map (·.unplaced)
  reverse_eq : r'.reverseDirectives.map (·.unplaced) = r.reverseDirectives.map (·.unplaced)
  substitutesNull_eq : r'.substitutesNull m = r.substitutesNull m
  conditions_eq : (r'.directivesFor m).any (·.condition) = (r.directivesFor m).any (·.condition)
  unreported : ∀ settings (x : Context), x.registration = r' → ∀ f ∈ Check.report settings x,
    f.rule ∈ .conflict :: Check.memberRules →
      ∀ name, f.detail? .member = some name → Pieces.sameName name m = false

/-- The directives of the second registration are those of the first one, but for one of the
member `m` that ignores it.  It holds the conditions of those whose place it takes. -/
structure Registration.PutsIgnore (r r' : Registration) (m : String)
    (before old after : List Directive) (d : Directive) : Prop where
  directives_eq : r.directives.map (·.unplaced) = before ++ old ++ after
  directives_eq' : r'.directives.map (·.unplaced) = before ++ d :: after
  reverse_eq : r'.reverseDirectives.map (·.unplaced) = r.reverseDirectives.map (·.unplaced)
  target_eq : d.target = [m]
  config_eq : d.config = some .ignored
  targets_old : ∀ e ∈ old, e.targets m = true
  nullSubstitute_eq : d.nullSubstitute = old.any (·.nullSubstitute)
  condition_eq : d.condition = old.any (·.condition)
  free : r.configures m = false

namespace Registration

variable {r r' : Registration} {m name : String}

/-- What holds of some directive about a member does not depend on positions. -/
theorem any_directivesFor (p : Directive → Bool) (hp : ∀ d, p d.unplaced = p d) :
    (r.directivesFor m).any p =
      (r.directives.map (·.unplaced)).any fun d => d.targets m && p d := by
  rw [directivesFor, List.any_filter, List.any_map]
  exact congrArg r.directives.any (funext fun d => by simp [hp])

/-- How often a member is configured can be counted without the places of directives. -/
theorem countP_configured (name : String) :
    (Check.configured r).countP (·.targets name) = (r.directives.map (·.unplaced)).countP
      fun d => d.targets name && (d.config.isSome && d.member?.isSome) := by
  rw [Check.configured, List.countP_filter, List.countP_map]
  rfl

/-- Directives about a member that nothing configures hold conditions alone. -/
theorem config_eq_none_of_targets (h : r.configures m = false) {d : Directive}
    (hd : d ∈ r.directives.map (·.unplaced)) (htargets : d.targets m = true) :
    d.config = none := by
  obtain ⟨e, he, rfl⟩ := List.mem_map.1 hd
  have hnot := List.any_eq_false.1 h e he
  rw [Directive.targets_unplaced] at htargets
  rw [Directive.startsAt_of_targets htargets, Bool.true_and, Bool.or_eq_true, not_or] at hnot
  exact Option.not_isSome_iff_eq_none.1 hnot.1

namespace PutsIgnore

variable {before old after : List Directive} {d : Directive}
variable (h : r.PutsIgnore r' m before old after d)
include h

/-- The new directive is about the member. -/
theorem targets : d.targets m = true := Directive.targets_of_target_eq h.target_eq

/-- The others about it configure nothing. -/
theorem config_eq_none {e : Directive} (he : e ∈ before ++ old ++ after)
    (htargets : e.targets m = true) : e.config = none :=
  config_eq_none_of_targets h.free (h.directives_eq ▸ he) htargets

/-- So it is before the new one. -/
theorem config_eq_none_left {e : Directive} (he : e ∈ before) (htargets : e.targets m = true) :
    e.config = none :=
  h.config_eq_none (List.mem_append_left _ (List.mem_append_left _ he)) htargets

/-- So it is after the new one. -/
theorem config_eq_none_right {e : Directive} (he : e ∈ after) (htargets : e.targets m = true) :
    e.config = none :=
  h.config_eq_none (List.mem_append_right _ he) htargets

/-- The new directive is the first one that configures the member. -/
theorem configFor?_eq_ignored : r'.configFor? m = some .ignored := by
  have hbefore : (before.filter (·.targets m)).findSome? (·.config) = none :=
    List.findSome?_eq_none_iff.2 fun e he =>
      h.config_eq_none_left (List.mem_filter.1 he).1 (List.mem_filter.1 he).2
  rw [configFor?_eq, h.directives_eq', List.filter_append, List.findSome?_append, hbefore,
    Option.none_or, List.filter_cons, if_pos h.targets, List.findSome?_cons, h.config_eq]

/-- Directives about other members stay, in their order. -/
theorem others_eq : (r'.directives.filter (!·.targets m)).map (·.unplaced) =
    (r.directives.filter (!·.targets m)).map (·.unplaced) := by
  have hmap (q : Registration) : (q.directives.filter (!·.targets m)).map (·.unplaced) =
      (q.directives.map (·.unplaced)).filter (!·.targets m) := by
    rw [List.filter_map]
    rfl
  have hold : old.filter (!·.targets m) = [] :=
    List.filter_eq_nil_iff.2 fun e he => by simp [h.targets_old e he]
  rw [hmap, hmap, h.directives_eq, h.directives_eq', List.filter_append, List.filter_append,
    List.filter_append, hold, List.append_nil, List.filter_cons_of_neg (by simp [h.targets])]

/-- The conditions of the member are kept. -/
theorem any_directivesFor_eq (p : Directive → Bool) (hp : ∀ d, p d.unplaced = p d)
    (hd : p d = old.any p) : (r'.directivesFor m).any p = (r.directivesFor m).any p := by
  have hold : (old.any fun e => e.targets m && p e) = old.any p := by
    rw [← List.any_filter, List.filter_eq_self.2 h.targets_old]
  rw [any_directivesFor p hp, any_directivesFor p hp, h.directives_eq, h.directives_eq',
    List.any_append, List.any_append, List.any_append, List.any_cons, hold, h.targets,
    Bool.true_and, hd, Bool.or_assoc]

/-- One directive configures the member. -/
theorem countP_configured_le (hname : Pieces.sameName name m = true) :
    (Check.configured r').countP (·.targets name) ≤ 1 := by
  have hnone {ds : List Directive} (hds : ∀ e ∈ ds, e.targets m = true → e.config = none) :
      (ds.countP fun e => e.targets name && (e.config.isSome && e.member?.isSome)) = 0 :=
    List.countP_eq_zero.2 fun e he hcount => by
      simp only [Bool.and_eq_true, Directive.targets_congr hname] at hcount
      rw [hds e he hcount.1] at hcount
      cases hcount.2.1
  have hbefore := hnone fun e he => h.config_eq_none_left he
  have hafter := hnone fun e he => h.config_eq_none_right he
  rw [countP_configured, h.directives_eq', List.countP_append, List.countP_cons, hbefore, hafter]
  split <;> omega

/-- Nothing is reported any more about the member. -/
theorem unreported (settings : Check.SmellSettings) (x : Context) (hx : x.registration = r') :
    ∀ f ∈ Check.report settings x, f.rule ∈ .conflict :: Check.memberRules →
      ∀ name, f.detail? .member = some name → Pieces.sameName name m = false := by
  intro f hf hrule name hname
  rcases List.mem_cons.1 hrule with hconflict | hrule
  · refine Bool.eq_false_iff.2 fun hsame => ?_
    have hmany := Check.one_lt_countP_of_mem_conflicts
      (Check.mem_conflicts_of_mem_report hf hconflict) hname
    have hone := h.countP_configured_le hsame
    rw [hx] at hmany
    omega
  · have hmem : d ∈ r'.directives.map (·.unplaced) := by simp [h.directives_eq']
    obtain ⟨e, he, rfl⟩ := List.mem_map.1 hmem
    have htarget : e.target.head? = some m := congrArg List.head? h.target_eq
    have hconfig : e.config.isSome = true := congrArg Option.isSome h.config_eq
    exact configured_member_unreported settings x (hx ▸ he) htarget (Or.inl hconfig) f hf hrule
      name hname

/-- A registration into which the directive is put has the member ignored. -/
theorem ignoresMember : r.IgnoresMember r' m where
  config_eq := h.configFor?_eq_ignored
  others_eq := h.others_eq
  reverse_eq := h.reverse_eq
  substitutesNull_eq := h.any_directivesFor_eq (·.nullSubstitute) (fun _ => rfl) h.nullSubstitute_eq
  conditions_eq := h.any_directivesFor_eq (·.condition) (fun _ => rfl) h.condition_eq
  unreported := h.unreported

end PutsIgnore
end Registration

/-! ### Where the call is put -/

namespace Registration

namespace Halves

variable {root : Call} {front back : List Call} {chain : Chain}
variable (h : Halves root front back chain)
include h

/-- The calls that configure the mapping end before `ReverseMap`. -/
theorem forwardCount_eq : forwardCount chain = 1 + front.length := by
  rw [forwardCount, reverseOf?, h.backward_eq]
  cases back with
  | nil => simp [indexed, h.calls_eq, Nat.add_comm]
  | cons c cs => rfl

end Halves


end Registration

namespace Site

variable [CSharp.Reader] {s : Site} {m : String}

/-- A member is configured by a new call, or by one in the place of a call that holds
conditions of the member alone. -/
theorem configure_cases (s : Site) (m options : String) :
    (∃ text, s.configure m options = .appendCall s.registration.id text) ∨
      ∃ d ∈ s.registration.directives, d.targets m = true ∧ d.config = none ∧
        ∃ text, s.configure m options = .replaceCall s.registration.id d.callIndex text := by
  rw [configure]
  split
  · next d ms hfound =>
    obtain ⟨e, he, h⟩ := Option.bind_eq_some_iff.1 hfound
    obtain ⟨ms', -, heq⟩ := Option.map_eq_some_iff.1 h
    obtain ⟨rfl, rfl⟩ := Prod.mk.inj heq
    have hmem := List.mem_filter.1 (List.mem_of_find?_eq_some he)
    have hnone := List.find?_some he
    rw [Bool.and_eq_true, Option.isNone_iff_eq_none] at hnone
    exact Or.inr ⟨e, hmem.1, hmem.2, hnone.1, _, rfl⟩
  · exact Or.inl ⟨_, rfl⟩

/-- An action makes the change that it was asked for. -/
theorem operation_of_action? {strategy subject title : String} {confidence : Confidence}
    {op : Operation} {a : Action} (h : s.action? strategy subject title confidence op = some a) :
    a.operation = op := by
  obtain ⟨edits, -, rfl⟩ := Option.map_eq_some_iff.1 h
  rfl

/-- The action that ignores a member configures it so. -/
theorem operation_of_ignore? {confidence : Confidence} {a : Action}
    (h : s.ignore? confidence = some a) (hm : s.member? = some m) :
    a.operation = s.configure m "opt.Ignore()" := by
  rw [ignore?, hm] at h
  simp only [Option.bind_eq_bind, Option.bind_some, memberAction?, hm] at h
  exact operation_of_action? h

end Site

namespace Registration

variable {c : Catalog} {fileIndex id : Nat} {file : Source.File} {chain : Chain} {r : Registration}
variable {m : String} {mk : List OptionCall → Call}

/-- A new call before the mapping back ignores the member. -/
theorem ignoresMember_of_append (hr : ofChain? c fileIndex file id chain = some r)
    (hfree : r.configures m = false) (hmk : (mk []).IgnoresAfter m []) (i : Nat) (text : String) :
    ∃ chain' r', Operation.put? chain mk (.appendCall i text) = some chain' ∧
      ofChain? c fileIndex file id chain' = some r' ∧ r.IgnoresMember r' m := by
  obtain ⟨ns, root, types, hroot, rfl, hsame⟩ := ofChain?_eq_some hr
  obtain ⟨front, back, h⟩ := exists_halves hroot
  have hcalls : chain.calls.take (forwardCount chain) ++
      mk [] :: chain.calls.drop (forwardCount chain) = root :: (front ++ [mk []] ++ back) := by
    rw [h.forwardCount_eq, h.calls_eq, Nat.add_comm]
    simp
  refine ⟨_, _, rfl, hsame _ (by rw [hcalls]; rfl), ?_⟩
  have h' : Halves root (front ++ [mk []]) back { chain with
      calls := chain.calls.take (forwardCount chain) ++
        mk [] :: chain.calls.drop (forwardCount chain) } := by
    refine ⟨hcalls, fun d hd => ?_, h.back_reversed⟩
    rcases List.mem_append.1 hd with hd | hd
    · exact h.front_forward d hd
    · rw [List.mem_singleton.1 hd, hmk.name_eq]
      decide
  obtain ⟨d, hd, htarget, hconfig, hnull, hcondition⟩ := Directive.ofCall_of_ignoresAfter hmk rfl 0
  refine PutsIgnore.ignoresMember
    ⟨(?_ : _ = front.flatMap (Directive.ofCall 0) ++ [] ++ []), ?_, ?_, htarget, hconfig,
      fun e he => absurd he List.not_mem_nil, hnull, hcondition, hfree⟩
  · rw [h.directives_eq, List.append_nil, List.append_nil]
  · rw [h'.directives_eq, List.flatMap_append, List.flatMap_singleton, hd]
  · rw [h.reverseDirectives_eq, h'.reverseDirectives_eq]

/-- A call in the place of one that holds conditions of the member alone ignores it. -/
theorem ignoresMember_of_replace (hr : ofChain? c fileIndex file id chain = some r)
    (hfree : r.configures m = false) (hmk : ∀ old, (mk old).IgnoresAfter m old)
    {d : Directive} (hd : d ∈ r.directives) (htargets : d.targets m = true)
    (hconfig : d.config = none) (i : Nat) (text : String) :
    ∃ chain' r', Operation.put? chain mk (.replaceCall i d.callIndex text) = some chain' ∧
      ofChain? c fileIndex file id chain' = some r' ∧ r.IgnoresMember r' m := by
  obtain ⟨ns, root, types, hroot, rfl, hsame⟩ := ofChain?_eq_some hr
  obtain ⟨front, back, h⟩ := exists_halves hroot
  obtain ⟨before, call, after, rfl, hindex, hcall⟩ :=
    h.exists_of_mem_directives id fileIndex file.path ns types hd
  obtain ⟨-, honly, hfree', hnull, hcondition⟩ :=
    Directive.ofCall_of_config_eq_none hcall hconfig
  have hcalls : chain.calls = (root :: before) ++ call :: (after ++ back) := by
    rw [h.calls_eq]
    simp
  have hlength : d.callIndex = (root :: before).length := by
    rw [hindex, List.length_cons, Nat.add_comm]
  have hget : chain.calls[d.callIndex]? = some call := by
    rw [hcalls, hlength, List.getElem?_append_right (Nat.le_refl _), Nat.sub_self]
    rfl
  have hset : chain.calls.set d.callIndex (mk (Directive.optionCalls call)) =
      root :: (before ++ mk (Directive.optionCalls call) :: after ++ back) := by
    rw [hcalls, hlength, List.set_append_right _ _ (Nat.le_refl _), Nat.sub_self]
    simp
  refine ⟨_, _, by rw [Operation.put?, hget, Option.map_some], hsame _ (by rw [hset]; rfl), ?_⟩
  have h' : Halves root (before ++ mk (Directive.optionCalls call) :: after) back { chain with
      calls := chain.calls.set d.callIndex (mk (Directive.optionCalls call)) } := by
    refine ⟨hset, fun e he => ?_, h.back_reversed⟩
    rcases List.mem_append.1 he with he | he
    · exact h.front_forward e (List.mem_append_left _ he)
    · rcases List.mem_cons.1 he with rfl | he
      · rw [(hmk _).name_eq]
        decide
      · exact h.front_forward e (List.mem_append_right _ (List.mem_cons_of_mem _ he))
  obtain ⟨e, he, htarget, hignored, hnull', hcondition'⟩ :=
    Directive.ofCall_of_ignoresAfter (hmk (Directive.optionCalls call)) hfree' 0
  have hold : Directive.ofCall 0 call = [d.unplaced] := by
    rw [← Directive.map_unplaced_ofCall, honly]
    rfl
  refine PutsIgnore.ignoresMember
    ⟨(?_ : _ = before.flatMap (Directive.ofCall 0) ++ [d.unplaced] ++
        after.flatMap (Directive.ofCall 0)), ?_, ?_, htarget, hignored,
      fun g hg => by rw [List.mem_singleton.1 hg]; exact htargets, ?_, ?_, hfree⟩
  · rw [h.directives_eq, List.flatMap_append, List.flatMap_cons, hold, List.append_assoc]
  · rw [h'.directives_eq, List.flatMap_append, List.flatMap_cons, he]
    rfl
  · rw [h.reverseDirectives_eq, h'.reverseDirectives_eq]
  · rw [hnull', ← hnull]
    simp [Directive.unplaced]
  · rw [hcondition', ← hcondition]
    simp [Directive.unplaced]

end Registration

/-- **Ignoring a member settles its finding.**  Take a finding about a destination member of
a registration that types do not fit or that nothing fills, and put a call that ignores the
member into the chain where the action says, keeping the conditions it takes the place of.
The chain registers the same mapping with the member ignored: what it says about other
members and about the mapping back stays as it is, in the same order, and whatever the
context, nothing is reported about the member any more. -/
theorem ignored_member_settled [CSharp.Reader] {c : Catalog} {fileIndex id : Nat} {file : Source.File}
    {chain : Chain} {r : Registration}
    (hr : Registration.ofChain? c fileIndex file id chain = some r)
    {settings : Check.SmellSettings} {x : Context} (hx : x.registration = r)
    {s : Site} (hs : s.registration = r) (hfinding : s.finding ∈ Check.report settings x)
    (hrule : s.finding.rule ∈ [.typeMismatch, .destinationUnmapped, RuleId.requiredUnmapped])
    {m : String} (hm : s.member? = some m) {confidence : Confidence} {a : Action}
    (ha : s.ignore? confidence = some a) {mk : List OptionCall → Call}
    (hmk : ∀ old, (mk old).IgnoresAfter m old) :
    ∃ chain' r', a.operation.put? chain mk = some chain' ∧
      Registration.ofChain? c fileIndex file id chain' = some r' ∧ r.IgnoresMember r' m := by
  have hmember : s.finding.rule ∈ Check.memberRules := by
    simp only [List.mem_cons, List.not_mem_nil, or_false] at hrule
    rcases hrule with hrule | hrule | hrule <;> rw [hrule] <;> decide
  have hfree : r.configures m = false := by
    rw [← hx]
    exact Check.not_configures_of_mem_report hfinding hmember hm
  rw [Site.operation_of_ignore? ha hm]
  rcases s.configure_cases m "opt.Ignore()" with
    ⟨text, happend⟩ | ⟨d, hd, htargets, hconfig, text, hreplace⟩
  · rw [happend]
    exact Registration.ignoresMember_of_append hr hfree (hmk []) _ text
  · rw [hreplace]
    rw [hs] at hd
    exact Registration.ignoresMember_of_replace hr hfree hmk hd htargets hconfig _ text

/-- A call that ignores a member, after the calls `old` on its options. -/
def ignoreCall (m : String) (old : List OptionCall) : Call :=
  let target := { (default : Source.Lambda) with
    body := { (default : Source.Summary) with memberPath := some [m] } }
  let options := { (default : Source.Lambda) with
    optionCalls := old ++ [⟨"Ignore", [], [], default⟩] }
  { (default : Call) with
    name := "ForMember"
    args := [⟨"", default, .lambda target⟩, ⟨"", default, .lambda options⟩] }

/-- The call of the example ignores the member. -/
theorem ignoresAfter_ignoreCall (m : String) (old : List OptionCall) :
    (ignoreCall m old).IgnoresAfter m old :=
  ⟨rfl, rfl, _, rfl, rfl⟩

/-- A mapping with the mapping back, and a condition on a member that nothing fills. -/
def conditional : Workspace :=
  .ofSources [("P.cs", "AddMaps(c=>c.CreateMap<S,D>()" ++
    ".ForMember(d=>d.x,o=>o.Condition(s=>true)).ReverseMap());record S;record D(int X);")]

/-- The document as it is read. -/
def conditionalFile : Source.File := conditional.files.head?.getD default

/-- Its chain. -/
def conditionalChain : Chain := conditionalFile.chains.head?.getD default

/-- The registration of the chain. -/
def conditionalRegistration? : Option Registration :=
  Registration.ofChain? conditional.catalog 0 conditionalFile 0 conditionalChain

/-- What is found for it. -/
def conditionalReport (r : Registration) : List Finding :=
  Check.report {} (.ofRegistration conditional.catalog {} [r] r)

/-- A finding with what is needed to settle it. -/
def conditionalSite (r : Registration) (f : Finding) : Site :=
  ⟨conditional, ⟨[r], {}, [f]⟩, f, r, conditional.catalog, none, none⟩

/-- The findings, each with its member and the change that ignores the member. -/
def conditionalFixes (r : Registration) : List (RuleId × Option String × Option Operation) :=
  (conditionalReport r).map fun f =>
    let s := conditionalSite r f
    (f.rule, s.member?, (s.ignore? .medium).map (·.operation))

set_option maxRecDepth 100000 in
/-- One finding of the example has a fix, which takes the place of the condition and keeps it.
-/
theorem conditionalFixes_eq : conditionalRegistration?.map conditionalFixes =
    some [(.destinationUnmapped, some "X", some (.replaceCall 0 1
      "ForMember(dest => dest.X, opt => \x7b opt.Condition(s=>true); opt.Ignore(); \x7d)"))] := by
  decide +kernel

/-- The condition is kept in the call that ignores the member. -/
theorem ignored_member_settled_conditional : ∃ r f a,
    conditionalRegistration? = some r ∧ f ∈ conditionalReport r ∧
      f.rule ∈ [.typeMismatch, .destinationUnmapped, RuleId.requiredUnmapped] ∧
        (conditionalSite r f).member? = some "X" ∧
          (conditionalSite r f).ignore? .medium = some a ∧
            (∀ old, (ignoreCall "X" old).IgnoresAfter "X" old) ∧
              ∃ chain' r', a.operation.put? conditionalChain (ignoreCall "X") = some chain' ∧
                Registration.ofChain? conditional.catalog 0 conditionalFile 0 chain' = some r' ∧
                  r.IgnoresMember r' "X" := by
  obtain ⟨r, hr, hfixes⟩ := Option.map_eq_some_iff.1 conditionalFixes_eq
  obtain ⟨f, fs, hreport, hf, -⟩ := List.map_eq_cons_iff.1 hfixes
  simp only [Prod.mk.injEq, Option.map_eq_some_iff] at hf
  obtain ⟨hrule, hmember, a, ha, -⟩ := hf
  have hmem : f ∈ conditionalReport r := hreport ▸ List.mem_cons_self
  have hrules : f.rule ∈ [.typeMismatch, .destinationUnmapped, RuleId.requiredUnmapped] := by
    rw [hrule]
    decide
  exact ⟨r, f, a, hr, hmem, hrules, hmember, ha, ignoresAfter_ignoreCall "X",
    ignored_member_settled hr (x := .ofRegistration conditional.catalog {} [r] r) rfl
      (s := conditionalSite r f) rfl hmem hrules hmember ha (ignoresAfter_ignoreCall "X")⟩

end MappingAudit
