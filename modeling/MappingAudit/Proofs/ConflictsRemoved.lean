/-
# Conflicts that are removed

Of the configurations of one destination member all but the first are in conflict
(`Check.map_span_conflicts`), so there are as many conflicts as configurations that repeat an
earlier one (`Check.length_conflicts`).

A conflict that gives the position of its call can be settled by removing the call.  All that
the call configures is one member, and a call before it configures that member too: the first
configuration stays, and with it the one in force (`Registration.conflict_removable`).
-/

import MappingAudit.CSharp.Declarations
import MappingAudit.Proofs.ChainHalves
import MappingAudit.Proofs.Configured
import Mathlib.Data.Finset.Card

namespace MappingAudit

open Source (Call Chain)

/-- The chain without its call at a position. -/
def Source.Chain.without (chain : Chain) (i : Nat) : Chain :=
  { chain with calls := chain.calls.eraseIdx i }

namespace Finding

/-- The finding is about a member of the name, in any case. -/
def isAbout (f : Finding) (m : String) : Bool :=
  (f.detail? .member).any fun name => Pieces.sameName name m

end Finding

namespace Directive

/-- The member of a directive in lower case, by which directives are told apart. -/
def key? (d : Directive) : Option (List Char) :=
  d.member?.map fun m => m.toList.map Char.toLower

/-- The directive configures a member of the destination itself. -/
def configures (d : Directive) : Bool := d.config.isSome && d.member?.isSome

variable {d e : Directive} {m : String}

/-- A directive is about a member when its key is the name of the member in small letters. -/
theorem targets_iff : d.targets m = true ↔ d.key? = some (m.toList.map Char.toLower) := by
  rw [targets, key?]
  cases d.member? with
  | none => simp
  | some name =>
    rw [Option.any_some, Option.map_some, Option.some_inj]
    exact Pieces.sameName_iff

/-- Directives with one key are about the same members. -/
theorem targets_congr_key? (h : d.key? = e.key?) : d.targets m = e.targets m := by
  rw [Bool.eq_iff_iff, targets_iff, targets_iff, h]

/-- A directive of a member is about it. -/
theorem targets_of_member? (h : d.member? = some m) : d.targets m = true := by
  rw [targets, h]
  exact Pieces.sameName_refl m

/-- All directives of a call are about one member. -/
theorem target_of_mem_ofCall {i : Nat} {c : Call} (h : d ∈ ofCall i c) :
    callTarget? c = some d.target := by
  rw [ofCall] at h
  cases htarget : callTarget? c with
  | none =>
    rw [htarget] at h
    exact absurd h List.not_mem_nil
  | some target =>
    rw [htarget] at h
    simp only at h
    split at h
    · rw [List.mem_singleton.1 h]
    · obtain ⟨config, -, rfl⟩ := List.mem_map.1 h
      rfl

/-- All directives of a call have one key. -/
theorem key?_eq_of_mem_ofCall {i j : Nat} {c : Call} (hd : d ∈ ofCall i c) (he : e ∈ ofCall j c) :
    d.key? = e.key? := by
  have htarget := (target_of_mem_ofCall hd).symm.trans (target_of_mem_ofCall he)
  rw [key?, key?, member?, member?, Option.some.inj htarget]

end Directive

/-- A position can be read back from its text. -/
theorem eq_of_toString_eq {i j : Nat} (h : toString i = toString j) : i = j := by
  have hdigits : Nat.toDigits 10 i = Nat.toDigits 10 j := by
    have hchars := congrArg String.toList h
    simpa [Nat.toString_eq_ofList_toDigits] using hchars
  calc i = Nat.ofDigitChars 10 (Nat.toDigits 10 i) 0 := Nat.ofDigitChars_ten_toDigits.symm
    _ = Nat.ofDigitChars 10 (Nat.toDigits 10 j) 0 := by rw [hdigits]
    _ = j := Nat.ofDigitChars_ten_toDigits

/-- The members of the configurations of a registration, in their order. -/
def Registration.configuredKeys (r : Registration) : List (Option (List Char)) :=
  (Check.configured r).map (·.key?)

/-! ### Which configurations are in conflict -/

namespace Check

open Directive (key?)

variable {x : Context} {before ds : List Directive} {d : Directive} {f : Finding} {m : String}

/-- A conflict is found where an earlier configuration is about the same member. -/
theorem isSome_conflictFinding? (x : Context) (before : List Directive)
    (hd : d.member?.isSome = true) :
    (conflictFinding? x before d).isSome = true ↔ d.key? ∈ before.map key? := by
  obtain ⟨member, hmember⟩ := Option.isSome_iff_exists.1 hd
  have hkey : d.key? = some (member.toList.map Char.toLower) :=
    Directive.targets_iff.1 (Directive.targets_of_member? hmember)
  have hmem : d.key? ∈ before.map key? ↔ ∃ e ∈ before, e.targets member = true := by
    rw [List.mem_map, hkey]
    simp only [Directive.targets_iff]
  rw [hmem, conflictFinding?, hmember]
  constructor
  · intro h
    obtain ⟨g, h⟩ := Option.isSome_iff_exists.1 h
    obtain ⟨name, hname, h⟩ := Option.bind_eq_some_iff.1 h
    obtain rfl := Option.some.inj hname
    obtain ⟨first, hfirst, -⟩ := Option.bind_eq_some_iff.1 h
    exact ⟨first, List.mem_filter.1 (List.mem_of_mem_head? hfirst)⟩
  · rintro ⟨e, he, htargets⟩
    have hne : before.filter (·.targets member) ≠ [] :=
      List.ne_nil_of_mem (List.mem_filter.2 ⟨he, htargets⟩)
    obtain ⟨first, rest, hcons⟩ := List.exists_cons_of_ne_nil hne
    simp only [Option.bind_eq_bind, Option.bind_some, hcons, List.head?_cons, Option.pure_def,
      Option.isSome_some]

/-- A conflict is found at its directive and names the member, which an earlier directive is
about too.  When it gives the position of the call, the earlier one stands in another call. -/
theorem of_conflictFinding? (h : conflictFinding? x before d = some f) :
    f.span = d.span ∧ ∃ member, d.member? = some member ∧ f.detail? .member = some member ∧
      ∃ e ∈ before, e.targets member = true ∧
        ∀ text, f.detail? .callIndex = some text →
          text = toString d.callIndex ∧ e.callIndex ≠ d.callIndex := by
  obtain ⟨member, hmember, h⟩ := Option.bind_eq_some_iff.1 h
  obtain ⟨first, hfirst, h⟩ := Option.bind_eq_some_iff.1 h
  obtain rfl := Option.some.inj h
  have hfirst' := List.mem_of_mem_head? hfirst
  obtain ⟨hmem, htargets⟩ := List.mem_filter.1 hfirst'
  refine ⟨by simp [Context.finding], member, hmember, by simp, first, hmem, htargets, ?_⟩
  intro text htext
  by_cases hall : (before.filter (·.targets member)).all (·.callIndex != d.callIndex) = true
  · have heq : toString d.callIndex = text := by simpa [hall] using htext
    have hne := List.all_eq_true.1 hall first hfirst'
    exact ⟨heq.symm, by simpa using hne⟩
  · simp [hall] at htext

/-- Each conflict is found for one configuration, given those before it. -/
theorem exists_of_mem_conflicts (h : f ∈ conflictsAfter x before ds) :
    ∃ earlier d later, ds = earlier ++ d :: later ∧
      conflictFinding? x (before ++ earlier) d = some f := by
  induction ds generalizing before with
  | nil => exact absurd h List.not_mem_nil
  | cons d ds ih =>
    rw [conflictsAfter, List.mem_append, Option.mem_toList] at h
    rcases h with h | h
    · exact ⟨[], d, ds, rfl, by rw [List.append_nil]; exact h⟩
    · obtain ⟨earlier, e, later, rfl, he⟩ := ih h
      refine ⟨d :: earlier, e, later, rfl, ?_⟩
      rwa [List.append_assoc] at he

/-- A configuration is in conflict or the first one about its member. -/
theorem length_conflictsAfter (x : Context) (before : List Directive)
    (hds : ∀ d ∈ ds, d.member?.isSome = true) :
    (conflictsAfter x before ds).length + ((before ++ ds).map key?).toFinset.card =
      ds.length + (before.map key?).toFinset.card := by
  induction ds generalizing before with
  | nil => simp [conflictsAfter]
  | cons d ds ih =>
    obtain ⟨hd, hds⟩ := List.forall_mem_cons.1 hds
    have hrest := ih (before ++ [d]) hds
    have hkeys :
        ((before ++ [d]).map key?).toFinset = insert d.key? (before.map key?).toFinset := by
      ext k
      simp
    have hcount : (conflictFinding? x before d).toList.length +
        (insert d.key? (before.map key?).toFinset).card = 1 + (before.map key?).toFinset.card := by
      have hfound := isSome_conflictFinding? x before hd
      by_cases hmem : d.key? ∈ before.map key?
      · obtain ⟨g, hg⟩ := Option.isSome_iff_exists.1 (hfound.2 hmem)
        rw [hg, Finset.insert_eq_of_mem (List.mem_toFinset.2 hmem)]
        rfl
      · have hnone : conflictFinding? x before d = none := by
          rw [← Option.not_isSome_iff_eq_none, hfound]
          exact hmem
        rw [hnone, Finset.card_insert_of_notMem fun h => hmem (List.mem_toFinset.1 h)]
        simp [Nat.add_comm]
    rw [hkeys, List.append_assoc, List.singleton_append] at hrest
    rw [conflictsAfter, List.length_append, List.length_cons]
    omega

/-- A directive that configures a member has one. -/
theorem isSome_member?_of_mem_configured {r : Registration} (hd : d ∈ configured r) :
    d.member?.isSome = true := by
  have hboth := (List.mem_filter.1 hd).2
  rw [Bool.and_eq_true] at hboth
  exact hboth.2

/-- **There are as many conflicts as configurations that repeat an earlier one.** -/
theorem length_conflicts (x : Context) :
    (conflicts x).length + x.registration.configuredKeys.toFinset.card =
      x.registration.configuredKeys.length := by
  have hlength := length_conflictsAfter x []
    fun d hd => isSome_member?_of_mem_configured (r := x.registration) hd
  simpa [conflicts, Registration.configuredKeys] using hlength

/-- The finding about a directive is about the member of the directive. -/
theorem isAbout_of_conflictFinding? (h : conflictFinding? x before d = some f) (m : String) :
    f.isAbout m = d.targets m := by
  obtain ⟨-, member, hmember, hdetail, -⟩ := of_conflictFinding? h
  rw [Finding.isAbout, hdetail, Directive.targets, hmember]

/-- Given the configurations before them, conflicts about a member are found at all of its
configurations; without one before them, at all but the first. -/
theorem map_span_conflictsAfter (x : Context) (before : List Directive)
    (hds : ∀ d ∈ ds, d.member?.isSome = true) (m : String) :
    ((conflictsAfter x before ds).filter (·.isAbout m)).map (·.span) =
      ((ds.filter (·.targets m)).drop
        (if before.any (·.targets m) then 0 else 1)).map (·.span) := by
  induction ds generalizing before with
  | nil => simp [conflictsAfter]
  | cons d ds ih =>
    obtain ⟨hd, hds⟩ := List.forall_mem_cons.1 hds
    have hrest := ih (before ++ [d]) hds
    have hany : (before ++ [d]).any (·.targets m) = (before.any (·.targets m) || d.targets m) := by
      simp
    rw [hany] at hrest
    rw [conflictsAfter, List.filter_append, List.map_append, hrest]
    have hfound := isSome_conflictFinding? x before hd
    by_cases htargets : d.targets m = true
    · have hcons : (d :: ds).filter (·.targets m) = d :: ds.filter (·.targets m) :=
        List.filter_cons_of_pos htargets
      have hearlier : (conflictFinding? x before d).isSome = true ↔
          before.any (·.targets m) = true := by
        rw [hfound, List.mem_map, List.any_eq_true]
        have hkey := Directive.targets_iff.1 htargets
        simp only [Directive.targets_iff, hkey]
      rw [hcons, htargets, Bool.or_true, if_pos rfl, List.drop_zero]
      cases hconflict : conflictFinding? x before d with
      | none =>
        have hnone : ¬ before.any (·.targets m) = true := by
          rw [← hearlier, hconflict]
          exact Bool.false_ne_true
        rw [if_neg hnone]
        rfl
      | some g =>
        have hsome : before.any (·.targets m) = true := by
          rw [← hearlier, hconflict]
          rfl
        have habout : [g].filter (·.isAbout m) = [g] :=
          List.filter_cons_of_pos ((isAbout_of_conflictFinding? hconflict m).trans htargets)
        have hspan : g.span = d.span := (of_conflictFinding? hconflict).1
        rw [if_pos hsome, List.drop_zero, Option.toList_some, habout, List.map_cons, List.map_cons,
          hspan]
        rfl
    · have hcons : (d :: ds).filter (·.targets m) = ds.filter (·.targets m) :=
        List.filter_cons_of_neg htargets
      have hnone : (conflictFinding? x before d).toList.filter (·.isAbout m) = [] := by
        rw [List.filter_eq_nil_iff]
        intro g hg
        rw [isAbout_of_conflictFinding? (Option.mem_toList.1 hg)]
        exact htargets
      rw [hnone, hcons, Bool.eq_false_iff.2 htargets, Bool.or_false]
      rfl

/-- **The first configuration of a member stands, all others are in conflict.** -/
theorem map_span_conflicts (x : Context) (m : String) :
    ((conflicts x).filter (·.isAbout m)).map (·.span) =
      (((configured x.registration).filter (·.targets m)).drop 1).map (·.span) :=
  map_span_conflictsAfter x []
    (fun _ hd => isSome_member?_of_mem_configured (r := x.registration) hd) m

end Check

/-- A configuration of a member comes after one of the same member in an earlier call. -/
structure Registration.Repeats (r : Registration) (earlier later : Directive) : Prop where
  mem_earlier : earlier ∈ Check.configured r
  mem_later : later ∈ Check.configured r
  key?_eq : later.key? = earlier.key?
  callIndex_lt : earlier.callIndex < later.callIndex

/-- A conflict that gives the position of a call is about a configuration there, which repeats
one of an earlier call. -/
theorem Check.exists_repeats {x : Context} {f : Finding} {i : Nat} (hf : f ∈ conflicts x)
    (hi : f.detail? .callIndex = some (toString i))
    (hordered : x.registration.directives.Pairwise fun d e => d.callIndex ≤ e.callIndex) :
    ∃ earlier later, later.callIndex = i ∧ x.registration.Repeats earlier later := by
  obtain ⟨before, later, rest, hsplit, hconflict⟩ := exists_of_mem_conflicts hf
  obtain ⟨-, member, hmember, -, earlier, he, htargets, hindex⟩ := of_conflictFinding? hconflict
  obtain ⟨htext, hother⟩ := hindex _ hi
  rw [List.nil_append] at he
  have hle : earlier.callIndex ≤ later.callIndex := by
    have hconfigured : (configured x.registration).Pairwise _ := hordered.filter _
    rw [hsplit, List.pairwise_append] at hconfigured
    exact hconfigured.2.2 earlier he later List.mem_cons_self
  refine ⟨earlier, later, (eq_of_toString_eq htext).symm, ?_, ?_, ?_, Nat.lt_of_le_of_ne hle hother⟩
  · rw [hsplit]
    exact List.mem_append_left _ he
  · rw [hsplit]
    exact List.mem_append_right _ List.mem_cons_self
  · rw [Directive.targets_iff.1 (Directive.targets_of_member? hmember),
      Directive.targets_iff.1 htargets]

/-! ### Directives without those of one call -/

namespace Registration

/-- The second registration lacks the directives `dropped` of the first one.  They are all
about one member, which one of them configures, and so does a directive before them. -/
structure LosesRepeated (r r' : Registration) (before dropped after : List Directive) : Prop where
  directives_eq : r.directives.map (·.unplaced) = before ++ dropped ++ after
  directives_eq' : r'.directives.map (·.unplaced) = before ++ after
  configured : ∃ d ∈ dropped, d.configures = true
  repeated : ∃ e ∈ before, e.configures = true ∧ ∀ d ∈ dropped, d.key? = e.key?

/-- The configured members do not depend on the places of directives. -/
theorem configuredKeys_eq (r : Registration) : r.configuredKeys =
    ((r.directives.map (·.unplaced)).filter (·.configures)).map (·.key?) := by
  rw [List.filter_map, List.map_map]
  rfl

/-- Nor does the configuration of a member. -/
theorem configFor?_eq (r : Registration) (m : String) : r.configFor? m =
    ((r.directives.map (·.unplaced)).filter (·.targets m)).findSome? (·.config) := by
  rw [configFor?, directivesFor, List.filter_map, List.findSome?_map]
  rfl

namespace LosesRepeated

variable {r r' : Registration} {before dropped after : List Directive}
variable (h : r.LosesRepeated r' before dropped after)
include h

/-- What is in force stays in force. -/
theorem configFor?_kept (m : String) : r'.configFor? m = r.configFor? m := by
  obtain ⟨e, he, hconfigures, hkey⟩ := h.repeated
  rw [configFor?_eq, configFor?_eq, h.directives_eq, h.directives_eq',
    List.filter_append, List.filter_append, List.filter_append, List.findSome?_append,
    List.findSome?_append, List.findSome?_append]
  by_cases htargets : e.targets m = true
  · have hsome : ((before.filter (·.targets m)).findSome? (·.config)).isSome = true := by
      rw [List.findSome?_isSome_iff]
      rw [Directive.configures, Bool.and_eq_true] at hconfigures
      exact ⟨e, List.mem_filter.2 ⟨he, htargets⟩, hconfigures.1⟩
    obtain ⟨config, hconfig⟩ := Option.isSome_iff_exists.1 hsome
    rw [hconfig, Option.some_or, Option.some_or, Option.some_or]
  · have hnone : dropped.filter (·.targets m) = [] := by
      rw [List.filter_eq_nil_iff]
      intro d hd
      rw [Directive.targets_congr_key? (hkey d hd)]
      exact htargets
    rw [hnone, List.findSome?_nil, Option.or_none]

/-- There are fewer conflicts than before. -/
theorem length_conflicts_lt {x y : Context} (hx : x.registration = r) (hy : y.registration = r') :
    (Check.conflicts y).length < (Check.conflicts x).length := by
  let keys (ds : List Directive) : List (Option (List Char)) :=
    (ds.filter (·.configures)).map (·.key?)
  have hkeys : r.configuredKeys = keys before ++ keys dropped ++ keys after := by
    rw [configuredKeys_eq, h.directives_eq]
    simp [keys]
  have hkeys' : r'.configuredKeys = keys before ++ keys after := by
    rw [configuredKeys_eq, h.directives_eq']
    simp [keys]
  have hsubset : keys dropped ⊆ keys before := by
    intro k hk
    obtain ⟨d, hd, rfl⟩ := List.mem_map.1 hk
    obtain ⟨e, he, hconfigures, hkey⟩ := h.repeated
    rw [hkey d (List.mem_filter.1 hd).1]
    exact List.mem_map_of_mem (List.mem_filter.2 ⟨he, hconfigures⟩)
  have hsame : r.configuredKeys.toFinset = r'.configuredKeys.toFinset := by
    ext k
    rw [List.mem_toFinset, List.mem_toFinset, hkeys, hkeys']
    simp only [List.mem_append]
    have hk : k ∈ keys dropped → k ∈ keys before := fun hk => hsubset hk
    tauto
  have hpos : 0 < (keys dropped).length := by
    obtain ⟨d, hd, hconfigures⟩ := h.configured
    exact List.length_pos_of_mem (List.mem_map_of_mem (List.mem_filter.2 ⟨hd, hconfigures⟩))
  have hlength : r.configuredKeys.length = r'.configuredKeys.length + (keys dropped).length := by
    rw [hkeys, hkeys']
    simp only [List.length_append]
    omega
  have hcount := Check.length_conflicts x
  have hcount' := Check.length_conflicts y
  rw [hx, hsame] at hcount
  rw [hy] at hcount'
  omega

end LosesRepeated

/-! ### Chains without one call -/

/-- The positions of calls ascend. -/
theorem pairwise_indexed (n : Nat) (calls : List Call) :
    (indexed n calls).Pairwise fun a b => a.1 < b.1 := by
  induction calls generalizing n with
  | nil => exact List.Pairwise.nil
  | cons c cs ih =>
    have hcons : indexed n (c :: cs) = (n, c) :: indexed (n + 1) cs := rfl
    rw [hcons, List.pairwise_cons]
    refine ⟨?_, ih (n + 1)⟩
    rintro ⟨j, call⟩ hmem
    obtain ⟨before, after, -, hj⟩ := exists_of_mem_indexed hmem
    simp only
    omega

namespace Halves

variable {root : Call} {front back : List Call} {chain : Chain}

/-- A chain without one of the calls that configure the mapping. -/
theorem without {before after : List Call} {call : Call}
    (h : Halves root (before ++ call :: after) back chain) :
    Halves root (before ++ after) back (chain.without (1 + before.length)) where
  calls_eq := by
    have hcalls : chain.calls = (root :: before) ++ call :: (after ++ back) := by
      rw [h.calls_eq]
      simp
    have hlength : 1 + before.length = (root :: before).length := by
      rw [List.length_cons, Nat.add_comm]
    rw [Chain.without, hcalls, hlength, List.eraseIdx_append_of_length_le (Nat.le_refl _),
      Nat.sub_self, List.eraseIdx_cons_zero]
    simp
  front_forward := by
    intro c hc
    refine h.front_forward c ?_
    rcases List.mem_append.1 hc with hc | hc
    · exact List.mem_append_left _ hc
    · exact List.mem_append_right _ (List.mem_cons_of_mem _ hc)
  back_reversed := h.back_reversed

/-- Directives stand in the order of their calls. -/
theorem pairwise_callIndex (h : Halves root front back chain) (id fileIndex : Nat) (file : String)
    (ns : Option String) (types : TypeExpr × TypeExpr) :
    (ofCalls id fileIndex file ns chain root types).directives.Pairwise
      fun d e => d.callIndex ≤ e.callIndex := by
  rw [directives_ofCalls, h.forward_eq, List.pairwise_flatMap]
  constructor
  · rintro ⟨i, c⟩ -
    refine List.pairwise_of_forall_mem_list fun d hd e he => ?_
    rw [(Directive.of_mem_ofCall hd).1, (Directive.of_mem_ofCall he).1]
  · refine (pairwise_indexed 1 front).imp ?_
    rintro ⟨i, c⟩ ⟨j, c'⟩ hlt d hd e he
    rw [(Directive.of_mem_ofCall hd).1, (Directive.of_mem_ofCall he).1]
    exact Nat.le_of_lt hlt

/-- The chain without the call of a configuration that repeats an earlier one. -/
theorem exists_losesRepeated {id fileIndex : Nat} {file : String} {ns : Option String}
    {types : TypeExpr × TypeExpr} (h : Halves root front back chain) {earlier later : Directive}
    (hrepeats : (ofCalls id fileIndex file ns chain root types).Repeats earlier later) :
    (chain.without later.callIndex).calls.head? = some root ∧ ∃ before dropped after,
      (ofCalls id fileIndex file ns chain root types).LosesRepeated
        (ofCalls id fileIndex file ns (chain.without later.callIndex) root types)
          before dropped after := by
  obtain ⟨hmem, hconfigures⟩ := List.mem_filter.1 hrepeats.mem_later
  obtain ⟨hmem', hconfigures'⟩ := List.mem_filter.1 hrepeats.mem_earlier
  have hlt := hrepeats.callIndex_lt
  obtain ⟨before, call, after, rfl, hposition, hcall⟩ :=
    h.exists_of_mem_directives id fileIndex file ns types hmem
  obtain ⟨before', call', after', hfront, hposition', hcall'⟩ :=
    h.exists_of_mem_directives id fileIndex file ns types hmem'
  -- The call of the earlier configuration stands before the one that is removed.
  have hmem_before : call' ∈ before := by
    have hget : (before ++ call :: after)[before'.length]? = some call' := by
      rw [hfront]
      simp
    rw [List.getElem?_append_left (by omega)] at hget
    exact List.mem_of_getElem? hget
  have h' : Halves root (before ++ after) back (chain.without later.callIndex) := by
    rw [hposition]
    exact h.without
  have hplace {d : Directive} {i : Nat} {a : Call} (hd : d ∈ Directive.ofCall i a) :
      d.unplaced ∈ Directive.ofCall 0 a := by
    rw [← Directive.map_unplaced_ofCall i a]
    exact List.mem_map_of_mem hd
  refine ⟨by rw [h'.calls_eq]; rfl, before.flatMap (Directive.ofCall 0), Directive.ofCall 0 call,
    after.flatMap (Directive.ofCall 0), ?_, ?_, ⟨later.unplaced, hplace hcall, hconfigures⟩,
    ⟨earlier.unplaced, ?_, hconfigures', ?_⟩⟩
  · rw [h.directives_eq, List.flatMap_append, List.flatMap_cons, List.append_assoc]
  · rw [h'.directives_eq, List.flatMap_append]
  · exact List.mem_flatMap.2 ⟨call', hmem_before, hplace hcall'⟩
  · intro d hd
    rw [Directive.key?_eq_of_mem_ofCall hd hcall, hrepeats.key?_eq]
    rfl

end Halves

/-- **Removing a conflict is safe.**  Let a chain register a mapping.  Of the configurations of
a destination member, in whatever case they write its name, all but the first are reported,
each at its own place.  When a conflict gives the position of a call, the chain without this
call registers a mapping too, which configures each member as before and has fewer conflicts. -/
theorem conflict_removable {c : Catalog} {fileIndex : Nat} {file : Source.File} {id : Nat}
    {chain : Chain} {r : Registration} (h : ofChain? c fileIndex file id chain = some r)
    {x : Context} (hx : x.registration = r) :
    (∀ m, ((Check.conflicts x).filter (·.isAbout m)).map (·.span) =
        (((Check.configured r).filter (·.targets m)).drop 1).map (·.span)) ∧
      ∀ f ∈ Check.conflicts x, ∀ i, f.detail? .callIndex = some (toString i) →
        ∃ r', ofChain? c fileIndex file id (chain.without i) = some r' ∧
          (∀ m, r'.configFor? m = r.configFor? m) ∧
            ∀ y : Context, y.registration = r' →
              (Check.conflicts y).length < (Check.conflicts x).length := by
  refine ⟨fun m => hx ▸ Check.map_span_conflicts x m, fun f hf i hi => ?_⟩
  obtain ⟨ns, root, types, hroot, rfl, hsame⟩ := ofChain?_eq_some h
  obtain ⟨front, back, hhalves⟩ := exists_halves hroot
  have hordered := hhalves.pairwise_callIndex id fileIndex file.path ns types
  obtain ⟨earlier, later, rfl, hrepeats⟩ := Check.exists_repeats hf hi (hx ▸ hordered)
  rw [hx] at hrepeats
  obtain ⟨hhead, before, dropped, after, hloses⟩ := hhalves.exists_losesRepeated hrepeats
  exact ⟨_, hsame (chain.without later.callIndex).calls hhead, hloses.configFor?_kept,
    fun y hy => hloses.length_conflicts_lt hx hy⟩

/-- A member that is ignored, and then ignored and mapped under its name in lower case. -/
def configuredAgain : Workspace :=
  .ofSources [("P.cs", "AddMaps(c=>c.CreateMap<S,D>().ForMember(d=>d.X,o=>o.Ignore())" ++
    ".ForMember(d=>d.x,o=>\x7bo.Ignore();o.MapFrom(s=>s.Y);\x7d));" ++
    "record S(int Y);record D(int X);")]

/-- The document as it is read. -/
def configuredAgainFile : Source.File := configuredAgain.files.head?.getD default

/-- Its chain. -/
def configuredAgainChain : Chain := configuredAgainFile.chains.head?.getD default

/-- The registration of the chain. -/
def configuredAgainRegistration? : Option Registration :=
  ofChain? configuredAgain.catalog 0 configuredAgainFile 0 configuredAgainChain

/-- The conflicts of a registration of the document. -/
def configuredAgainConflicts (r : Registration) : List Finding :=
  Check.conflicts (.ofRegistration configuredAgain.catalog {} [r] r)

set_option maxRecDepth 100000 in
/-- The first of two conflicts of the example has the position of a call. -/
theorem configuredAgainConflicts_eq : configuredAgainRegistration?.map (fun r =>
    (configuredAgainConflicts r).map (·.detail? .callIndex)) = some [some "2", none] := by
  decide +kernel

/-- Both configurations of the second call are in conflict with the one before it, and the first
of the two conflicts gives the position of the call. -/
theorem conflict_removable_again : ∃ r, configuredAgainRegistration? = some r ∧
    (configuredAgainConflicts r).length = 2 ∧
      (∀ m, ((configuredAgainConflicts r).filter (·.isAbout m)).map (·.span) =
        (((Check.configured r).filter (·.targets m)).drop 1).map (·.span)) ∧
      ∃ f ∈ configuredAgainConflicts r, f.detail? .callIndex = some (toString 2) ∧
        ∃ r', ofChain? configuredAgain.catalog 0 configuredAgainFile 0
            (configuredAgainChain.without 2) = some r' ∧
          (∀ m, r'.configFor? m = r.configFor? m) ∧
            ∀ y : Context, y.registration = r' →
              (Check.conflicts y).length < (configuredAgainConflicts r).length := by
  obtain ⟨r, hr, hindices⟩ := Option.map_eq_some_iff.1 configuredAgainConflicts_eq
  obtain ⟨f, fs, hconflicts, hindex, -⟩ := List.map_eq_cons_iff.1 hindices
  have hmem : f ∈ configuredAgainConflicts r := hconflicts ▸ List.mem_cons_self
  have hlength : (configuredAgainConflicts r).length = 2 := by
    rw [← List.length_map, hindices]
    rfl
  let x : Context := .ofRegistration configuredAgain.catalog {} [r] r
  have hremovable := conflict_removable hr (x := x) rfl
  exact ⟨r, hr, hlength, hremovable.1, f, hmem, hindex, hremovable.2 f hmem 2 hindex⟩

end Registration
end MappingAudit
