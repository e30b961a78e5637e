/-
# All mappings that are missing

The missing mappings are found level by level (`Missing.foundBefore`): a level holds the
mappings that those of the level before need, less the registered ones and those found
already.  `missing_pairs_closed` says what comes of it.  The mappings have different keys,
each but the first is needed by one before it, none is further than `maxNesting` steps away,
and what the nearer ones need is registered or found.

Steps are counted among the mappings that are found, since mappings of one key are one
mapping: what is needed by another one of the same key is not looked for.  One queue, with
the steps of each mapping beside it, finds them in the same order (`Missing.Search.ends_iff`).
-/

import MappingAudit.Proofs.ShapeNames
import Mathlib.Data.List.Nodup

namespace MappingAudit
namespace Missing

/-- The key of a mapping. -/
def key (p : ShapePair) : PairKey := PairKey.ofShapes p.1 p.2

/-- By convention the mapping `p` needs the mapping `q`: two members of the types of `p` are
paired, and `q` is between their types when these are declared, or between the innermost
elements when both are collections. -/
def Needs (c : Catalog) (p q : ShapePair) : Prop :=
  ∃ d ∈ Member.ofShape c .writable p.2, ∃ found : SourceMatch,
    Model.match? c ⟨p.1, Member.ofShape c .readable p.1⟩ d.name = some found ∧
      ((found.member.shape.fit d.shape = .nested ∧
          q = (found.member.shape.underlying, d.shape.underlying)) ∨
        (found.member.shape.fit d.shape = .collection ∧
          ∃ s t, found.member.shape.innermost? = some s ∧ d.shape.innermost? = some t ∧
            s.underlying.isComplex = true ∧ t.underlying.isComplex = true ∧
              s.underlying.sameUnderlying t.underlying = false ∧
                q = (s.underlying, t.underlying)))

variable {c : Catalog} {registry : Registry} {start p q : ShapePair} {k n : Nat}

/-- Collections need a mapping of their innermost elements, when these have members and differ.
-/
theorem elements?_eq_some_iff {s d : Shape} : elements? s d = some q ↔
    ∃ s' d', s.innermost? = some s' ∧ d.innermost? = some d' ∧
      s'.underlying.isComplex = true ∧ d'.underlying.isComplex = true ∧
        s'.underlying.sameUnderlying d'.underlying = false ∧
          q = (s'.underlying, d'.underlying) := by
  simp only [elements?, Option.bind_eq_bind, Option.bind_eq_some_iff, Option.ite_none_right_eq_some,
    Bool.and_eq_true, Bool.not_eq_true', Option.some.injEq]
  constructor
  · rintro ⟨s', hs, d', hd, ⟨⟨hsc, hdc⟩, hsame⟩, rfl⟩
    exact ⟨s', d', hs, hd, hsc, hdc, hsame, rfl⟩
  · rintro ⟨s', d', hs, hd, hsc, hdc, hsame, rfl⟩
    exact ⟨s', hs, d', hd, ⟨⟨hsc, hdc⟩, hsame⟩, rfl⟩

/-- Members need the mapping that their types need, or their elements. -/
theorem ofMembers?_eq_some_iff {s d : Shape} : ofMembers? s d = some q ↔
    (s.fit d = .nested ∧ q = (s.underlying, d.underlying)) ∨
      (s.fit d = .collection ∧ elements? s d = some q) := by
  rw [ofMembers?]
  split
  · next hfit => simp [hfit, eq_comm]
  · next hfit => simp [hfit]
  · next hnested hcollection =>
    refine iff_of_false (Option.some_ne_none q).symm ?_
    rintro (⟨h, -⟩ | ⟨h, -⟩)
    · exact hnested h
    · exact hcollection h

/-- The successors of a mapping are those that it needs. -/
theorem mem_successors_iff : q ∈ successors c p ↔ Needs c p q := by
  simp only [successors, Needs, List.mem_filterMap, Option.bind_eq_bind, Option.bind_eq_some_iff,
    ofMembers?_eq_some_iff, elements?_eq_some_iff]

/-! ### One level -/

/-- A pair is not taken twice. -/
theorem nodup_fresh {found level : List ShapePair} (h : (found.map key).Nodup) :
    ((found ++ fresh registry found level).map key).Nodup := by
  induction level generalizing found with
  | nil => rwa [fresh, List.append_nil]
  | cons p ps ih =>
    rw [fresh]
    split
    · next hnew =>
      rw [List.append_cons]
      refine ih ?_
      rw [isNew, Bool.and_eq_true, Bool.not_eq_true', Bool.not_eq_true', List.any_eq_false] at hnew
      rw [List.map_append, List.map_singleton, List.nodup_append]
      refine ⟨h, List.nodup_singleton _, fun a ha b hb hab => ?_⟩
      obtain ⟨q, hq, rfl⟩ := List.mem_map.1 ha
      rw [List.mem_singleton.1 hb] at hab
      exact hnew.2 q hq (beq_iff_eq.2 hab)
    · exact ih h

/-- What a level asks for is registered or found. -/
theorem covered_fresh {found level : List ShapePair} (h : p ∈ level) :
    registry.contains (key p) = true ∨
      ∃ q ∈ found ++ fresh registry found level, key q = key p := by
  induction level generalizing found with
  | nil => exact absurd h List.not_mem_nil
  | cons r ps ih =>
    rw [fresh]
    split
    · rw [List.append_cons]
      rcases List.mem_cons.1 h with rfl | h
      · exact Or.inr ⟨p, by simp, rfl⟩
      · exact ih h
    · next hold =>
      rcases List.mem_cons.1 h with rfl | h
      · -- a pair is left out because it is registered or because its key is there already
        rw [isNew, Bool.and_eq_true, Bool.not_eq_true', Bool.not_eq_true', not_and] at hold
        by_cases hregistered : registry.contains (key p) = true
        · exact Or.inl hregistered
        · have hany := hold (Bool.eq_false_iff.2 hregistered)
          rw [Bool.not_eq_false, List.any_eq_true] at hany
          obtain ⟨q, hq, hkey⟩ := hany
          exact Or.inr ⟨q, List.mem_append_left _ hq, beq_iff_eq.1 hkey⟩
      · exact ih h

/-! ### All levels -/

/-- What is found before level `k`, and the pairs that this level asks for. -/
def stage (c : Catalog) (registry : Registry) (start : ShapePair) :
    Nat → List ShapePair × List ShapePair
  | 0 => ([], [start])
  | k + 1 =>
    let new := fresh registry (stage c registry start k).1 (stage c registry start k).2
    ((stage c registry start k).1 ++ new, new.flatMap (successors c))

/-- The pairs that are found before level `k`. -/
def foundBefore (c : Catalog) (registry : Registry) (start : ShapePair) (k : Nat) :
    List ShapePair := (stage c registry start k).1

/-- The pairs that level `k` asks for. -/
def levelAt (c : Catalog) (registry : Registry) (start : ShapePair) (k : Nat) :
    List ShapePair := (stage c registry start k).2

/-- The pairs that are found in level `k`. -/
def newAt (c : Catalog) (registry : Registry) (start : ShapePair) (k : Nat) : List ShapePair :=
  fresh registry (foundBefore c registry start k) (levelAt c registry start k)

/-- What is found before a level was found before the last one, or at it. -/
theorem foundBefore_succ (c : Catalog) (registry : Registry) (start : ShapePair) (k : Nat) :
    foundBefore c registry start (k + 1) =
      foundBefore c registry start k ++ newAt c registry start k := rfl

/-- A level holds what the new mappings of the last one need. -/
theorem levelAt_succ (c : Catalog) (registry : Registry) (start : ShapePair) (k : Nat) :
    levelAt c registry start (k + 1) = (newAt c registry start k).flatMap (successors c) := rfl

/-- The levels that are closed are the next ones. -/
theorem close_eq (c : Catalog) (registry : Registry) (start : ShapePair) (n k : Nat) :
    close c registry n (foundBefore c registry start k) (levelAt c registry start k) =
      foundBefore c registry start (k + n + 1) := by
  induction n generalizing k with
  | zero => rfl
  | succ n ih =>
    rw [close, ← newAt, ← foundBefore_succ, ← levelAt_succ, ih, Nat.succ_add_eq_add_succ]

/-- The missing mappings are found at the first levels, up to the greatest. -/
theorem pairs_eq (c : Catalog) (registry : Registry) (s d : Shape) :
    pairs c registry s d = foundBefore c registry (s, d) (maxNesting + 1) := by
  rw [pairs, ← Nat.zero_add maxNesting, ← close_eq]
  rfl

/-- What is found was new at some level. -/
theorem mem_foundBefore_iff :
    p ∈ foundBefore c registry start k ↔ ∃ j < k, p ∈ newAt c registry start j := by
  induction k with
  | zero => simp [foundBefore, stage]
  | succ k ih =>
    rw [foundBefore_succ, List.mem_append, ih]
    constructor
    · rintro (⟨j, hj, hp⟩ | hp)
      · exact ⟨j, by omega, hp⟩
      · exact ⟨k, by omega, hp⟩
    · rintro ⟨j, hj, hp⟩
      rcases Nat.lt_succ_iff_lt_or_eq.1 hj with hj | rfl
      · exact Or.inl ⟨j, hj, hp⟩
      · exact Or.inr hp

/-- More levels find no less. -/
theorem foundBefore_subset {j : Nat} (h : j ≤ k) :
    foundBefore c registry start j ⊆ foundBefore c registry start k := by
  intro p hp
  obtain ⟨i, hi, hp⟩ := mem_foundBefore_iff.1 hp
  exact mem_foundBefore_iff.2 ⟨i, by omega, hp⟩

/-- No key is found twice. -/
theorem nodup_foundBefore (c : Catalog) (registry : Registry) (start : ShapePair) (k : Nat) :
    ((foundBefore c registry start k).map key).Nodup := by
  induction k with
  | zero => exact List.nodup_nil
  | succ k ih => exact nodup_fresh ih

/-- What is new is not registered. -/
theorem unregistered_of_mem_newAt (h : p ∈ newAt c registry start k) :
    registry.contains (key p) = false := (of_mem_fresh h).2

/-- **Each level is needed by the one before.** -/
theorem exists_needs_of_mem_newAt (h : p ∈ newAt c registry start (k + 1)) :
    ∃ q ∈ newAt c registry start k, Needs c q p := by
  have hlevel := (of_mem_fresh h).1
  rw [levelAt_succ, List.mem_flatMap] at hlevel
  obtain ⟨q, hq, hp⟩ := hlevel
  exact ⟨q, hq, mem_successors_iff.1 hp⟩

/-- **What a level needs** is registered or found with the next level. -/
theorem covered_of_mem_newAt (h : p ∈ newAt c registry start k) (hneeds : Needs c p q) :
    registry.contains (key q) = true ∨
      ∃ r ∈ foundBefore c registry start (k + 2), key r = key q := by
  have hlevel : q ∈ levelAt c registry start (k + 1) := by
    rw [levelAt_succ, List.mem_flatMap]
    exact ⟨p, h, mem_successors_iff.2 hneeds⟩
  exact covered_fresh hlevel

/-- The first level has the mapping that the search starts from, unless it is registered. -/
theorem newAt_zero (c : Catalog) (registry : Registry) (start : ShapePair) :
    newAt c registry start 0 = if registry.contains (key start) then [] else [start] := by
  show fresh registry [] [start] = _
  cases h : registry.contains (key start) <;>
    simp [fresh, isNew, show PairKey.ofShapes start.1 start.2 = key start from rfl, h]

/-- From a registered mapping nothing is found; any other is the first. -/
theorem eq_nil_or_head?_foundBefore (c : Catalog) (registry : Registry) (start : ShapePair)
    (k : Nat) :
    (registry.contains (key start) = true → foundBefore c registry start k = []) ∧
      (registry.contains (key start) = false →
        (foundBefore c registry start (k + 1)).head? = some start) := by
  constructor
  · intro h
    have hnew : ∀ j, newAt c registry start j = [] := by
      intro j
      induction j with
      | zero => rw [newAt_zero, if_pos h]
      | succ j ih => rw [newAt, levelAt_succ, ih, List.flatMap_nil, fresh]
    rw [List.eq_nil_iff_forall_not_mem]
    intro p hp
    obtain ⟨j, -, hp⟩ := mem_foundBefore_iff.1 hp
    rw [hnew j] at hp
    exact List.not_mem_nil hp
  · intro h
    induction k with
    | zero =>
      rw [foundBefore_succ, newAt_zero, if_neg (Bool.eq_false_iff.1 h)]
      rfl
    | succ k ih => rw [foundBefore_succ, List.head?_append, ih, Option.some_or]

/-- **Each pair is needed by one before it**, but for the first. -/
theorem exists_before_needs (c : Catalog) (registry : Registry) (start : ShapePair) (k : Nat)
    {i : Nat} (h : (foundBefore c registry start k)[i + 1]? = some p) :
    ∃ j ≤ i, ∃ q, (foundBefore c registry start k)[j]? = some q ∧ Needs c q p := by
  induction k with
  | zero => cases h
  | succ k ih =>
    rw [foundBefore_succ] at h ⊢
    rcases Nat.lt_or_ge (i + 1) (foundBefore c registry start k).length with hi | hi
    · rw [List.getElem?_append_left hi] at h
      obtain ⟨j, hj, q, hq, hneeds⟩ := ih h
      exact ⟨j, hj, q, by rwa [List.getElem?_append_left (by omega)], hneeds⟩
    · rw [List.getElem?_append_right hi] at h
      cases k with
      | zero =>
        -- the first level is the start alone, which has no position after the first
        rw [newAt_zero] at h
        split at h
        · cases h
        · simp [foundBefore, stage] at h
      | succ k =>
        obtain ⟨q, hq, hneeds⟩ := exists_needs_of_mem_newAt (List.mem_of_getElem? h)
        have hmem : q ∈ foundBefore c registry start (k + 1) :=
          mem_foundBefore_iff.2 ⟨k, Nat.lt_succ_self k, hq⟩
        obtain ⟨j, hget⟩ := List.getElem?_of_mem hmem
        have hj := (List.getElem?_eq_some_iff.1 hget).1
        exact ⟨j, by omega, q, by rwa [List.getElem?_append_left hj], hneeds⟩

/-! ### Steps from the start -/

/-- The pair is reached from the start in `n` steps, each from a pair of the list to one of
the list that it needs. -/
inductive ReachedIn (c : Catalog) (ps : List ShapePair) (start : ShapePair) :
    Nat → ShapePair → Prop where
  | start (h : start ∈ ps) : ReachedIn c ps start 0 start
  | step {n : Nat} {p q : ShapePair} (h : ReachedIn c ps start n p) (hneeds : Needs c p q)
      (hq : q ∈ ps) : ReachedIn c ps start (n + 1) q

/-- A pair of level `k` is `k` steps away. -/
theorem reachedIn_of_mem_newAt {m : Nat} (hk : k < m) (h : p ∈ newAt c registry start k) :
    ReachedIn c (foundBefore c registry start m) start k p := by
  induction k generalizing p with
  | zero =>
    have hp := h
    rw [newAt_zero] at hp
    split at hp
    · exact absurd hp List.not_mem_nil
    · obtain rfl := List.mem_singleton.1 hp
      exact .start (mem_foundBefore_iff.2 ⟨0, hk, h⟩)
  | succ k ih =>
    obtain ⟨q, hq, hneeds⟩ := exists_needs_of_mem_newAt h
    exact .step (ih (by omega) hq) hneeds (mem_foundBefore_iff.2 ⟨k + 1, hk, h⟩)

/-- A pair that is `n` steps away is found in one of the levels up to `n`. -/
theorem exists_newAt_of_reachedIn {m : Nat} (hn : n < m)
    (h : ReachedIn c (foundBefore c registry start m) start n p) :
    ∃ j ≤ n, p ∈ newAt c registry start j := by
  induction h with
  | start h =>
    obtain ⟨j, -, hp⟩ := mem_foundBefore_iff.1 h
    refine ⟨0, Nat.zero_le _, ?_⟩
    rw [newAt_zero, unregistered_of_mem_newAt hp, if_neg Bool.false_ne_true]
    exact List.mem_singleton_self start
  | @step n p q _ hneeds hq ih =>
    obtain ⟨j, hj, hp⟩ := ih (by omega)
    obtain ⟨i, -, hnew⟩ := mem_foundBefore_iff.1 hq
    rcases covered_of_mem_newAt hp hneeds with hregistered | ⟨r, hr, hkey⟩
    · rw [unregistered_of_mem_newAt hnew] at hregistered
      cases hregistered
    · -- the key is found with the next level, and `q` alone has it
      have hmem : r ∈ foundBefore c registry start m := foundBefore_subset (by omega) hr
      obtain rfl := List.inj_on_of_nodup_map (nodup_foundBefore c registry start m) hmem hq hkey
      obtain ⟨l, hl, hnew⟩ := mem_foundBefore_iff.1 hr
      exact ⟨l, by omega, hnew⟩

/-! ### The same with one queue

Pairs wait in one queue, each with its number of steps from the first.  The next one is taken
from the front, and what it needs goes to the end.  So the pairs of a level are all taken
before those of the next, and the queue holds nothing but the rest of a level and what is
known of the next one. -/

/-- A search for missing mappings. -/
structure Search where
  /-- The pairs to look at, the next one first, each with its steps from the first pair. -/
  queue : List (ShapePair × Nat)
  found : List ShapePair

namespace Search

/-- One round of a search: a new pair is found, and what it needs waits unless it is too far
from the first.  A search without a next pair is at its end. -/
def round (c : Catalog) (registry : Registry) : Search → Search ⊕ List ShapePair
  | ⟨[], found⟩ => .inr found
  | ⟨(p, depth) :: queue, found⟩ =>
    if isNew registry found p then
      if maxNesting ≤ depth then .inl ⟨queue, found ++ [p]⟩
      else .inl ⟨queue ++ (successors c p).map fun q => (q, depth + 1), found ++ [p]⟩
    else .inl ⟨queue, found⟩

/-- The rounds of a search end with some pairs. -/
inductive Ends (c : Catalog) (registry : Registry) : Search → List ShapePair → Prop where
  | stop {s : Search} {ps : List ShapePair} (h : s.round c registry = .inr ps) :
      Ends c registry s ps
  | step {s t : Search} {ps : List ShapePair} (h : s.round c registry = .inl t)
      (ht : Ends c registry t ps) : Ends c registry s ps

variable {level next found ps qs : List ShapePair}

/-- A search ends with one result. -/
theorem Ends.unique {s : Search} (h : s.Ends c registry ps) (h' : s.Ends c registry qs) :
    ps = qs := by
  induction h with
  | stop hs =>
    cases h' with
    | stop hs' => exact Sum.inr.inj (hs.symm.trans hs')
    | step hs' _ => cases hs.symm.trans hs'
  | step hs _ ih =>
    cases h' with
    | stop hs' => cases hs.symm.trans hs'
    | step hs' h' =>
      obtain rfl := Sum.inl.inj (hs.symm.trans hs')
      exact ih h'

/-- **A level is taken from the queue** before what it needs, which then makes up the queue. -/
theorem ends_level (hk : k < maxNesting)
    (h : Ends c registry ⟨(next ++ (fresh registry found level).flatMap (successors c)).map
      (fun q => (q, k + 1)), found ++ fresh registry found level⟩ ps) :
    Ends c registry ⟨level.map (fun q => (q, k)) ++ next.map fun q => (q, k + 1), found⟩ ps := by
  induction level generalizing next found with
  | nil => simpa [fresh] using h
  | cons p level ih =>
    rw [fresh] at h
    cases hnew : isNew registry found p with
    | false =>
      rw [hnew, if_neg Bool.false_ne_true] at h
      exact .step (by simp [round, hnew]) (ih h)
    | true =>
      rw [hnew, if_pos rfl, List.flatMap_cons, ← List.append_assoc,
        List.append_cons found p (fresh registry (found ++ [p]) level)] at h
      refine .step (t := ⟨level.map (fun q => (q, k)) ++
        (next ++ successors c p).map fun q => (q, k + 1), found ++ [p]⟩) ?_ (ih h)
      simp [round, hnew, Nat.not_le.2 hk]

/-- What the last level needs is not looked for. -/
theorem ends_last :
    Ends c registry ⟨level.map fun q => (q, maxNesting), found⟩
      (found ++ fresh registry found level) := by
  induction level generalizing found with
  | nil => exact .stop (by simp [round, fresh])
  | cons p level ih =>
    rw [fresh]
    cases hnew : isNew registry found p with
    | false => exact .step (by simp [round, hnew]) ih
    | true =>
      rw [if_pos rfl, List.append_cons]
      exact .step (by simp [round, hnew]) ih

/-- From any level on the queue ends with what the levels come to. -/
theorem ends_close (hk : k + n = maxNesting) :
    Ends c registry ⟨level.map fun q => (q, k), found⟩ (close c registry n found level) := by
  induction n generalizing k found level with
  | zero =>
    obtain rfl : k = maxNesting := hk
    exact ends_last
  | succ n ih =>
    have hrest : Ends c registry ⟨([] ++ (fresh registry found level).flatMap
        (successors c)).map fun q => (q, k + 1), found ++ fresh registry found level⟩
        (close c registry (n + 1) found level) := ih (by omega)
    have hlevel := ends_level (by omega) hrest
    simpa using hlevel

/-- **One queue finds the same**: its rounds end, with the missing mappings in their order. -/
theorem ends_iff (c : Catalog) (registry : Registry) (s d : Shape) :
    Ends c registry ⟨[((s, d), 0)], []⟩ ps ↔ ps = pairs c registry s d := by
  have hends : Ends c registry ⟨[(s, d)].map fun q => (q, 0), []⟩ (pairs c registry s d) :=
    ends_close (Nat.zero_add maxNesting)
  exact ⟨fun h => h.unique hends, fun h => h ▸ hends⟩

end Search
end Missing

open Missing in
/-- **The missing mappings are all that are needed.**  Take any mapping of `s` to `d`.  The
mappings that are missing for it have different keys, none of which is registered.  There are
none exactly when it is registered itself; else it is the first, and every other one is needed
by one before it.  All are at most `maxNesting` steps away from the first; and what is needed
by a mapping that fewer steps lead to is registered, or its key is among theirs. -/
theorem missing_pairs_closed (c : Catalog) (registry : Registry) (s d : Shape) :
    ((pairs c registry s d).map key).Nodup ∧
      (∀ p ∈ pairs c registry s d, registry.contains (key p) = false) ∧
      (pairs c registry s d = [] ↔ registry.contains (key (s, d)) = true) ∧
      (registry.contains (key (s, d)) = false → (pairs c registry s d).head? = some (s, d)) ∧
      (∀ i p, (pairs c registry s d)[i + 1]? = some p →
        ∃ j ≤ i, ∃ q, (pairs c registry s d)[j]? = some q ∧ Needs c q p) ∧
      (∀ p ∈ pairs c registry s d, ∃ n ≤ maxNesting,
        ReachedIn c (pairs c registry s d) (s, d) n p) ∧
      ∀ n < maxNesting, ∀ p, ReachedIn c (pairs c registry s d) (s, d) n p → ∀ q, Needs c p q →
        registry.contains (key q) = true ∨ ∃ r ∈ pairs c registry s d, key r = key q := by
  have hends := eq_nil_or_head?_foundBefore c registry (s, d)
  rw [pairs_eq]
  refine ⟨nodup_foundBefore c registry (s, d) _, fun p hp => ?_, ⟨fun hnil => ?_, (hends _).1⟩,
    (hends _).2, fun i p hp => exists_before_needs c registry (s, d) _ hp, fun p hp => ?_,
    fun n hn p hp q hneeds => ?_⟩
  · obtain ⟨j, -, hp⟩ := mem_foundBefore_iff.1 hp
    exact unregistered_of_mem_newAt hp
  · by_contra hnew
    have hhead := (hends maxNesting).2 (Bool.eq_false_iff.2 hnew)
    rw [hnil] at hhead
    cases hhead
  · obtain ⟨j, hj, hp⟩ := mem_foundBefore_iff.1 hp
    exact ⟨j, by omega, reachedIn_of_mem_newAt hj hp⟩
  · obtain ⟨j, hj, hp⟩ := exists_newAt_of_reachedIn (by omega) hp
    rcases covered_of_mem_newAt hp hneeds with hregistered | ⟨r, hr, hkey⟩
    · exact Or.inl hregistered
    · exact Or.inr ⟨r, foundBefore_subset (by omega) hr, hkey⟩

end MappingAudit
