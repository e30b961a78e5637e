/-
# Walks from type to type

The members of a type lead to other types, and a walk goes from type to type.  The search for
a type follows the members depth first and enters each type once.  What it finds, a walk of
at most `Shape.maxSearchDepth` members leads to.

It can miss a type that such a walk leads to.  A type that it meets for the first time at the
last level is entered there, and its members are followed no further than to their own types;
when a shorter way leads to the type later, it is not entered again.  So a walk is found when
no type on it, but for the last two, stands at the end of such a detour
(`reaches_without_detours`), and `reaches_past_detour` shows one that is not.

Types are entered by their keys.  That asks for types of one key to lead to the same keys.
-/

import MappingAudit.Check.Recursion
import Mathlib.Data.List.Nodup

namespace MappingAudit
namespace Shape

/-! ### Walks -/

/-- The types that the members of a type lead to. -/
def next (c : Catalog) (s : Shape) : List Shape :=
  ((Member.ofShape c .any s).map (·.shape.node)).filter (·.isComplex)

/-- The walks of `n` members from a type on: the keys of the types that are left behind, and
the type at the end. -/
def walks (c : Catalog) : Nat → Shape → List (List String × Shape)
  | 0, s => [([], s)]
  | n + 1, s => (s.next c).flatMap fun t => (walks c n t).map fun w => (s.key :: w.1, w.2)

/-- The walk leads from a type to one of the key `target`, within the depth of the search. -/
def WalksTo (c : Catalog) (target : String) (s : Shape) (w : List String × Shape) : Prop :=
  ∃ n ≤ maxSearchDepth, w ∈ s.walks c n ∧ w.2.key = target

/-- A type of the key is at the last level at which types are entered, at the end of a walk
that passes no type twice and does not meet the target. -/
def IsFar (c : Catalog) (target : String) (s : Shape) (key : String) : Prop :=
  ∃ w ∈ s.walks c (maxSearchDepth - 1), w.2.key = key ∧ (w.1 ++ [key, target]).Nodup

/-- The types that a search from the type can enter. -/
def inReach (c : Catalog) (s : Shape) : List Shape :=
  (List.range maxSearchDepth).flatMap fun n => (s.walks c n).map (·.2)

/-- Types of one key lead to types of the same keys, as far as they can be entered. -/
def KeysDecide (c : Catalog) (s : Shape) : Prop :=
  ∀ u ∈ s.inReach c, ∀ v ∈ s.inReach c, u.key = v.key →
    ∀ t ∈ u.next c, ∃ t' ∈ v.next c, t'.key = t.key

instance (c : Catalog) (target : String) (s : Shape) (key : String) :
    Decidable (s.IsFar c target key) :=
  inferInstanceAs (Decidable (∃ w ∈ _, _))

instance (c : Catalog) (s : Shape) : Decidable (s.KeysDecide c) :=
  inferInstanceAs (Decidable (∀ u ∈ s.inReach c, ∀ v ∈ s.inReach c, u.key = v.key →
    ∀ t ∈ u.next c, ∃ t' ∈ v.next c, t'.key = t.key))

variable {c : Catalog} {target key : String} {s t start : Shape} {w : List String × Shape}
variable {n j : Nat}

/-- A step leads to the type of a member that has members itself. -/
theorem mem_next_iff : t ∈ s.next c ↔
    ∃ m ∈ Member.ofShape c .any s, m.shape.node = t ∧ t.isComplex = true := by
  simp only [next, List.mem_filter, List.mem_map]
  constructor
  · rintro ⟨⟨m, hm, rfl⟩, ht⟩
    exact ⟨m, hm, rfl, ht⟩
  · rintro ⟨m, hm, rfl, ht⟩
    exact ⟨⟨m, hm, rfl⟩, ht⟩

/-- A walk is a step with a walk from there. -/
theorem mem_walks_succ : w ∈ s.walks c (n + 1) ↔
    ∃ t ∈ s.next c, ∃ v ∈ t.walks c n, (s.key :: v.1, v.2) = w := by
  simp only [walks, List.mem_flatMap, List.mem_map]

/-- A walk has the keys of its steps. -/
theorem length_of_mem_walks (h : w ∈ s.walks c n) : w.1.length = n := by
  induction n generalizing s w with
  | zero => rw [List.mem_singleton.1 h, List.length_nil]
  | succ n ih =>
    obtain ⟨t, -, v, hv, rfl⟩ := mem_walks_succ.1 h
    rw [List.length_cons, ih hv]

/-- A walk goes on with the types that its end leads to. -/
theorem mem_walks_snoc (h : w ∈ s.walks c n) (ht : t ∈ w.2.next c) :
    (w.1 ++ [w.2.key], t) ∈ s.walks c (n + 1) := by
  induction n generalizing s w with
  | zero =>
    obtain rfl := List.mem_singleton.1 h
    exact mem_walks_succ.2 ⟨t, ht, ([], t), List.mem_singleton_self _, rfl⟩
  | succ n ih =>
    obtain ⟨u, hu, v, hv, rfl⟩ := mem_walks_succ.1 h
    exact mem_walks_succ.2 ⟨u, hu, _, ih hv ht, rfl⟩

/-! ### The search of several types -/

/-- The search of types one after the other, until the target is found. -/
def searchAll (c : Catalog) (target : String) (n : Nat) (visited : List String)
    (ss : List Shape) : Bool × List String :=
  ss.foldl (fun r s => if r.1 then r else search c target n r.2 s) (false, visited)

variable {visited seen : List String} {ss : List Shape}

/-- Once the target is found nothing more is searched. -/
theorem foldl_of_found (r : Bool × List String) (h : r.1 = true) :
    ss.foldl (fun r s => if r.1 then r else search c target n r.2 s) r = r := by
  induction ss with
  | nil => rfl
  | cons s ss ih => rw [List.foldl_cons, if_pos h, ih]

/-- Starts are searched one after the other until the target is found. -/
theorem searchAll_cons : searchAll c target n visited (s :: ss) =
    if (search c target n visited s).1 then search c target n visited s
    else searchAll c target n (search c target n visited s).2 ss := by
  rw [searchAll, List.foldl_cons]
  simp only [Bool.false_eq_true, if_false]
  rcases hr : search c target n visited s with ⟨_ | _, seen⟩
  · rfl
  · exact foldl_of_found _ rfl

/-- What is found from some starts is found from one of them. -/
theorem exists_search_of_searchAll (h : (searchAll c target n visited ss).1 = true) :
    ∃ s ∈ ss, ∃ seen, (search c target n seen s).1 = true := by
  induction ss generalizing visited with
  | nil => cases h
  | cons s ss ih =>
    rw [searchAll_cons] at h
    split at h
    · exact ⟨s, List.mem_cons_self, visited, h⟩
    · obtain ⟨t, ht, seen, hfound⟩ := ih h
      exact ⟨t, List.mem_cons_of_mem s ht, seen, hfound⟩

/-- What a search does at a type above the last level. -/
theorem search_succ : search c target (n + 1) visited s =
    if s.node.isComplex = false then (false, visited)
    else if s.node.key = target then (true, visited)
    else if s.node.key ∈ visited then (false, visited)
    else searchAll c target n (s.node.key :: visited)
      ((Member.ofShape c .any s.node).map (·.shape)) := by
  rw [search, searchAll, List.foldl_map]
  simp

/-! ### What is found -/

/-- What the search finds stands at the end of a walk of at most as many members. -/
theorem exists_walk_of_search (h : (search c target n visited s).1 = true) :
    s.node.isComplex = true ∧ ∃ k ≤ n, ∃ w ∈ s.node.walks c k, w.2.key = target := by
  induction n generalizing s visited with
  | zero =>
    simp only [search, Bool.and_eq_true, beq_iff_eq] at h
    exact ⟨h.1, 0, Nat.le_refl 0, ([], s.node), List.mem_singleton_self _, h.2⟩
  | succ n ih =>
    rw [search_succ] at h
    split at h
    · cases h
    next hcomplex =>
    rw [Bool.not_eq_false] at hcomplex
    split at h
    · next hkey => exact ⟨hcomplex, 0, Nat.zero_le _, _, List.mem_singleton_self _, hkey⟩
    split at h
    · cases h
    obtain ⟨t, ht, seen, hfound⟩ := exists_search_of_searchAll h
    obtain ⟨m, hm, rfl⟩ := List.mem_map.1 ht
    obtain ⟨hnode, k, hk, w, hw, hkey⟩ := ih hfound
    exact ⟨hcomplex, k + 1, Nat.succ_le_succ hk, (s.node.key :: w.1, w.2),
      mem_walks_succ.2 ⟨m.shape.node, mem_next_iff.2 ⟨m, hm, rfl, hnode⟩, w, hw, rfl⟩, hkey⟩

/-! ### What is entered when nothing is found -/

/-- The type of a key was followed: it was entered after a walk that passes no type twice, and
its members lead neither to the target nor, above the last level, to a type that was not seen. -/
def Followed (c : Catalog) (target : String) (start : Shape) (bound : Nat) (seen : List String)
    (key : String) : Prop :=
  ∃ j < bound, ∃ w ∈ start.walks c j, w.2.key = key ∧ (w.1 ++ [key, target]).Nodup ∧
    ∀ t ∈ w.2.next c, t.key ≠ target ∧ (j + 1 < bound → t.key ∈ seen)

/-- What is left behind when types are searched `n` levels deep in vain. -/
structure InVain (c : Catalog) (target : String) (start : Shape) (bound n : Nat)
    (visited : List String) (ss : List Shape) (seen : List String) : Prop where
  subset : visited ⊆ seen
  avoids : ∀ s ∈ ss, s.node.isComplex = true → s.node.key ≠ target ∧ (0 < n → s.node.key ∈ seen)
  followed : ∀ key ∈ seen, key ∈ visited ∨ Followed c target start bound seen key

/-- A type to search stands at the end of a walk through visited types, none of them twice. -/
def Ahead (c : Catalog) (target : String) (start : Shape) (j : Nat) (visited : List String)
    (s : Shape) : Prop :=
  s.node.isComplex = true →
    ∃ keys ⊆ visited, (keys, s.node) ∈ start.walks c j ∧ (keys ++ [target]).Nodup

variable {bound : Nat} {seen' : List String}

/-- What was followed stays so when more is seen. -/
theorem Followed.mono (h : Followed c target start bound seen key) (hsub : seen ⊆ seen') :
    Followed c target start bound seen' key := by
  obtain ⟨j, hj, w, hw, hkey, hnodup, hnext⟩ := h
  exact ⟨j, hj, w, hw, hkey, hnodup, fun t ht =>
    ⟨(hnext t ht).1, fun hlevel => hsub ((hnext t ht).2 hlevel)⟩⟩

/-- A walk that lies ahead does so when more was visited. -/
theorem Ahead.mono (h : Ahead c target start j visited s) (hsub : visited ⊆ seen) :
    Ahead c target start j seen s := fun hcomplex => by
  obtain ⟨keys, hkeys, hrest⟩ := h hcomplex
  exact ⟨keys, List.Subset.trans hkeys hsub, hrest⟩

/-- A search of no starts is in vain. -/
theorem InVain.nil : InVain c target start bound n visited [] visited :=
  ⟨List.Subset.refl _, fun _ hs => absurd hs List.not_mem_nil, fun _ hkey => Or.inl hkey⟩

/-- Two searches in vain, the second with what the first has visited. -/
theorem InVain.cons (h : InVain c target start bound n visited [s] seen)
    (hs : InVain c target start bound n seen ss seen') :
    InVain c target start bound n visited (s :: ss) seen' := by
  refine ⟨List.Subset.trans h.subset hs.subset, fun t ht hcomplex => ?_, fun key hkey => ?_⟩
  · rcases List.mem_cons.1 ht with rfl | ht
    · obtain ⟨hne, hseen⟩ := h.avoids t (List.mem_singleton_self t) hcomplex
      exact ⟨hne, fun hn => hs.subset (hseen hn)⟩
    · exact hs.avoids t ht hcomplex
  · rcases hs.followed key hkey with hvisited | hfollowed
    · exact (h.followed key hvisited).imp id fun hf => hf.mono hs.subset
    · exact Or.inr hfollowed

/-- A search that is given up at a type leaves what was visited. -/
theorem InVain.single (h : s.node.isComplex = true →
    s.node.key ≠ target ∧ (0 < n → s.node.key ∈ visited)) :
    InVain c target start bound n visited [s] visited :=
  ⟨List.Subset.refl _, fun t ht => by rw [List.mem_singleton.1 ht]; exact h,
    fun _ hkey => Or.inl hkey⟩

/-- The members of an entered type are ahead on the next level. -/
theorem Ahead.member {keys : List String} {m : Member} (hkeys : keys ⊆ visited)
    (hwalk : (keys, s) ∈ start.walks c j) (hnodup : (keys ++ [s.key, target]).Nodup)
    (hm : m ∈ Member.ofShape c .any s) :
    Ahead c target start (j + 1) (s.key :: visited) m.shape := fun hcomplex => by
  refine ⟨keys ++ [s.key], ?_, mem_walks_snoc hwalk (mem_next_iff.2 ⟨m, hm, rfl, hcomplex⟩), ?_⟩
  · exact List.append_subset.2 ⟨List.subset_cons_of_subset _ hkeys, by simp⟩
  · rwa [List.append_assoc]

/-- An entered type whose members were searched in vain was followed. -/
theorem InVain.enter {keys : List String} (hj : j + (n + 1) = bound)
    (hnode : s.node.key ≠ target) (hwalk : (keys, s.node) ∈ start.walks c j)
    (hnodup : (keys ++ [s.node.key, target]).Nodup)
    (h : InVain c target start bound n (s.node.key :: visited)
      ((Member.ofShape c .any s.node).map (·.shape)) seen) :
    InVain c target start bound (n + 1) visited [s] seen := by
  have hentered : s.node.key ∈ seen := h.subset List.mem_cons_self
  refine ⟨List.Subset.trans (List.subset_cons_self _ _) h.subset, fun t ht _ => ?_,
    fun key hkey => ?_⟩
  · rw [List.mem_singleton.1 ht]
    exact ⟨hnode, fun _ => hentered⟩
  · rcases h.followed key hkey with hvisited | hfollowed
    · rcases List.mem_cons.1 hvisited with rfl | hvisited
      · refine Or.inr ⟨j, by omega, (keys, s.node), hwalk, rfl, hnodup, fun t ht => ?_⟩
        obtain ⟨m, hm, rfl, hcomplex⟩ := mem_next_iff.1 ht
        obtain ⟨hne, hseen⟩ := h.avoids m.shape (List.mem_map_of_mem hm) hcomplex
        exact ⟨hne, fun hlevel => hseen (by omega)⟩
      · exact Or.inl hvisited
    · exact Or.inr hfollowed

/-- A search of several starts is in vain when that of each one is. -/
theorem inVain_of_searchAll
    (hsingle : ∀ s visited seen, Ahead c target start j visited s →
      search c target n visited s = (false, seen) →
        InVain c target start bound n visited [s] seen)
    (hahead : ∀ s ∈ ss, Ahead c target start j visited s)
    (h : searchAll c target n visited ss = (false, seen)) :
    InVain c target start bound n visited ss seen := by
  induction ss generalizing visited with
  | nil =>
    obtain rfl : visited = seen := (Prod.mk.inj h).2
    exact InVain.nil
  | cons s ss ih =>
    rw [searchAll_cons] at h
    rcases hs : search c target n visited s with ⟨_ | _, middle⟩
    · rw [hs, if_neg Bool.false_ne_true] at h
      have hfirst := hsingle s visited middle (hahead s List.mem_cons_self) hs
      refine hfirst.cons (ih (fun t ht => ?_) h)
      exact (hahead t (List.mem_cons_of_mem s ht)).mono hfirst.subset
    · rw [hs, if_pos rfl] at h
      cases h

/-- **A search in vain** has followed every type that it entered. -/
theorem inVain_of_search (hj : j + n = bound) (hahead : Ahead c target start j visited s)
    (h : search c target n visited s = (false, seen)) :
    InVain c target start bound n visited [s] seen := by
  induction n generalizing j s visited seen with
  | zero =>
    obtain ⟨hfound, rfl⟩ := Prod.mk.inj h
    refine InVain.single fun hcomplex => ⟨fun hkey => ?_, fun hn => absurd hn (Nat.lt_irrefl 0)⟩
    simp [hcomplex, hkey] at hfound
  | succ n ih =>
    rw [search_succ] at h
    split at h
    · next hnot =>
      obtain rfl := (Prod.mk.inj h).2
      exact InVain.single fun hcomplex => by rw [hnot] at hcomplex; cases hcomplex
    next hcomplex =>
    rw [Bool.not_eq_false] at hcomplex
    split at h
    · cases h
    next hne =>
    split at h
    · next hvisited =>
      obtain rfl := (Prod.mk.inj h).2
      exact InVain.single fun _ => ⟨hne, fun _ => hvisited⟩
    next hnew =>
    obtain ⟨keys, hkeys, hwalk, hnodup⟩ := hahead hcomplex
    have hnodup' : (keys ++ [s.node.key, target]).Nodup := by
      have hfresh : (s.node.key :: (keys ++ [target])).Nodup := by
        refine List.nodup_cons.2 ⟨?_, hnodup⟩
        rw [List.mem_append, List.mem_singleton, not_or]
        exact ⟨fun hmem => hnew (hkeys hmem), hne⟩
      exact List.nodup_middle.2 hfresh
    refine InVain.enter hj hne hwalk hnodup' ?_
    refine inVain_of_searchAll (j := j + 1) (fun t visited seen => ih (by omega)) (fun t ht => ?_) h
    obtain ⟨m, hm, rfl⟩ := List.mem_map.1 ht
    exact Ahead.member hkeys hwalk hnodup' hm

/-! ### Walks that are found -/

/-- Walks below the greatest depth stay within reach. -/
theorem mem_inReach (hn : n < maxSearchDepth) (h : w ∈ s.walks c n) : w.2 ∈ s.inReach c :=
  List.mem_flatMap.2 ⟨n, List.mem_range.2 hn, List.mem_map_of_mem h⟩

/-- What a followed type leads to, each type of its key does; and it was seen unless the type
is far. -/
theorem Followed.next (hdecide : start.KeysDecide c) (hs : s ∈ start.inReach c)
    (h : Followed c target start maxSearchDepth seen s.key) (ht : t ∈ s.next c) :
    t.key ≠ target ∧ (¬ start.IsFar c target s.key → t.key ∈ seen) := by
  obtain ⟨j, hj, w, hw, hkey, hnodup, hnext⟩ := h
  obtain ⟨t', ht', hkeys⟩ := hdecide s hs w.2 (mem_inReach hj hw) hkey.symm t ht
  obtain ⟨hne, hseen⟩ := hnext t' ht'
  rw [hkeys] at hne hseen
  refine ⟨hne, fun hnear => hseen (Nat.lt_of_le_of_ne hj fun hlast => hnear ⟨w, ?_, hkey, hnodup⟩)⟩
  rwa [← hlast, Nat.succ_sub_one]

/-- After a search in vain, a walk on which no type but for the last two is far does not lead
to the target. -/
theorem key_ne_of_followed {i k : Nat} {keys : List String} (hdecide : start.KeysDecide c)
    (hfollowed : ∀ key ∈ seen, Followed c target start maxSearchDepth seen key)
    (hik : i + k ≤ maxSearchDepth) (hs : (keys, s) ∈ start.walks c i) (hne : s.key ≠ target)
    (hseen : 0 < k → s.key ∈ seen) (hw : w ∈ s.walks c k)
    (hnear : ∀ key ∈ w.1.dropLast, ¬ start.IsFar c target key) : w.2.key ≠ target := by
  induction k generalizing i keys s w with
  | zero => rwa [List.mem_singleton.1 hw]
  | succ k ih =>
    obtain ⟨t, ht, v, hv, rfl⟩ := mem_walks_succ.1 hw
    have hreach : s ∈ start.inReach c := mem_inReach (by omega) hs
    obtain ⟨htne, htseen⟩ :=
      (hfollowed s.key (hseen (Nat.succ_pos k))).next hdecide hreach ht
    -- the type that is left behind is one of the walk's last two unless the walk goes on
    have hcons : 0 < k → (s.key :: v.1).dropLast = s.key :: v.1.dropLast := fun hk =>
      List.dropLast_cons_of_ne_nil
        (List.ne_nil_of_length_pos (by rw [length_of_mem_walks hv]; exact hk))
    refine ih (w := v) (by omega) (mem_walks_snoc hs ht) htne (fun hk => htseen (hnear _ ?_)) hv
      fun key hkey => hnear key ?_
    · rw [hcons hk]
      exact List.mem_cons_self
    · rcases Nat.eq_zero_or_pos k with rfl | hk
      · rw [List.mem_singleton.1 hv] at hkey
        cases hkey
      · rw [hcons hk]
        exact List.mem_cons_of_mem _ hkey

/-- **What the search for a type finds.**  Take any type and any key.  When the search finds
the key, a walk of at most `maxSearchDepth` members leads there.  It finds the key if such a
walk does, provided that types of one key lead to the same keys, and that no type of the walk,
but for the last two, stands at the end of a detour to the last level. -/
theorem reaches_without_detours (c : Catalog) (target : String) (s : Shape) :
    (s.reaches c target = true → s.node.isComplex = true ∧ ∃ w, s.node.WalksTo c target w) ∧
      (s.node.KeysDecide c → s.node.isComplex = true → ∀ w, s.node.WalksTo c target w →
        (∀ key ∈ w.1.dropLast, ¬ s.node.IsFar c target key) → s.reaches c target = true) := by
  constructor
  · intro h
    obtain ⟨hcomplex, k, hk, w, hw, hkey⟩ := exists_walk_of_search h
    exact ⟨hcomplex, w, k, hk, hw, hkey⟩
  · rintro hdecide hcomplex w ⟨k, hk, hw, hkey⟩ hnear
    by_contra hnot
    rw [reaches, Bool.not_eq_true] at hnot
    have hstart : Ahead c target s.node 0 [] s := fun _ =>
      ⟨[], List.Subset.refl _, List.mem_singleton_self _, List.nodup_singleton target⟩
    have hvain := inVain_of_search (Nat.zero_add maxSearchDepth) hstart (Prod.ext hnot rfl)
    obtain ⟨hne, hseen⟩ := hvain.avoids s (List.mem_singleton_self s) hcomplex
    have hfollowed : ∀ key ∈ (search c target maxSearchDepth [] s).2,
        Followed c target s.node maxSearchDepth (search c target maxSearchDepth [] s).2 key :=
      fun key hmem => (hvain.followed key hmem).resolve_left List.not_mem_nil
    exact key_ne_of_followed (i := 0) hdecide hfollowed (by omega) (List.mem_singleton_self _)
      hne (fun _ => hseen (by decide)) hw hnear hkey

/-- A record without a namespace, by the types and names of its parameters. -/
def recordEntry (name : String) (parameters : List (String × String)) : Entry :=
  { (default : Entry) with
    name
    qualifiedName := name
    kind := .record
    members := parameters.map fun p =>
      ⟨p.2, p.1, .recordParameter, ["public"], true, true, default⟩ }

/-- The type of a record. -/
def ofRecord (c : Catalog) (name : String) : Shape := describe c none (.named [name] [])

/-- Two ways from `A` to `T`, and back. -/
def ring : Catalog :=
  ⟨[recordEntry "T" [("A", "N")], recordEntry "A" [("B", "N"), ("C", "M")],
    recordEntry "B" [("C", "N")], recordEntry "C" [("T", "N")]]⟩

set_option maxRecDepth 100000 in
/-- In `ring` a walk of three members leads to the target, and no type on it stands far off. -/
theorem ring_walk : (ofRecord ring "A").node.KeysDecide ring ∧
    (ofRecord ring "A").node.isComplex = true ∧
      (∃ w ∈ (ofRecord ring "A").node.walks ring 3, w.1 = ["A", "B", "C"] ∧ w.2.key = "T") ∧
        ∀ key ∈ ["A", "B"], ¬ (ofRecord ring "A").node.IsFar ring "T" key := by
  decide +kernel

/-- Types of one key lead to the same keys there, and a walk without detours leads from `A` to
`T`; so the search from `A` finds `T`. -/
theorem reaches_ring : (ofRecord ring "A").node.KeysDecide ring ∧
    (ofRecord ring "A").node.isComplex = true ∧
      (∃ w, (ofRecord ring "A").node.WalksTo ring "T" w ∧
        ∀ key ∈ w.1.dropLast, ¬ (ofRecord ring "A").node.IsFar ring "T" key) ∧
        (ofRecord ring "A").reaches ring "T" = true := by
  obtain ⟨hdecide, hcomplex, ⟨w, hw, hkeys, htarget⟩, hnear⟩ := ring_walk
  have hwalk : (ofRecord ring "A").node.WalksTo ring "T" w := ⟨3, by decide, hw, htarget⟩
  have hnear' : ∀ key ∈ w.1.dropLast, ¬ (ofRecord ring "A").node.IsFar ring "T" key := by
    rw [hkeys]
    exact hnear
  exact ⟨hdecide, hcomplex, ⟨w, hwalk, hnear'⟩,
    (reaches_without_detours ring "T" (ofRecord ring "A")).2 hdecide hcomplex w hwalk hnear'⟩

/-- A long way from `P` to `X`, and a short one after it. -/
def detour : Catalog :=
  ⟨[recordEntry "P" [("A1", "Far"), ("X", "Near")], recordEntry "A1" [("A2", "N")],
    recordEntry "A2" [("A3", "N")], recordEntry "A3" [("A4", "N")], recordEntry "A4" [("A5", "N")],
    recordEntry "A5" [("A6", "N")], recordEntry "A6" [("X", "N")], recordEntry "X" [("Y", "N")],
    recordEntry "Y" [("T", "N")], recordEntry "T" [("P", "M")]]⟩

set_option maxRecDepth 100000 in
/-- **A walk is missed**: three members lead from `P` over `X` and `Y` to `T`, but the search
has entered `X` on the last level before. -/
theorem reaches_past_detour : (ofRecord detour "P").node.isComplex = true ∧
    (∃ w ∈ (ofRecord detour "P").node.walks detour 3, w.1 = ["P", "X", "Y"] ∧ w.2.key = "T") ∧
      (ofRecord detour "P").node.KeysDecide detour ∧
        (ofRecord detour "P").node.IsFar detour "T" "X" ∧
          (ofRecord detour "P").reaches detour "T" = false := by
  decide +kernel

end Shape
end MappingAudit
