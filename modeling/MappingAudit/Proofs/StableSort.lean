/-
# Stable sorting

A sort by a key is stable when elements with one key keep their order.  There is one way to
sort stably (`IsStableSort.unique`), which a merge sort takes (`IsStableSort.mergeSort`), so
what sorting does can be told without an algorithm.
-/

import Mathlib.Data.List.Nodup
import Mathlib.Data.Prod.Lex
import Mathlib.Order.WithBot

namespace MappingAudit

/-- The second list has the elements of the first in the order of their keys, and elements
with one key stand in it as they did. -/
structure IsStableSort {α β : Type} [LinearOrder β] (key : α → β) (xs ys : List α) : Prop where
  sorted : ys.Pairwise fun a b => key a ≤ key b
  kept : ∀ k, (ys.filter fun a => key a = k) = xs.filter fun a => key a = k

namespace IsStableSort

variable {α β : Type} [LinearOrder β] {key : α → β} {xs ys zs : List α}

/-- Lists with the same elements of each key have the same elements. -/
theorem mem_iff_of_filter_eq
    (h : ∀ k, (ys.filter fun a => key a = k) = zs.filter fun a => key a = k) {a : α} :
    a ∈ ys ↔ a ∈ zs := by
  have hkey : a ∈ (ys.filter fun b => key b = key a) ↔ a ∈ zs.filter fun b => key b = key a := by
    rw [h]
  simpa using hkey

/-- They may do without a first element that both have. -/
theorem filter_eq_of_cons {a : α} (h : ∀ k, ((a :: ys).filter fun b => key b = k) =
    (a :: zs).filter fun b => key b = k) (k : β) :
    (ys.filter fun b => key b = k) = zs.filter fun b => key b = k := by
  have hk := h k
  rw [List.filter_cons, List.filter_cons] at hk
  split at hk
  · exact (List.cons.inj hk).2
  · exact hk

/-- Lists in order are equal when they have the same elements of each key. -/
theorem eq_of_filter_eq (hys : ys.Pairwise fun a b => key a ≤ key b)
    (hzs : zs.Pairwise fun a b => key a ≤ key b)
    (h : ∀ k, (ys.filter fun a => key a = k) = zs.filter fun a => key a = k) : ys = zs := by
  induction ys generalizing zs with
  | nil =>
    refine (List.eq_nil_iff_forall_not_mem.2 fun a ha => ?_).symm
    exact List.not_mem_nil ((mem_iff_of_filter_eq h).2 ha)
  | cons y ys ih =>
    cases zs with
    | nil => exact absurd ((mem_iff_of_filter_eq h).1 List.mem_cons_self) List.not_mem_nil
    | cons z zs =>
      rw [List.pairwise_cons] at hys hzs
      have hyz : key y ≤ key z := by
        rcases List.mem_cons.1 ((mem_iff_of_filter_eq h).2 List.mem_cons_self) with rfl | hz
        · exact le_rfl
        · exact hys.1 z hz
      have hzy : key z ≤ key y := by
        rcases List.mem_cons.1 ((mem_iff_of_filter_eq h).1 List.mem_cons_self) with rfl | hy
        · exact le_rfl
        · exact hzs.1 y hy
      -- Both lists begin with the least key, so their first elements are the first of one key.
      have hkey : key z = key y := le_antisymm hzy hyz
      have hfirst := h (key y)
      rw [List.filter_cons_of_pos (by simp), List.filter_cons_of_pos (by simp [hkey])] at hfirst
      obtain rfl : y = z := (List.cons.inj hfirst).1
      rw [ih hys.2 hzs.2 (filter_eq_of_cons h)]

/-- **There is one way to sort stably.** -/
theorem unique (hys : IsStableSort key xs ys) (hzs : IsStableSort key xs zs) : ys = zs :=
  eq_of_filter_eq hys.sorted hzs.sorted fun k => (hys.kept k).trans (hzs.kept k).symm

/-- **What is dropped after sorting could be dropped before.** -/
theorem filter (h : IsStableSort key xs ys) (p : α → Bool) :
    IsStableSort key (xs.filter p) (ys.filter p) where
  sorted := h.sorted.filter p
  kept := fun k => by rw [List.filter_comm, h.kept k, List.filter_comm]

/-- Elements of different keys can come in any order. -/
theorem of_perm (h : IsStableSort key xs ys) (hperm : xs.Perm zs) (hkeys : (xs.map key).Nodup) :
    IsStableSort key zs ys where
  sorted := h.sorted
  kept := fun k => by
    rw [h.kept k]
    have heq (a b : α) (ha : a ∈ xs.filter fun a => key a = k)
        (hb : b ∈ zs.filter fun a => key a = k) : a = b := by
      obtain ⟨ha, hka⟩ := List.mem_filter.1 ha
      obtain ⟨hb, hkb⟩ := List.mem_filter.1 hb
      rw [decide_eq_true_eq] at hka hkb
      exact List.inj_on_of_nodup_map hkeys ha (hperm.mem_iff.2 hb) (hka.trans hkb.symm)
    have hall (l : List α) : l.Pairwise fun _ _ => True :=
      List.pairwise_of_forall fun _ _ => trivial
    exact List.Perm.eq_of_pairwise (fun a b ha hb _ _ => heq a b ha hb) (hall _) (hall _)
      (hperm.filter _)

/-- A merge sort sorts stably. -/
theorem mergeSort {le : α → α → Bool} (hle : ∀ a b, le a b = true ↔ key a ≤ key b)
    (xs : List α) : IsStableSort key xs (xs.mergeSort le) := by
  have htrans (a b c : α) (hab : le a b = true) (hbc : le b c = true) : le a c = true :=
    (hle a c).2 (((hle a b).1 hab).trans ((hle b c).1 hbc))
  have htotal (a b : α) : (le a b || le b a) = true := by
    rw [Bool.or_eq_true, hle, hle]
    exact le_total (key a) (key b)
  refine ⟨(List.pairwise_mergeSort htrans htotal xs).imp fun h => (hle _ _).1 h, fun k => ?_⟩
  -- The elements of one key are in order, so they stay a sublist; and none is lost.
  have hclass : (xs.filter fun a => key a = k).Pairwise fun a b => le a b = true := by
    refine List.pairwise_of_forall_mem_list fun a ha b hb => ?_
    have hka : key a = k := by simpa using (List.mem_filter.1 ha).2
    have hkb : key b = k := by simpa using (List.mem_filter.1 hb).2
    exact (hle a b).2 (hka.trans hkb.symm).le
  have hsub : (xs.filter fun a => key a = k).Sublist
      ((xs.mergeSort le).filter fun a => key a = k) := by
    have hfilter := (List.sublist_mergeSort htrans htotal hclass List.filter_sublist).filter
      fun a => decide (key a = k)
    simpa only [List.filter_filter, Bool.and_self] using hfilter
  have hlength := ((List.mergeSort_perm xs le).filter fun a => decide (key a = k)).length_eq
  exact (hsub.eq_of_length hlength.symm).symm

end IsStableSort

end MappingAudit
