/-
# Positions not seen yet

A search that looks at each position below a bound once comes to an end: every position
that it has seen leaves fewer that it has not.  Positions may also count by a weight, such
as the number of ways that lead on from them.
-/

namespace MappingAudit
namespace Reach

/-- The positions below `n` that are not in `seen`. -/
def unseen (n : Nat) (seen : List Nat) : Nat :=
  ((List.range n).filter fun i => !seen.contains i).length

/-- Seeing a new position leaves fewer unseen ones. -/
theorem unseen_cons_lt {n i : Nat} {seen : List Nat} (h : i < n) (hi : seen.contains i = false) :
    unseen n (i :: seen) < unseen n seen := by
  unfold unseen
  have hsub : (List.range n).filter (fun j => !(i :: seen).contains j) =
      ((List.range n).filter fun j => !seen.contains j).filter (fun j => !(j == i)) := by
    rw [List.filter_filter]
    apply List.filter_congr
    intro j _
    by_cases hj : j = i <;> simp [hj]
  rw [hsub]
  have hmem : i ∈ (List.range n).filter fun j => !seen.contains j := by
    simp only [List.mem_filter, List.mem_range, h, true_and, hi, Bool.not_false]
  exact List.length_filter_lt_length_iff_exists.2 ⟨i, hmem, by simp⟩

/-- The weight of the positions below a bound that are not in `seen`. -/
def weight (w : Nat → Nat) (seen : List Nat) : Nat → Nat
  | 0 => 0
  | n + 1 => weight w seen n + if seen.contains n then 0 else w n

section

variable {w : Nat → Nat} {seen : List Nat} {n i : Nat}

/-- A position past the bound does not count. -/
theorem weight_cons_of_le (h : n ≤ i) : weight w (i :: seen) n = weight w seen n := by
  induction n with
  | zero => rfl
  | succ n ih =>
    have hne : (n == i) = false := by simp only [beq_eq_false_iff_ne]; omega
    rw [weight, weight, ih (by omega), List.contains_cons, hne, Bool.false_or]

/-- Seeing a new position takes its weight away. -/
theorem weight_cons (h : i < n) (hi : seen.contains i = false) :
    weight w (i :: seen) n + w i = weight w seen n := by
  induction n with
  | zero => exact absurd h (Nat.not_lt_zero i)
  | succ n ih =>
    rw [weight, weight]
    rcases Nat.lt_succ_iff_lt_or_eq.1 h with hlt | rfl
    · have hne : (n == i) = false := by simp only [beq_eq_false_iff_ne]; omega
      rw [List.contains_cons, hne, Bool.false_or, ← ih hlt]
      omega
    · rw [weight_cons_of_le (Nat.le_refl i), List.contains_cons, beq_self_eq_true, Bool.true_or,
        if_pos rfl, hi, if_neg Bool.false_ne_true, Nat.add_zero]

end

end Reach
end MappingAudit
