/-
# Repairing what was repaired

A second run starts from the result of the first with nothing seen and nothing declined.
It finds the same actions there, in the same order, and refuses those that fail and
those that leave the texts as they are, as the first run did.  An action that the first
run declined because it leads back to texts from before the result leads somewhere new
for the second run, which makes it.

So the result of a run that ends early is a fixed point exactly when no attempt on it
led back to other texts (`run_again_iff`).  Two checks that undo each other's fixes are
the way to such an attempt: a source member whose name differs in case is mapped by
name, and the next round reports that as redundant.
-/

import MappingAudit.Proofs.RepairHistory

namespace MappingAudit
namespace Repair

section

variable [CSharp.Reader]

/-! ### Attempts that turn back -/

section TurnsBack

variable {u v : Workspace} {x : Action} {after : Option Workspace} {why : String}

/-- An attempt from another state does not turn back. -/
theorem turnsBack_of_ne {w : Workspace} (h : u.fingerprint ≠ w.fingerprint) :
    turnsBack u ⟨w, x, after⟩ = false := by
  have hbefore : (w.fingerprint == u.fingerprint) = false := beq_false_of_ne h.symm
  rw [turnsBack, hbefore, Bool.false_and]

/-- An attempt from a state that leads to another one turns back. -/
theorem turnsBack_of_edit (hv : u.edit x.edits = .ok v) (hne : v.fingerprint ≠ u.fingerprint) :
    turnsBack u ⟨u, x, after⟩ = true := by
  simp [turnsBack, hv, hne]

/-- What fails or leaves the texts as they are does not turn back. -/
theorem turnsBack_of_refused (h : Refused [u.fingerprint] u x why) :
    turnsBack u ⟨u, x, after⟩ = false := by
  cases h with
  | fails he => simp [turnsBack, he]
  | cycle hv hmem => simp [turnsBack, hv, List.mem_singleton.1 hmem]

end TurnsBack

/-! ### The rounds of the second repair -/

section Rounds

variable {auditor : Auditor} {o : RepairOptions} {n : Nat} {r r' : Repair} {log : List Attempt}

/-- Rounds end when nothing is left to choose. -/
theorem rounds_of_find?_none
    (h : (eligible auditor o r.current).find? (fun x => !r.isDeclined x) = none) :
    ∃ skipped, rounds auditor o (n + 1) r = { r with skipped } := by
  rw [← choose_snd] at h
  rcases hc : choose auditor o r with ⟨skipped, next⟩
  rw [hc] at h
  obtain rfl : next = none := h
  exact ⟨skipped, by simp only [rounds, hc]⟩

/-- A round makes the action that it chooses. -/
theorem rounds_of_find?_some {x : Action}
    (h : (eligible auditor o r.current).find? (fun x => !r.isDeclined x) = some x) :
    ∃ skipped, rounds auditor o (n + 1) r = rounds auditor o n (make { r with skipped } x) := by
  rw [← choose_snd] at h
  rcases hc : choose auditor o r with ⟨skipped, next⟩
  rw [hc] at h
  obtain rfl : next = some x := h
  exact ⟨skipped, by simp only [rounds, hc]⟩

/-- The rounds stay on a workspace or leave everything seen before behind. -/
theorem Rounds.current_cases (h : Rounds auditor o n r log r') :
    r'.current = r.current ∨ r'.current.fingerprint ∉ r.seen := by
  induction h with
  | limit r => exact Or.inl rfl
  | done h => exact Or.inl rfl
  | keep h hw hnew hr ih =>
    rcases ih with heq | hnot
    · exact Or.inr (heq ▸ hnew)
    · exact Or.inr fun hmem => hnot (List.mem_cons_of_mem _ hmem)
  | decline h hx hr ih => exact ih

variable (auditor o) in
/-- The keys that are declined on a workspace decide which action is next. -/
theorem find?_isDeclined_congr {s : Repair} (hcur : s.current = r.current)
    (hd : ∀ key, (r.current.fingerprint, key) ∈ s.declined ↔
      (r.current.fingerprint, key) ∈ r.declined) :
    (eligible auditor o s.current).find? (fun x => !s.isDeclined x) =
      (eligible auditor o r.current).find? (fun x => !r.isDeclined x) := by
  rw [hcur]
  congr 1
  funext x
  have hiff := hd x.key
  rw [← List.contains_iff_mem, ← List.contains_iff_mem, ← Bool.eq_iff_iff] at hiff
  simp only [isDeclined, hcur, hiff]

/-- **A second repair of a result.**  It starts with the result alone seen and the same
keys declined there as the first repair has, and with no fewer rounds.  It makes no
action exactly when no attempt of the first repair turns back from the result. -/
theorem Rounds.again (h : Rounds auditor o n r log r') (hend : log.length < n)
    (hseen : r.current.fingerprint ∈ r.seen) {s : Repair} {m : Nat} (hm : n ≤ m)
    (hcur : s.current = r'.current) (hs : s.seen = [r'.current.fingerprint])
    (hd : ∀ key, (r'.current.fingerprint, key) ∈ s.declined ↔
      (r'.current.fingerprint, key) ∈ r.declined) :
    (rounds auditor o m s).applied = s.applied ↔ ∀ a ∈ log, turnsBack r'.current a = false := by
  induction h generalizing s m with
  | limit r => exact absurd hend (Nat.not_lt_zero _)
  | @done n r skipped h =>
    obtain ⟨m, rfl⟩ : ∃ k, m = k + 1 := ⟨m - 1, by omega⟩
    have hcur : s.current = r.current := hcur
    have hfind := find?_isDeclined_congr auditor o hcur hd
    obtain ⟨skipped', hrounds⟩ := rounds_of_find?_none (n := m) (hfind.trans h)
    simp [hrounds]
  | @keep n r r' _ x w log h hw hnew hr ih =>
    -- The repair leaves this workspace for good.
    have hne : r'.current.fingerprint ≠ r.current.fingerprint := by
      rcases hr.current_cases with heq | hnot
      · have heq : r'.current = w := heq
        exact fun hsame => hnew (by rw [← heq, hsame]; exact hseen)
      · exact fun hsame => hnot (List.mem_cons_of_mem _ (hsame ▸ hseen))
    rw [List.forall_mem_cons, and_iff_right (turnsBack_of_ne hne)]
    exact ih (Nat.lt_of_succ_lt_succ hend) List.mem_cons_self (by omega) hcur hs hd
  | @decline n r r' _ x why log h hx hr ih =>
    obtain ⟨m, rfl⟩ : ∃ k, m = k + 1 := ⟨m - 1, by omega⟩
    have hlog := Nat.lt_of_succ_lt_succ hend
    rw [List.forall_mem_cons]
    rcases hr.current_cases with heq | hnot
    · -- The result is the workspace of this round, so the second repair tries `x` too.
      have heq : r'.current = r.current := heq
      have hfind := find?_isDeclined_congr auditor o (hcur.trans heq) (heq ▸ hd)
      obtain ⟨skipped, hrounds⟩ := rounds_of_find?_some (n := m) (hfind.trans h)
      rw [← heq]
      rcases make_cases { s with skipped } x with ⟨v, hv, hnew, -, hmake⟩ | ⟨why', hx', -, hmake⟩
      · have hv : r'.current.edit x.edits = .ok v := hcur ▸ hv
        have hne : v.fingerprint ≠ r'.current.fingerprint := fun hsame =>
          hnew (by rw [hs, hsame]; exact List.mem_singleton_self _)
        have hmore := (rounds_spec auditor o m (advance { s with skipped } x v)).applied_eq
        rw [hrounds, hmake, hmore, turnsBack_of_edit hv hne]
        simp [advance]
      · have hx' : Refused s.seen s.current x why' := hx'
        rw [hs, hcur] at hx'
        rw [and_iff_right (turnsBack_of_refused hx'), hrounds, hmake]
        refine ih hlog hseen (by omega) hcur hs fun key => ?_
        show (r'.current.fingerprint, key) ∈ (s.current.fingerprint, x.key) :: s.declined ↔
          (r'.current.fingerprint, key) ∈ (r.current.fingerprint, x.key) :: r.declined
        rw [List.mem_cons, List.mem_cons, hd, hcur, heq]
    · have hne : r'.current.fingerprint ≠ r.current.fingerprint := fun hsame =>
        hnot (hsame ▸ hseen)
      rw [and_iff_right (turnsBack_of_ne hne)]
      refine ih hlog hseen (by omega) hcur hs fun key => ?_
      simp [hd, Repair.decline, hne]

end Rounds

/-- A run without an action keeps the workspace. -/
theorem current_of_applied_nil {auditor : Auditor} {o : RepairOptions} {w : Workspace}
    (h : (run auditor o w).applied = []) : (run auditor o w).current = w := by
  have hrun := run_rounds auditor o w
  have hkept : kept (attempts auditor o w) = [] :=
    List.map_eq_nil_iff.1 (hrun.applied_eq.symm.trans h)
  simpa [hkept, visited, start] using hrun.current_eq

/-- The second run applies nothing exactly when no attempt of the first turned back. -/
theorem applied_again_iff {auditor : Auditor} {o : RepairOptions} {w : Workspace}
    (h : EndsEarly auditor o w) :
    (run auditor o (run auditor o w).current).applied = [] ↔
      ∀ a ∈ attempts auditor o w, turnsBack (run auditor o w).current a = false :=
  (run_rounds auditor o w).again h (List.mem_singleton_self _)
    (s := start (run auditor o w).current) (Nat.le_refl _) rfl rfl fun key => by simp [start]

/-- **When the result of a repair is a fixed point.**  After a run that ends early, a
second run with the same checks and options makes no action and keeps every text if and
only if no attempt of the first run turns back from the result. -/
theorem run_again_iff (auditor : Auditor) (o : RepairOptions) (w : Workspace)
    (h : EndsEarly auditor o w) :
    ((run auditor o (run auditor o w).current).applied = [] ∧
        (run auditor o (run auditor o w).current).current.texts =
          (run auditor o w).current.texts) ↔
      ∀ a ∈ attempts auditor o w, turnsBack (run auditor o w).current a = false := by
  rw [← applied_again_iff h, and_iff_left_iff_imp]
  intro happlied
  rw [current_of_applied_nil happlied]

end

/-- An attempt of the run on `caseVariants` turns back from its result. -/
theorem exists_turnsBack_caseVariants :
    ∃ a ∈ attempts (.ofSettings {}) {} caseVariants,
      turnsBack (run (.ofSettings {}) {} caseVariants).current a = true := by
  have hcurrent := (run_rounds (.ofSettings {}) {} caseVariants).current_eq
  rw [hcurrent]
  exact caseVariants_attempts.2.2

/-- The result of the run on `caseVariants` is not a fixed point. -/
theorem run_again_caseVariants :
    EndsEarly (.ofSettings {}) {} caseVariants ∧
      ¬((run (.ofSettings {}) {} (run (.ofSettings {}) {} caseVariants).current).applied = [] ∧
        (run (.ofSettings {}) {} (run (.ofSettings {}) {} caseVariants).current).current.texts =
          (run (.ofSettings {}) {} caseVariants).current.texts) := by
  obtain ⟨a, ha, hback⟩ := exists_turnsBack_caseVariants
  refine ⟨caseVariants_attempts.1, fun hfixed => ?_⟩
  rw [run_again_iff _ _ _ caseVariants_attempts.1] at hfixed
  exact absurd (hfixed a ha) (by simp [hback])

/-- The second run on `caseVariants` makes an action. -/
theorem applied_again_caseVariants :
    EndsEarly (.ofSettings {}) {} caseVariants ∧
      (run (.ofSettings {}) {} (run (.ofSettings {}) {} caseVariants).current).applied ≠ [] := by
  obtain ⟨a, ha, hback⟩ := exists_turnsBack_caseVariants
  refine ⟨caseVariants_attempts.1, fun happlied => ?_⟩
  have hnone := (applied_again_iff caseVariants_attempts.1).1 happlied a ha
  exact absurd hnone (by simp [hback])

end Repair
end MappingAudit
