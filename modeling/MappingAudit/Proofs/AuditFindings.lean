/-
# The findings of an audit

An audit leaves out checks that can only report what is turned off, drops the findings of
rules that are turned off, sets severities and sorts.  What comes of it has a plain
description: all checks run for all registrations, each finding is dropped or given its
severity, and the rest is put in the order of the files, where findings at one place keep
their order (`Auditor.audit_passes_through`).

Two facts carry this.  A check reports violations of its own rules, so a check without a
rule that is turned on has nothing to lose (`Auditor.configure_found`).  And a stable sort
has one result, which findings can leave before the sort as well as after it
(`IsStableSort.unique`, `IsStableSort.filter`).
-/

import MappingAudit.CSharp.Declarations
import MappingAudit.Proofs.Findings
import MappingAudit.Proofs.SharedRun
import MappingAudit.Proofs.StableSort

namespace MappingAudit

/-! ### What settings do to findings -/

namespace Settings

variable {s s' : Settings} {rule : RuleId}

/-- The finding with the severity that is set for its rule, unless the rule is turned off. -/
def applied? (s : Settings) (f : Finding) : Option Finding :=
  if s.isEnabled f.rule.code then
    some { f with severity := s.severityFor f.rule.code f.severity }
  else none

/-- The second settings turn a rule off, and are the first for all other rules. -/
structure TurnsOff (s : Settings) (rule : RuleId) (s' : Settings) : Prop where
  off : s'.isEnabled rule.code = false
  isEnabled_eq : ∀ r, r ≠ rule → s'.isEnabled r.code = s.isEnabled r.code
  severityFor_eq : ∀ r, r ≠ rule → ∀ default, s'.severityFor r.code default =
    s.severityFor r.code default

/-- When a rule is turned off, its findings are left out and the others are the same. -/
theorem applied?_eq_of_turnsOff (h : s.TurnsOff rule s') (f : Finding) :
    s'.applied? f = (s.applied? f).filter fun g => g.rule != rule := by
  by_cases hrule : f.rule = rule
  · rw [applied?, applied?, hrule, h.off]
    cases s.isEnabled rule.code <;> simp [Option.filter]
  · rw [applied?, applied?, h.isEnabled_eq _ hrule, h.severityFor_eq _ hrule]
    cases s.isEnabled f.rule.code <;> simp [Option.filter, hrule]

/-- Turning a rule off drops its findings and nothing else. -/
theorem filterMap_applied?_of_turnsOff (h : s.TurnsOff rule s') (fs : List Finding) :
    fs.filterMap s'.applied? = (fs.filterMap s.applied?).filter fun f => f.rule != rule := by
  rw [List.filter_filterMap, funext (applied?_eq_of_turnsOff h)]

end Settings

/-! ### Checks that may fail -/

namespace Check

variable {k : Check} {x : Context}

/-- The check does not finish. -/
def FailsFor (k : Check) (x : Context) : Prop := ∀ fs, k.run x ≠ .found fs

/-- Whatever a check is run for, it fails, or it does what one of the usual checks does. -/
def IsUsualOrFails (k : Check) : Prop :=
  ∀ x, k.FailsFor x ∨ ∃ s, ∃ l ∈ all s, k.rules = l.rules ∧ k.run x = l.run x

/-- A check that fails finds nothing. -/
theorem FailsFor.findings_eq_nil (h : k.FailsFor x) : (k.run x).findings = [] := by
  cases hrun : k.run x with
  | found fs => exact absurd hrun (h fs)
  | failed message => rfl
  | crashed => rfl

/-- Every check of the list is usual. -/
theorem isUsualOrFails_of_mem_all {s : SmellSettings} (h : k ∈ all s) : k.IsUsualOrFails :=
  fun _ => .inr ⟨s, k, h, rfl, rfl⟩

/-- A check that always fails is allowed too. -/
theorem isUsualOrFails_of_fails (h : ∀ x, k.FailsFor x) : k.IsUsualOrFails :=
  fun x => .inl (h x)

/-- Findings have a rule of their check. -/
theorem IsUsualOrFails.rule_mem_rules (h : k.IsUsualOrFails) :
    ∀ f ∈ (k.run x).findings, f.rule ∈ k.rules := by
  intro f hf
  rcases h x with hfails | ⟨s, l, hl, hrules, hrun⟩
  · rw [hfails.findings_eq_nil] at hf
    exact absurd hf List.not_mem_nil
  · rw [hrun] at hf
    rw [hrules]
    exact Check.rule_mem_rules s l hl f hf

end Check

/-! ### Audits -/

namespace Auditor

variable {a a' : Auditor}

/-- The place of a finding: its file, those of no file last, and then its first byte. -/
def place (rs : List Registration) (f : Finding) : WithTop ℕ ×ₗ ℕ :=
  toLex ((fileIndex? rs f).elim ⊤ WithTop.some, f.span.startByte)

/-- Findings are sorted by their places. -/
theorem notAfter_iff (rs : List Registration) (f g : Finding) :
    notAfter rs f g = true ↔ place rs f ≤ place rs g := by
  rw [place, place, Prod.Lex.toLex_le_toLex, notAfter]
  cases fileIndex? rs f with
  | none => cases fileIndex? rs g <;> simp
  | some i =>
    cases fileIndex? rs g with
    | none => simp
    | some j => simp

/-- Settings act on each finding alone. -/
theorem configure_eq (fs : List Finding) : a.configure fs = fs.filterMap a.settings.applied? := by
  induction fs with
  | nil => rfl
  | cons f fs ih =>
    rw [configure] at ih ⊢
    rw [List.filter_cons, List.filterMap_cons, Settings.applied?]
    split
    · rw [List.map_cons, ih]
    · exact ih

/-- A check without a rule that is turned on has nothing to report. -/
theorem filterMap_applied?_eq_nil {s : Settings} {k : Check} {x : Context} (h : k.IsUsualOrFails)
    (hoff : ∀ rule ∈ k.rules, s.isEnabled rule.code = false) :
    (k.run x).findings.filterMap s.applied? = [] := by
  rw [List.filterMap_eq_nil_iff]
  intro f hf
  rw [Settings.applied?, hoff f.rule (h.rule_mem_rules f hf), if_neg Bool.false_ne_true]

section

variable [CSharp.Reader] {w : Workspace}

/-- What all checks find for all registrations. -/
def everything (a : Auditor) (w : Workspace) : List Finding :=
  (contextsOf w).flatMap fun x => a.checks.flatMap fun k => (k.run x).findings

/-- What all checks find, with the settings applied to each finding. -/
def reported (a : Auditor) (w : Workspace) : List Finding :=
  (a.everything w).filterMap a.settings.applied?

/-- **A check without a rule that is turned on has nothing to lose.** -/
theorem configure_found (h : ∀ k ∈ a.checks, k.IsUsualOrFails) :
    a.configure (Run.found (Run.tasks a.active (contextsOf w))) = a.reported w := by
  have hfilter : (Run.found (Run.tasks a.active (contextsOf w))).filter
      (fun f => a.settings.isEnabled f.rule.code) =
        (a.everything w).filter fun f => a.settings.isEnabled f.rule.code := by
    rw [Run.found_tasks, everything, List.filter_flatMap, List.filter_flatMap]
    congr 1
    funext x
    have hactive : ∀ k ∈ a.active, ∀ f ∈ (k.run x).findings, f.rule ∈ k.rules :=
      fun k hk => (h k (List.mem_filter.1 hk).1).rule_mem_rules
    rw [Check.filter_flatMap_findings hactive fun rule => a.settings.isEnabled rule.code,
      Check.filter_flatMap_findings (fun k hk => (h k hk).rule_mem_rules) fun rule =>
        a.settings.isEnabled rule.code, active, List.filter_filter]
    simp only [Bool.and_self]
  rw [reported, ← configure_eq, configure, configure, hfilter]

/-- An audit puts what is reported in the order of the files. -/
theorem audit_eq_reported (h : ∀ k ∈ a.checks, k.IsUsualOrFails) :
    a.audit w = ⟨w.registrations, .ofRegistrations w.catalog w.registrations,
      arrange w.registrations (a.reported w)⟩ := by
  rw [audit_eq, finish, configure_found h]

/-- **The findings of an audit are what is reported, sorted stably.** -/
theorem isStableSort_findings (h : ∀ k ∈ a.checks, k.IsUsualOrFails) :
    IsStableSort (place w.registrations) (a.reported w) (a.audit w).findings := by
  rw [audit_eq_reported h]
  exact .mergeSort (notAfter_iff w.registrations) _

section Removed

variable {before after : List Check} {k : Check}

/-- What is reported does not change with a check that has nothing to report. -/
theorem reported_removed (hchecks : a.checks = before ++ k :: after)
    (hk : ∀ x ∈ contextsOf w, (k.run x).findings.filterMap a.settings.applied? = []) :
    { a with checks := before ++ after }.reported w = a.reported w := by
  rw [reported, reported, everything, everything, hchecks, List.filterMap_flatMap,
    List.filterMap_flatMap]
  refine List.flatMap_congr fun x hx => ?_
  rw [List.flatMap_append, List.flatMap_append, List.flatMap_cons, List.filterMap_append,
    List.filterMap_append, List.filterMap_append, hk x hx, List.nil_append]

/-- Removing a check that has nothing to report does not change an audit. -/
theorem audit_removed (h : ∀ k ∈ a.checks, k.IsUsualOrFails)
    (hchecks : a.checks = before ++ k :: after)
    (hk : ∀ x ∈ contextsOf w, (k.run x).findings.filterMap a.settings.applied? = []) :
    { a with checks := before ++ after }.audit w = a.audit w := by
  have hrest : ∀ l ∈ before ++ after, l.IsUsualOrFails := by
    intro l hl
    refine h l ?_
    rw [hchecks]
    rcases List.mem_append.1 hl with hl | hl
    · exact List.mem_append_left _ hl
    · exact List.mem_append_right _ (List.mem_cons_of_mem _ hl)
  rw [audit_eq_reported h, audit_eq_reported hrest, reported_removed hchecks hk]

end Removed

/-- Checks stay out of each other's way, and the settings act on each finding alone. -/
structure PassesThrough (a : Auditor) (w : Workspace) : Prop where
  /-- The findings are all that the checks find for the registrations in turn, without those
  of rules that are turned off and with the severities that are set, sorted stably by the
  file and the first byte; and sorting stably gives nothing else. -/
  findings : ∀ fs, fs = (a.audit w).findings ↔
    IsStableSort (place w.registrations) (a.reported w) fs
  /-- Nor does it matter how many workers share the work. -/
  shared : ∀ cores, a.auditWith cores .never w = .ok (a.audit w)
  /-- A check that fails for every registration could be left out. -/
  failed : ∀ before k after, a.checks = before ++ k :: after →
    (∀ x ∈ contextsOf w, k.FailsFor x) → { a with checks := before ++ after }.audit w = a.audit w
  /-- A check all of whose rules are turned off could be left out. -/
  skipped : ∀ before k after, a.checks = before ++ k :: after →
    (∀ rule ∈ k.rules, a.settings.isEnabled rule.code = false) →
      { a with checks := before ++ after }.audit w = a.audit w
  /-- Turning a rule off deletes its findings and leaves the others as they are. -/
  turnedOff : ∀ rule s, a.settings.TurnsOff rule s →
    ({ a with settings := s }.audit w).findings =
      (a.audit w).findings.filter fun f => f.rule != rule

/-- **Checks are isolated and settings act on each finding alone.**  For every workspace, every
list of usual checks in any order, with checks that fail or crash anywhere among them, and all
settings, the findings of an audit are the stable sort by file and first byte of what each
check that does not fail finds for each registration, without the findings of rules that are
turned off and with the severities that are set. -/
theorem audit_passes_through (a : Auditor) (w : Workspace)
    (h : ∀ k ∈ a.checks, k.IsUsualOrFails) : a.PassesThrough w where
  findings := fun fs =>
    ⟨fun hfs => hfs ▸ isStableSort_findings h, fun hfs => hfs.unique (isStableSort_findings h)⟩
  shared := fun cores => auditWith_never a cores w
  failed := by
    intro before k after hchecks hfails
    refine audit_removed h hchecks fun x hx => ?_
    rw [(hfails x hx).findings_eq_nil, List.filterMap_nil]
  skipped := by
    intro before k after hchecks hoff
    refine audit_removed h hchecks fun x hx => ?_
    refine filterMap_applied?_eq_nil (h k ?_) hoff
    rw [hchecks]
    exact List.mem_append_right _ List.mem_cons_self
  turnedOff := by
    intro rule s hs
    have hreported : { a with settings := s }.reported w =
        (a.reported w).filter fun f => f.rule != rule :=
      Settings.filterMap_applied?_of_turnsOff hs _
    have hsort : IsStableSort (place w.registrations) ((a.reported w).filter fun f => f.rule != rule)
        ({ a with settings := s }.audit w).findings := by
      rw [← hreported]
      exact isStableSort_findings h
    exact hsort.unique ((isStableSort_findings h).filter fun f => f.rule != rule)

end

/-- A mapping with a member of another type, an optional member, and a member on each side
that the other does not have. -/
def unevenTypes : Workspace :=
  .ofSources [("P.cs", "AddMaps(c=>c.CreateMap<S,D>());" ++
    "record S(string X,int? Z,int W);record D(int X,int Z,int Y);")]

/-- Findings about `Y` are errors. -/
def strictSettings : Settings := { rules := [("am006", { severity := some .error })] }

/-- Members of another type are not reported. -/
def strictWithoutTypes : Settings :=
  { rules := ("AM001", { enabled := false }) :: strictSettings.rules }

/-- The settings of the example differ in one rule that is off. -/
theorem turnsOff_strictWithoutTypes : strictSettings.TurnsOff .typeMismatch strictWithoutTypes where
  off := by decide
  isEnabled_eq := by intro r hr; cases r <;> first | exact absurd rfl hr | decide
  severityFor_eq := by intro r hr default; cases r <;> first | exact absurd rfl hr | rfl

/-- The usual checks in reverse, after one that crashes and before one that fails. -/
def unsteady (s : Settings) : Auditor where
  checks := ⟨"crashing", [.conflict], fun _ => .crashed⟩ :: ((Check.all {}).reverse ++
    [⟨"failing", [.typeMismatch], fun _ => .failed "no answer"⟩])
  settings := s

/-- The checks of the example are usual, or one that fails. -/
theorem isUsualOrFails_unsteady (s : Settings) :
    ∀ k ∈ (unsteady s).checks, k.IsUsualOrFails := by
  intro k hk
  rcases List.mem_cons.1 hk with rfl | hk
  · exact Check.isUsualOrFails_of_fails fun _ _ h => Outcome.noConfusion h
  · rcases List.mem_append.1 hk with hk | hk
    · exact Check.isUsualOrFails_of_mem_all (List.mem_reverse.1 hk)
    · obtain rfl := List.mem_singleton.1 hk
      exact Check.isUsualOrFails_of_fails fun _ _ h => Outcome.noConfusion h

set_option maxRecDepth 100000 in
/-- Its report has four findings, with the severities that are set. -/
theorem reported_unsteady :
    ((unsteady strictSettings).reported unevenTypes).map (fun f => (f.rule, f.severity)) =
      [(.destinationUnmapped, .error), (.sourceUnmapped, .info), (.typeMismatch, .error),
        (.nullToValue, .warning)] := by
  decide +kernel

/-- Four findings are reported past the checks that fail; without one of the rules the audit
has the other three. -/
theorem audit_passes_through_unsteady :
    (unsteady strictSettings).PassesThrough unevenTypes ∧
      ((unsteady strictSettings).reported unevenTypes).map (fun f => (f.rule, f.severity)) =
        [(.destinationUnmapped, .error), (.sourceUnmapped, .info), (.typeMismatch, .error),
          (.nullToValue, .warning)] ∧
        ((unsteady strictWithoutTypes).audit unevenTypes).findings =
          ((unsteady strictSettings).audit unevenTypes).findings.filter
            fun f => f.rule != .typeMismatch := by
  have hpasses := audit_passes_through (unsteady strictSettings) unevenTypes
    (isUsualOrFails_unsteady strictSettings)
  exact ⟨hpasses, reported_unsteady, hpasses.turnedOff _ _ turnsOff_strictWithoutTypes⟩

end Auditor

end MappingAudit
