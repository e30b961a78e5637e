/-
# Settings

Settings turn rules off, change the severity of their findings and say how
expressions are searched.  What is not set has its default.  Rules are named by their
identifiers in any case; of several spellings of one identifier the first in order
counts.
-/

import MappingAudit.Check.Basic

namespace MappingAudit

/-- What is set for one rule. -/
structure RuleSetting where
  enabled : Bool := true
  /-- Takes the place of the default severity. -/
  severity : Option Severity := none
  deriving Repr, DecidableEq, Inhabited

/-- All settings. -/
structure Settings where
  /-- What is set for single rules, by identifier, in the order of the identifiers. -/
  rules : List (String × RuleSetting) := []
  smells : Check.SmellSettings := {}
  /-- Registrations are looked at side by side. -/
  parallel : Bool := true
  deriving Repr, DecidableEq, Inhabited

/-- Settings that cannot be used. -/
inductive SettingsError where
  | unreadable
  | unknownRules (codes : List String)
  deriving Repr, DecidableEq, Inhabited

namespace SettingsError

/-- What is said about unusable settings. -/
def message : SettingsError → String
  | unreadable => "Failed to parse .mapcheck.yaml: the text holds no settings"
  | unknownRules codes => "Unknown rule id(s): " ++ Pieces.join ", " codes

end SettingsError

namespace Settings

/-- Enters a value for a key into a list in the order of the keys; a value for the same
key is replaced. -/
def put {α : Type} (key : String) (value : α) : List (String × α) → List (String × α)
  | [] => [(key, value)]
  | (k, v) :: rest =>
    if key < k then (key, value) :: (k, v) :: rest
    else if key = k then (key, value) :: rest
    else (k, v) :: put key value rest

/-- What is set for the rule of an identifier. -/
def setting? (s : Settings) (code : String) : Option RuleSetting :=
  (s.rules.find? fun r => Pieces.sameName r.1 code).map (·.2)

/-- Findings of the rule are reported. -/
def isEnabled (s : Settings) (code : String) : Bool :=
  ((s.setting? code).map (·.enabled)).getD true

/-- The severity of findings of the rule. -/
def severityFor (s : Settings) (code : String) (default : Severity) : Severity :=
  ((s.setting? code).bind (·.severity)).getD default

/-- Turns a rule on or off. -/
def setEnabled (s : Settings) (code : String) (enabled : Bool) : Settings :=
  let key := code.toUpper
  let old := (s.rules.lookup key).getD {}
  { s with rules := put key { old with enabled } s.rules }

end Settings
end MappingAudit
