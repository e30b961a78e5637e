/-
# Reading settings

A settings text holds the entries `rules`, `performance` and `parallel`, each at most
once, and no other.  Every rule that it names has to exist.
-/

import MappingAudit.Settings.Basic
import MappingAudit.Settings.Tree

namespace MappingAudit
namespace Settings

/-- The entries of a mapping; a value that is not written has none. -/
def entries? : Tree → Option (List (String × Tree))
  | .mapping es => some es
  | .value "" false => some []
  | _ => none

/-- The entries, when only the given names occur and each at most once; the items of a
list go to the names in order. -/
def fields? (names : List String) (t : Tree) : Option (List (String × Tree)) :=
  match t with
  | .list items => if items.length ≤ names.length then some (names.zip items) else none
  | t => do
    let es ← entries? t
    let keys := es.map (·.1)
    if keys.all names.contains && names.all fun n => keys.count n ≤ 1 then some es else none

/-- The value of a name, or a default when the name does not occur. -/
def field? {α : Type} (es : List (String × Tree)) (name : String) (f : Tree → Option α)
    (default : α) : Option α :=
  match es.lookup name with
  | some t => f t
  | none => some default

/-- A plain truth value. -/
def bool? : Tree → Option Bool
  | .value text false =>
    if ["true", "True", "TRUE"].contains text then some true
    else if ["false", "False", "FALSE"].contains text then some false
    else none
  | _ => none

/-- The value of a digit in a base up to sixteen. -/
def digit? (base : Nat) (c : Char) : Option Nat :=
  let n :=
    if c.isDigit then c.toNat - '0'.toNat
    else if 'a' ≤ c && c ≤ 'f' then c.toNat - 'a'.toNat + 10
    else if 'A' ≤ c && c ≤ 'F' then c.toNat - 'A'.toNat + 10
    else base
  if n < base then some n else none

/-- The number that digits stand for. -/
def digits? (base : Nat) (cs : List Char) : Option Nat :=
  if cs.isEmpty then none
  else cs.foldlM (fun n c => (digit? base c).map fun d => n * base + d) 0

/-- A number: decimal without leading zeros, or in base sixteen, eight or two after
`0x`, `0o` or `0b`. -/
def natural? (text : String) : Option Nat :=
  let cs := (Pieces.dropHead? ['+'] text.toList).getD text.toList
  match cs with
  | '0' :: 'x' :: rest => digits? 16 rest
  | '0' :: 'o' :: rest => digits? 8 rest
  | '0' :: 'b' :: rest => digits? 2 rest
  | '0' :: _ :: _ => none
  | cs => digits? 10 cs

/-- A plain number below `2 ^ 64`. -/
def number? : Tree → Option Nat
  | .value text false => (natural? text).filter (· < 0x10000000000000000)
  | _ => none

/-- A severity, or none for a value that is not written or null. -/
def severity? : Tree → Option (Option Severity)
  | .value text quoted =>
    if !quoted && ["", "~", "null", "Null", "NULL"].contains text then some none
    else ([.info, .warning, .error].find? fun s => Severity.name s == text).map some
  | _ => none

/-- How many smells are reported. -/
def mode? : Tree → Option SmellMode
  | .value "first" _ => some .first
  | .value "all" _ => some .all
  | _ => none

/-- What is set for a rule. -/
def ruleSetting? (t : Tree) : Option RuleSetting := do
  let es ← fields? ["enabled", "severity"] t
  pure ⟨← field? es "enabled" bool? true, ← field? es "severity" severity? none⟩

/-- How expressions are searched. -/
def smells? (t : Tree) : Option Check.SmellSettings := do
  let es ← fields? ["mode", "max_projection_depth"] t
  pure ⟨← field? es "mode" mode? .first, ← field? es "max_projection_depth" number? 3⟩

/-- What is set for single rules; of several entries for one key the last counts. -/
def rules? (t : Tree) : Option (List (String × RuleSetting)) := do
  let es ← entries? t
  let settings ← es.mapM fun (k, v) => (ruleSetting? v).map fun s => (k, s)
  pure (settings.foldl (fun rs (k, s) => put k s rs) [])

/-- All settings. -/
def ofTree? (t : Tree) : Option Settings := do
  let es ← fields? ["rules", "performance", "parallel"] t
  pure ⟨← field? es "rules" rules? [], ← field? es "performance" smells? {},
    ← field? es "parallel" bool? true⟩

/-- The keys that name no rule. -/
def unknownCodes (s : Settings) : List String :=
  (s.rules.map (·.1)).filter fun code => (RuleId.ofCode? code).isNone

/-- Reads a settings text; a blank one sets nothing. -/
def read (text : String) : Except SettingsError Settings :=
  let tree := if text.toList.all CharClass.blank then some Tree.empty else Tree.read? text
  match tree.bind ofTree? with
  | none => .error .unreadable
  | some s =>
    match s.unknownCodes with
    | [] => .ok s
    | codes => .error (.unknownRules codes)

end Settings
end MappingAudit
