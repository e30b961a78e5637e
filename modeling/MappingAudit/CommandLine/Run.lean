/-
# Commands

A command reads settings and sources from a disk, prints a report and may write the
sources back.  It ends with an exit code of one after any error.
-/

import MappingAudit.CommandLine.Arguments
import MappingAudit.CommandLine.Files
import MappingAudit.CSharp.Declarations
import MappingAudit.Report.Data
import MappingAudit.Settings.Read

namespace MappingAudit

/-- Why a command fails. -/
inductive CommandError where
  | unreadable (e : ReadError)
  /-- Unusable settings in a file. -/
  | settings (path : String) (e : SettingsError)
  | pathNotFound (path : String)
  | noSources
  | findingsLeft
  | errorsRemain
  | unknownCommand
  | unknownSchema (name : String)
  /-- Schemas are not part of the program. -/
  | noSchema (name : String)
  | treeUsage
  /-- Syntax trees are not printed. -/
  | noTree (path : String)
  deriving Repr, DecidableEq, Inhabited

namespace CommandError

/-- What is said about a failure. -/
def message : CommandError → String
  | unreadable e => "IO error: " ++ e.message
  | settings path e => "Config error: " ++ path ++ ": " ++ e.message
  | pathNotFound path => "Path not found: " ++ path
  | noSources => "No C# files found"
  | findingsLeft => "Analysis found errors"
  | errorsRemain => "Errors remain after fixing"
  | unknownCommand => "Unknown command"
  | unknownSchema name => "Unknown schema: " ++ name
  | noSchema name => "Schema is not available: " ++ name
  | treeUsage => "Usage: mapcheck sexp <file.cs>"
  | noTree path => "Syntax tree is not available: " ++ path

end CommandError

/-- What a command prints and writes. -/
structure Output where
  text : String := ""
  /-- What is printed on the error stream. -/
  errors : String := ""
  /-- The texts to write, by path. -/
  writes : List (String × String) := []
  code : Nat := 0
  deriving Repr, DecidableEq, Inhabited

namespace Output

/-- The output followed by a failure. -/
def failing (o : Output) (e : CommandError) : Output :=
  { o with errors := o.errors ++ "Error: " ++ e.message ++ "\n", code := 1 }

/-- The output followed by a failure unless a condition holds. -/
def failingUnless (o : Output) (passed : Bool) (e : CommandError) : Output :=
  if passed then o else o.failing e

end Output

namespace Command

/-- The name of settings files. -/
def settingsName : String := ".mapcheck.yaml"

/-- How the program is used. -/
def usage : String := "
mapcheck - AutoMapper configuration analysis

USAGE:
    mapcheck <COMMAND> [OPTIONS]

COMMANDS:
    check [paths...]                 Analyze C# files and directories (default: .)
    fix [paths...]                   Apply fixes and write the changed files
    rules [--json]                   List rule ids, severities and titles
    schema [config|report|fix]       Print JSON schema
    sexp <file.cs>                   Print the syntax tree of a file
    version                          Print version

OPTIONS:
    --config, -c <file>              Configuration file (default: nearest .mapcheck.yaml)
    --json                           JSON output (check, fix, rules)
    --all                            Also apply low-confidence fixes (fix)
    --rule, -r <id>                  Only fix findings of this rule; repeatable (fix)
    --dry-run                        Print fixed files instead of writing them (fix)

ENVIRONMENT:
    MAPCHECK_LOG                     Log filter, e.g. debug or mapcheck=trace

EXAMPLES:
    mapcheck check src/Mapping
    mapcheck check . --json > findings.json
    mapcheck fix src --rule AM050 --dry-run

"

/-- The settings in a text from a file. -/
def readSettings (path text : String) : Except CommandError Settings :=
  match Settings.read text with
  | .ok s => .ok s
  | .error e => .error (.settings path e)

/-- The settings in the file that the arguments name, or else in the nearest settings
file. -/
def settings (d : Disk) (args : List String) : Except CommandError Settings :=
  match Arguments.value? Arguments.configFlags args with
  | some path =>
    match d.read path with
    | .ok text => readSettings path text
    | .error e => .error (.unreadable e)
  | none =>
    match d.nearest? settingsName with
    | some (path, text) => readSettings path text
    | none => .ok {}

/-- The paths of the source files that paths stand for. -/
def sourcePaths (d : Disk) : List String → Except CommandError (List String)
  | [] => .ok []
  | p :: ps =>
    match d.expand? p with
    | none => .error (.pathNotFound p)
    | some found =>
      match sourcePaths d ps with
      | .error e => .error e
      | .ok rest => .ok (found ++ rest)

/-- The text of a source file with its path. -/
def readSource (d : Disk) (path : String) : Except CommandError (String × String) :=
  match d.read path with
  | .ok text => .ok (path, text)
  | .error e => .error (.unreadable e)

/-- The sources that the arguments name. -/
def workspace (d : Disk) (args : List String) : Except CommandError Workspace := do
  let paths ← sourcePaths d (Arguments.paths args)
  let sources ← (Disk.arrange paths).mapM (readSource d)
  if sources.isEmpty then throw .noSources
  pure (Workspace.ofSources sources)

/-- A report as the arguments ask for it. -/
def printed (asData : Bool) (data : JsonValue) (text : String) : String :=
  if asData then data.render ++ "\n" else text

/-- Looks at sources. -/
def check (d : Disk) (args : List String) : Except CommandError Output := do
  let settings ← settings d args
  let w ← workspace d args
  let report := Report.ofAudit w ((Auditor.ofSettings settings).audit w)
  let output : Output := { text := printed (Arguments.has args "--json") report.data report.text }
  pure (output.failingUnless report.passed .findingsLeft)

/-- The options of a repair. -/
def repairOptions (args : List String) : RepairOptions :=
  let rules := Arguments.values Arguments.ruleFlags args
  { all := Arguments.has args "--all", rules := if rules.isEmpty then none else some rules }

/-- A repaired document as it is printed. -/
def preview (d : Document) : String := "--- " ++ d.path ++ " (fixed)\n" ++ d.text ++ "\n"

/-- Repairs sources. -/
def fix (d : Disk) (args : List String) : Except CommandError Output := do
  let asData := Arguments.has args "--json"
  let isTrial := Arguments.has args "--dry-run"
  let settings ← settings d args
  let w ← workspace d args
  let auditor := Auditor.ofSettings settings
  let repair := Repair.run auditor (repairOptions args) w
  let report := FixReport.ofRepair auditor w repair
  let changed := FixReport.changedDocuments w repair.current
  let previews := if isTrial && !asData then String.join (changed.map preview) else ""
  let output : Output :=
    { text := previews ++ printed asData report.data report.text
      writes := if isTrial then [] else changed.map fun c => (c.path, c.text) }
  pure (output.failingUnless report.remaining.passed .errorsRemain)

/-- A text filled up to a width. -/
def padded (width : Nat) (s : String) : String :=
  s ++ String.ofList (List.replicate (width - s.length) ' ')

/-- A rule in one line. -/
def ruleLine (r : RuleId) : String :=
  r.code ++ "  " ++ padded 8 r.severity.name ++ " " ++ padded 17 r.family.text ++ " " ++ r.title ++
    "\n"

/-- Lists the rules. -/
def rules (args : List String) : Output :=
  { text := printed (Arguments.has args "--json") (.list (RuleId.all.map (·.data)))
      (String.join (RuleId.all.map ruleLine)) }

/-- The schemas that have names. -/
def schemaNames : List String := ["config", "report", "fix"]

/-- Names the schemas. -/
def schema (args : List String) : Except CommandError Output :=
  match args.head?.getD "list" with
  | "list" => .ok { text := "Available schemas: " ++ Pieces.join ", " schemaNames ++ "\n" }
  | name => .error (if schemaNames.contains name then .noSchema name else .unknownSchema name)

/-- Reads the file whose syntax tree is asked for. -/
def tree (d : Disk) (args : List String) : Except CommandError Output :=
  match args with
  | [] => .error .treeUsage
  | path :: _ =>
    match d.read path with
    | .error e => .error (.unreadable e)
    | .ok _ => .error (.noTree path)

/-- The output of a command that may fail. -/
def finish : Except CommandError Output → Output
  | .ok o => o
  | .error e => Output.failing {} e

/-- Runs a command on a disk. -/
def run (d : Disk) (args : List String) : Output :=
  match args with
  | [] => { text := usage, code := 1 }
  | name :: rest =>
    match name with
    | "check" => finish (check d rest)
    | "fix" => finish (fix d rest)
    | "rules" => rules rest
    | "schema" => finish (schema rest)
    | "sexp" => finish (tree d rest)
    | "version" | "--version" | "-v" => { text := "mapcheck " ++ version ++ "\n" }
    | "help" | "--help" | "-h" => { text := usage }
    | _ =>
      Output.failing { text := usage, errors := "Unknown command: " ++ name ++ "\n" }
        .unknownCommand

end Command
end MappingAudit
