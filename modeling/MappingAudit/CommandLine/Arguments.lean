/-
# Arguments

An argument is a flag, the value of the flag before it, or a path.  Some flags take the
next argument as their value.
-/

namespace MappingAudit
namespace Arguments

/-- The names of the flag for a settings file. -/
def configFlags : List String := ["--config", "-c"]

/-- The names of the flag for a rule. -/
def ruleFlags : List String := ["--rule", "-r"]

/-- Flags that take a value. -/
def valueFlags : List String := configFlags ++ ruleFlags

/-- A flag is given. -/
def has (args : List String) (name : String) : Bool := args.contains name

/-- The values after every use of a flag. -/
def values (names : List String) : List String → List String
  | a :: v :: rest =>
    if names.contains a then v :: values names (v :: rest) else values names (v :: rest)
  | _ => []

/-- The value after the first use of a flag. -/
def value? (names : List String) : List String → Option String
  | [] => none
  | a :: rest => if names.contains a then rest.head? else value? names rest

/-- The argument starts with a dash. -/
def isFlag (a : String) : Bool := a.toList.head? == some '-'

/-- The arguments that are neither flags nor values of flags. -/
def bare : List String → List String
  | [] => []
  | [a] => if isFlag a then [] else [a]
  | a :: v :: rest =>
    if valueFlags.contains a then bare rest
    else if isFlag a then bare (v :: rest)
    else a :: bare (v :: rest)

/-- The paths; the current directory when there are none. -/
def paths (args : List String) : List String :=
  match bare args with
  | [] => ["."]
  | ps => ps

end Arguments
end MappingAudit
