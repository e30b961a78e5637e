/-
# The program

The program reads what its arguments name from the disk, runs the command, prints what
the command prints and writes what it writes.
-/

import MappingAudit.CommandLine.Run

namespace MappingAudit
namespace Disk

/-- The names on the way from the top to the end of a path. -/
def way (current : List String) (path : String) : List String :=
  let start := if path.toList.head? == some '/' then [] else current
  (Pieces.splitText '/' path).foldl
    (fun names part =>
      if part.isEmpty || part == "." then names
      else if part == ".." then names.dropLast
      else names ++ [part])
    start

/-- The file at the end of a way from the top, or the source files below it; `n` bounds
how far down they lie. -/
def load : Nat → List String → IO (List (List String × String))
  | 0, _ => pure []
  | n + 1, names => do
    let here := (← IO.currentDir) / ("/" ++ Pieces.join "/" names)
    if ← here.isDir then
      let found ← (← here.readDir).toList.mapM fun e => do
        let isSource := Catalog.endsIn e.fileName ".cs"
        let isWanted := if ← e.path.isDir then isVisible e.fileName else isSource
        if isWanted then load n (names ++ [e.fileName]) else pure []
      pure found.flatten
    else
      try pure [(names, ← IO.FS.readFile here)] catch _ => pure []

/-- The part of the disk that arguments name, with the settings files around the current
directory. -/
def ofArguments (args : List String) : IO Disk := do
  let current := way [] (← IO.currentDir).toString
  let settings := (Catalog.initials current ++ [[]]).map (· ++ [Command.settingsName])
  let named := (Arguments.paths args ++ args).map (way current)
  let files ← (settings ++ named).mapM (load 256)
  pure ⟨"/", files.flatten, current⟩

end Disk
end MappingAudit

/-- Runs the command that the arguments name. -/
def main (args : List String) : IO UInt32 := do
  let disk ← MappingAudit.Disk.ofArguments (args.drop 1)
  let output := MappingAudit.Command.run disk args
  IO.print output.text
  for (path, text) in output.writes do
    IO.FS.writeFile path text
  IO.eprint output.errors
  pure (UInt32.ofNat output.code)
