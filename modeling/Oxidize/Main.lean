import Oxidize.CommandLine.Run

/-!
# The program

Reads files and the standard input, prints what a run reports and exits with its status.
-/

namespace Oxidize

/-- What an action gives, unless it fails. -/
def unlessFailing {α : Type} (action : IO α) : IO (Option α) := do
  try
    let a ← action
    pure (some a)
  catch _ => pure none

/-- The surroundings of the program: its files and its standard input. -/
def surroundings : CommandLine.Host IO where
  fetch path := do
    let t ← unlessFailing (IO.FS.readFile (String.ofList path))
    pure (t.map String.toList)
  input := do
    let t ← unlessFailing (← IO.getStdin).readToEnd
    pure (t.map String.toList)
  store path t := do
    let r ← unlessFailing (IO.FS.writeFile (String.ofList path) (String.ofList t))
    pure r.isSome

end Oxidize

open Oxidize in
/-- Run the program with the given arguments. -/
def main (args : List String) : IO UInt32 := do
  let report ← CommandLine.run surroundings (args.map String.toList)
  for e in report.log do
    IO.eprintln (String.ofList e.logLine)
  IO.print (String.ofList report.output)
  if let some f := report.fault? then
    IO.eprintln (String.ofList f.message)
  pure report.status.toUInt32
