import Oxidize.CommandLine.Options
import Oxidize.CommandLine.Response
import Oxidize.Settings.Stored

/-!
# Runs of the command line

A run reads its arguments, its settings and a script, converts the script and delivers the result.
`Host` is what it needs from its surroundings; all else is decided here. `run` gives a `Report`: the
exit status, what goes to the standard output, the failure and the logged events.
-/

namespace Oxidize.CommandLine

/-- What a run needs from its surroundings. -/
structure Host (m : Type → Type) where
  /-- The text of a file, if it can be read. -/
  fetch : Text → m (Option Text)
  /-- The text of the standard input, if it can be read. -/
  input : m (Option Text)
  /-- Write a text to a file, and tell whether that succeeded. -/
  store : Text → Text → m Bool
  /-- The library that reads stored settings. -/
  toml : Toml.Library := .standard

/-- Why a run ends without a result. -/
inductive RunFault
  | usage (f : UsageFault)
  | configUnusable (path : Text)
  | settingsRefused (message : Text)
  | sourceUnreadable (path : Text)
  | inputUnreadable
  | nothingToConvert
  | outputUnwritable (path : Text)
  /-- The conversion broke off, which it does not do without a generator and a watch. -/
  | brokenOff (p : Payload)
  deriving DecidableEq

namespace RunFault

/-- The wording of a fault. -/
def message : RunFault → Text
  | usage f => "error: " ++ f.message
  | configUnusable path => "Error: failed to load config " ++ path
  | settingsRefused message => "Error: " ++ message
  | sourceUnreadable path => "Error: failed to read " ++ path
  | inputUnreadable => "Error: failed to read stdin"
  | nothingToConvert => "Error: no Python code provided"
  | outputUnwritable path => "Error: failed to write " ++ path
  | brokenOff p => "Error: " ++ p.message

/-- The exit status for a fault. -/
def status : RunFault → Nat
  | usage _ => 2
  | _ => 1

end RunFault

/-- What a run leaves behind, files apart. -/
structure Report where
  /-- What goes to the standard output. -/
  output : Text := []
  /-- Why there is no result, if there is none. -/
  fault? : Option RunFault := none
  /-- The logged events in their order. -/
  log : List Event := []
  deriving DecidableEq

/-- The exit status of a run. -/
def Report.status (r : Report) : Nat :=
  match r.fault? with
  | none => 0
  | some f => f.status

/-- The program's name and version. -/
def versionText : Text :=
  "py2rs 1.0.0\n"

/-- How the program is called. -/
def helpText : Text :=
  Text.unlines [
    "Rule-based conversion from Python to Rust",
    "",
    "Usage: py2rs [OPTIONS] [INPUT]",
    "",
    "Arguments:",
    "  [INPUT]  Python source file (stdin when omitted)",
    "",
    "Options:",
    "  -o, --output <OUTPUT>            Write Rust output here instead of stdout",
    "  -c, --config <CONFIG>            TOML configuration file",
    "      --indent <INDENT>            Spaces per nesting level (0-16)",
    "      --entry-point <ENTRY_POINT>  Name of the synthetic entry point",
    "      --no-wrap                    Do not wrap output in an entry point",
    "      --json                       Print a JSON response instead of plain Rust",
    "      --check                      Report unbalanced delimiters in the output",
    "  -v, --verbose                    Debug logging",
    "  -h, --help                       Print help",
    "  -V, --version                    Print version",
    ""]

/-- The length of a text in bytes. -/
def byteLength (t : Text) : Nat :=
  t.foldl (fun n c => n + c.utf8Size) 0

/-- Everything that happens in the conversion of a script, from the first use of the forms to the
check of the result. -/
def eventsOf (o : Options) (acts : List Act) (c : Conversion) : List Event :=
  .formsReady Header.all.length Inline.all.length Membership.all.length Ending.all.length ::
    acts.filterMap Act.event? ++
    .converted (byteLength c.code) c.success ::
    if o.check then (Layout.imbalances c.code).map .unbalanced else []

/-- The events that are logged: all of them on request, otherwise the warnings. -/
def logged (o : Options) (es : List Event) : List Event :=
  if o.verbose then es else es.filter fun e => e.level = .warn

/-- The text that a run delivers. -/
def delivered (o : Options) (c : Conversion) : Text :=
  (if o.json then Response.render c else c.code) ++ "\n"

section

variable {m : Type → Type} [Monad m]

/-- The settings of a run. -/
def chooseSettings (h : Host m) (o : Options) : m (Except RunFault Settings) := do
  let stored ← match o.config with
    | none => pure (some {})
    | some path => do
      let t ← h.fetch path
      pure (t.bind fun t => (Settings.load t h.toml).toOption)
  match stored with
  | none => pure (.error (.configUnusable (o.config.getD [])))
  | some s =>
    match (o.adjust s).widthFault? with
    | some message => pure (.error (.settingsRefused message))
    | none => pure (.ok (o.adjust s))

/-- The script of a run. -/
def readSource (h : Host m) (o : Options) : m (Except RunFault Text) := do
  let (t, fault) ← match o.input with
    | some path => do pure (← h.fetch path, .sourceUnreadable path)
    | none => do pure (← h.input, .inputUnreadable)
  match t with
  | none => pure (.error fault)
  | some t => pure (if t.isBlank then .error .nothingToConvert else .ok t)

/-- Deliver the result of a run. -/
def deliver (h : Host m) (o : Options) (t : Text) (log : List Event) : m Report := do
  match o.output with
  | none => pure { output := t, log }
  | some path =>
    if ← h.store path t then pure { log }
    else pure { fault? := some (.outputUnwritable path), log }

/-- Convert a script and deliver the result. -/
def convertWith (h : Host m) (o : Options) : m Report := do
  match ← chooseSettings h o with
  | .error f => pure { fault? := some f }
  | .ok s =>
    match ← readSource h o with
    | .error f => pure { fault? := some f }
    | .ok source =>
      let outcome := (Converter.ofSettings s).convert source .calm
      match outcome.result with
      | .error p => pure { fault? := some (.brokenOff p) }
      | .ok c => deliver h o (delivered o c) (logged o (eventsOf o outcome.acts c))

/-- A run with the given arguments. -/
def run (h : Host m) (args : List Text) : m Report := do
  match Request.ofArgs args with
  | .error f => pure { fault? := some (.usage f) }
  | .ok .help => pure { output := helpText }
  | .ok .version => pure { output := versionText }
  | .ok (.convert o) => convertWith h o

end

end Oxidize.CommandLine
