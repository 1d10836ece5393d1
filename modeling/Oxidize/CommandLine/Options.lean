import Oxidize.Settings.Basic

/-!
# Options of the command line

`Request.ofArgs` reads the arguments of a call from left to right. An option with a value takes it
from the same argument or from the next one; a value is only looked at when the next option or the
end of the arguments is reached, so that an unknown argument right behind a bad value wins. Behind a
double hyphen every argument is a file name.
-/

namespace Oxidize.CommandLine

/-- The arguments that carry a value. -/
inductive Valued
  | input
  | output
  | config
  | indent
  | entryPoint
  deriving DecidableEq

/-- The arguments that are set or not. -/
inductive Switch
  | noWrap
  | json
  | check
  | verbose
  | help
  | version
  deriving DecidableEq

/-- How an argument with a value is shown. -/
def Valued.shown : Valued → Text
  | input => "[INPUT]"
  | output => "--output <OUTPUT>"
  | config => "--config <CONFIG>"
  | indent => "--indent <INDENT>"
  | entryPoint => "--entry-point <ENTRY_POINT>"

/-- How a switch is shown. -/
def Switch.shown : Switch → Text
  | noWrap => "--no-wrap"
  | json => "--json"
  | check => "--check"
  | verbose => "--verbose"
  | help => "--help"
  | version => "--version"

/-- An option: an argument with a value or a switch. -/
inductive Flag
  | valued (v : Valued)
  | switch (s : Switch)

/-- The option with a long name. -/
def longOption? (name : Text) : Option Flag :=
  List.lookup name [
    ("output".toList, .valued .output),
    ("config".toList, .valued .config),
    ("indent".toList, .valued .indent),
    ("entry-point".toList, .valued .entryPoint),
    ("no-wrap".toList, .switch .noWrap),
    ("json".toList, .switch .json),
    ("check".toList, .switch .check),
    ("verbose".toList, .switch .verbose),
    ("help".toList, .switch .help),
    ("version".toList, .switch .version)]

/-- The option with a short name. -/
def shortOption? : Char → Option Flag
  | 'o' => some (.valued .output)
  | 'c' => some (.valued .config)
  | 'v' => some (.switch .verbose)
  | 'h' => some (.switch .help)
  | 'V' => some (.switch .version)
  | _ => none

/-- What is wrong with the arguments of a call. -/
inductive UsageFault
  | unexpected (arg : Text)
  | valueMissing (shown : Text)
  | valueInvalid (value shown reason : Text)
  | valueUnneeded (value shown : Text)
  | repeated (shown : Text)
  deriving DecidableEq

/-- The wording of a fault. -/
def UsageFault.message : UsageFault → Text
  | unexpected arg => "unexpected argument '" ++ arg ++ "' found"
  | valueMissing shown => "a value is required for '" ++ shown ++ "' but none was supplied"
  | valueInvalid value shown reason =>
    "invalid value '" ++ value ++ "' for '" ++ shown ++ "': " ++ reason
  | valueUnneeded value shown =>
    "unexpected value '" ++ value ++ "' for '" ++ shown ++ "' found; no more were expected"
  | repeated shown => "the argument '" ++ shown ++ "' cannot be used multiple times"

/-- The choices made in a call. -/
structure Options where
  input : Option Text := none
  output : Option Text := none
  config : Option Text := none
  indent : Option Nat := none
  entryPoint : Option Text := none
  noWrap : Bool := false
  json : Bool := false
  check : Bool := false
  verbose : Bool := false
  deriving DecidableEq

/-- What a call asks for. -/
inductive Request
  | convert (o : Options)
  | help
  | version
  deriving DecidableEq

/-- The number that digits stand for, behind the digits of `n`, or why there is none. -/
def readDigits (n : Nat) : Text → Except Text Nat
  | [] => .ok n
  | c :: r =>
    if c.isDigit then
      let m := 10 * n + (c.toNat - '0'.toNat)
      if m < Nat.pow 2 64 then readDigits m r else .error "number too large to fit in target type"
    else .error "invalid digit found in string"

/-- A width, or why there is none. -/
def readWidth (t : Text) : Except Text Nat := do
  let n ← match t with
    | [] => .error "cannot parse integer from empty string"
    | ['+'] => .error "invalid digit found in string"
    | '+' :: r => readDigits 0 r
    | _ => readDigits 0 t
  if n ≤ Settings.maxWidth then pure n
  else .error ("must be at most " ++ Text.ofNat Settings.maxWidth)

/-- Set an option that may be set once. -/
def setOnce {α : Type} (old : Option α) (shown : Text) (new : Except UsageFault α) :
    Except UsageFault (Option α) :=
  match old with
  | some _ => .error (.repeated shown)
  | none => new.map some

/-- The name of a file, which cannot be empty. -/
def fileName (value shown : Text) : Except UsageFault Text :=
  if value.isEmpty then .error (.valueMissing shown) else .ok value

namespace Options

/-- Give an argument its value. -/
def setValue (o : Options) (v : Valued) (value : Text) : Except UsageFault Options :=
  match v with
  | .input => do
    let input ← setOnce o.input v.shown (fileName value v.shown)
    pure { o with input }
  | .output => do
    let output ← setOnce o.output v.shown (fileName value v.shown)
    pure { o with output }
  | .config => do
    let config ← setOnce o.config v.shown (fileName value v.shown)
    pure { o with config }
  | .indent => do
    let indent ← setOnce o.indent v.shown
      ((readWidth value).mapError fun reason => .valueInvalid value v.shown reason)
    pure { o with indent }
  | .entryPoint => do
    let entryPoint ← setOnce o.entryPoint v.shown (.ok value)
    pure { o with entryPoint }

/-- Set a switch that may be set once. -/
def setSwitch (o : Options) (s : Switch) : Except UsageFault Options :=
  let once (old : Bool) (new : Options) : Except UsageFault Options :=
    if old then .error (.repeated s.shown) else .ok new
  match s with
  | .noWrap => once o.noWrap { o with noWrap := true }
  | .json => once o.json { o with json := true }
  | .check => once o.check { o with check := true }
  | .verbose => once o.verbose { o with verbose := true }
  | .help | .version => .ok o

/-- The settings with the choices of a call in place of their own. -/
def adjust (o : Options) (s : Settings) : Settings :=
  { s with
    indentWidth := o.indent.getD s.indentWidth
    entryPoint := o.entryPoint.getD s.entryPoint
    wrap := s.wrap && !o.noWrap }

end Options

/-- The reading of arguments: the choices so far, and an argument whose value is not yet looked at
or not yet there. -/
structure Reading where
  options : Options := {}
  pending : Option (Valued × Option Text) := none
  /-- Whether a file name was seen. -/
  named : Bool := false

/-- What comes of an argument: more reading, or a request that ends it. -/
abbrev Progress := Except UsageFault (Reading ⊕ Request)

namespace Reading

/-- Look at the value that is pending. -/
def settle (s : Reading) : Except UsageFault Reading :=
  match s.pending with
  | none => .ok s
  | some (v, none) => .error (.valueMissing v.shown)
  | some (v, some value) => (s.options.setValue v value).map fun options =>
    { s with options, pending := none }

/-- Set a switch. The switches for help and version end the reading. -/
def switch (s : Reading) (w : Switch) : Progress := do
  let s ← s.settle
  match w with
  | .help => pure (.inr .help)
  | .version => pure (.inr .version)
  | w =>
    let options ← s.options.setSwitch w
    pure (.inl { s with options })

/-- Give an argument the value that stands in the same argument. -/
def attach (s : Reading) (v : Valued) (value : Text) : Progress := do
  let s ← s.settle
  let options ← s.options.setValue v value
  pure (.inl { s with options })

/-- Await the value of an argument. -/
def await (s : Reading) (v : Valued) : Progress := do
  let s ← s.settle
  pure (.inl { s with pending := some (v, none) })

/-- Read a long option, without its hyphens. -/
def long (s : Reading) (arg : Text) : Progress :=
  let name := arg.takeWhile (· ≠ '=')
  let attached := arg.dropWhile (· ≠ '=')
  match longOption? name, attached with
  | none, _ => .error (.unexpected ("--" ++ name))
  | some (.valued v), [] => s.await v
  | some (.valued v), _ :: value => s.attach v value
  | some (.switch w), [] => s.switch w
  | some (.switch w), _ :: value => .error (.valueUnneeded value w.shown)

/-- Read short options, without their hyphen. The last of them may have a value. -/
def short (s : Reading) : Text → Progress
  | [] => .ok (.inl s)
  | c :: r =>
    match shortOption? c with
    | none => .error (.unexpected ['-', c])
    | some (.valued v) =>
      match r with
      | [] => s.await v
      | '=' :: value => s.attach v value
      | value => s.attach v value
    | some (.switch w) => do
      match ← s.switch w with
      | .inl s => s.short r
      | .inr request => pure (.inr request)

/-- Read a file name. -/
def name (s : Reading) (arg : Text) : Progress :=
  if s.named then .error (.unexpected arg)
  else do
    let s ← s.settle
    pure (.inl { s with pending := some (.input, some arg), named := true })

/-- Read an argument that does not stand behind a double hyphen. -/
def argument (s : Reading) (arg : Text) : Progress :=
  match arg with
  | '-' :: '-' :: r => s.long r
  | '-' :: c :: r => s.short (c :: r)
  | _ =>
    match s.pending with
    | some (v, none) => .ok (.inl { s with pending := some (v, some arg) })
    | _ => s.name arg

/-- Read the arguments behind a double hyphen. -/
def names (s : Reading) : List Text → Except UsageFault Request
  | [] => s.settle.map fun s => .convert s.options
  | arg :: args => do
    match ← s.name arg with
    | .inl s => s.names args
    | .inr request => pure request

/-- Read arguments. -/
def arguments (s : Reading) : List Text → Except UsageFault Request
  | [] => s.settle.map fun s => .convert s.options
  | arg :: args =>
    if arg = "--" then s.names args
    else do
      match ← s.argument arg with
      | .inl s => s.arguments args
      | .inr request => pure request

end Reading

/-- What the arguments of a call ask for. -/
def Request.ofArgs (args : List Text) : Except UsageFault Request :=
  Reading.arguments {} args

end Oxidize.CommandLine
