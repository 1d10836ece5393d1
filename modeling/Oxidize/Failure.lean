import Oxidize.Text.Basic

/-!
# Failures

Why a conversion can fail, the wording of each failure, and the comment lines by which a failure is
shown inside the converted code. A stage that breaks off leaves a payload behind, of which only
texts can be shown.
-/

namespace Oxidize

/-- What a stage that breaks off leaves behind. -/
inductive Payload
  | text (message : Text)
  | other
  deriving DecidableEq

/-- The text of a payload. -/
def Payload.message : Payload → Text
  | text m => m
  | other => "unknown panic"

/-- What is wrong with a written pattern. -/
inductive PatternFault
  | malformed (message : Text)
  | tooLarge (limit : Nat)
  deriving DecidableEq

/-- The wording of a pattern's fault. -/
def PatternFault.message : PatternFault → Text
  | malformed m => m
  | tooLarge limit => "Compiled regex exceeds size limit of " ++ Text.ofNat limit ++ " bytes."

/-- Why a conversion can fail. -/
inductive Failure
  /-- A written pattern cannot be used. -/
  | pattern (name : Text) (fault : PatternFault)
  /-- The code generator failed or gave nothing to use. -/
  | generator (message : Text)
  /-- A stage broke off. -/
  | brokenOff (message : Text)
  deriving DecidableEq

namespace Failure

/-- The wording of a failure. -/
def message : Failure → Text
  | pattern name fault => "invalid structural pattern `" ++ name ++ "`: " ++ fault.message
  | generator m => "code generator failed: " ++ m
  | brokenOff m => "rewrite stage panicked: " ++ m

/-- The failure of a stage that broke off with a payload. -/
def ofPayload (p : Payload) : Failure :=
  brokenOff p.message

/-- The comment line that tells the failure of a conversion. -/
def headline (f : Failure) : Text :=
  "// Error during transpilation: " ++ f.message.oneLine

/-- A failure in front of the code that simpler means gave. -/
def renderOver (f : Failure) (fallback : Text) : Text :=
  f.headline ++ "\n// Falling back to rule-based conversion\n\n" ++ fallback

/-- A failure when the simpler means failed too. -/
def renderFatal (f fallback : Failure) : Text :=
  f.headline ++ "\n// Fallback conversion failed: " ++ fallback.message.oneLine

end Failure

end Oxidize
