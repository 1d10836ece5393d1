import Oxidize.Text.Basic

/-!
# Prompts

The question that a code generator is asked about a script. It ends with an open code fence, for the
answer to go on with.
-/

namespace Oxidize.Generated

/-- The mark that begins and ends a code block. -/
def fence : Text := "```"

/-- The question about a script. -/
def prompt (source : Text) : Text :=
  "Convert the following Python code to equivalent Rust code:\n\n" ++ fence ++ "python\n" ++
    source ++ "\n" ++ fence ++ "\n\n" ++ fence ++ "rust"

end Oxidize.Generated
