import TracePipeline.Converter.Basic
import TracePipeline.ShellWord

/-!
# Placeholders

What becomes of a span whose step type has no converter: a script that shows the type and the
parameters as comments and prints a message.
-/

set_option autoImplicit false

namespace TracePipeline.Converter

def comment (line : List Char) : List Char :=
  '#' :: ' ' :: line ++ ['\n']

def placeholderScript (stepType : String) (parameters : Entries Json) : String :=
  let lines := Text.lines (Json.pretty 0 (.object parameters))
  "# Unsupported step type: " ++ stepType ++ "\n# Parameters:\n" ++
    String.ofList (lines.flatMap comment) ++ "echo \"Unsupported step type: " ++
    ShellWord.escapeText stepType ++ "\""

/-- Stands in for a span whose step type has no converter. -/
def placeholder : Convert := fun span context =>
  pure [scriptStep span context .sh (placeholderScript span.stepType span.parameters)]

end TracePipeline.Converter
