import TracePipeline.Converter.Basic
import TracePipeline.ShellWord

/-!
# Script converters

Steps that become scripts: shells, messages, pauses and file operations.
-/

set_option autoImplicit false

namespace TracePipeline

/-- The shell that a shell step runs in. Batch files run in PowerShell. -/
def Shell.ofStepType? (stepType : String) : Option Shell :=
  if stepType = "sh" then some .sh
  else if stepType = "bat" || stepType = "powershell" then some .powershell
  else if stepType = "pwsh" then some .pwsh
  else none

def Span.shellScript? (span : Span) : Option String :=
  span.textOrSidecar "script"

namespace Converter

def shell (shell : Shell) : Convert := fun span context => do
  let script ← required "script" span.shellScript?
  pure [scriptStep span context shell script]

def echo : Convert := fun span context =>
  let message :=
    ((span.param "message").scalarText?.or (span.sidecar.get "message").scalarText?).getD ""
  pure [scriptStep span context .sh ("echo \"" ++ ShellWord.escapeText message ++ "\"")]

/-- A `sleep` step waits for whole seconds. -/
def sleep : Convert := fun span context =>
  let time := (span.param "time").asReal?.getD (.ofNat 0)
  let unit := (span.param "unit").text?.getD "SECONDS"
  pure [scriptStep span context .sh ("sleep " ++ toString (Duration.seconds time unit))]

def hereDelimiter : String := "JENKINS_EOF"

/-- A `writeFile` step writes its text with a single line feed at the end. -/
def writeFile : Convert := fun span context => do
  let file ← required "file" (span.param "file").text?
  let text := ((span.param "text").scalarText?).getD ""
  let body := String.ofList (Text.trimEndBy (· == '\n') text.toList)
  pure [scriptStep span context .sh
    ("cat > " ++ ShellWord.quoteText file ++ " <<'" ++ hereDelimiter ++ "'\n" ++ body ++ "\n" ++
      hereDelimiter)]

def fileCommand (command : String) : Convert := fun span context => do
  let file ← required "file" (span.param "file").text?
  pure [scriptStep span context .sh (command ++ " " ++ ShellWord.quoteText file)]

def deleteDirectory : Convert := fun span context =>
  pure [scriptStep span context .sh "find . -mindepth 1 -delete"]

/-- An `error` step prints its message to the error stream and fails. -/
def error : Convert := fun span context =>
  let message := ((span.param "message").scalarText?).getD ""
  pure [scriptStep span context .sh
    ("echo \"" ++ ShellWord.escapeText message ++ "\" >&2\nexit 1")]

end Converter

end TracePipeline
