import TracePipeline.Context
import TracePipeline.Label

/-!
# Converters

A converter makes steps of one span and the context around it. It skips a span that lacks the
parameter which gives the step its meaning, and says which one that is.
-/

set_option autoImplicit false

namespace TracePipeline

/-- Why a span was skipped: the parameter that is missing. -/
structure Skipped where
  missing : String
deriving DecidableEq, Repr

def Skipped.message (skipped : Skipped) : String :=
  "no " ++ skipped.missing

abbrev Converted := Except Skipped (List Step)

/-- Makes steps of a span in a context. -/
abbrev Convert := Span → Context → Converted

namespace Converter

def required {α : Type} (missing : String) (value : Option α) : Except Skipped α :=
  match value with
  | some value => .ok value
  | none => .error ⟨missing⟩

/-- The id and the display name that a step takes from its span, with the time limit of the
context. -/
def infoFor (span : Span) (context : Context) : StepInfo where
  id := Label.stepId span.label span.spanId
  name := Label.displayName span.label
  timeout := context.timeout

def scriptStep (span : Span) (context : Context) (shell : Shell) (run : String) : Step :=
  .task (infoFor span context) (.script (context.script shell run))

/-- A plugin that uses the connector and the environment of the context. -/
def inContext (plugin : Plugin) (context : Context) : Plugin :=
  { plugin with connector := context.container.connector, envs := context.environment }

def pluginStep (span : Span) (context : Context) (plugin : Plugin) : Step :=
  .task (infoFor span context) (.plugin (inContext plugin context))

def plugin (image : String) : Plugin :=
  { image := image }

def secret (name : String) : String :=
  "<+secrets.getValue(\"" ++ name ++ "\")>"

end Converter

end TracePipeline
