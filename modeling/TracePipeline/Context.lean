import TracePipeline.Container
import TracePipeline.Duration
import TracePipeline.Options
import TracePipeline.Pipeline.Step
import TracePipeline.Trace.Span

/-!
# Contexts

What surrounds a step: environment, container and time limit. A wrapper span derives a new context
for the spans inside it and leaves the one around it alone.
-/

set_option autoImplicit false

namespace TracePipeline

structure Context where
  environment : Entries String := []
  container : Container := {}
  timeout : Option String := none
deriving DecidableEq, Repr, Inhabited

/-- The kinds of wrapper that change the context of the spans inside. -/
inductive Scope where
  | env
  | credentials
  | dockerContainer
  | dockerRegistry
  | timeout
deriving DecidableEq, Repr

namespace Context

def root (options : Options) : Context :=
  { container := { image := options.defaultImage } }

def script (context : Context) (shell : Shell) (run : String) : Script where
  image := context.container.image
  connector := context.container.connector
  shell := some shell
  envs := context.environment
  entrypoint := context.container.entrypoint
  args := context.container.args
  privileged := context.container.privileged
  network := context.container.network
  run := run

/-- More variables, which hide those with the same names. -/
def withEnvironment (context : Context) (added : Entries String) : Context :=
  { context with environment := context.environment.insertAll added }

end Context

namespace Span

/-! ## What wrappers ask for -/

def override? (entry : String) : Option (String × String) :=
  match Text.splitOnce? '=' entry.toList with
  | some (key, value) =>
    let name := Text.trim key
    if name.isEmpty then none else some (String.ofList name, String.ofList value)
  | none => none

/-- The entries of the form `KEY=value` that a wrapper holds. The sidecar is asked when the
parameters have none. -/
def overrideTexts (span : Span) : List String :=
  let own := (span.param "overrides").texts
  if own.isEmpty then (span.sidecar.get "overrides").texts else own

def overrides (span : Span) : Entries String :=
  .ofPairs (span.overrideTexts.filterMap override?)

def credentialKeys : List String :=
  ["variable", "usernameVariable", "passwordVariable", "keyFileVariable", "passphraseVariable",
    "tokenVariable"]

def bindingVariables (binding : Entries Json) : List String :=
  credentialKeys.filterMap fun key =>
    match binding.get? key with
    | some (.string value) =>
      let name := Text.trim value.toList
      if name.isEmpty then none else some (String.ofList name)
    | _ => none

/-- The objects that describe bound credentials: a list of them, or a single one. -/
def bindings (span : Span) : List (Entries Json) :=
  let own := span.param "bindings"
  let bindings := if own.isNone then span.sidecar.get "bindings" else own
  match bindings.entries? with
  | some single => [single]
  | none => bindings.items.filterMap Json.entries?

def pipelineVariable (name : String) : String :=
  "<+pipeline.variables." ++ name ++ ">"

/-- The variables that bound credentials set. Each refers to the pipeline variable of the same
name. -/
def credentialVariables (span : Span) : Entries String :=
  .ofPairs ((span.bindings.flatMap bindingVariables).map fun name =>
    (name, pipelineVariable name))

def textOrSidecar (span : Span) (key : String) : Option String :=
  (span.param key).text?.or (span.sidecar.get key).text?

/-- The container a wrapper asks for. It keeps the image of the container around it when it names
none, and always the connector. -/
def dockerContainer (span : Span) (around : Container) : Container :=
  { Container.ofArguments ((span.textOrSidecar "args").getD "") with
    image := (span.textOrSidecar "image").or around.image
    connector := around.connector }

/-- The time limit a wrapper sets, in minutes unless it says otherwise. -/
def timeout? (span : Span) : Option String := do
  let time ← (span.param "time").asReal?.or (span.sidecar.get "time").asReal?
  Duration.text? time ((span.textOrSidecar "unit").getD "MINUTES")

end Span

def Context.scoped (scope : Scope) (span : Span) (context : Context) : Context :=
  match scope with
  | .env => context.withEnvironment span.overrides
  | .credentials => context.withEnvironment span.credentialVariables
  | .dockerContainer =>
    { context with container := span.dockerContainer context.container }
  | .dockerRegistry =>
    { context with
      container := { context.container with
        connector := (span.params.find "credentialsId").text?.or context.container.connector } }
  | .timeout => { context with timeout := span.timeout?.or context.timeout }

end TracePipeline
