import TracePipeline.Json.Printer
import TracePipeline.Pipeline.Step
import TracePipeline.Yaml.Printer

/-!
# Pipeline documents

A pipeline with its stages and repository, the JSON value that a document holds, and its texts in
JSON and in YAML. Fields that say nothing are left out, and the others keep a fixed order.
-/

set_option autoImplicit false

namespace TracePipeline

/-- How a stage clones its repository by itself. -/
structure CloneSettings where
  disabled : Bool
  depth : Option UInt32 := none
deriving DecidableEq, Repr

/-- Where the sources of a pipeline come from. -/
structure Repository where
  url : String
  branch : Option String := none
  connector : Option String := none
deriving DecidableEq, Repr

/-- A stage: steps that run one after the other. -/
structure Stage where
  id : String
  name : String
  stageType : String
  clone : Option CloneSettings := none
  steps : List Step
deriving DecidableEq, Repr

structure Pipeline where
  version : UInt32
  kind : String
  name : String
  stages : List Stage
  repository : Option Repository := none
deriving DecidableEq, Repr

/-- The steps of a pipeline, on the outermost level. -/
def Pipeline.steps (pipeline : Pipeline) : List Step :=
  pipeline.stages.flatMap Stage.steps

/-! ## JSON values -/

namespace Json

/-- A field that is left out when there is nothing to say. -/
def field? (name : String) (value : Option Json) : List (String × Json) :=
  match value with
  | some value => [(name, value)]
  | none => []

def textField? (name : String) (value : Option String) : List (String × Json) :=
  field? name (value.map .string)

def textsByKey? (name : String) (values : Entries String) : List (String × Json) :=
  if values.isEmpty then []
  else [(name, .object (values.map fun (key, value) => (key, .string value)))]

def texts? (name : String) (values : List String) : List (String × Json) :=
  if values.isEmpty then [] else [(name, .array (values.map .string))]

def word32 (value : UInt32) : Json :=
  .number (.integer value.toNat)

end Json

open Json

def Script.toJson (script : Script) : Json :=
  .object (textField? "image" script.image ++ textField? "connector" script.connector ++
    textField? "shell" (script.shell.map Shell.name) ++ textsByKey? "envs" script.envs ++
    textField? "entrypoint" script.entrypoint ++ texts? "args" script.args ++
    (if script.privileged then [("privileged", .bool true)] else []) ++
    textField? "network" script.network ++ [("run", .string script.run)])

def Plugin.toJson (plugin : Plugin) : Json :=
  .object ([("image", .string plugin.image)] ++ textField? "connector" plugin.connector ++
    (if plugin.settings.isEmpty then [] else [("with", .object plugin.settings)]) ++
    textsByKey? "envs" plugin.envs)

def Task.toJson : Task → Json
  | .script content => content.toJson
  | .plugin content => content.toJson
  | .background content => content.toJson

namespace Step

/-- The JSON value of a step whose inner part is given. -/
def assembleJson (step : Step) (inner : Json) : Json :=
  .object ([("id", .string step.id), ("name", .string step.name),
    ("type", .string step.typeName), ("spec", inner)] ++ textField? "timeout" step.timeout)

mutual

def toJson (step : Step) : Json :=
  match step with
  | .task info work => assembleJson (.task info work) work.toJson
  | .block info kind steps =>
    assembleJson (.block info kind steps) (.object [("steps", .array (toJsonAll steps))])
termination_by structural step

def toJsonAll (steps : List Step) : List Json :=
  match steps with
  | [] => []
  | step :: steps => toJson step :: toJsonAll steps
termination_by structural steps

end

end Step

def CloneSettings.toJson (clone : CloneSettings) : Json :=
  .object ([("disabled", .bool clone.disabled)] ++ field? "depth" (clone.depth.map word32))

def Repository.toJson (repository : Repository) : Json :=
  .object ([("url", .string repository.url)] ++ textField? "branch" repository.branch ++
    textField? "connector" repository.connector)

def Stage.toJson (stage : Stage) : Json :=
  .object [("id", .string stage.id), ("name", .string stage.name),
    ("type", .string stage.stageType),
    ("spec", .object (field? "clone" (stage.clone.map CloneSettings.toJson) ++
      [("steps", .array (Step.toJsonAll stage.steps))]))]

namespace Pipeline

def toJson (pipeline : Pipeline) : Json :=
  .object [("version", word32 pipeline.version), ("kind", .string pipeline.kind),
    ("name", .string pipeline.name),
    ("spec", .object ([("stages", .array (pipeline.stages.map Stage.toJson))] ++
      field? "repository" (pipeline.repository.map Repository.toJson)))]

def jsonText (pipeline : Pipeline) : String :=
  pipeline.toJson.prettyText

def yamlText (pipeline : Pipeline) : String :=
  pipeline.toJson.yamlText

end Pipeline

end TracePipeline
