import TracePipeline.Json.Value
import TracePipeline.Text.Blank

/-!
# Pipeline steps

The steps of a pipeline document: tasks that run a script or a plugin, and blocks of further steps.
-/

set_option autoImplicit false

namespace TracePipeline

/-- What interprets a script. -/
inductive Shell where
  | sh
  | bash
  | powershell
  | pwsh
  | python
deriving DecidableEq, Repr

namespace Shell

def named : List (String × Shell) :=
  [("sh", .sh), ("bash", .bash), ("powershell", .powershell), ("pwsh", .pwsh), ("python", .python)]

def name : Shell → String
  | sh => "sh"
  | bash => "bash"
  | powershell => "powershell"
  | pwsh => "pwsh"
  | python => "python"

end Shell

/-- A script and what it runs in. -/
structure Script where
  image : Option String := none
  connector : Option String := none
  shell : Option Shell := none
  envs : Entries String := []
  entrypoint : Option String := none
  args : List String := []
  privileged : Bool := false
  network : Option String := none
  run : String := ""
deriving DecidableEq, Repr

/-- Whether two scripts differ in nothing but what they run. -/
def Script.sameRuntime (a b : Script) : Bool :=
  a.image = b.image && a.connector = b.connector && a.shell = b.shell && a.envs = b.envs &&
    a.entrypoint = b.entrypoint && a.args = b.args && a.privileged = b.privileged &&
    a.network = b.network

structure Plugin where
  image : String
  connector : Option String := none
  settings : Entries Json := []
  envs : Entries String := []
deriving DecidableEq, Repr

namespace Plugin

/-- A setting that says something: no `null`, no blank text, no empty list. -/
def isSetting : Json → Bool
  | .null => false
  | .string value => !isBlankText value
  | .array items => !items.isEmpty
  | _ => true

def withSetting (plugin : Plugin) (key : String) (value : Json) : Plugin :=
  if isSetting value then { plugin with settings := plugin.settings.insert key value } else plugin

def withSetting? (plugin : Plugin) (key : String) (value : Option Json) : Plugin :=
  match value with
  | some value => plugin.withSetting key value
  | none => plugin

def withText (plugin : Plugin) (key value : String) : Plugin :=
  plugin.withSetting key (.string value)

def withText? (plugin : Plugin) (key : String) (value : Option String) : Plugin :=
  plugin.withSetting? key (value.map .string)

def withTexts (plugin : Plugin) (key : String) (values : List String) : Plugin :=
  plugin.withSetting key (.array (values.map .string))

def withBool? (plugin : Plugin) (key : String) (value : Option Bool) : Plugin :=
  plugin.withSetting? key (value.map .bool)

end Plugin

/-- What a step without inner steps does. A background task keeps running beside the others. -/
inductive Task where
  | script (script : Script)
  | plugin (plugin : Plugin)
  | background (script : Script)
deriving DecidableEq, Repr

/-- How the inner steps of a step run: one after the other, or side by side. -/
inductive Block where
  | group
  | parallel
deriving DecidableEq, Repr

/-- What all steps have: an id, a display name, and how long they may take. -/
structure StepInfo where
  id : String
  name : String
  timeout : Option String := none
deriving DecidableEq, Repr

inductive Step where
  | task (info : StepInfo) (task : Task)
  | block (info : StepInfo) (kind : Block) (steps : List Step)
deriving Repr

namespace Step

mutual

def decEq : (a b : Step) → Decidable (a = b)
  | .task i t, .task j u => decidable_of_iff (i = j ∧ t = u) (by simp)
  | .block i k as, .block j l bs =>
    have := decEqSteps as bs
    decidable_of_iff (i = j ∧ k = l ∧ as = bs) (by simp)
  | .task .., .block .. => isFalse (by simp)
  | .block .., .task .. => isFalse (by simp)

def decEqSteps : (a b : List Step) → Decidable (a = b)
  | [], [] => isTrue rfl
  | a :: as, b :: bs =>
    have := decEq a b
    have := decEqSteps as bs
    decidable_of_iff (a = b ∧ as = bs) (by simp)
  | [], _ :: _ => isFalse (by simp)
  | _ :: _, [] => isFalse (by simp)

end

instance : DecidableEq Step := decEq

def info : Step → StepInfo
  | .task info _ => info
  | .block info _ _ => info

def id (step : Step) : String := step.info.id

def name (step : Step) : String := step.info.name

def timeout (step : Step) : Option String := step.info.timeout

def typeName : Step → String
  | .task _ (.script _) => "script"
  | .task _ (.plugin _) => "plugin"
  | .task _ (.background _) => "background"
  | .block _ .group _ => "group"
  | .block _ .parallel _ => "parallel"

def script? : Step → Option Script
  | .task _ (.script script) => some script
  | _ => none

def children : Step → List Step
  | .block _ _ steps => steps
  | .task .. => []

end Step

/-- A step with the order id of the span it came from. -/
structure OrderedStep where
  order : Int
  step : Step
deriving DecidableEq, Repr

end TracePipeline
