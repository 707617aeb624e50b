import TracePipeline.Converter.Artifact
import TracePipeline.Converter.Checkout
import TracePipeline.Converter.Notice
import TracePipeline.Converter.Placeholder
import TracePipeline.Converter.Script
import TracePipeline.Tool

/-!
# Registry

Which converter a step type has, and how a walk handles a span of each type.
-/

set_option autoImplicit false

namespace TracePipeline

/-- A converter, and whether it is of no use without a sidecar. -/
structure Converter where
  convert : Convert
  requiresSidecar : Bool

/-- Converters by step type, and the one for all other types. -/
structure Registry where
  converters : Entries Converter
  fallback : Convert

/-- How a walk handles a span. -/
inductive Dispatch where
  | passthrough
  /-- Goes on to the children in a context of their own. -/
  | scope (scope : Scope)
  /-- Goes on to the children, which may be parallel branches. -/
  | stage
  /-- Waits among the children for a shell that runs the tool. -/
  | toolWrapper (tool : Tool)
  /-- Waits for a tool that only the parameters tell, if they do. -/
  | wrap
  /-- Goes on to the children, having declared a tool. -/
  | toolDeclaration
  /-- Starts a task beside the children. -/
  | background
  | checkout (converter : Converter)
  | convert (converter : Converter)
  /-- Uses the fallback, and goes on to the children. -/
  | unknown

namespace Registry

def empty : Registry where
  converters := []
  fallback := Converter.placeholder

def register (registry : Registry) (stepType : String) (convert : Convert) : Registry :=
  { registry with converters := registry.converters.insert stepType ⟨convert, false⟩ }

/-- Gives a step type a converter that is of no use without a sidecar. -/
def registerWithSidecar (registry : Registry) (stepType : String) (convert : Convert) :
    Registry :=
  { registry with converters := registry.converters.insert stepType ⟨convert, true⟩ }

/-- Changes the converter of all other types. -/
def setFallback (registry : Registry) (convert : Convert) : Registry :=
  { registry with fallback := convert }

def builtinConverters : List (String × Convert) := [
  ("sh", Converter.shell .sh),
  ("bat", Converter.shell .powershell),
  ("pwsh", Converter.shell .pwsh),
  ("powershell", Converter.shell .powershell),
  ("echo", Converter.echo),
  ("sleep", Converter.sleep),
  ("writeFile", Converter.writeFile),
  ("readFile", Converter.fileCommand "cat"),
  ("fileExists", Converter.fileCommand "test -e"),
  ("deleteDir", Converter.deleteDirectory),
  ("cleanWs", Converter.deleteDirectory),
  ("error", Converter.error),
  ("checkout", Converter.checkout),
  ("git", Converter.checkout),
  ("archiveArtifacts", Converter.archiveArtifacts),
  ("junit", Converter.junit),
  ("stash", Converter.stash),
  ("unstash", Converter.unstash),
  ("slackSend", Converter.slackSend),
  ("mail", Converter.mail),
  ("emailext", Converter.mail)]

def builtinSidecarConverters : List (String × Convert) := [
  ("s3Upload", Converter.s3Upload),
  ("jiraSendBuildInfo", Converter.jiraBuildInfo),
  ("jiraSendDeploymentInfo", Converter.jiraDeploymentInfo)]

def builtin : Registry :=
  builtinSidecarConverters.foldl
    (fun registry (stepType, convert) => registry.registerWithSidecar stepType convert)
    (builtinConverters.foldl
      (fun registry (stepType, convert) => registry.register stepType convert) empty)

def get? (registry : Registry) (stepType : String) : Option Converter :=
  registry.converters.get? stepType

def stepTypes (registry : Registry) : List String :=
  registry.converters.keys

/-- The step types that only group their children. -/
def passthroughTypes : List String :=
  ["", "node", "parallel", "script", "ws", "dir", "ansiColor", "catchError", "warnError", "retry",
    "timestamps", "lock", "container", "withContext"]

/-- The step types with a handling of their own, whatever is registered. -/
def structuralTypes : List (String × Dispatch) := [
  ("withEnv", .scope .env),
  ("withCredentials", .scope .credentials),
  ("withDockerContainer", .scope .dockerContainer),
  ("withDockerRegistry", .scope .dockerRegistry),
  ("timeout", .scope .timeout),
  ("stage", .stage),
  ("withMaven", .toolWrapper .maven),
  ("withGradle", .toolWrapper .gradle),
  ("withAnt", .toolWrapper .ant),
  ("withSonarQubeEnv", .toolWrapper .sonarScanner),
  ("nodejs", .toolWrapper .nodeJs),
  ("wrap", .wrap),
  ("tool", .toolDeclaration),
  ("withRun", .background)]

def dispatch (registry : Registry) (stepType : String) : Dispatch :=
  if passthroughTypes.contains stepType then .passthrough
  else
    match structuralTypes.lookup stepType with
    | some dispatch => dispatch
    | none =>
      match registry.get? stepType with
      | some converter =>
        if stepType = "checkout" || stepType = "git" then .checkout converter
        else .convert converter
      | none => .unknown

end Registry

end TracePipeline
