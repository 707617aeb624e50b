import TracePipeline.Json.Decode
import TracePipeline.Pipeline.Document

/-!
# Reading pipeline documents

The model of a JSON document that holds a pipeline, or a part of one. A step names its kind under
one key and holds what the kind needs under another, in any order, so these entries are kept back
until the whole step has been read; faults in them are placed at the end of the step.
-/

set_option autoImplicit false

namespace TracePipeline

open TracePipeline.Tree (readOption readString readBool readWord32 readList readMap readRecord
  required)

/-! ## Scripts and plugins -/

/-- A script that is being read, with the fields seen so far. -/
structure ScriptDraft where
  image : Option (Option String) := none
  connector : Option (Option String) := none
  shell : Option (Option Shell) := none
  envs : Option (Entries String) := none
  entrypoint : Option (Option String) := none
  args : Option (List String) := none
  privileged : Option Bool := none
  network : Option (Option String) := none
  run : Option String := none

namespace Script

def slots (origin : Origin) : List (Slot ScriptDraft) := [
  .of "image" ScriptDraft.image (fun draft value => { draft with image := some value })
    (readOption readString),
  .of "connector" ScriptDraft.connector
    (fun draft value => { draft with connector := some value }) (readOption readString),
  .of "shell" ScriptDraft.shell (fun draft value => { draft with shell := some value })
    (readOption (Tree.readVariant origin Shell.named)),
  .of "envs" ScriptDraft.envs (fun draft value => { draft with envs := some value })
    (readMap readString),
  .of "entrypoint" ScriptDraft.entrypoint
    (fun draft value => { draft with entrypoint := some value }) (readOption readString),
  .of "args" ScriptDraft.args (fun draft value => { draft with args := some value })
    (readList readString),
  .of "privileged" ScriptDraft.privileged
    (fun draft value => { draft with privileged := some value }) readBool,
  .of "network" ScriptDraft.network (fun draft value => { draft with network := some value })
    (readOption readString),
  .of "run" ScriptDraft.run (fun draft value => { draft with run := some value }) readString]

/-- The script of a draft. Only what it runs has to be there. -/
def finish (draft : ScriptDraft) : Except String Script := do
  let run ← required "run" draft.run
  pure {
    image := draft.image.getD none
    connector := draft.connector.getD none
    shell := draft.shell.getD none
    envs := draft.envs.getD []
    entrypoint := draft.entrypoint.getD none
    args := draft.args.getD []
    privileged := draft.privileged.getD false
    network := draft.network.getD none
    run := run }

def read (origin : Origin) : Tree → Except Fault Script :=
  readRecord origin "ScriptSpec" (slots origin) {} finish

end Script

structure PluginDraft where
  image : Option String := none
  connector : Option (Option String) := none
  settings : Option (Entries Json) := none
  envs : Option (Entries String) := none

namespace Plugin

def slots : List (Slot PluginDraft) := [
  .of "image" PluginDraft.image (fun draft value => { draft with image := some value })
    readString,
  .of "connector" PluginDraft.connector
    (fun draft value => { draft with connector := some value }) (readOption readString),
  .of "with" PluginDraft.settings (fun draft value => { draft with settings := some value })
    (readMap Tree.readJson),
  .of "envs" PluginDraft.envs (fun draft value => { draft with envs := some value })
    (readMap readString)]

/-- The plugin of a draft. Only its image has to be there. -/
def finish (draft : PluginDraft) : Except String Plugin := do
  let image ← required "image" draft.image
  pure {
    image := image
    connector := draft.connector.getD none
    settings := draft.settings.getD []
    envs := draft.envs.getD [] }

def read (origin : Origin) : Tree → Except Fault Plugin :=
  readRecord origin "PluginSpec" slots {} finish

end Plugin

/-! ## Steps -/

/-- The kind a step names. -/
inductive StepKind where
  | script
  | plugin
  | group
  | parallel
  | background
deriving DecidableEq, Repr

def StepKind.named : List (String × StepKind) :=
  [("script", .script), ("plugin", .plugin), ("group", .group), ("parallel", .parallel),
    ("background", .background)]

def StepKind.block? : StepKind → Option Block
  | .group => some .group
  | .parallel => some .parallel
  | _ => none

/-- What a step holds beside its id, name and timeout. -/
inductive StepBody where
  | task (work : Task)
  | block (kind : Block) (steps : List Step)

def StepBody.toStep (info : StepInfo) : StepBody → Step
  | .task work => .task info work
  | .block kind steps => .block info kind steps

/-- An entry of a step that was kept back: the kind it names, or what the kind needs, which can be
read once the kind is known. -/
inductive StepPart where
  | kind (kind : Except Fault StepKind)
  | body (read : StepKind → Except Fault StepBody)

namespace StepPart

/-- A fault of a part; its place is filled in later. -/
def fault (cause : Cause) : Fault :=
  ⟨cause, none⟩

def noMore : List StepPart → Except Fault Unit
  | [] => .ok ()
  | .kind _ :: _ => .error (fault (.duplicateField "type"))
  | .body _ :: _ => .error (fault (.duplicateField "spec"))

/-- Puts the parts together, in whichever order they stand. -/
def assemble : List StepPart → Except Fault StepBody
  | [] => .error (fault (.missingField "type"))
  | .kind named :: parts => do
    let kind ← named
    match parts with
    | [] => .error (fault (.missingField "spec"))
    | .kind _ :: _ => .error (fault (.duplicateField "type"))
    | .body read :: parts => do
      let body ← read kind
      noMore parts
      pure body
  | .body read :: parts =>
    match parts with
    | [] => .error (fault (.missingField "type"))
    | .body _ :: _ => .error (fault (.duplicateField "spec"))
    | .kind named :: parts => do
      let kind ← named
      let body ← read kind
      noMore parts
      pure body

end StepPart

/-- A step that is being read: the fields seen so far and the entries that were kept back. -/
structure StepDraft where
  id : Option String := none
  name : Option String := none
  timeout : Option (Option String) := none
  parts : List StepPart := []

namespace Step

def slots : List (Slot StepDraft) := [
  .of "id" StepDraft.id (fun draft value => { draft with id := some value }) readString,
  .of "name" StepDraft.name (fun draft value => { draft with name := some value }) readString,
  .of "timeout" StepDraft.timeout (fun draft value => { draft with timeout := some value })
    (readOption readString)]

/-- Asks that an entry that is kept back can be read at all. Where the step itself was kept back,
this has been seen to. -/
def keepBack (origin : Origin) (value : Tree) : Except Fault Unit :=
  match origin with
  | .streamed => value.readJson.map fun _ => ()
  | _ => .ok ()

def finish (draft : StepDraft) : Except Fault Step := do
  let some id := draft.id | throw (StepPart.fault (.missingField "id"))
  let some name := draft.name | throw (StepPart.fault (.missingField "name"))
  let body ← StepPart.assemble draft.parts
  pure (body.toStep { id := id, name := name, timeout := draft.timeout.getD none })

def readTask (kind : StepKind) (tree : Tree) : Except Fault StepBody :=
  match kind with
  | .plugin => (Plugin.read .buffered tree).map fun plugin => .task (.plugin plugin)
  | .background => (Script.read .buffered tree).map fun script => .task (.background script)
  | _ => (Script.read .buffered tree).map fun script => .task (.script script)

def stepsName : String := "steps"

mutual

def read (origin : Origin) (tree : Tree) : Except Fault Step :=
  match tree with
  | .object start level entries ending => do
    Tree.enter start level
    let draft ← readEntries origin {} entries
    let stop ← ending.close Break.objectCause
    (finish draft).mapError fun fault => .placed fault.cause stop
  | tree => .error (tree.mismatch "struct Step")
termination_by structural tree

def readEntries (origin : Origin) (draft : StepDraft) (entries : List (Key × Tree)) :
    Except Fault StepDraft :=
  match entries with
  | [] => .ok draft
  | (key, value) :: entries => do
    let name ← key.text
    if name = "type" then
      keepBack origin value
      let part := StepPart.kind (Tree.readVariant .buffered StepKind.named value)
      readEntries origin { draft with parts := draft.parts ++ [part] } entries
    else if name = "spec" then
      keepBack origin value
      let part := StepPart.body fun kind => readBody kind value
      readEntries origin { draft with parts := draft.parts ++ [part] } entries
    else if slots.any fun slot => slot.answersTo name then
      let draft ← Slot.fillEntry slots draft key name value
      readEntries origin draft entries
    else
      keepBack origin value
      readEntries origin draft entries
termination_by structural entries

/-- Reads what a step of a kind needs. A block needs a record that holds its inner steps. -/
def readBody (kind : StepKind) (tree : Tree) : Except Fault StepBody :=
  match kind.block?, tree with
  | none, tree => readTask kind tree
  | some kind, .object _ _ entries ending => do
    let steps ← readInner none entries
    let stop ← ending.close Break.objectCause
    match steps with
    | some steps => pure (.block kind steps)
    | none => throw (.placed (.missingField stepsName) stop)
  | some kind, .array start _ items ending =>
    match items with
    | [] => .error (Tree.shortList "StepList" 1 0 start)
    | item :: behind => do
      let steps ← readList .buffered item
      Tree.endRecord .buffered 1 behind ending
      pure (.block kind steps)
  | some _, tree => .error (tree.mismatch "struct StepList")
termination_by structural tree

/-- Reads the entries of the record that holds the inner steps of a block. -/
def readInner (before : Option (List Step)) (entries : List (Key × Tree)) :
    Except Fault (Option (List Step)) :=
  match entries with
  | [] => .ok before
  | (key, value) :: entries => do
    let name ← key.text
    if name = stepsName then
      if before.isSome then throw (.placed (.duplicateField stepsName) key.abandoned)
      let steps ← readList .buffered value
      readInner (some steps) entries
    else readInner before entries
termination_by structural entries

def readList (origin : Origin) (tree : Tree) : Except Fault (List Step) :=
  match tree with
  | .array start level items ending => do
    Tree.enter start level
    let steps ← readAll origin items
    let _ ← ending.close Break.listCause
    pure steps
  | tree => .error (tree.mismatch "a sequence")
termination_by structural tree

def readAll (origin : Origin) (items : List Tree) : Except Fault (List Step) :=
  match items with
  | [] => .ok []
  | item :: items => do
    let step ← read origin item
    let steps ← readAll origin items
    pure (step :: steps)
termination_by structural items

end

end Step

/-! ## Stages and pipelines -/

namespace CloneSettings

structure Draft where
  disabled : Option Bool := none
  depth : Option (Option UInt32) := none

def slots : List (Slot Draft) := [
  .of "disabled" Draft.disabled (fun draft value => { draft with disabled := some value })
    readBool,
  .of "depth" Draft.depth (fun draft value => { draft with depth := some value })
    (readOption readWord32)]

def read : Tree → Except Fault CloneSettings :=
  readRecord .streamed "CloneSpec" slots {} fun draft => do
    let disabled ← required "disabled" draft.disabled
    pure { disabled := disabled, depth := draft.depth.getD none }

end CloneSettings

namespace Repository

structure Draft where
  url : Option String := none
  branch : Option (Option String) := none
  connector : Option (Option String) := none

def slots : List (Slot Draft) := [
  .of "url" Draft.url (fun draft value => { draft with url := some value }) readString,
  .of "branch" Draft.branch (fun draft value => { draft with branch := some value })
    (readOption readString),
  .of "connector" Draft.connector (fun draft value => { draft with connector := some value })
    (readOption readString)]

def read : Tree → Except Fault Repository :=
  readRecord .streamed "Repository" slots {} fun draft => do
    let url ← required "url" draft.url
    pure { url := url, branch := draft.branch.getD none, connector := draft.connector.getD none }

end Repository

namespace Stage

/-- What a stage does, while it is being read. -/
structure SpecDraft where
  clone : Option (Option CloneSettings) := none
  steps : Option (List Step) := none

def specSlots : List (Slot SpecDraft) := [
  .of "clone" SpecDraft.clone (fun draft value => { draft with clone := some value })
    (readOption CloneSettings.read),
  .of "steps" SpecDraft.steps (fun draft value => { draft with steps := some value })
    (Step.readList .streamed)]

def readSpec : Tree → Except Fault (Option CloneSettings × List Step) :=
  readRecord .streamed "StageSpec" specSlots {} fun draft => do
    let steps ← required "steps" draft.steps
    pure (draft.clone.getD none, steps)

structure Draft where
  id : Option String := none
  name : Option String := none
  stageType : Option String := none
  spec : Option (Option CloneSettings × List Step) := none

def slots : List (Slot Draft) := [
  .of "id" Draft.id (fun draft value => { draft with id := some value }) readString,
  .of "name" Draft.name (fun draft value => { draft with name := some value }) readString,
  .of "type" Draft.stageType (fun draft value => { draft with stageType := some value })
    readString,
  .of "spec" Draft.spec (fun draft value => { draft with spec := some value }) readSpec]

def read : Tree → Except Fault Stage :=
  readRecord .streamed "Stage" slots {} fun draft => do
    let id ← required "id" draft.id
    let name ← required "name" draft.name
    let stageType ← required "type" draft.stageType
    let (clone, steps) ← required "spec" draft.spec
    pure { id := id, name := name, stageType := stageType, clone := clone, steps := steps }

end Stage

namespace Pipeline

structure SpecDraft where
  stages : Option (List Stage) := none
  repository : Option (Option Repository) := none

def specSlots : List (Slot SpecDraft) := [
  .of "stages" SpecDraft.stages (fun draft value => { draft with stages := some value })
    (readList Stage.read),
  .of "repository" SpecDraft.repository
    (fun draft value => { draft with repository := some value }) (readOption Repository.read)]

def readSpec : Tree → Except Fault (List Stage × Option Repository) :=
  readRecord .streamed "PipelineSpec" specSlots {} fun draft => do
    let stages ← required "stages" draft.stages
    pure (stages, draft.repository.getD none)

structure Draft where
  version : Option UInt32 := none
  kind : Option String := none
  name : Option String := none
  spec : Option (List Stage × Option Repository) := none

def slots : List (Slot Draft) := [
  .of "version" Draft.version (fun draft value => { draft with version := some value })
    readWord32,
  .of "kind" Draft.kind (fun draft value => { draft with kind := some value }) readString,
  .of "name" Draft.name (fun draft value => { draft with name := some value }) readString,
  .of "spec" Draft.spec (fun draft value => { draft with spec := some value }) readSpec]

def read : Tree → Except Fault Pipeline :=
  readRecord .streamed "Pipeline" slots {} fun draft => do
    let version ← required "version" draft.version
    let kind ← required "kind" draft.kind
    let name ← required "name" draft.name
    let (stages, repository) ← required "spec" draft.spec
    pure { version := version, kind := kind, name := name, stages := stages,
           repository := repository }

def ofText (text : String) : Except Fault Pipeline :=
  (Document.ofText text).read read

end Pipeline

end TracePipeline
