import TracePipeline.Failure
import TracePipeline.Json.Decode

/-!
# Conversion options

What a caller may choose: the pipeline's name, the image of steps outside any container block, and
whether neighbouring scripts are merged.
-/

set_option autoImplicit false

namespace TracePipeline

/-- The choices for one conversion. Scripts are merged unless the caller says otherwise. -/
structure Options where
  pipelineName : Option String := none
  defaultImage : Option String := none
  mergeSteps : Bool := true
deriving DecidableEq, Repr, Inhabited

namespace Options

/-- Options that are being read, with the fields seen so far. -/
structure Draft where
  pipelineName : Option (Option String) := none
  defaultImage : Option (Option String) := none
  mergeSteps : Option Bool := none

def slots : List (Slot Draft) := [
  .of "pipelineName" Draft.pipelineName (fun draft name => { draft with pipelineName := some name })
    (Tree.readOption Tree.readString),
  .of "defaultImage" Draft.defaultImage
    (fun draft image => { draft with defaultImage := some image })
    (Tree.readOption Tree.readString),
  .of "mergeSteps" Draft.mergeSteps (fun draft merge => { draft with mergeSteps := some merge })
    Tree.readBool]

/-- The options of a draft. What is missing keeps its default. -/
def finish (draft : Draft) : Except String Options :=
  .ok {
    pipelineName := draft.pipelineName.getD none
    defaultImage := draft.defaultImage.getD none
    mergeSteps := draft.mergeSteps.getD true }

def read : Tree → Except Fault Options :=
  Tree.readRecord .streamed "ConvertOptions" slots {} finish

def ofText (text : String) : Except Failure Options :=
  ((Document.ofText text).read read).mapError .unreadableOptions

end Options

end TracePipeline
