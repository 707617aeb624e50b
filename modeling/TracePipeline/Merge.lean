import TracePipeline.Pipeline.Step

/-!
# Ordering and merging

The steps of one level are sorted by order id, equal ids keeping their places. Then neighbouring
scripts with the same runtime and timeout may be merged into one.
-/

set_option autoImplicit false

namespace TracePipeline

namespace OrderedStep

def insert (entry : OrderedStep) : List OrderedStep → List OrderedStep
  | [] => [entry]
  | other :: rest =>
    if entry.order ≤ other.order then entry :: other :: rest else other :: insert entry rest

/-- Entries in the order of their ids; entries with equal ids keep their places. -/
def sort (entries : List OrderedStep) : List OrderedStep :=
  entries.foldr insert []

end OrderedStep

def sortedSteps (entries : List OrderedStep) : List Step :=
  (OrderedStep.sort entries).map OrderedStep.step

namespace Step

/-- The text of two scripts that run one after the other. Line feeds at the end of the first give
way to a single one. -/
def joinRuns (first second : String) : String :=
  String.ofList (Text.trimEndBy (· == '\n') first.toList ++ '\n' :: second.toList)

/-- Merges a script step into the one before it, if both may take equally long and run in the same
surroundings. The first one keeps its id. -/
def merge? (head next : Step) : Option Step :=
  match head, next with
  | .task info (.script script), .task nextInfo (.script nextScript) =>
    if info.timeout = nextInfo.timeout && script.sameRuntime nextScript then
      some (.task { info with name := info.name ++ "_" ++ nextInfo.name }
        (.script { script with run := joinRuns script.run nextScript.run }))
    else none
  | _, _ => none

/-- Merges the steps behind `head` into it as far as that goes, then goes on with the next one. -/
def mergeFrom (head : Step) : List Step → List Step
  | [] => [head]
  | next :: rest =>
    match merge? head next with
    | some merged => mergeFrom merged rest
    | none => head :: mergeFrom next rest

def mergeAdjacent : List Step → List Step
  | [] => []
  | head :: rest => mergeFrom head rest

end Step

/-- The steps of a level: sorted, and merged if so chosen. -/
def finalize (merge : Bool) (entries : List OrderedStep) : List Step :=
  if merge then Step.mergeAdjacent (sortedSteps entries) else sortedSteps entries

end TracePipeline
