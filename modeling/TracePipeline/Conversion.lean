import TracePipeline.Trace.Reading
import TracePipeline.Walk

/-!
# Conversions

A trace becomes a pipeline with one stage, which holds the steps of the walk from the root.
-/

set_option autoImplicit false

namespace TracePipeline

/-- A pipeline with the findings on the way to it. -/
structure Conversion where
  pipeline : Pipeline
  diagnostics : List Diagnostic
deriving DecidableEq, Repr

namespace Conversion

/-- The name of a pipeline: the one that is asked for, or else one made from the root's label. -/
def pipelineName (options : Options) (root : Span) : String :=
  match options.pipelineName.bind someText? with
  | some name => name
  | none => if isBlankText root.label then "default" else Label.displayName root.label

def assemble (options : Options) (root : Span) (found : Contribution) : Pipeline where
  version := 1
  kind := "pipeline"
  name := pipelineName options root
  stages := [{
    id := "build"
    name := "build"
    stageType := "ci"
    clone := found.clone
    steps := finalize options.mergeSteps found.entries }]
  repository := found.repository

/-- Converts a trace that has been read. -/
def ofSpan (registry : Registry) (options : Options) (root : Span) : Conversion :=
  let (found, state) := root.walk ⟨registry, options.mergeSteps⟩ [] (.root options) {}
  ⟨assemble options root found, state.diagnostics⟩

def ofText (registry : Registry) (options : Options) (text : String) :
    Except Failure Conversion :=
  (Span.ofText text).map (ofSpan registry options)

end Conversion

end TracePipeline
