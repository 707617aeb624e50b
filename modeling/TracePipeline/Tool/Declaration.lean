import TracePipeline.Tool
import TracePipeline.Trace.Span

/-!
# Tool declarations

Traces declare the installations of tools in many shapes: as a name, as an object with a type, a
name and a version, or as lists of these.
-/

set_option autoImplicit false

namespace TracePipeline

/-- A tool that a trace declares, with what it says about the installation. -/
structure Declaration where
  tool : Tool
  name : Option String
  version : Option String
deriving DecidableEq, Repr

namespace Declaration

def ofName? (name : String) : Option Declaration :=
  (Tool.ofName? name).map fun tool => ⟨tool, some name, none⟩

/-- The declaration that an object makes. Its type tells the tool, or else its name. -/
def ofEntries? (entries : Entries Json) : Option Declaration :=
  let param := Param.ofEntries entries
  let name := (param.get "name").text?
  let tool := ((param.get "type").text?.bind Tool.ofName?).or (name.bind Tool.ofName?)
  tool.map fun tool => ⟨tool, name, (param.get "version").text?⟩

mutual

def ofJson : Json → List Declaration
  | .array items => ofItems items
  | .object entries => (ofEntries? entries).toList
  | value => ((Param.text? (some value)).bind ofName?).toList

def ofItems : List Json → List Declaration
  | [] => []
  | item :: items => ofJson item ++ ofItems items

end

def ofParam (param : Param) : List Declaration :=
  match param with
  | some value => ofJson value
  | none => []

end Declaration

/-- The declarations that a span makes: under the first `tool` key of its sidecar, and by its
parameters if it is a `tool` step. -/
def Span.declarations (span : Span) : List Declaration :=
  Declaration.ofParam (span.sidecar.root.find "tool") ++
    (if span.stepType = "tool" then Declaration.ofParam span.params else [])

/-- The tool that a generic wrapper stands for, by the class that one of its keys names. -/
def Span.wrappedTool? (span : Span) : Option Tool :=
  ["$class", "delegate", "symbol"].findSome? fun key =>
    (span.params.find key).text?.bind Tool.ofWrapperClass?

end TracePipeline
