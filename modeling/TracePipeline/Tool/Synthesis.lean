import TracePipeline.Converter.Basic
import TracePipeline.Tool.Declaration

/-!
# Tool steps

The plugin step that takes the place of a tool's command in a shell script.
-/

set_option autoImplicit false

namespace TracePipeline

/-- A tool that a wrapper around the current span waits for, and the installation it names. -/
structure PendingTool where
  tool : Tool
  installation : Option String
deriving DecidableEq, Repr

namespace PendingTool

def ofWrapper (tool : Tool) (wrapper : Span) : PendingTool where
  tool := tool
  installation := tool.installationKeys.findSome? fun key => (wrapper.param key).text?

/-- The plugin that runs a command of the tool. The installation comes from the wrapper, or else
from the declaration of the tool. -/
def plugin (pending : PendingTool) (arguments : String) (context : Context)
    (declared : Option Declaration) : Plugin :=
  let settings :=
    ((({ image := pending.tool.pluginImage : Plugin }.withText pending.tool.argumentsKey
      arguments).withText? "installation"
      (pending.installation.or (declared.bind Declaration.name))).withText? "version"
      (declared.bind Declaration.version)).withText? "container_image" context.container.image
  Converter.inContext settings context

def step (pending : PendingTool) (shell : Span) (arguments : String) (context : Context)
    (declared : Option Declaration) : Step :=
  .task {
      id := Label.stepId pending.tool.label shell.spanId
      name := Label.displayName pending.tool.label
      timeout := context.timeout }
    (.plugin (pending.plugin arguments context declared))

end PendingTool

end TracePipeline
