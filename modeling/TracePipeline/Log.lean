import TracePipeline.Conversion
import TracePipeline.Text.Shown

/-!
# The log of a conversion

What a conversion tells about itself while it goes on, as records in the order in which they come
up. The log decides nothing: a conversion is the same whether or not anybody reads it.
-/

set_option autoImplicit false

namespace TracePipeline

/-! ## Records -/

inductive LogLevel where
  | debug
  | info
  | warn
deriving DecidableEq, Repr

namespace LogLevel

def name : LogLevel → String
  | debug => "DEBUG"
  | info => " INFO"
  | warn => " WARN"

def rank : LogLevel → Nat
  | debug => 0
  | info => 1
  | warn => 2

/-- Whether a log that starts at one level shows the records of another one. -/
def shows (least level : LogLevel) : Bool :=
  decide (least.rank ≤ level.rank)

end LogLevel

/-- What a record tells beside its message: a text as it stands, a text in quotes, or a number. -/
inductive LogValue where
  | plain (text : String)
  | quoted (text : String)
  | count (number : Nat)
deriving DecidableEq, Repr

def LogValue.text : LogValue → String
  | plain text => text
  | quoted text => String.ofList (Text.shown text.toList)
  | count number => toString number

structure LogRecord where
  level : LogLevel
  message : String
  fields : List (String × LogValue)
deriving DecidableEq, Repr

namespace LogRecord

def text (record : LogRecord) : String :=
  joinTexts " " ((record.level.name ++ " " ++ record.message) ::
    record.fields.map fun (name, value) => name ++ "=" ++ value.text)

def ofDiagnostic (diagnostic : Diagnostic) : LogRecord where
  level := .warn
  message := diagnostic.message
  fields := [("code", .quoted diagnostic.code), ("span", .plain (diagnostic.spanId.getD ""))]

def ofSpan (level : LogLevel) (message : String) (span : Span) : LogRecord :=
  ⟨level, message, [("span", .plain span.spanId)]⟩

def ofTool (message : String) (tool : Tool) (span : Span) : LogRecord :=
  ⟨.debug, message, [("tool", .plain tool.label), ("span", .plain span.spanId)]⟩

end LogRecord

/-- The records of the findings that came after an earlier state. -/
def WalkState.recordsSince (earlier state : WalkState) : List LogRecord :=
  (state.diagnostics.drop earlier.diagnostics.length).map .ofDiagnostic

/-! ## Records about single spans -/

namespace Span

def declarationRecords (span : Span) : List LogRecord :=
  ((Declaration.ofParam (span.sidecar.root.find "tool")).map fun declared =>
      .ofTool "tool detected in sidecar" declared.tool span) ++
    (if span.stepType = "tool" then
      (Declaration.ofParam span.params).map fun declared =>
        .ofTool "tool step detected" declared.tool span
    else [])

def inspectRecords (span : Span) (state : WalkState) : List LogRecord :=
  state.recordsSince (span.inspect state) ++ span.declarationRecords

/-- A wrapper tells which of its entries set nothing, and that it names no image. -/
def scopeRecords (span : Span) : Scope → List LogRecord
  | .env =>
    (span.overrideTexts.filter fun entry => (override? entry).isNone).map fun entry =>
      ⟨.debug, "withEnv entry without '=' ignored", [("entry", .plain entry)]⟩
  | .dockerContainer =>
    if (span.textOrSidecar "image").isNone then
      [.ofSpan .warn "withDockerContainer without an image" span]
    else []
  | _ => []

def stageRecords (span : Span) (branches : List OrderedStep) : List LogRecord :=
  if branches.isEmpty then []
  else
    [⟨.debug, "parallel stage",
      [("stage", .quoted span.label), ("branches", .count branches.length)]⟩]

/-- What the wrapper of a tool tells before its children are walked. -/
def wrapperRecords (span : Span) (tool : Tool) (state : WalkState) : List LogRecord :=
  (Traversal.below span).toList.flatMap declarationRecords ++
    (if state.isTaken tool then
      [.ofTool "tool already converted; wrapper passes through" tool span]
    else [])

/-- What the wrapper of a tool tells after its children. -/
def wrappedRecords (span : Span) (tool : Tool) (before after : WalkState) : List LogRecord :=
  if before.isTaken tool || after.isTaken tool then []
  else [.ofTool "no tool invocation found under wrapper" tool span]

def leafRecords (converter : Converter) (pending : List PendingTool) (context : Context)
    (span : Span) (state : WalkState) : List LogRecord :=
  let taken :=
    if converter.requiresSidecar && !span.sidecar.isPresent then none
    else span.takenBy? pending state
  (taken.toList.map fun (_, tool, _) =>
      .ofTool "shell step converted to tool step" tool.tool span) ++
    state.recordsSince (span.convertLeaf converter pending context state).2

/-! ## Records of a walk -/

mutual

/-- What the walk of a span tells. -/
def records (rules : WalkRules) (pending : List PendingTool) (context : Context) (span : Span)
    (state : WalkState) : List LogRecord :=
  match span with
  | span@{ children, .. } =>
    if span.isStructural then recordsAll rules pending context children state
    else
      let inspected := span.inspect state
      span.inspectRecords state ++
        match rules.registry.dispatch span.stepType with
        | .passthrough => recordsAll rules pending context children inspected
        | .toolDeclaration => recordsAll rules pending context children inspected
        | .scope scope =>
          span.scopeRecords scope ++
            recordsAll rules pending (context.scoped scope span) children inspected
        | .stage =>
          recordsAll rules pending context children inspected ++
            (if isParallel children then
              span.stageRecords (walkBranches rules pending context children inspected).1
            else [])
        | .toolWrapper tool =>
          let below := span.declareBelow inspected
          let within := span.pendingInside tool pending below
          span.wrapperRecords tool below ++
            (recordsAll rules within context children below ++
              span.wrappedRecords tool below (walkAll rules within context children below).2)
        | .wrap =>
          match span.wrappedTool? with
          | some tool =>
            let below := span.declareBelow inspected
            let within := span.pendingInside tool pending below
            span.wrapperRecords tool below ++
              (recordsAll rules within context children below ++
                span.wrappedRecords tool below (walkAll rules within context children below).2)
          | none => recordsAll rules pending context children inspected
        | .background => recordsAll rules pending context children inspected
        | .checkout converter => span.leafRecords converter pending context inspected
        | .convert converter => span.leafRecords converter pending context inspected
        | .unknown =>
          let own := (span.convertUnknown rules.registry.fallback context inspected).2
          inspected.recordsSince own ++ recordsAll rules pending context children own
termination_by structural span

def recordsAll (rules : WalkRules) (pending : List PendingTool) (context : Context)
    (spans : List Span) (state : WalkState) : List LogRecord :=
  match spans with
  | [] => []
  | span :: spans =>
    records rules pending context span state ++
      recordsAll rules pending context spans (span.walk rules pending context state).2
termination_by structural spans

end

end Span

namespace Conversion

/-- What a conversion tells its log. -/
def records (registry : Registry) (options : Options) (root : Span) : List LogRecord :=
  let conversion := ofSpan registry options root
  root.records ⟨registry, options.mergeSteps⟩ [] (.root options) {} ++
    [⟨.info, "lowered span tree",
      [("steps", .count conversion.pipeline.steps.length),
        ("diagnostics", .count conversion.diagnostics.length)]⟩]

/-- Converts a trace, and keeps what that tells the log. -/
def ofTextLogged (registry : Registry) (options : Options) (text : String) :
    Except Failure (Conversion × List LogRecord) :=
  (Span.ofText text).map fun root => (ofSpan registry options root, records registry options root)

end Conversion

end TracePipeline
