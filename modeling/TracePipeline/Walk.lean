import TracePipeline.Failure
import TracePipeline.Merge
import TracePipeline.Registry
import TracePipeline.Tool.Invocation
import TracePipeline.Tool.Synthesis
import TracePipeline.Trace.Traversal

/-!
# Walking a trace

The walk goes through the spans from the root, each before its children, and collects the steps of
each subtree in walk order. On the way it keeps the tools that were declared and those that have
their step, and the diagnostics. A wrapper hands a context or a pending tool down to its children
only; what the walk keeps reaches all spans that follow.
-/

set_option autoImplicit false

namespace TracePipeline

/-! ## What is kept -/

/-- What a walk keeps: the tools that have their step, the first declaration of each tool, and the
diagnostics. -/
structure WalkState where
  taken : List Tool := []
  declared : List Declaration := []
  diagnostics : List Diagnostic := []
deriving DecidableEq, Repr

namespace WalkState

def isTaken (state : WalkState) (tool : Tool) : Bool :=
  state.taken.contains tool

def take (state : WalkState) (tool : Tool) : WalkState :=
  if state.isTaken tool then state else { state with taken := state.taken ++ [tool] }

def declaration? (state : WalkState) (tool : Tool) : Option Declaration :=
  state.declared.find? fun declared => declared.tool = tool

/-- Keeps a declaration, unless there is one of its tool. -/
def declare (state : WalkState) (declaration : Declaration) : WalkState :=
  if (state.declaration? declaration.tool).isSome then state
  else { state with declared := state.declared ++ [declaration] }

def declareAll (state : WalkState) (span : Span) : WalkState :=
  span.declarations.foldl declare state

def warn (state : WalkState) (code message : String) (span : Span) : WalkState :=
  { state with
    diagnostics := state.diagnostics ++
      [⟨code, message, if span.spanId = "" then none else some span.spanId⟩] }

end WalkState

/-! ## What a subtree contributes -/

/-- What a subtree contributes: its steps in walk order, and the clone settings and the repository
of its first checkout. -/
structure Contribution where
  entries : List OrderedStep := []
  clone : Option CloneSettings := none
  repository : Option Repository := none
deriving DecidableEq, Repr

namespace Contribution

def ofSteps (order : Int) (steps : List Step) : Contribution :=
  { entries := steps.map fun step => ⟨order, step⟩ }

def withoutSteps (contribution : Contribution) : Contribution :=
  { contribution with entries := [] }

/-- One contribution and the one behind it. What the first one tells about the checkout stays. -/
def append (first second : Contribution) : Contribution where
  entries := first.entries ++ second.entries
  clone := first.clone.or second.clone
  repository := first.repository.or second.repository

instance : Append Contribution := ⟨append⟩

end Contribution

/-! ## Single spans -/

namespace Span

/-- The findings about a span whatever its type: an unreadable sidecar, and an order id that is no
integer. -/
def inspect (span : Span) (state : WalkState) : WalkState :=
  let state :=
    match span.sidecar with
    | .malformed reason =>
      state.warn "W001"
        ("Malformed harness-attribute on '" ++ span.stepType ++ "' step: " ++ reason) span
    | _ => state
  let state :=
    match span.rawOrder?, span.directOrder? with
    | some text, none =>
      state.warn "W004" ("Order id '" ++ text ++ "' is not an integer; ordering as 0") span
    | _, _ => state
  state.declareAll span

/-- The steps that a converter makes of a span. A skip is a finding. -/
def convertWith (convert : Convert) (span : Span) (context : Context) (state : WalkState) :
    Contribution × WalkState :=
  match convert span context with
  | .ok steps => (.ofSteps span.order steps, state)
  | .error skipped =>
    ({}, state.warn "W005"
      ("'" ++ span.stepType ++ "' step has " ++ skipped.message ++ "; skipped") span)

/-- The steps that the fallback makes of a span without a converter, which is a finding. -/
def convertUnknown (fallback : Convert) (span : Span) (context : Context) (state : WalkState) :
    Contribution × WalkState :=
  span.convertWith fallback context
    (state.warn "W003"
      ("Unsupported step type '" ++ span.stepType ++ "' converted to a placeholder") span)

/-- The first tool, from the innermost wrapper outward, that has no step yet and that a script
runs. -/
def findPending? (state : WalkState) (script : String) :
    List PendingTool → Option (PendingTool × ToolInvocation)
  | [] => none
  | pending :: outer =>
    if state.isTaken pending.tool then findPending? state script outer
    else
      match pending.tool.findInvocation? script with
      | some invocation => some (pending, invocation)
      | none => findPending? state script outer

def stepBefore (span : Span) (context : Context) (shell : Shell) (invocation : ToolInvocation) :
    List Step :=
  if invocation.before = "" then []
  else [Converter.scriptStep span context shell invocation.before]

/-- The label of the script step behind a tool's step when there is one in front of it too. -/
def labelAfter (span : Span) (tool : Tool) : String :=
  span.label ++ " after " ++ tool.label

def stepAfter (span : Span) (context : Context) (shell : Shell) (tool : Tool)
    (invocation : ToolInvocation) : List Step :=
  if invocation.after = "" then []
  else
    let info := Converter.infoFor span context
    let id :=
      if invocation.before = "" then info.id
      else Label.stepId (span.labelAfter tool) span.spanId
    [.task { info with id := id } (.script (context.script shell invocation.after))]

/-- The steps of a shell span that runs a pending tool: the tool's step with the rest of the script
around it. -/
def splitSteps (span : Span) (context : Context) (shell : Shell) (pending : PendingTool)
    (invocation : ToolInvocation) (declared : Option Declaration) : List Step :=
  span.stepBefore context shell invocation ++
    [pending.step span invocation.arguments context declared] ++
    span.stepAfter context shell pending.tool invocation

/-- The pending tool that takes a span, if the span is a shell that runs one. -/
def takenBy? (pending : List PendingTool) (span : Span) (state : WalkState) :
    Option (Shell × PendingTool × ToolInvocation) := do
  let shell ← Shell.ofStepType? span.stepType
  let script ← span.shellScript?
  let (tool, invocation) ← findPending? state script pending
  pure (shell, tool, invocation)

/-- Converts a span that has a converter. A span without the sidecar that the converter needs is
passed over, which is a finding. -/
def convertLeaf (converter : Converter) (pending : List PendingTool) (context : Context)
    (span : Span) (state : WalkState) : Contribution × WalkState :=
  if converter.requiresSidecar && !span.sidecar.isPresent then
    ({}, state.warn "W002"
      ("'" ++ span.stepType ++ "' step has no usable harness-attribute; skipped") span)
  else
    match span.takenBy? pending state with
    | some (shell, tool, invocation) =>
      let declared := state.declaration? tool.tool
      (.ofSteps span.order (span.splitSteps context shell tool invocation declared),
        state.take tool.tool)
    | none => span.convertWith converter.convert context state

/-- What a checkout adds to its steps. A checkout without steps tells nothing. -/
def withCheckout (span : Span) (contribution : Contribution) : Contribution :=
  if contribution.entries.isEmpty then contribution
  else
    contribution ++
      ({ clone := some span.cloneSettings, repository := span.repository? } : Contribution)

/-- The task that a `withRun` span keeps running beside its children. -/
def backgroundStep (span : Span) (context : Context) : Step :=
  let container := Container.ofArguments ((span.param "args").text?.getD "")
  .task { Converter.infoFor span context with timeout := none }
    (.background {
      image := (span.textOrSidecar "image").or context.container.image
      connector := context.container.connector
      envs := context.environment
      entrypoint := container.entrypoint
      args := container.args
      privileged := container.privileged
      network := container.network
      run := (span.param "command").text?.getD "" })

def isBranch (span : Span) : Bool :=
  span.stepType = "parallel" || textStartsWith "Parallel branch:" span.spanName

/-- Whether the children of a stage run side by side. -/
def isParallel (children : List Span) : Bool :=
  decide (1 < children.length) && children.any isBranch

/-- The step of a branch, from the steps inside it. A single step stands for itself. -/
def branchStep (span : Span) (steps : List Step) : List OrderedStep :=
  match steps with
  | [] => []
  | [step] => [⟨span.order, step⟩]
  | steps =>
    [⟨span.order, .block { Converter.infoFor span {} with timeout := none } .group steps⟩]

/-- The step of a parallel stage, from those of its branches. A stage without any is no step. -/
def stageStep (span : Span) (context : Context) (branches : List OrderedStep) : Contribution :=
  if branches.isEmpty then {}
  else
    .ofSteps span.order
      [.block (Converter.infoFor span context) .parallel (sortedSteps branches)]

/-- The declarations below a tool's wrapper count at once, not only when the walk reaches them. -/
def declareBelow (span : Span) (state : WalkState) : WalkState :=
  (Traversal.below span).toList.foldl WalkState.declareAll state

theorem declareBelow_eq (span : Span) (state : WalkState) :
    span.declareBelow state = span.descendants.foldl WalkState.declareAll state := by
  rw [declareBelow, Traversal.toList_below]

/-- The pending tools inside a wrapper: its own too, unless that has its step already. -/
def pendingInside (span : Span) (tool : Tool) (pending : List PendingTool) (state : WalkState) :
    List PendingTool :=
  if state.isTaken tool then pending else .ofWrapper tool span :: pending

end Span

/-! ## The walk -/

/-- What stays the same during a walk. -/
structure WalkRules where
  registry : Registry
  merge : Bool

namespace Span

mutual

/-- Walks a span in a context, with the tools that wrappers around it wait for, the innermost
first. -/
def walk (rules : WalkRules) (pending : List PendingTool) (context : Context) (span : Span)
    (state : WalkState) : Contribution × WalkState :=
  match span with
  | span@{ children, .. } =>
    if span.isStructural then walkAll rules pending context children state
    else
      let state := span.inspect state
      match rules.registry.dispatch span.stepType with
      | .passthrough => walkAll rules pending context children state
      | .toolDeclaration => walkAll rules pending context children state
      | .scope scope => walkAll rules pending (context.scoped scope span) children state
      | .stage =>
        if isParallel children then
          let (branches, checkouts, state) :=
            walkBranches rules pending context children state
          (checkouts ++ span.stageStep context branches, state)
        else walkAll rules pending context children state
      | .toolWrapper tool =>
        let state := span.declareBelow state
        walkAll rules (span.pendingInside tool pending state) context children state
      | .wrap =>
        match span.wrappedTool? with
        | some tool =>
          let state := span.declareBelow state
          walkAll rules (span.pendingInside tool pending state) context children state
        | none => walkAll rules pending context children state
      | .background =>
        let (inside, state) := walkAll rules pending context children state
        (.ofSteps span.order [span.backgroundStep context] ++ inside, state)
      | .checkout converter =>
        let (contribution, state) := span.convertLeaf converter pending context state
        (span.withCheckout contribution, state)
      | .convert converter => span.convertLeaf converter pending context state
      | .unknown =>
        let (own, state) := span.convertUnknown rules.registry.fallback context state
        let (inside, state) := walkAll rules pending context children state
        (own ++ inside, state)
termination_by structural span

def walkAll (rules : WalkRules) (pending : List PendingTool) (context : Context)
    (spans : List Span) (state : WalkState) : Contribution × WalkState :=
  match spans with
  | [] => ({}, state)
  | span :: spans =>
    let (first, state) := walk rules pending context span state
    let (others, state) := walkAll rules pending context spans state
    (first ++ others, state)
termination_by structural spans

/-- Walks the branches of a parallel stage. The steps of each are brought into order by themselves;
what they tell about the checkout is collected. -/
def walkBranches (rules : WalkRules) (pending : List PendingTool) (context : Context)
    (spans : List Span) (state : WalkState) : List OrderedStep × Contribution × WalkState :=
  match spans with
  | [] => ([], {}, state)
  | span :: spans =>
    let (branch, state) := walk rules pending context span state
    let (branches, checkouts, state) := walkBranches rules pending context spans state
    (span.branchStep (finalize rules.merge branch.entries) ++ branches,
      branch.withoutSteps ++ checkouts, state)
termination_by structural spans

end

end Span

end TracePipeline
