import TracePipeline.Proofs.Reached
import TracePipeline.Proofs.Answers

/-! What a visit contributes, told without a walk. The wrappers around a visit give its context and
the tools that it may run; of all that came before it only the tools already taken and the
declarations already heard matter. -/

set_option autoImplicit false

namespace TracePipeline

/-- What counts of the visits so far: the tools that have their step, and all declarations. -/
structure Ledger where
  taken : List Tool := []
  heard : List Declaration := []

/-- The tool that a shell runs for a wrapper, and the way it does. -/
structure Choice where
  shell : Shell
  pending : PendingTool
  invocation : ToolInvocation

namespace Span

/-- The steps that a converter makes of a span, which are none if it skips the span. -/
def answered (convert : Convert) (span : Span) (context : Context) : List Step :=
  match convert span context with
  | .ok steps => steps
  | .error _ => []

variable (registry : Registry)

/-- The context within spans, the innermost first. They change that of the root from the outermost
inward. -/
def contextWithin (options : Options) (around : List Span) : Context :=
  around.foldr (contextInside registry) (.root options)

/-- The tools that wrappers among spans wait for, the innermost first. -/
def waitingWithin (around : List Span) : List PendingTool :=
  around.filterMap fun span => (span.wrapperTool? registry).map fun tool => .ofWrapper tool span

end Span

namespace Visit

variable (registry : Registry)

def context (options : Options) (visit : Visit) : Context :=
  Span.contextWithin registry options visit.around

def waiting (visit : Visit) : List PendingTool :=
  Span.waitingWithin registry visit.around

def isShell (visit : Visit) : Bool :=
  !visit.span.isStructural && (Shell.ofStepType? visit.span.stepType).isSome

/-- The tool that a visit runs: the first one from the innermost wrapper outward that is not taken
and that the script of the shell runs. -/
def choice? (taken : List Tool) (visit : Visit) : Option Choice :=
  if visit.span.isStructural then none
  else do
    let shell ← Shell.ofStepType? visit.span.stepType
    let script ← visit.span.shellScript?
    let (pending, invocation) ← (visit.waiting registry).findSome? fun pending =>
      if taken.contains pending.tool then none
      else (pending.tool.findInvocation? script).map fun invocation => (pending, invocation)
    pure ⟨shell, pending, invocation⟩

/-- The tools that have their step once a visit is over. -/
def take (taken : List Tool) (visit : Visit) : List Tool :=
  match visit.choice? registry taken with
  | some choice => taken ++ [choice.pending.tool]
  | none => taken

/-- The declarations of a visit. Those below a wrapper of a tool count with the wrapper. -/
def declarations (visit : Visit) : List Declaration :=
  if visit.span.isStructural then []
  else
    visit.span.declarations ++
      if (visit.span.wrapperTool? registry).isSome then
        visit.span.descendants.flatMap Span.declarations
      else []

/-- The declaration that a tool's step goes by: the first one heard, also by the span itself. -/
def declared? (ledger : Ledger) (visit : Visit) (tool : Tool) : Option Declaration :=
  (ledger.heard ++ visit.span.declarations).find? fun declared => declared.tool = tool

/-- The steps that a shell makes way for when it runs a tool. -/
def toolSteps (options : Options) (ledger : Ledger) (visit : Visit) (choice : Choice) :
    List Step :=
  visit.span.splitSteps (visit.context registry options) choice.shell choice.pending
    choice.invocation (visit.declared? ledger choice.pending.tool)

def toolStep (options : Options) (ledger : Ledger) (visit : Visit) (choice : Choice) : Step :=
  choice.pending.step visit.span choice.invocation.arguments (visit.context registry options)
    (visit.declared? ledger choice.pending.tool)

def convertedSteps (options : Options) (ledger : Ledger) (visit : Visit) (converter : Converter) :
    List Step :=
  match visit.choice? registry ledger.taken with
  | some choice => visit.toolSteps registry options ledger choice
  | none =>
    if converter.requiresSidecar && !visit.span.sidecar.isPresent then []
    else visit.span.answered converter.convert (visit.context registry options)

def steps (options : Options) (ledger : Ledger) (visit : Visit) : List Step :=
  if visit.span.isStructural then []
  else
    match registry.dispatch visit.span.stepType with
    | .background => [visit.span.backgroundStep (visit.context registry options)]
    | .checkout converter | .convert converter =>
      visit.convertedSteps registry options ledger converter
    | .unknown => visit.span.answered registry.fallback (visit.context registry options)
    | _ => []

def isCheckout (visit : Visit) : Bool :=
  !visit.span.isStructural &&
    match registry.dispatch visit.span.stepType with
    | .checkout _ => true
    | _ => false

/-- All that a visit contributes: its steps, and what a checkout tells. -/
def contribution (options : Options) (ledger : Ledger) (visit : Visit) : Contribution :=
  let own := .ofSteps visit.span.order (visit.steps registry options ledger)
  if visit.isCheckout registry then visit.span.withCheckout own else own

end Visit

namespace Ledger

def after (registry : Registry) (ledger : Ledger) (visit : Visit) : Ledger where
  taken := visit.take registry ledger.taken
  heard := ledger.heard ++ visit.declarations registry

end Ledger

/-- A visit with the ledger as it was before. -/
structure Stop where
  visit : Visit
  ledger : Ledger

def tour (registry : Registry) (ledger : Ledger) : List Visit → List Stop
  | [] => []
  | visit :: rest => ⟨visit, ledger⟩ :: tour registry (ledger.after registry visit) rest

namespace Stop

def choice? (registry : Registry) (stop : Stop) : Option Choice :=
  stop.visit.choice? registry stop.ledger.taken

def steps (registry : Registry) (options : Options) (stop : Stop) : List Step :=
  stop.visit.steps registry options stop.ledger

end Stop

theorem tour_append (registry : Registry) (ledger : Ledger) (first second : List Visit) :
    tour registry ledger (first ++ second) =
      tour registry ledger first ++
        tour registry (first.foldl (Ledger.after registry) ledger) second := by
  induction first generalizing ledger with
  | nil => rfl
  | cons visit rest ih => simp [tour, ih]

theorem map_visit_tour (registry : Registry) (ledger : Ledger) (visits : List Visit) :
    (tour registry ledger visits).map Stop.visit = visits := by
  induction visits generalizing ledger with
  | nil => rfl
  | cons visit rest ih => simp [tour, ih]

/-! ## Plain steps -/

/-- Nothing in all circumstances, or in all of them one task under the label of the span that runs
no tool. -/
def Span.Plain {α : Type} (span : Span) (steps : α → List Step) : Prop :=
  (∀ circumstance, steps circumstance = []) ∨
    ∃ task : α → Step, ∀ circumstance,
      steps circumstance = [task circumstance] ∧ (task circumstance).isTask ∧
        (task circumstance).id = Label.stepId span.label span.spanId ∧
        (task circumstance).name = Label.displayName span.label ∧
        (task circumstance).tool? = none

theorem Span.Plain.nil_or_singleton {α : Type} {span : Span} {steps : α → List Step}
    (plain : span.Plain steps) (circumstance : α) :
    steps circumstance = [] ∨
      ∃ task : Step, steps circumstance = [task] ∧ task.isTask ∧
        task.id = Label.stepId span.label span.spanId ∧
        task.name = Label.displayName span.label ∧ task.tool? = none := by
  rcases plain with nothing | ⟨task, shape⟩
  · exact .inl (nothing circumstance)
  · exact .inr ⟨task circumstance, shape circumstance⟩

private theorem Convert.Standard.plain_answered {α : Type} {convert : Convert}
    (standard : convert.Standard) (span : Span) (context : α → Context) :
    span.Plain fun circumstance => span.answered convert (context circumstance) := by
  rcases standard span with ⟨skipped, same⟩ | ⟨payload, same⟩
  · refine .inl fun circumstance => ?_
    simp only [Span.answered, same]
  · refine .inr ⟨fun circumstance =>
      .task (Converter.infoFor span (context circumstance)) (payload (context circumstance)), ?_⟩
    intro circumstance
    obtain ⟨shape, foreign⟩ := same (context circumstance)
    refine ⟨?_, rfl, rfl, rfl, foreign⟩
    simp only [Span.answered, shape]

/-! ## Steps and choices -/

namespace Visit

variable {registry : Registry} {visit : Visit} {taken : List Tool} {choice : Choice}

theorem isShell_of_choice? (chosen : visit.choice? registry taken = some choice) :
    visit.isShell := by
  unfold choice? at chosen
  split at chosen
  · cases chosen
  rename_i structural
  cases kind : Shell.ofStepType? visit.span.stepType with
  | none => simp [kind] at chosen
  | some shell => simp [isShell, structural, kind]

/-- What is chosen is a tool that a wrapper waits for, that is free, and that the script runs. -/
theorem choice?_spec (chosen : visit.choice? registry taken = some choice) :
    choice.pending ∈ visit.waiting registry ∧ choice.pending.tool ∉ taken ∧
      Shell.ofStepType? visit.span.stepType = some choice.shell ∧
      ∃ script, visit.span.shellScript? = some script ∧
        choice.pending.tool.findInvocation? script = some choice.invocation := by
  unfold choice? at chosen
  split at chosen
  · cases chosen
  obtain ⟨shell, kind, chosen⟩ := Option.bind_eq_some_iff.mp chosen
  obtain ⟨script, text, chosen⟩ := Option.bind_eq_some_iff.mp chosen
  obtain ⟨⟨pending, invocation⟩, first, ⟨⟩⟩ := Option.bind_eq_some_iff.mp chosen
  obtain ⟨candidate, member, first⟩ := List.exists_of_findSome?_eq_some first
  split at first
  · cases first
  rename_i free
  obtain ⟨_, found, ⟨⟩⟩ := Option.map_eq_some_iff.mp first
  exact ⟨member, by simpa using free, kind, script, text, found⟩

theorem wrapper_of_choice? (chosen : visit.choice? registry taken = some choice) :
    ∃ wrapper ∈ visit.around, wrapper.wrapperTool? registry = some choice.pending.tool := by
  obtain ⟨wrapper, around, found⟩ := List.mem_filterMap.mp (choice?_spec chosen).1
  obtain ⟨tool, wraps, same⟩ := Option.map_eq_some_iff.mp found
  refine ⟨wrapper, around, ?_⟩
  rw [← same]
  exact wraps

theorem take_of_choice? (chosen : visit.choice? registry taken = some choice) :
    visit.take registry taken = taken ++ [choice.pending.tool] := by
  simp [take, chosen]

theorem take_of_no_choice (noChoice : visit.choice? registry taken = none) :
    visit.take registry taken = taken := by
  simp [take, noChoice]

theorem subset_take : taken ⊆ visit.take registry taken := by
  unfold take
  split
  · exact List.subset_append_left _ _
  · exact List.Subset.refl _

/-- Only a span that is converted runs a tool. -/
theorem dispatch_of_choice? (shells : registry.ConvertsShells)
    (chosen : visit.choice? registry taken = some choice) :
    ∃ converter, registry.dispatch visit.span.stepType = .convert converter ∧
      converter.requiresSidecar = false := by
  obtain ⟨-, -, kind, -⟩ := choice?_spec chosen
  exact shells kind

theorem ordinary_of_choice? (chosen : visit.choice? registry taken = some choice) :
    visit.span.isStructural = false := by
  have shell := isShell_of_choice? chosen
  simp only [isShell, Bool.and_eq_true, Bool.not_eq_true'] at shell
  exact shell.1

theorem not_descends_of_choice? (shells : registry.ConvertsShells)
    (chosen : visit.choice? registry taken = some choice) :
    visit.span.descends registry = false := by
  obtain ⟨converter, dispatched, -⟩ := dispatch_of_choice? shells chosen
  simp [Span.descends, ordinary_of_choice? chosen, dispatched]

theorem steps_of_forks (options : Options) (ledger : Ledger) (forks : visit.span.forks registry) :
    visit.steps registry options ledger = [] := by
  unfold Span.forks at forks
  cases dispatched : registry.dispatch visit.span.stepType with
  | stage => simp [steps, dispatched]
  | _ => simp [dispatched] at forks

theorem no_choice_of_structural (structural : visit.span.isStructural = true) :
    visit.choice? registry taken = none := by
  simp [choice?, structural]

theorem no_choice_of_dispatch (shells : registry.ConvertsShells)
    (other : ∀ converter, registry.dispatch visit.span.stepType ≠ .convert converter) :
    visit.choice? registry taken = none := by
  cases chosen : visit.choice? registry taken with
  | none => rfl
  | some choice =>
      obtain ⟨converter, dispatched, -⟩ := dispatch_of_choice? shells chosen
      exact absurd dispatched (other converter)

theorem steps_of_choice (shells : registry.ConvertsShells) (options : Options) {ledger : Ledger}
    (chosen : visit.choice? registry ledger.taken = some choice) :
    visit.steps registry options ledger = visit.toolSteps registry options ledger choice := by
  obtain ⟨converter, dispatched, -⟩ := dispatch_of_choice? shells chosen
  simp [steps, convertedSteps, ordinary_of_choice? chosen, dispatched, chosen]

theorem plain_of_no_choice (standard : registry.Standard) {ledger : Ledger}
    (noChoice : visit.choice? registry ledger.taken = none) :
    visit.span.Plain fun options => visit.steps registry options ledger := by
  have converted {converter : Converter}
      (registered : registry.get? visit.span.stepType = some converter) :
      visit.span.Plain fun options =>
        visit.convertedSteps registry options ledger converter := by
    simp only [convertedSteps, noChoice]
    by_cases bare : (converter.requiresSidecar && !visit.span.sidecar.isPresent) = true
    · simp only [if_pos bare]
      exact .inl fun _ => rfl
    · simp only [if_neg bare]
      exact (standard.of_get? registered).plain_answered visit.span fun options =>
        visit.context registry options
  cases structural : visit.span.isStructural with
  | true =>
      simp only [steps, structural, if_true]
      exact .inl fun _ => rfl
  | false =>
      cases dispatched : registry.dispatch visit.span.stepType
      all_goals simp only [steps, structural, dispatched, Bool.false_eq_true, if_false]
      case background =>
        exact .inr ⟨fun options => visit.span.backgroundStep (visit.context registry options),
          fun _ => ⟨rfl, rfl, rfl, rfl, rfl⟩⟩
      case unknown =>
        exact standard.fallback.plain_answered visit.span fun options =>
          visit.context registry options
      case checkout converter =>
        exact converted (Registry.get?_of_dispatch (.inl dispatched))
      case convert converter =>
        exact converted (Registry.get?_of_dispatch (.inr dispatched))
      all_goals exact .inl fun _ => rfl

end Visit

theorem taken_subset_foldl (registry : Registry) (ledger : Ledger) (visits : List Visit) :
    ledger.taken ⊆ (visits.foldl (Ledger.after registry) ledger).taken := by
  induction visits generalizing ledger with
  | nil => exact List.Subset.refl _
  | cons visit rest ih =>
      exact List.Subset.trans Visit.subset_take (ih (ledger.after registry visit))

end TracePipeline
