import TracePipeline.Proofs.Conservation

/-! What a conversion reports. Every visit has findings of its own, told from its span and context
alone; the diagnostics of a conversion are those findings in walk order. A visit that could
contribute a step and does not has a finding that says so. -/

set_option autoImplicit false

namespace TracePipeline

/-! ## The findings of a visit -/

namespace Span

/-- A finding about a span, under its id unless that is empty. -/
def finding (span : Span) (code message : String) : Diagnostic :=
  ⟨code, message, if span.spanId = "" then none else some span.spanId⟩

@[simp] theorem finding_code (span : Span) (code message : String) :
    (span.finding code message).code = code := rfl

def sidecarFindings (span : Span) : List Diagnostic :=
  match span.sidecar with
  | .malformed reason =>
    [span.finding "W001"
      ("Malformed harness-attribute on '" ++ span.stepType ++ "' step: " ++ reason)]
  | _ => []

def orderFindings (span : Span) : List Diagnostic :=
  match span.rawOrder?, span.directOrder? with
  | some text, none =>
    [span.finding "W004" ("Order id '" ++ text ++ "' is not an integer; ordering as 0")]
  | _, _ => []

def skipFindings (convert : Convert) (context : Context) (span : Span) : List Diagnostic :=
  match convert span context with
  | .error skipped =>
    [span.finding "W005" ("'" ++ span.stepType ++ "' step has " ++ skipped.message ++ "; skipped")]
  | .ok _ => []

/-- The findings about the answer of a converter: the sidecar that it needs is not there, or else
the converter skips the span. -/
def answerFindings (converter : Converter) (context : Context) (span : Span) : List Diagnostic :=
  if converter.requiresSidecar && !span.sidecar.isPresent then
    [span.finding "W002"
      ("'" ++ span.stepType ++ "' step has no usable harness-attribute; skipped")]
  else span.skipFindings converter.convert context

variable (registry : Registry)

def typeFindings (span : Span) : List Diagnostic :=
  match registry.dispatch span.stepType with
  | .unknown =>
    [span.finding "W003"
      ("Unsupported step type '" ++ span.stepType ++ "' converted to a placeholder")]
  | _ => []

/-- The converter that a walk hands a span to. The fallback makes do without a sidecar. -/
def converter? (span : Span) : Option Converter :=
  match registry.dispatch span.stepType with
  | .checkout converter | .convert converter => some converter
  | .unknown => some ⟨registry.fallback, false⟩
  | _ => none

/-- The findings about what a span does not contribute. -/
def lossFindings (context : Context) (span : Span) : List Diagnostic :=
  match span.converter? registry with
  | some converter => span.answerFindings converter context
  | none => []

/-- All findings about a span. A structural one has none, whatever its type. -/
def findings (context : Context) (span : Span) : List Diagnostic :=
  if span.isStructural then []
  else
    span.sidecarFindings ++ (span.orderFindings ++
      (span.typeFindings registry ++ span.lossFindings registry context))

end Span

namespace Visit

def findings (registry : Registry) (options : Options) (visit : Visit) : List Diagnostic :=
  visit.span.findings registry (visit.context registry options)

end Visit

/-! ## One step of a walk -/

namespace WalkState

variable (state : WalkState) (span : Span)

@[simp] theorem diagnostics_warn (code message : String) :
    (state.warn code message span).diagnostics =
      state.diagnostics ++ [span.finding code message] := rfl

@[simp] theorem diagnostics_declare (declaration : Declaration) :
    (state.declare declaration).diagnostics = state.diagnostics := by
  unfold declare
  split <;> rfl

@[simp] theorem diagnostics_take (tool : Tool) :
    (state.take tool).diagnostics = state.diagnostics := by
  unfold take
  split <;> rfl

@[simp] theorem diagnostics_declareAll : (state.declareAll span).diagnostics =
    state.diagnostics := by
  unfold declareAll
  generalize span.declarations = declarations
  induction declarations generalizing state with
  | nil => rfl
  | cons declaration rest ih => rw [List.foldl_cons, ih, diagnostics_declare]

end WalkState

namespace Span

variable (span : Span) (context : Context) (state : WalkState)

@[simp] theorem diagnostics_declareBelow :
    (span.declareBelow state).diagnostics = state.diagnostics := by
  rw [declareBelow_eq]
  generalize span.descendants = below
  induction below generalizing state with
  | nil => rfl
  | cons descendant rest ih => rw [List.foldl_cons, ih, WalkState.diagnostics_declareAll]

theorem diagnostics_inspect :
    (span.inspect state).diagnostics =
      state.diagnostics ++ (span.sidecarFindings ++ span.orderFindings) := by
  unfold inspect sidecarFindings orderFindings
  rw [WalkState.diagnostics_declareAll]
  cases span.rawOrder? with
  | none => cases span.sidecar <;> simp
  | some text =>
      cases span.directOrder? with
      | none => cases span.sidecar <;> simp
      | some order => cases span.sidecar <;> simp

theorem diagnostics_convertWith (convert : Convert) :
    (span.convertWith convert context state).2.diagnostics =
      state.diagnostics ++ span.skipFindings convert context := by
  unfold convertWith skipFindings
  cases convert span context with
  | ok steps => exact (List.append_nil _).symm
  | error skipped => rfl

end Span

namespace Registry

/-- Whatever converts a shell makes something of every script. -/
def AnswersScripts (registry : Registry) : Prop :=
  ∀ {span : Span} {kind : Shell} {script : String} {converter : Converter},
    Shell.ofStepType? span.stepType = some kind → span.shellScript? = some script →
      registry.get? span.stepType = some converter →
        ∀ context, ∃ steps, converter.convert span context = .ok steps

theorem builtin_answersScripts : builtin.AnswersScripts := by
  intro span kind script converter shell text registered context
  rw [get?_of_dispatch (.inr (builtin_dispatch_shell shell))] at registered
  cases registered
  refine ⟨[Converter.scriptStep span context kind script], ?_⟩
  simp only [Converter.shell, text]
  rfl

end Registry

namespace Span

variable {registry : Registry} {span : Span} {context : Context} {pending : List PendingTool}
  {state : WalkState}

/-- A shell that makes way for a tool would not have been skipped. -/
theorem skipFindings_of_takenBy? (answers : registry.AnswersScripts) {converter : Converter}
    (registered : registry.get? span.stepType = some converter)
    {taken : Shell × PendingTool × ToolInvocation}
    (makesWay : span.takenBy? pending state = some taken) :
    span.skipFindings converter.convert context = [] := by
  obtain ⟨kind, shell, makesWay⟩ := Option.bind_eq_some_iff.mp makesWay
  obtain ⟨script, text, -⟩ := Option.bind_eq_some_iff.mp makesWay
  obtain ⟨steps, answered⟩ := answers shell text registered context
  simp only [skipFindings, answered]

private theorem diagnostics_convertLeaf (answers : registry.AnswersScripts) {converter : Converter}
    (registered : registry.get? span.stepType = some converter) :
    (span.convertLeaf converter pending context state).2.diagnostics =
      state.diagnostics ++ span.answerFindings converter context := by
  unfold convertLeaf answerFindings
  by_cases bare : (converter.requiresSidecar && !span.sidecar.isPresent) = true
  · simp only [if_pos bare]
    rfl
  simp only [if_neg bare]
  cases makesWay : span.takenBy? pending state with
  | some taken =>
      rw [skipFindings_of_takenBy? answers registered makesWay, List.append_nil]
      exact WalkState.diagnostics_take _ _
  | none => exact diagnostics_convertWith span context state _

/-- What a span adds to the diagnostics does not depend on the tools that wait for it. -/
theorem diagnostics_contribute (answers : registry.AnswersScripts) :
    (span.contribute registry pending context state).2.diagnostics =
      state.diagnostics ++ span.findings registry context := by
  unfold contribute findings
  cases structural : span.isStructural with
  | true => exact (List.append_nil _).symm
  | false =>
      simp only [Bool.false_eq_true, if_false, typeFindings, lossFindings, converter?]
      cases dispatched : registry.dispatch span.stepType
      case checkout converter =>
        have registered := Registry.get?_of_dispatch (.inl dispatched)
        simp [diagnostics_convertLeaf answers registered, diagnostics_inspect]
      case convert converter =>
        have registered := Registry.get?_of_dispatch (.inr dispatched)
        simp [diagnostics_convertLeaf answers registered, diagnostics_inspect]
      case unknown =>
        simp [convertUnknown, diagnostics_convertWith, diagnostics_inspect, answerFindings]
      all_goals simp only [List.append_nil]
      case background => exact diagnostics_inspect span state
      all_goals
        cases span.wrapperTool? registry <;> simp [diagnostics_inspect]

end Span

/-! ## Whole walks -/

namespace Span

/-- Wherever a span is, a walk of it reports the findings of its visits. -/
def ReportsVisits (rules : WalkRules) (options : Options) (span : Span) : Prop :=
  ∀ (pending : List PendingTool) (state : WalkState) (path : List Nat) (around : List Span),
    (span.walk rules pending (contextWithin rules.registry options around)
        state).2.diagnostics =
      state.diagnostics ++
        (span.visits rules.registry path around).flatMap (Visit.findings rules.registry options)

section Lists

variable {rules : WalkRules} {options : Options} {spans : List Span}

private theorem diagnostics_walkAll (each : ∀ span ∈ spans, span.ReportsVisits rules options)
    (pending : List PendingTool) (state : WalkState) (path : List Nat) (around : List Span)
    (index : Nat) :
    (walkAll rules pending (contextWithin rules.registry options around) spans
        state).2.diagnostics =
      state.diagnostics ++ (visitsFrom rules.registry path around index spans).flatMap
        (Visit.findings rules.registry options) := by
  induction spans generalizing state index with
  | nil => exact (List.append_nil _).symm
  | cons first rest ih =>
      simp only [walkAll, visitsFrom]
      rw [ih (fun span member => each span (.tail _ member)) _ (index + 1),
        each first (.head _) pending state (index :: path) around, List.flatMap_append,
        List.append_assoc]

private theorem diagnostics_walkBranches (each : ∀ span ∈ spans, span.ReportsVisits rules options)
    (pending : List PendingTool) (state : WalkState) (path : List Nat) (around : List Span)
    (index : Nat) :
    (walkBranches rules pending (contextWithin rules.registry options around) spans
        state).2.2.diagnostics =
      state.diagnostics ++ (visitsFrom rules.registry path around index spans).flatMap
        (Visit.findings rules.registry options) := by
  induction spans generalizing state index with
  | nil => exact (List.append_nil _).symm
  | cons first rest ih =>
      simp only [walkBranches, visitsFrom]
      rw [ih (fun span member => each span (.tail _ member)) _ (index + 1),
        each first (.head _) pending state (index :: path) around, List.flatMap_append,
        List.append_assoc]

end Lists

theorem reportsVisits (rules : WalkRules) (options : Options)
    (answers : rules.registry.AnswersScripts) (span : Span) :
    span.ReportsVisits rules options := by
  induction span using induct_children with
  | step span ih =>
      intro pending state path around
      have own : (span.contribute rules.registry pending
          (contextWithin rules.registry options around) state).2.diagnostics =
            state.diagnostics ++
              Visit.findings rules.registry options ⟨path, span, around⟩ :=
        diagnostics_contribute answers
      rw [walk_eq_contribute, visits_eq, List.flatMap_cons, ← List.append_assoc, ← own]
      by_cases onward : span.descends rules.registry
      case neg =>
        simp only [if_neg onward]
        exact (List.append_nil _).symm
      by_cases forks : span.forks rules.registry
      · simp only [if_pos onward, if_pos forks]
        exact diagnostics_walkBranches ih _ _ path (span :: around) 0
      · simp only [if_pos onward, if_neg forks]
        exact diagnostics_walkAll ih _ _ path (span :: around) 0

end Span

/-! ## Losses -/

namespace Span

variable {registry : Registry} {span : Span}

private theorem skipFindings_congr {convert : Convert} (standard : convert.Standard) (span : Span)
    (context other : Context) :
    span.skipFindings convert context = span.skipFindings convert other := by
  unfold skipFindings
  rcases standard span with ⟨skipped, same⟩ | ⟨payload, same⟩
  · rw [same context, same other]
  · rw [(same context).1, (same other).1]

private theorem standard_of_converter? (standard : registry.AllStandard) {converter : Converter}
    (given : span.converter? registry = some converter) : converter.convert.Standard := by
  unfold converter? at given
  cases dispatched : registry.dispatch span.stepType
  all_goals simp only [dispatched, Option.some.injEq, reduceCtorEq] at given
  case checkout own =>
    subst given
    exact standard.of_get? (Registry.get?_of_dispatch (.inl dispatched))
  case convert own =>
    subst given
    exact standard.of_get? (Registry.get?_of_dispatch (.inr dispatched))
  case unknown =>
    subst given
    exact standard.fallback

/-- The findings of a span do not depend on what surrounds it. -/
theorem findings_congr (standard : registry.AllStandard) (span : Span)
    (context other : Context) :
    span.findings registry context = span.findings registry other := by
  have loss : span.lossFindings registry context = span.lossFindings registry other := by
    unfold lossFindings answerFindings
    cases given : span.converter? registry with
    | none => rfl
    | some converter =>
        simp only [skipFindings_congr (standard_of_converter? standard given) span context other]
  unfold findings
  rw [loss]

theorem answered_eq_nil_iff {convert : Convert} (standard : convert.Standard) (span : Span)
    (context : Context) :
    span.answered convert context = [] ↔ span.skipFindings convert context ≠ [] := by
  unfold answered skipFindings
  rcases standard span with ⟨skipped, same⟩ | ⟨payload, same⟩
  · simp [same context]
  · simp [(same context).1]

/-- Two codes are for what is lost; the others are for what is odd. -/
theorem lossFindings_ne_nil_iff (ordinary : span.isStructural = false) (context : Context) :
    span.lossFindings registry context ≠ [] ↔
      ∃ finding ∈ span.findings registry context,
        finding.code = "W002" ∨ finding.code = "W005" := by
  have odd : ∀ finding ∈ span.sidecarFindings ++ (span.orderFindings ++
      span.typeFindings registry), ¬(finding.code = "W002" ∨ finding.code = "W005") := by
    unfold sidecarFindings orderFindings typeFindings
    intro finding member
    rcases List.mem_append.mp member with sidecar | member
    · split at sidecar
      · rw [List.mem_singleton.mp sidecar]
        simp
      · cases sidecar
    rcases List.mem_append.mp member with order | type
    · split at order
      · rw [List.mem_singleton.mp order]
        simp
      · cases order
    · split at type
      · rw [List.mem_singleton.mp type]
        simp
      · cases type
  have lost : ∀ finding ∈ span.lossFindings registry context,
      finding.code = "W002" ∨ finding.code = "W005" := by
    unfold lossFindings answerFindings skipFindings
    intro finding member
    split at member
    · split at member
      · rw [List.mem_singleton.mp member]
        exact .inl rfl
      · split at member
        · rw [List.mem_singleton.mp member]
          exact .inr rfl
        · cases member
    · cases member
  have shape : span.findings registry context =
      (span.sidecarFindings ++ (span.orderFindings ++ span.typeFindings registry)) ++
        span.lossFindings registry context := by
    simp [findings, ordinary]
  rw [shape]
  constructor
  · intro someLoss
    obtain ⟨finding, member⟩ := List.exists_mem_of_ne_nil _ someLoss
    exact ⟨finding, List.mem_append_right _ member, lost finding member⟩
  · rintro ⟨finding, member, code⟩
    rcases List.mem_append.mp member with other | own
    · exact absurd code (odd finding other)
    · exact List.ne_nil_of_mem own

end Span

namespace Visit

variable {registry : Registry} {visit : Visit} {ledger : Ledger}

private theorem toolSteps_ne_nil (options : Options) (choice : Choice) :
    visit.toolSteps registry options ledger choice ≠ [] := by
  simp [toolSteps, Span.splitSteps]

theorem convertedSteps_eq_nil_iff (standard : registry.Standard)
    (answers : registry.AnswersScripts) (options : Options) {converter : Converter}
    (registered : registry.get? visit.span.stepType = some converter) :
    visit.convertedSteps registry options ledger converter = [] ↔
      visit.span.answerFindings converter (visit.context registry options) ≠ [] := by
  unfold convertedSteps Span.answerFindings
  cases chosen : visit.choice? registry ledger.taken with
  | some choice =>
      obtain ⟨-, -, shell, script, text, -⟩ := choice?_spec chosen
      obtain ⟨own, dispatched, bare⟩ := dispatch_of_choice? standard.shells chosen
      rw [Registry.get?_of_dispatch (.inr dispatched)] at registered
      cases registered
      obtain ⟨steps, answered⟩ := answers shell text
        (Registry.get?_of_dispatch (.inr dispatched)) (visit.context registry options)
      simp [toolSteps_ne_nil, bare, Span.skipFindings, answered]
  | none =>
      by_cases bare : (converter.requiresSidecar && !visit.span.sidecar.isPresent) = true
      · simp only [if_pos bare]
        simp
      · simp only [if_neg bare]
        exact Span.answered_eq_nil_iff (standard.of_get? registered) _ _

/-- What could contribute a step contributes none just if a loss is found. -/
theorem steps_eq_nil_iff (standard : registry.Standard) (answers : registry.AnswersScripts)
    (options : Options) (producer : visit.span.isProducer registry) :
    visit.steps registry options ledger = [] ↔
      ∃ finding ∈ visit.findings registry options,
        finding.code = "W002" ∨ finding.code = "W005" := by
  simp only [Span.isProducer, Bool.and_eq_true, Bool.not_eq_true'] at producer
  obtain ⟨ordinary, produces⟩ := producer
  rw [findings, ← Span.lossFindings_ne_nil_iff ordinary]
  simp only [steps, ordinary, Span.lossFindings, Span.converter?]
  cases dispatched : registry.dispatch visit.span.stepType
  all_goals simp only [dispatched, Bool.false_eq_true] at produces ⊢
  case background => simp
  case checkout converter =>
    exact convertedSteps_eq_nil_iff standard answers options
      (Registry.get?_of_dispatch (.inl dispatched))
  case convert converter =>
    exact convertedSteps_eq_nil_iff standard answers options
      (Registry.get?_of_dispatch (.inr dispatched))
  case unknown =>
    exact Span.answered_eq_nil_iff standard.fallback _ _

end Visit

/-! ## Conversions -/

namespace Conversion

/-- The diagnostics of a conversion account for its spans. -/
structure Accounts (options : Options) (root : Span) : Prop where
  /-- The visits are the reached spans, each of them once. -/
  reached : ∀ visit, visit ∈ root.visits .builtin [] [] ↔ Reached .builtin (.root root) visit
  once : ((root.visits .builtin [] []).map Visit.path).Nodup
  /-- The diagnostics are the findings of the visits in walk order. -/
  reported : (ofSpan .builtin options root).diagnostics =
    (root.visits .builtin [] []).flatMap (Visit.findings .builtin options)
  /-- They are the same whatever the options are, whether the walk merges, which tools it waits for
  and which of them are taken. -/
  independent : ∀ (other : Options) (merge : Bool) (pending : List PendingTool)
    (taken : List Tool),
    (root.walk ⟨.builtin, merge⟩ pending (.root other) { taken := taken }).2.diagnostics =
      (ofSpan .builtin options root).diagnostics
  /-- The tasks of the unmerged pipeline are the steps of the stops. -/
  conserved : (root.stops .builtin).map Stop.visit = root.visits .builtin [] [] ∧
    (Step.tasks (ofSpan .builtin { options with mergeSteps := false } root).pipeline.steps).Perm
      ((root.stops .builtin).flatMap (Stop.steps .builtin options))
  /-- What is there for a step contributes none just if it is reported as lost. -/
  lost : ∀ stop ∈ root.stops .builtin, stop.visit.span.isProducer .builtin →
    (stop.steps .builtin options = [] ↔
      ∃ finding ∈ stop.visit.findings .builtin options,
        finding.code = "W002" ∨ finding.code = "W005")

theorem ofSpan_accounts (options : Options) (root : Span) : Accounts options root := by
  have reports (options : Options) (merge : Bool) (pending : List PendingTool)
      (taken : List Tool) :
      (root.walk ⟨.builtin, merge⟩ pending (.root options) { taken := taken }).2.diagnostics =
        (root.visits .builtin [] []).flatMap (Visit.findings .builtin options) :=
    root.reportsVisits ⟨.builtin, merge⟩ options Registry.builtin_answersScripts pending
      { taken := taken } [] []
  have reported := reports options options.mergeSteps [] []
  refine ⟨?_, ?_, reported, ?_, ⟨?_, ?_⟩, ?_⟩
  · intro visit
    exact Span.mem_visits_iff
  · exact Span.nodup_paths_visits _ _ _ _
  · intro other merge pending taken
    rw [reports other merge pending taken]
    refine Eq.trans (List.flatMap_congr fun visit _ => ?_) reported.symm
    exact Span.findings_congr Registry.builtin_allStandard visit.span _ _
  · exact map_visit_tour _ _ _
  · exact tasks_unmerged_perm Registry.builtin_standard options root
  · intro stop _ producer
    exact Visit.steps_eq_nil_iff Registry.builtin_standard Registry.builtin_answersScripts options
      producer

end Conversion

end TracePipeline
