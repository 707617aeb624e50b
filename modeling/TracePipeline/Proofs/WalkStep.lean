import TracePipeline.Proofs.Ledger

/-! What one span adds to a walk. A walk is what a span contributes by itself, followed by the walk
of its children if it has any part in them. The state of a walk stays in line with the ledger, and
the tools that it waits for with the wrappers around a visit. -/

set_option autoImplicit false

namespace TracePipeline

/-! ## One step of a walk -/

namespace Span

variable (registry : Registry)

/-- The tools that the spans inside a span may run. -/
def pendingWithin (pending : List PendingTool) (span : Span) (state : WalkState) :
    List PendingTool :=
  match span.wrapperTool? registry with
  | some tool => span.pendingInside tool pending state
  | none => pending

/-- What a span contributes by itself, and what is kept when its children come next. -/
def contribute (pending : List PendingTool) (context : Context) (span : Span)
    (state : WalkState) : Contribution × WalkState :=
  if span.isStructural then ({}, state)
  else
    let state := span.inspect state
    match registry.dispatch span.stepType with
    | .background => (.ofSteps span.order [span.backgroundStep context], state)
    | .checkout converter =>
      let (contribution, state) := span.convertLeaf converter pending context state
      (span.withCheckout contribution, state)
    | .convert converter => span.convertLeaf converter pending context state
    | .unknown => span.convertUnknown registry.fallback context state
    | _ =>
      match span.wrapperTool? registry with
      | some _ => ({}, span.declareBelow state)
      | none => ({}, state)

end Span

@[simp] theorem Contribution.empty_append (contribution : Contribution) :
    {} ++ contribution = contribution := by
  rfl

@[simp] theorem Contribution.append_empty (contribution : Contribution) :
    contribution ++ {} = contribution := by
  change Contribution.append contribution {} = contribution
  simp [Contribution.append]

namespace Span

/-- Every kind of span is walked in the same two parts: its own, and that of its children. -/
theorem walk_eq_contribute (rules : WalkRules) (pending : List PendingTool) (context : Context)
    (span : Span) (state : WalkState) :
    span.walk rules pending context state =
      let own := span.contribute rules.registry pending context state
      let pending := span.pendingWithin rules.registry pending own.2
      let context' := span.contextInside rules.registry context
      if span.descends rules.registry then
        if span.forks rules.registry then
          let found := walkBranches rules pending context' span.children own.2
          (own.1 ++ (found.2.1 ++ span.stageStep context found.1), found.2.2)
        else
          let inside := walkAll rules pending context' span.children own.2
          (own.1 ++ inside.1, inside.2)
      else own := by
  cases structural : span.isStructural with
  | true =>
      cases span
      rw [walk, if_pos structural]
      simp [contribute, descends, forks, pendingWithin, contextInside, scope?, wrapperTool?,
        structural]
  | false =>
      cases dispatched : rules.registry.dispatch span.stepType
      case wrap =>
        -- Only the parameters of the span tell whether it is a wrapper.
        cases wrapped : span.wrappedTool?
        all_goals
          cases span
          rw [walk, structural, dispatched]
          simp [contribute, descends, forks, pendingWithin, contextInside, scope?, wrapperTool?,
            structural, dispatched, wrapped]
      all_goals
        cases span
        rw [walk, structural, dispatched]
        simp [contribute, descends, forks, pendingWithin, contextInside, scope?, wrapperTool?,
          structural, dispatched]

end Span

/-! ## State and ledger -/

/-- A state that knows what a ledger knows. -/
structure Ledger.Kept (ledger : Ledger) (state : WalkState) : Prop where
  taken : state.taken = ledger.taken
  declared : ∀ tool,
    state.declaration? tool = ledger.heard.find? fun declared => declared.tool = tool

namespace WalkState

theorem declaration?_declare (state : WalkState) (declaration : Declaration) (tool : Tool) :
    (state.declare declaration).declaration? tool =
      (state.declaration? tool).or
        (if declaration.tool = tool then some declaration else none) := by
  unfold declare
  by_cases known : (state.declaration? declaration.tool).isSome
  · rw [if_pos known]
    by_cases same : declaration.tool = tool
    · subst same
      rw [Option.or_of_isSome known]
    · simp [same]
  · rw [if_neg known]
    simp only [declaration?, List.find?_append, List.find?_singleton, decide_eq_true_eq]

@[simp] theorem taken_declare (state : WalkState) (declaration : Declaration) :
    (state.declare declaration).taken = state.taken := by
  unfold declare
  split <;> rfl

end WalkState

namespace Ledger.Kept

variable {ledger : Ledger} {state : WalkState}

theorem empty : Ledger.Kept {} {} where
  taken := rfl
  declared := fun _ => rfl

theorem warn (kept : ledger.Kept state) (code message : String) (span : Span) :
    ledger.Kept (state.warn code message span) where
  taken := kept.taken
  declared := kept.declared

private theorem declare (kept : ledger.Kept state) (declaration : Declaration) :
    Ledger.Kept { ledger with heard := ledger.heard ++ [declaration] }
      (state.declare declaration) where
  taken := by
    rw [WalkState.taken_declare, kept.taken]
  declared := by
    intro tool
    rw [WalkState.declaration?_declare, kept.declared, List.find?_append]
    simp only [List.find?_singleton, decide_eq_true_eq]

theorem declareFrom (kept : ledger.Kept state) (declarations : List Declaration) :
    Ledger.Kept { ledger with heard := ledger.heard ++ declarations }
      (declarations.foldl WalkState.declare state) := by
  induction declarations generalizing ledger state with
  | nil => simpa using kept
  | cons declaration rest ih => simpa using ih (kept.declare declaration)

theorem inspect (kept : ledger.Kept state) (span : Span) :
    Ledger.Kept { ledger with heard := ledger.heard ++ span.declarations }
      (span.inspect state) := by
  unfold Span.inspect
  apply declareFrom
  split <;> split <;> simp only [kept, Ledger.Kept.warn]

private theorem declareBelow (kept : ledger.Kept state) (span : Span) :
    Ledger.Kept
      { ledger with heard := ledger.heard ++ span.descendants.flatMap Span.declarations }
      (span.declareBelow state) := by
  rw [Span.declareBelow_eq]
  generalize span.descendants = below
  induction below generalizing ledger state with
  | nil => simpa using kept
  | cons descendant rest ih =>
      simpa [WalkState.declareAll] using ih (kept.declareFrom descendant.declarations)

private theorem take (kept : ledger.Kept state) {tool : Tool} (free : tool ∉ ledger.taken) :
    Ledger.Kept { ledger with taken := ledger.taken ++ [tool] } (state.take tool) := by
  have untaken : state.isTaken tool = false := by
    simpa [WalkState.isTaken, kept.taken] using free
  rw [WalkState.take, untaken]
  exact ⟨by simp [kept.taken], kept.declared⟩

theorem isTaken (kept : ledger.Kept state) (tool : Tool) :
    state.isTaken tool = ledger.taken.contains tool := by
  rw [WalkState.isTaken, kept.taken]

end Ledger.Kept

/-! ## Pending tools -/

/-- Waiting for some tools comes to the same as waiting for others when those that are taken
do not count. -/
def SameFree (taken : List Tool) (pending waiting : List PendingTool) : Prop :=
  pending.filter (fun tool => tool.tool ∉ taken) = waiting.filter (fun tool => tool.tool ∉ taken)

namespace SameFree

variable {taken : List Tool} {pending waiting : List PendingTool}

/-- The more is taken, the less counts. -/
theorem mono {more : List Tool} (same : SameFree taken pending waiting) (subset : taken ⊆ more) :
    SameFree more pending waiting := by
  have refilter (tools : List PendingTool) :
      tools.filter (fun tool => tool.tool ∉ more) =
        (tools.filter fun tool => tool.tool ∉ taken).filter fun tool => tool.tool ∉ more := by
    rw [List.filter_filter]
    apply List.filter_congr
    intro tool _
    have := @subset tool.tool
    grind
  unfold SameFree at same ⊢
  rw [refilter pending, refilter waiting, same]

/-- A search that passes over what is taken finds the same. -/
theorem findSome? {α : Type} (same : SameFree taken pending waiting)
    (choose : PendingTool → Option α) :
    (pending.findSome? fun tool => if taken.contains tool.tool then none else choose tool) =
      waiting.findSome? fun tool => if taken.contains tool.tool then none else choose tool := by
  have passing (tools : List PendingTool) :
      (tools.findSome? fun tool => if taken.contains tool.tool then none else choose tool) =
        (tools.filter fun tool => tool.tool ∉ taken).findSome? choose := by
    induction tools with
    | nil => rfl
    | cons tool rest ih =>
        by_cases member : tool.tool ∈ taken
        · simpa [member] using ih
        · cases chosen : choose tool with
          | some value => simp [member, chosen]
          | none => simpa [member, chosen] using ih
  rw [passing pending, passing waiting]
  exact congrArg (List.findSome? choose) same

/-- What a walk waits for inside a span matches the wrappers there. -/
theorem within {registry : Registry} {state : WalkState} {around : List Span} (span : Span)
    (same : SameFree taken pending (Span.waitingWithin registry around))
    (known : ∀ tool, state.isTaken tool = taken.contains tool) :
    SameFree taken (span.pendingWithin registry pending state)
      (Span.waitingWithin registry (span :: around)) := by
  unfold Span.waitingWithin at same ⊢
  unfold Span.pendingWithin
  cases wraps : span.wrapperTool? registry with
  | none => simpa [wraps] using same
  | some tool =>
      unfold SameFree at same ⊢
      by_cases gone : tool ∈ taken
      · simpa [Span.pendingInside, known, wraps, gone, PendingTool.ofWrapper] using same
      · simpa [Span.pendingInside, known, wraps, gone, PendingTool.ofWrapper] using same

end SameFree

namespace Span

private theorem findPending?_eq_findSome? (state : WalkState) (script : String)
    (pending : List PendingTool) :
    findPending? state script pending =
      pending.findSome? fun tool =>
        if state.isTaken tool.tool then none
        else (tool.tool.findInvocation? script).map fun invocation => (tool, invocation) := by
  induction pending with
  | nil => rfl
  | cons tool outer ih =>
      rw [findPending?, List.findSome?_cons, ih]
      by_cases free : state.isTaken tool.tool
      · simp [free]
      · cases found : tool.tool.findInvocation? script with
        | none => simp [free]
        | some invocation => simp [free]

end Span

/-! ## One step and its visit -/

namespace Visit

variable {registry : Registry} {ledger : Ledger} {state : WalkState} {pending : List PendingTool}
  {visit : Visit}

theorem takenBy?_eq (kept : ledger.Kept state)
    (same : SameFree ledger.taken pending (visit.waiting registry))
    (ordinary : visit.span.isStructural = false) :
    visit.span.takenBy? pending state =
      (visit.choice? registry ledger.taken).map fun choice =>
        (choice.shell, choice.pending, choice.invocation) := by
  unfold Span.takenBy? choice?
  rw [if_neg (by simp [ordinary])]
  cases kind : Shell.ofStepType? visit.span.stepType with
  | none => rfl
  | some shell =>
      cases text : visit.span.shellScript? with
      | none => rfl
      | some script =>
          simp only [Span.findPending?_eq_findSome?, kept.isTaken, same.findSome?]
          simp only [Option.bind_eq_bind, Option.bind_some, Option.map_bind]
          rfl

theorem convertWith_entries (convert : Convert) (span : Span) (context : Context)
    (state : WalkState) :
    (span.convertWith convert context state).1 =
      .ofSteps span.order (span.answered convert context) := by
  unfold Span.convertWith Span.answered
  cases convert span context with
  | ok steps => rfl
  | error skipped => rfl

theorem kept_convertWith (kept : ledger.Kept state) (convert : Convert) (span : Span)
    (context : Context) : ledger.Kept (span.convertWith convert context state).2 := by
  unfold Span.convertWith
  split
  · exact kept
  · exact kept.warn _ _ _

/-- A span with a converter makes way for a tool, or is passed over, or is converted. -/
theorem convertLeaf_eq (options : Options) (converter : Converter)
    (kept : Ledger.Kept { ledger with heard := ledger.heard ++ visit.span.declarations } state)
    (same : SameFree ledger.taken pending (visit.waiting registry))
    (ordinary : visit.span.isStructural = false)
    (plain : ∀ choice, visit.choice? registry ledger.taken = some choice →
      converter.requiresSidecar = false) :
    let found := visit.span.convertLeaf converter pending (visit.context registry options) state
    found.1 = .ofSteps visit.span.order (visit.convertedSteps registry options ledger converter) ∧
      Ledger.Kept
        ⟨visit.take registry ledger.taken, ledger.heard ++ visit.span.declarations⟩ found.2 := by
  unfold convertedSteps
  cases chosen : visit.choice? registry ledger.taken with
  | some choice =>
      have free := (choice?_spec chosen).2.1
      rw [Span.convertLeaf, plain choice chosen, takenBy?_eq kept same ordinary, chosen,
        take_of_choice? chosen]
      refine ⟨?_, kept.take free⟩
      simp only [Bool.false_and, Bool.false_eq_true, if_false, Option.map_some, toolSteps,
        declared?, kept.declared]
  | none =>
      rw [take_of_no_choice chosen]
      by_cases bare : (converter.requiresSidecar && !visit.span.sidecar.isPresent) = true
      · rw [Span.convertLeaf, if_pos bare]
        simp only [bare, if_true]
        exact ⟨rfl, kept.warn _ _ _⟩
      · rw [Span.convertLeaf, if_neg bare, takenBy?_eq kept same ordinary, chosen]
        simp only [bare]
        exact ⟨convertWith_entries _ _ _ _, kept_convertWith kept _ _ _⟩

/-- A span that runs no tool leaves nothing but declarations behind. -/
theorem kept_after (kept : ledger.Kept state) (ordinary : visit.span.isStructural = false)
    (noChoice : visit.choice? registry ledger.taken = none) :
    (ledger.after registry visit).Kept
      (if (visit.span.wrapperTool? registry).isSome then
        visit.span.declareBelow (visit.span.inspect state)
      else visit.span.inspect state) := by
  have heard := kept.inspect visit.span
  unfold Ledger.after declarations
  rw [take_of_no_choice noChoice, if_neg (by simp [ordinary])]
  by_cases wraps : (visit.span.wrapperTool? registry).isSome
  · simpa only [if_pos wraps, List.append_assoc] using heard.declareBelow visit.span
  · simpa only [if_neg wraps, List.append_nil] using heard

/-- What a span contributes to a walk is what its visit contributes by the ledger. -/
def KeepsLedger (registry : Registry) (options : Options) (ledger : Ledger)
    (pending : List PendingTool) (state : WalkState) (visit : Visit) : Prop :=
  let found := visit.span.contribute registry pending (visit.context registry options) state
  found.1 = visit.contribution registry options ledger ∧ (ledger.after registry visit).Kept found.2

private theorem keepsLedger_of_structural (options : Options) (kept : ledger.Kept state)
    (structural : visit.span.isStructural = true) :
    visit.KeepsLedger registry options ledger pending state := by
  have unchanged : ledger.after registry visit = ledger := by
    simp [Ledger.after, declarations, structural,
      take_of_no_choice (no_choice_of_structural structural)]
  simp only [KeepsLedger, Span.contribute, contribution, steps, isCheckout, structural, unchanged]
  exact ⟨rfl, kept⟩

private theorem keepsLedger_of_convert (options : Options) (shells : registry.ConvertsShells)
    (kept : ledger.Kept state) (same : SameFree ledger.taken pending (visit.waiting registry))
    (ordinary : visit.span.isStructural = false) {converter : Converter}
    (dispatched : registry.dispatch visit.span.stepType = .convert converter) :
    visit.KeepsLedger registry options ledger pending state := by
  have plain (choice : Choice) (chosen : visit.choice? registry ledger.taken = some choice) :
      converter.requiresSidecar = false := by
    obtain ⟨other, shell, bare⟩ := dispatch_of_choice? shells chosen
    rw [dispatched] at shell
    cases shell
    exact bare
  have found := convertLeaf_eq options converter (kept.inspect visit.span) same ordinary plain
  simp only [KeepsLedger, Span.contribute, contribution, steps, isCheckout, Ledger.after,
    declarations, Span.wrapperTool?, ordinary, dispatched]
  simpa using found

private theorem keepsLedger_of_checkout (options : Options) (shells : registry.ConvertsShells)
    (kept : ledger.Kept state) (same : SameFree ledger.taken pending (visit.waiting registry))
    (ordinary : visit.span.isStructural = false) {converter : Converter}
    (dispatched : registry.dispatch visit.span.stepType = .checkout converter) :
    visit.KeepsLedger registry options ledger pending state := by
  have noChoice : visit.choice? registry ledger.taken = none :=
    no_choice_of_dispatch shells (by simp [dispatched])
  have found := convertLeaf_eq options converter (kept.inspect visit.span) same ordinary
    (by simp [noChoice])
  simp only [KeepsLedger, Span.contribute, contribution, steps, isCheckout, Ledger.after,
    declarations, Span.wrapperTool?, ordinary, dispatched]
  refine ⟨?_, by simpa using found.2⟩
  simpa using congrArg visit.span.withCheckout found.1

theorem keepsLedger (options : Options) (shells : registry.ConvertsShells)
    (kept : ledger.Kept state) (same : SameFree ledger.taken pending (visit.waiting registry)) :
    visit.KeepsLedger registry options ledger pending state := by
  cases structural : visit.span.isStructural with
  | true => exact keepsLedger_of_structural options kept structural
  | false =>
      cases dispatched : registry.dispatch visit.span.stepType
      case convert converter =>
        exact keepsLedger_of_convert options shells kept same structural dispatched
      case checkout converter =>
        exact keepsLedger_of_checkout options shells kept same structural dispatched
      -- No other kind of span runs a tool, so that only declarations are kept of it.
      all_goals
        have after := kept_after kept structural
          (no_choice_of_dispatch shells (by simp [dispatched]))
        simp only [KeepsLedger, Span.contribute, contribution, steps, isCheckout, structural,
          dispatched]
      case unknown =>
        simp only [Span.wrapperTool?, structural, dispatched] at after
        exact ⟨convertWith_entries _ _ _ _, kept_convertWith (after.warn _ _ _) _ _ _⟩
      case background =>
        simp only [Span.wrapperTool?, structural, dispatched] at after
        exact ⟨rfl, after⟩
      all_goals
        cases wraps : visit.span.wrapperTool? registry with
        | none =>
            rw [wraps] at after
            exact ⟨rfl, after⟩
        | some tool =>
            rw [wraps] at after
            exact ⟨rfl, after⟩

end Visit

end TracePipeline
