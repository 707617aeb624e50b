import TracePipeline.Proofs.ToolAllocation

/-! Which calls of a tool are missed. A shell runs one tool only, and a tool with a nearer wrapper
comes first; what is left of the script is not looked at again. A tool that all shells calling it
give up in this way has no step, though a wrapper waits for it. -/

set_option autoImplicit false

namespace TracePipeline

/-! ## Calls -/

/-- A shell below a wrapper of a tool whose script runs the tool. -/
structure Visit.Calls (registry : Registry) (tool : Tool) (visit : Visit) : Prop where
  shell : visit.isShell
  wrapped : ∃ wrapper ∈ visit.around, wrapper.wrapperTool? registry = some tool
  invoked : ∃ script invocation, visit.span.shellScript? = some script ∧
    tool.findInvocation? script = some invocation

/-- A stop runs another tool, for which a wrapper waits inside all wrappers of the given one. -/
def Stop.IsOutbid (registry : Registry) (tool : Tool) (stop : Stop) : Prop :=
  ∃ (choice : Choice) (inner outer : List PendingTool),
    stop.choice? registry = some choice ∧ choice.pending.tool ≠ tool ∧
      stop.visit.waiting registry = inner ++ choice.pending :: outer ∧
      ∀ passed ∈ inner, passed.tool ≠ tool

namespace Visit

variable {registry : Registry} {visit : Visit} {taken : List Tool} {tool : Tool} {choice : Choice}

private theorem mem_waiting_of_wrapper {wrapper : Span} (around : wrapper ∈ visit.around)
    (wraps : wrapper.wrapperTool? registry = some tool) :
    .ofWrapper tool wrapper ∈ visit.waiting registry :=
  List.mem_filterMap.mpr ⟨wrapper, around, by rw [wraps, Option.map_some]⟩

/-- The choice of a shell with a script is the first tool that is free and that the script runs. -/
theorem choice?_eq_map {kind : Shell} {script : String} (shell : visit.isShell)
    (isKind : Shell.ofStepType? visit.span.stepType = some kind)
    (text : visit.span.shellScript? = some script) :
    visit.choice? registry taken =
      ((visit.waiting registry).findSome? fun pending =>
        if taken.contains pending.tool then none
        else (pending.tool.findInvocation? script).map fun invocation =>
          (pending, invocation)).map fun first => ⟨kind, first.1, first.2⟩ := by
  simp only [isShell, Bool.and_eq_true, Bool.not_eq_true'] at shell
  unfold choice?
  rw [if_neg (by simp [shell.1]), isKind, text]
  simp only [Option.bind_eq_bind, Option.bind_some, Option.pure_def, Option.map_eq_bind]
  rfl

/-- A free tool that a shell calls is either chosen, or another one is, for which a wrapper waits
further inside. -/
theorem exists_choice_of_calls (calls : visit.Calls registry tool) (free : tool ∉ taken) :
    ∃ (choice : Choice) (inner outer : List PendingTool),
      visit.choice? registry taken = some choice ∧
        visit.waiting registry = inner ++ choice.pending :: outer ∧
        ∀ passed ∈ inner, passed.tool ≠ tool := by
  obtain ⟨script, invocation, text, runs⟩ := calls.invoked
  obtain ⟨wrapper, around, wraps⟩ := calls.wrapped
  have waits := mem_waiting_of_wrapper around wraps
  have shell := calls.shell
  simp only [isShell, Bool.and_eq_true] at shell
  obtain ⟨kind, isKind⟩ := Option.isSome_iff_exists.mp shell.2
  rw [choice?_eq_map calls.shell isKind text]
  cases first : (visit.waiting registry).findSome? fun pending =>
    if taken.contains pending.tool then none
    else (pending.tool.findInvocation? script).map fun invocation => (pending, invocation) with
  | none =>
      have nothing := List.findSome?_eq_none_iff.mp first _ waits
      simp [PendingTool.ofWrapper, free, runs] at nothing
  | some found =>
      obtain ⟨inner, candidate, outer, split, own, passedOver⟩ :=
        List.findSome?_eq_some_iff.mp first
      have same : found.1 = candidate := by
        split at own
        · cases own
        · obtain ⟨_, _, rfl⟩ := Option.map_eq_some_iff.mp own
          rfl
      refine ⟨⟨kind, found.1, found.2⟩, inner, outer, rfl, same ▸ split, ?_⟩
      rintro passed member rfl
      have nothing := passedOver passed member
      simp [free, runs] at nothing

private theorem calls_of_choice? (chosen : visit.choice? registry taken = some choice) :
    visit.Calls registry choice.pending.tool := by
  obtain ⟨-, -, -, script, text, runs⟩ := choice?_spec chosen
  exact ⟨isShell_of_choice? chosen, wrapper_of_choice? chosen, script, choice.invocation, text,
    runs⟩

end Visit

namespace Stop

variable {registry : Registry} {tool : Tool} {stop : Stop} {choice : Choice}

/-- A call that is not outbid finds its tool taken or takes it. -/
theorem taken_or_choice_of_calls (calls : stop.visit.Calls registry tool)
    (stands : ¬stop.IsOutbid registry tool) :
    tool ∈ stop.ledger.taken ∨
      ∃ choice, stop.choice? registry = some choice ∧ choice.pending.tool = tool := by
  by_cases free : tool ∈ stop.ledger.taken
  · exact .inl free
  right
  obtain ⟨choice, inner, outer, chosen, split, passed⟩ := Visit.exists_choice_of_calls calls free
  refine ⟨choice, chosen, ?_⟩
  by_contra other
  exact stands ⟨choice, inner, outer, chosen, other, split, passed⟩

private theorem not_isOutbid_of_choice? (chosen : stop.choice? registry = some choice) :
    ¬stop.IsOutbid registry choice.pending.tool := by
  rintro ⟨other, -, -, found, different, -⟩
  rw [chosen] at found
  cases found
  exact different rfl

private theorem taken_subset_of_mem_tour {ledger : Ledger} {visits : List Visit}
    (member : stop ∈ tour registry ledger visits) :
    stop.ledger.taken ⊆ (visits.foldl (Ledger.after registry) ledger).taken := by
  induction visits generalizing ledger with
  | nil => cases member
  | cons visit rest ih =>
      rcases List.mem_cons.mp member with rfl | later
      · exact taken_subset_foldl registry ledger (visit :: rest)
      · exact ih later

end Stop

namespace Span

variable {registry : Registry} {tool : Tool}

/-- The tools given away are those with a call that is not outbid. -/
theorem mem_tools_allocation_iff (root : Span) :
    tool ∈ (root.allocation registry).map (fun grant => grant.2.pending.tool) ↔
      ∃ stop ∈ root.stops registry,
        stop.visit.Calls registry tool ∧ ¬stop.IsOutbid registry tool := by
  constructor
  · intro given
    rw [allocation_eq_stops] at given
    obtain ⟨grant, granted, rfl⟩ := List.mem_map.mp given
    obtain ⟨stop, member, found⟩ := List.mem_filterMap.mp granted
    obtain ⟨choice, chosen, rfl⟩ := Option.map_eq_some_iff.mp found
    exact ⟨stop, member, Visit.calls_of_choice? chosen, Stop.not_isOutbid_of_choice? chosen⟩
  · rintro ⟨stop, member, calls, stands⟩
    rcases Stop.taken_or_choice_of_calls calls stands with taken | ⟨choice, chosen, rfl⟩
    · rw [tools_allocation]
      exact Stop.taken_subset_of_mem_tour member taken
    · have granted : (stop.visit, choice) ∈ root.allocation registry := by
        rw [allocation_eq_stops]
        exact List.mem_filterMap.mpr ⟨stop, member, by rw [chosen, Option.map_some]⟩
      exact List.mem_map.mpr ⟨_, granted, rfl⟩

end Span

/-! ## Missed calls -/

namespace Conversion

/-- Whatever the options are, a pipeline has at most one step of a tool. It has one just if some
reached shell calls the tool and does not go to a tool with a nearer wrapper. -/
theorem single_step_iff_call_stands (options : Options) (root : Span) (tool : Tool) :
    let found := (Step.subtrees (ofSpan .builtin options root).pipeline.steps).filter
      (Step.runs tool)
    found.length ≤ 1 ∧
      (found.length = 1 ↔ ∃ stop ∈ root.stops .builtin,
        stop.visit.Calls .builtin tool ∧ ¬stop.IsOutbid .builtin tool) := by
  intro found
  have length : found.length =
      if tool ∈ (root.allocation .builtin).map fun grant => grant.2.pending.tool then 1 else 0 :=
    length_filter_runs options root tool
  rw [← Span.mem_tools_allocation_iff, length]
  by_cases given : tool ∈ (root.allocation .builtin).map fun grant => grant.2.pending.tool
  · rw [if_pos given]
    exact ⟨Nat.le_refl 1, iff_of_true rfl given⟩
  · rw [if_neg given]
    exact ⟨Nat.zero_le 1, iff_of_false Nat.zero_ne_one given⟩

/-- A wrapper of Maven around one of Node.js around a shell that runs both. -/
def nestedBuild : Span where
  typeName := "withMaven"
  spanId := "aaaaaa01"
  traceId := "t"
  parentSpanId := ""
  parent := ""
  name := "maven"
  spanName := ""
  attributes := [("step.id", "1")]
  parameters := []
  children := [{
    typeName := "nodejs"
    spanId := "bbbbbb01"
    traceId := "t"
    parentSpanId := "aaaaaa01"
    parent := ""
    name := "node"
    spanName := ""
    attributes := [("step.id", "2")]
    parameters := []
    children := [{
      typeName := "sh"
      spanId := "cccccc01"
      traceId := "t"
      parentSpanId := "bbbbbb01"
      parent := ""
      name := "build"
      spanName := ""
      attributes := [("step.id", "3")]
      parameters := [("script", .string "npm ci\nmvn test")]
      children := [] }] }]

/-- The inner wrapper gets the shell, and the call of the outer tool stays in the script. -/
theorem not_single_step_of_nested_wrappers :
    ¬∀ (options : Options) (root : Span) (tool : Tool),
      (∃ visit ∈ root.visits .builtin [] [], visit.Calls .builtin tool) →
        ((Step.subtrees (ofSpan .builtin options root).pipeline.steps).filter
          (Step.runs tool)).length = 1 := by
  intro single
  have calls : ∃ visit ∈ nestedBuild.visits .builtin [] [], visit.Calls .builtin .maven := by
    refine ⟨⟨[0, 0], nestedBuild.children[0].children[0],
      [nestedBuild.children[0], nestedBuild]⟩, ?_, ?_, ?_, ?_⟩
    · exact Span.mem_visits_iff.mpr (.child (.child .start rfl rfl) rfl rfl)
    · rfl
    · exact ⟨nestedBuild, .tail _ (.head _), rfl⟩
    · exact ⟨_, _, rfl, rfl⟩
  have none : ((Step.subtrees (ofSpan .builtin {} nestedBuild).pipeline.steps).filter
      (Step.runs .maven)).length = 0 := by
    decide +kernel
  rw [single {} nestedBuild .maven calls] at none
  cases none

end Conversion

end TracePipeline
