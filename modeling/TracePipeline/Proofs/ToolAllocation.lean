import TracePipeline.Proofs.MergePass

/-! Which shells run a tool. The tools go to the shells of a trace in walk order: a shell takes the
first free tool that a wrapper around it waits for and that its script runs. A pipeline holds one
step for each tool that was taken, and none for the others. -/

set_option autoImplicit false

namespace TracePipeline

/-! ## Steps that run a tool -/

theorem Tool.pluginImage_injective : Function.Injective Tool.pluginImage := by
  intro first second same
  cases first <;> cases second <;> first | rfl | simp [pluginImage] at same

namespace Step

def runs (tool : Tool) : Step → Bool
  | .task _ (.plugin used) => used.image = tool.pluginImage
  | _ => false

private theorem runs_iff_tool?_eq_some {tool : Tool} {step : Step} :
    step.runs tool ↔ step.tool? = some tool := by
  match step with
  | .task info (.script script) => simp [runs, Step.tool?, Task.tool?]
  | .task info (.background script) => simp [runs, Step.tool?, Task.tool?]
  | .block info kind steps => simp [runs, Step.tool?]
  | .task info (.plugin used) =>
      simp only [runs, Step.tool?, Task.tool?, decide_eq_true_eq]
      constructor
      · intro same
        cases found : Tool.all.find? fun tool => tool.pluginImage = used.image with
        | none =>
            have nowhere := List.find?_eq_none.mp found tool tool.mem_all
            simp [same] at nowhere
        | some other =>
            have carried := List.find?_some found
            rw [decide_eq_true_eq, same] at carried
            rw [Tool.pluginImage_injective carried]
      · intro found
        have carried := List.find?_some found
        exact (of_decide_eq_true carried).symm

private theorem isTask_of_runs {tool : Tool} {step : Step} (runs : step.runs tool) :
    step.isTask := by
  cases step with
  | task info payload => rfl
  | block info kind steps => cases runs

private theorem isPlugin_of_runs {tool : Tool} {step : Step} (runs : step.runs tool) :
    step.isPlugin := by
  cases step with
  | task info payload =>
      cases payload with
      | script script => cases runs
      | plugin used => rfl
      | background script => cases runs
  | block info kind steps => cases runs

/-- A first choice among steps that keeps all steps of a tool makes no difference for the tool. -/
theorem filter_runs_filter {tool : Tool} {kept : Step → Bool}
    (keeps : ∀ {step : Step}, step.runs tool → kept step) (steps : List Step) :
    (steps.filter kept).filter (runs tool) = steps.filter (runs tool) := by
  rw [List.filter_filter]
  apply List.filter_congr
  intro step _
  cases own : step.runs tool with
  | true => rw [keeps own, Bool.and_true]
  | false => exact Bool.false_and _

private theorem filter_runs_tasks (tool : Tool) (steps : List Step) :
    (tasks steps).filter (runs tool) = (subtrees steps).filter (runs tool) :=
  filter_runs_filter isTask_of_runs (subtrees steps)

private theorem filter_runs_plugins (tool : Tool) (steps : List Step) :
    (plugins steps).filter (runs tool) = (subtrees steps).filter (runs tool) :=
  filter_runs_filter isPlugin_of_runs (subtrees steps)

end Step

@[simp] theorem PendingTool.plugin_image (pending : PendingTool) (arguments : String)
    (context : Context) (declared : Option Declaration) :
    (pending.plugin arguments context declared).image = pending.tool.pluginImage := by
  simp [plugin]

/-! ## The fold over the shells -/

namespace Visit

variable (registry : Registry)

/-- Gives a visit its tool, if there is one for it. -/
def allocate (granted : List (Visit × Choice)) (visit : Visit) : List (Visit × Choice) :=
  match visit.choice? registry (granted.map fun grant => grant.2.pending.tool) with
  | some choice => granted ++ [(visit, choice)]
  | none => granted

/-- A visit outside all tool wrappers. -/
def withoutWrappers (visit : Visit) : Visit :=
  { visit with around := visit.around.filter fun span => (span.wrapperTool? registry).isNone }

end Visit

/-- The shells of a trace that run a tool, in walk order, each with its tool. -/
def Span.allocation (registry : Registry) (root : Span) : List (Visit × Choice) :=
  ((root.visits registry [] []).filter Visit.isShell).foldl (Visit.allocate registry) []

namespace Visit

variable {registry : Registry} {granted : List (Visit × Choice)}

private theorem allocate_of_not_isShell {visit : Visit} (other : visit.isShell = false) :
    visit.allocate registry granted = granted := by
  unfold allocate
  cases chosen : visit.choice? registry (granted.map fun grant => grant.2.pending.tool) with
  | none => rfl
  | some choice =>
      rw [isShell_of_choice? chosen] at other
      cases other

theorem tools_allocate (visit : Visit) :
    (visit.allocate registry granted).map (fun grant => grant.2.pending.tool) =
      visit.take registry (granted.map fun grant => grant.2.pending.tool) := by
  unfold allocate take
  cases visit.choice? registry (granted.map fun grant => grant.2.pending.tool) with
  | none => rfl
  | some choice => exact List.map_append

theorem tools_foldl_allocate (visits : List Visit) :
    (visits.foldl (allocate registry) granted).map (fun grant => grant.2.pending.tool) =
      visits.foldl (take registry) (granted.map fun grant => grant.2.pending.tool) := by
  induction visits generalizing granted with
  | nil => rfl
  | cons visit rest ih => rw [List.foldl_cons, List.foldl_cons, ih, tools_allocate]

private theorem nodup_take {taken : List Tool} (distinct : taken.Nodup) (visit : Visit) :
    (visit.take registry taken).Nodup := by
  cases chosen : visit.choice? registry taken with
  | none => rwa [take_of_no_choice chosen]
  | some choice =>
      rw [take_of_choice? chosen]
      have free := (choice?_spec chosen).2.1
      refine List.nodup_append.mpr ⟨distinct, by simp, ?_⟩
      intro tool member other last same
      rw [List.mem_singleton.mp last] at same
      exact free (same ▸ member)

private theorem nodup_foldl_take {taken : List Tool} (distinct : taken.Nodup)
    (visits : List Visit) :
    (visits.foldl (take registry) taken).Nodup := by
  induction visits generalizing taken with
  | nil => exact distinct
  | cons visit rest ih => exact ih (nodup_take distinct visit)

/-- Only shells count for the fold. -/
theorem foldl_allocate_filter (visits : List Visit) :
    (visits.filter isShell).foldl (allocate registry) granted =
      visits.foldl (allocate registry) granted := by
  induction visits generalizing granted with
  | nil => rfl
  | cons visit rest ih =>
      cases shell : visit.isShell with
      | true => rw [List.filter_cons_of_pos shell, List.foldl_cons, ih, List.foldl_cons]
      | false =>
          rw [List.filter_cons_of_neg (by simp [shell]), List.foldl_cons,
            allocate_of_not_isShell shell, ih]

/-- The fold finds what the stops of a tour find. -/
theorem foldl_allocate_eq_tour (visits : List Visit) (ledger : Ledger)
    (same : (granted.map fun grant => grant.2.pending.tool) = ledger.taken) :
    visits.foldl (allocate registry) granted =
      granted ++ (tour registry ledger visits).filterMap fun stop =>
        (stop.choice? registry).map fun choice => (stop.visit, choice) := by
  induction visits generalizing granted ledger with
  | nil => simp [tour]
  | cons visit rest ih =>
      have next : ((visit.allocate registry granted).map fun grant => grant.2.pending.tool) =
          (ledger.after registry visit).taken := by
        rw [tools_allocate, same]
        rfl
      rw [List.foldl_cons, ih _ next, tour, List.filterMap_cons, allocate, same, Stop.choice?]
      cases visit.choice? registry ledger.taken with
      | none => rfl
      | some choice => simp

end Visit

namespace Span

variable {registry : Registry}

theorem allocation_eq_stops (root : Span) :
    root.allocation registry =
      (root.stops registry).filterMap fun stop =>
        (stop.choice? registry).map fun choice => (stop.visit, choice) := by
  rw [allocation, Visit.foldl_allocate_filter, Visit.foldl_allocate_eq_tour _ {} rfl]
  rfl

theorem nodup_allocation_tools (registry : Registry) (root : Span) :
    ((root.allocation registry).map fun grant => grant.2.pending.tool).Nodup := by
  rw [allocation, Visit.tools_foldl_allocate]
  exact Visit.nodup_foldl_take List.nodup_nil _

private theorem taken_foldl_after (visits : List Visit) (ledger : Ledger) :
    (visits.foldl (Ledger.after registry) ledger).taken =
      visits.foldl (Visit.take registry) ledger.taken := by
  induction visits generalizing ledger with
  | nil => rfl
  | cons visit rest ih => exact ih (ledger.after registry visit)

/-- The fold gives away the tools that the ledger has at the end. -/
theorem tools_allocation (root : Span) :
    (root.allocation registry).map (fun grant => grant.2.pending.tool) =
      ((root.visits registry [] []).foldl (Ledger.after registry) {}).taken := by
  rw [allocation, Visit.foldl_allocate_filter, Visit.tools_foldl_allocate, taken_foldl_after]
  rfl

/-- A walk takes the tools that the fold gives away. -/
theorem taken_walk (shells : registry.ConvertsShells) (merge : Bool) (options : Options)
    (root : Span) :
    (root.walk ⟨registry, merge⟩ [] (.root options) {}).2.taken =
      (root.allocation registry).map fun grant => grant.2.pending.tool := by
  rw [(Conversion.kept_walk_root shells options merge root).taken,
    (root.outline_eq_tour registry {} [] []).2, tools_allocation]

end Span

/-! ## Tool steps of stops -/

namespace Visit

variable {registry : Registry} {visit : Visit} {ledger : Ledger} {choice : Choice}

private theorem filter_runs_toolSteps (options : Options) (tool : Tool) :
    (visit.toolSteps registry options ledger choice).filter (Step.runs tool) =
      if choice.pending.tool = tool then [visit.toolStep registry options ledger choice]
      else [] := by
  have before : (visit.span.stepBefore (visit.context registry options) choice.shell
      choice.invocation).filter (Step.runs tool) = [] := by
    unfold Span.stepBefore
    split <;> rfl
  have after : (visit.span.stepAfter (visit.context registry options) choice.shell
      choice.pending.tool choice.invocation).filter (Step.runs tool) = [] := by
    unfold Span.stepAfter
    split <;> rfl
  have own : (visit.toolStep registry options ledger choice).runs tool =
      decide (choice.pending.tool = tool) := by
    simp [toolStep, PendingTool.step, Step.runs, Tool.pluginImage_injective.eq_iff]
  rw [toolSteps, Span.splitSteps, List.filter_append, List.filter_append, before, after,
    List.nil_append, List.append_nil, List.filter_singleton]
  change (bif (visit.toolStep registry options ledger choice).runs tool then
    [visit.toolStep registry options ledger choice] else []) = _
  rw [own]
  by_cases same : choice.pending.tool = tool <;> simp [same]

private theorem filter_runs_steps_of_no_choice (standard : registry.Standard) (options : Options)
    (tool : Tool) (noChoice : visit.choice? registry ledger.taken = none) :
    (visit.steps registry options ledger).filter (Step.runs tool) = [] := by
  rcases (plain_of_no_choice standard noChoice).nil_or_singleton options with
    nothing | ⟨task, single, -, -, -, foreign⟩
  · rw [nothing]
    rfl
  · have other : task.runs tool = false := by
      rw [← Bool.not_eq_true, Step.runs_iff_tool?_eq_some, foreign]
      simp
    rw [single, List.filter_singleton, other]
    rfl

private theorem waiting_withoutWrappers (visit : Visit) :
    (visit.withoutWrappers registry).waiting registry = [] := by
  simp only [waiting, withoutWrappers, Span.waitingWithin, List.filterMap_eq_nil_iff,
    List.mem_filter, Option.map_eq_none_iff, Option.isNone_iff_eq_none]
  exact fun _ member => member.2

private theorem choice?_withoutWrappers (visit : Visit) (taken : List Tool) :
    (visit.withoutWrappers registry).choice? registry taken = none := by
  cases chosen : (visit.withoutWrappers registry).choice? registry taken with
  | none => rfl
  | some choice =>
      have member := (choice?_spec chosen).1
      rw [waiting_withoutWrappers] at member
      cases member

private theorem context_withoutWrappers (options : Options) (visit : Visit) :
    (visit.withoutWrappers registry).context registry options = visit.context registry options := by
  unfold context withoutWrappers Span.contextWithin
  simp only
  induction visit.around with
  | nil => rfl
  | cons span rest ih =>
      cases wraps : span.wrapperTool? registry with
      | none => rw [List.filter_cons_of_pos (by simp [wraps]), List.foldr_cons, ih, List.foldr_cons]
      | some tool =>
          rw [List.filter_cons_of_neg (by simp [wraps]), List.foldr_cons, ih,
            Span.contextInside_of_wrapperTool? wraps]

/-- Tool wrappers do not change the context, and without them there is nothing to choose. -/
theorem steps_withoutWrappers (options : Options)
    (noChoice : visit.choice? registry ledger.taken = none) :
    (visit.withoutWrappers registry).steps registry options ledger =
      visit.steps registry options ledger := by
  have same : (visit.withoutWrappers registry).span = visit.span := rfl
  simp only [steps, convertedSteps, choice?_withoutWrappers, noChoice, context_withoutWrappers,
    same]

end Visit

namespace Conversion

/-- The plugin steps of a pipeline do not depend on whether it is merged. -/
theorem plugins_steps {registry : Registry} (standard : registry.Standard) (options : Options)
    (root : Span) :
    Step.plugins (ofSpan registry options root).pipeline.steps =
      Step.plugins (ofSpan registry { options with mergeSteps := false } root).pipeline.steps := by
  rcases steps_eq_or_normalise standard options root with same | merged
  · rw [same]
  · rw [merged, Step.plugins_normalise]

theorem filter_runs_perm {registry : Registry} (standard : registry.Standard) (options : Options)
    (root : Span) (tool : Tool) :
    ((Step.subtrees (ofSpan registry options root).pipeline.steps).filter (Step.runs tool)).Perm
      ((root.stops registry).flatMap fun stop =>
        (stop.steps registry options).filter (Step.runs tool)) := by
  rw [← Step.filter_runs_plugins, plugins_steps standard, Step.filter_runs_plugins,
    ← Step.filter_runs_tasks, ← List.filter_flatMap]
  exact (tasks_unmerged_perm standard options root).filter _

end Conversion

namespace Stop

variable {registry : Registry}

theorem filter_runs_steps (standard : registry.Standard) (options : Options) (stop : Stop)
    (tool : Tool) :
    (stop.steps registry options).filter (Step.runs tool) =
      match stop.choice? registry with
      | some choice =>
        if choice.pending.tool = tool then
          [stop.visit.toolStep registry options stop.ledger choice]
        else []
      | none => [] := by
  cases chosen : stop.choice? registry with
  | some choice =>
      rw [steps, Visit.steps_of_choice standard.shells options chosen]
      exact Visit.filter_runs_toolSteps options tool
  | none => exact Visit.filter_runs_steps_of_no_choice standard options tool chosen

/-- Stops that run a tool have one step each for it. -/
theorem length_filter_runs (standard : registry.Standard) (options : Options) (tool : Tool)
    (stops : List Stop) :
    (stops.flatMap fun stop => (stop.steps registry options).filter (Step.runs tool)).length =
      ((stops.filterMap fun stop =>
        (stop.choice? registry).map fun choice => (stop.visit, choice)).map
          fun grant => grant.2.pending.tool).count tool := by
  induction stops with
  | nil => rfl
  | cons stop rest ih =>
      rw [List.flatMap_cons, List.length_append, ih, filter_runs_steps standard]
      cases chosen : stop.choice? registry with
      | none => simp [chosen]
      | some choice =>
          by_cases same : choice.pending.tool = tool
          · simp [chosen, same, Nat.add_comm]
          · simp [chosen, same]

end Stop

namespace Conversion

/-- At all depths of a pipeline there is one step of each tool given away and none of another. -/
theorem length_filter_runs (options : Options) (root : Span) (tool : Tool) :
    ((Step.subtrees (ofSpan .builtin options root).pipeline.steps).filter
      (Step.runs tool)).length =
        if tool ∈ (root.allocation .builtin).map fun grant => grant.2.pending.tool then 1
        else 0 := by
  have found := filter_runs_perm Registry.builtin_standard options root tool
  -- Each grant has one step, and no tool is granted twice.
  rw [found.length_eq, Stop.length_filter_runs Registry.builtin_standard,
    ← Span.allocation_eq_stops]
  exact (root.nodup_allocation_tools .builtin).count

/-- The tools of a trace are given away as a list of grants tells. -/
structure AllocatesTools (options : Options) (root : Span) (granted : List (Visit × Choice)) :
    Prop where
  /-- The walk takes the tools that are granted, in that order. -/
  taken : (root.walk ⟨.builtin, options.mergeSteps⟩ [] (.root options) {}).2.taken =
    granted.map fun grant => grant.2.pending.tool
  /-- The choices at the stops are the grants. -/
  choices : ((root.stops .builtin).filterMap fun stop =>
    (stop.choice? .builtin).map fun choice => (stop.visit, choice)) = granted
  /-- The tasks of the unmerged pipeline are the steps of the stops. -/
  conserved :
    (Step.tasks (ofSpan .builtin { options with mergeSteps := false } root).pipeline.steps).Perm
      ((root.stops .builtin).flatMap (Stop.steps .builtin options))
  /-- A shell that runs a tool makes way for the tool's step and what is left of its script. -/
  replaced : ∀ stop ∈ root.stops .builtin, ∀ choice, stop.choice? .builtin = some choice →
    stop.visit.isShell ∧
      stop.steps .builtin options = stop.visit.toolSteps .builtin options stop.ledger choice
  /-- Any other span is converted as if there were no tool wrappers. -/
  unchanged : ∀ stop ∈ root.stops .builtin, stop.choice? .builtin = none →
    stop.steps .builtin options =
      (stop.visit.withoutWrappers .builtin).steps .builtin options stop.ledger
  /-- At all depths of the pipeline there is one step of each granted tool and none of another. -/
  once : ∀ tool,
    ((Step.subtrees (ofSpan .builtin options root).pipeline.steps).filter
      (Step.runs tool)).length =
        if tool ∈ granted.map fun grant => grant.2.pending.tool then 1 else 0
  /-- The step of a tool comes from a shell inside a wrapper of that tool. -/
  origin : ∀ step ∈ Step.subtrees (ofSpan .builtin options root).pipeline.steps, ∀ tool,
    step.runs tool → ∃ stop ∈ root.stops .builtin, ∃ choice,
      stop.choice? .builtin = some choice ∧ choice.pending.tool = tool ∧
        step = stop.visit.toolStep .builtin options stop.ledger choice ∧
        ∃ wrapper ∈ stop.visit.around, wrapper.wrapperTool? .builtin = some tool

end Conversion

end TracePipeline
