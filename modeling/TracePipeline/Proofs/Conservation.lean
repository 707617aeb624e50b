import Mathlib.Data.List.Perm.Basic
import TracePipeline.Proofs.Outline
import TracePipeline.Proofs.StepTree

/-! Conservation of work. Without merging, the tasks of a pipeline are exactly the steps that the
stops of the walk contribute, however they are grouped and ordered. -/

set_option autoImplicit false

namespace TracePipeline

theorem Step.tasks_flatMap {α : Type} (values : List α) (steps : α → List Step) :
    Step.tasks (values.flatMap steps) = values.flatMap fun value => Step.tasks (steps value) := by
  induction values with
  | nil => rfl
  | cons value rest ih => simp [ih]

namespace OrderedStep

def tasks (entries : List OrderedStep) : List Step :=
  Step.tasks (entries.map OrderedStep.step)

private theorem tasks_append (first second : List OrderedStep) :
    tasks (first ++ second) = tasks first ++ tasks second := by
  simp [tasks]

private theorem tasks_flatMap {α : Type} (values : List α) (entries : α → List OrderedStep) :
    tasks (values.flatMap entries) = values.flatMap fun value => tasks (entries value) := by
  rw [tasks, List.map_flatMap, Step.tasks_flatMap]
  rfl

end OrderedStep

theorem tasks_sortedSteps (entries : List OrderedStep) :
    (Step.tasks (sortedSteps entries)).Perm (OrderedStep.tasks entries) :=
  Step.tasks_perm (sortedSteps_perm entries)

namespace Span

private theorem tasks_branchStep (span : Span) (steps : List Step) :
    OrderedStep.tasks (span.branchStep steps) = Step.tasks steps := by
  match steps with
  | [] => rfl
  | [_] => rfl
  | first :: second :: rest =>
      exact Step.tasks_block _ _ _

private theorem tasks_stageStep (span : Span) (context : Context) (branches : List OrderedStep) :
    (OrderedStep.tasks (span.stageStep context branches).entries).Perm
      (OrderedStep.tasks branches) := by
  cases branches with
  | nil => exact .refl _
  | cons first rest =>
      have inside : OrderedStep.tasks (span.stageStep context (first :: rest)).entries =
          Step.tasks (sortedSteps (first :: rest)) :=
        Step.tasks_block _ _ _
      rw [inside]
      exact tasks_sortedSteps _

end Span

namespace Outline

variable (registry : Registry) (options : Options)

private theorem tasks_branch (outline : Outline) :
    (OrderedStep.tasks (outline.branch registry options false)).Perm
      (OrderedStep.tasks (outline.entries registry options false)) := by
  rw [branch, Span.tasks_branchStep]
  exact tasks_sortedSteps _

/-- Whatever happens on the way, the tasks of an outline are those of its stops. -/
theorem tasks_entries (outline : Outline) :
    (OrderedStep.tasks (outline.entries registry options false)).Perm
      (Step.tasks (outline.stops.flatMap (Stop.steps registry options))) := by
  induction outline using induct_inside with
  | step stop inside ih =>
      have own : OrderedStep.tasks (stop.entries registry options) =
          Step.tasks (stop.steps registry options) := by
        rw [OrderedStep.tasks, Stop.map_step_entries]
      have below : (Step.tasks ((stopsOf inside).flatMap (Stop.steps registry options))) =
          inside.flatMap fun outline =>
            Step.tasks (outline.stops.flatMap (Stop.steps registry options)) := by
        rw [stopsOf_eq_flatMap, List.flatMap_assoc, Step.tasks_flatMap]
      rw [entries_node, OrderedStep.tasks_append, stops, List.flatMap_cons, Step.tasks_append, own,
        below]
      apply List.Perm.append_left
      -- Sorting and grouping only happen to branches, and neither loses a task.
      split
      · refine (Span.tasks_stageStep _ _ _).trans ?_
        rw [OrderedStep.tasks_flatMap]
        exact .flatMap_left _ fun outline member =>
          (tasks_branch registry options outline).trans (ih outline member)
      · rw [OrderedStep.tasks_flatMap]
        exact .flatMap_left _ ih

end Outline

/-! ## Steps of stops -/

private theorem Span.isTask_of_mem_splitSteps {span : Span} {context : Context} {shell : Shell}
    {pending : PendingTool} {invocation : ToolInvocation} {declared : Option Declaration} :
    ∀ step ∈ span.splitSteps context shell pending invocation declared, step.isTask := by
  intro step member
  simp only [splitSteps, List.mem_append, List.mem_singleton] at member
  rcases member with (before | rfl) | after
  · unfold stepBefore at before
    split at before
    · cases before
    · rw [List.mem_singleton.mp before]
      rfl
  · rfl
  · unfold stepAfter at after
    split at after
    · cases after
    · rw [List.mem_singleton.mp after]
      rfl

namespace Stop

variable {registry : Registry}

/-- Blocks are only made of the steps of stops; the steps themselves are tasks. -/
theorem isTask_of_mem_steps (standard : registry.Standard) (options : Options) (stop : Stop) :
    ∀ step ∈ stop.steps registry options, step.isTask := by
  cases chosen : stop.visit.choice? registry stop.ledger.taken with
  | some choice =>
      rw [steps, Visit.steps_of_choice standard.shells options chosen]
      exact Span.isTask_of_mem_splitSteps
  | none =>
      rcases (Visit.plain_of_no_choice standard chosen).nil_or_singleton options with
        nothing | ⟨task, single, isTask, -⟩
      · simp [steps, nothing]
      · simpa [steps, single] using isTask

end Stop

/-! ## Conversions -/

namespace Conversion

/-- The tasks of an unmerged pipeline are the steps that the stops contribute. -/
theorem tasks_unmerged_perm {registry : Registry} (standard : registry.Standard)
    (options : Options) (root : Span) :
    (Step.tasks (ofSpan registry { options with mergeSteps := false } root).pipeline.steps).Perm
      ((root.stops registry).flatMap (Stop.steps registry options)) := by
  have flat : ∀ step ∈ (root.stops registry).flatMap (Stop.steps registry options),
      step.isTask := by
    intro step member
    obtain ⟨stop, -, member⟩ := List.mem_flatMap.mp member
    exact stop.isTask_of_mem_steps standard options step member
  rw [steps_eq standard.shells, finalize_false, ← Step.tasks_eq_self flat,
    ← Span.stops_rootOutline]
  exact (tasks_sortedSteps _).trans (Outline.tasks_entries _ _ _)

/-- Every reached span is visited once, in the context that the wrappers around it make, and the
tasks of an unmerged pipeline are the steps that the visits contribute. -/
theorem ofSpan_conserves_steps (options : Options) (root : Span) :
    (∀ visit, visit ∈ root.visits .builtin [] [] ↔ Reached .builtin (.root root) visit) ∧
      ((root.visits .builtin [] []).map Visit.path).Nodup ∧
      (root.stops .builtin).map Stop.visit = root.visits .builtin [] [] ∧
      (Step.tasks (ofSpan .builtin { options with mergeSteps := false } root).pipeline.steps).Perm
        ((root.stops .builtin).flatMap (Stop.steps .builtin options)) := by
  refine ⟨?_, ?_, ?_, ?_⟩
  · intro visit
    exact Span.mem_visits_iff
  · exact Span.nodup_paths_visits _ _ _ _
  · exact map_visit_tour _ _ _
  · exact tasks_unmerged_perm Registry.builtin_standard options root

end Conversion

end TracePipeline
