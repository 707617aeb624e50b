import TracePipeline.Proofs.Conservation

/-! Merging as a pass of its own. A walk that merges the scripts of each branch when it leaves the
branch gives the same as one that merges nothing, followed by a pass over the finished steps. -/

set_option autoImplicit false

namespace TracePipeline

/-! ## The pass -/

namespace Step

/-- The steps of a branch as one step. A single step stands for itself. -/
def regroup (info : StepInfo) : List Step → Step
  | [step] => step
  | steps => .block info .group steps

mutual

/-- Merges inside a step, which only changes parallel steps. -/
def rewrite : Step → Step
  | .block info .parallel branches => .block info .parallel (rewriteBranches branches)
  | step => step

def rewriteAll : List Step → List Step
  | [] => []
  | step :: rest => rewrite step :: rewriteAll rest

/-- Merges within each branch, but not across. -/
def rewriteBranches : List Step → List Step
  | [] => []
  | .block info .group inside :: rest =>
    regroup info (mergeAdjacent (rewriteAll inside)) :: rewriteBranches rest
  | step :: rest => rewrite step :: rewriteBranches rest

end

/-- Merges the steps of one level and, in them, those of all branches. -/
def normalise (steps : List Step) : List Step :=
  mergeAdjacent (rewriteAll steps)

end Step

/-- Merges the steps of each stage and changes nothing else. -/
def Pipeline.normalise (pipeline : Pipeline) : Pipeline :=
  { pipeline with
    stages := pipeline.stages.map fun stage =>
      { stage with steps := Step.normalise stage.steps } }

/-- Merges the steps of a finished conversion. The diagnostics stay as they are. -/
def Conversion.normalise (conversion : Conversion) : Conversion :=
  { conversion with pipeline := conversion.pipeline.normalise }

/-! ## Merging one level -/

namespace Step

@[simp] theorem rewriteAll_eq_map (steps : List Step) : rewriteAll steps = steps.map rewrite := by
  induction steps with
  | nil => rfl
  | cons step rest ih => rw [rewriteAll, ih, List.map_cons]

def rewriteBranch : Step → Step
  | .block info .group inside => regroup info (normalise inside)
  | step => rewrite step

@[simp] theorem rewriteBranches_eq_map (steps : List Step) :
    rewriteBranches steps = steps.map rewriteBranch := by
  induction steps with
  | nil => rfl
  | cons step rest ih =>
      match step with
      | .task info payload => rw [rewriteBranches, ih] <;> simp [rewriteBranch]
      | .block info .parallel branches => rw [rewriteBranches, ih] <;> simp [rewriteBranch]
      | .block info .group inside => rw [rewriteBranches, ih]; rfl

theorem rewrite_of_isTask {step : Step} (isTask : step.isTask) : step.rewrite = step := by
  cases step with
  | task info payload => rfl
  | block info kind steps => cases isTask

private theorem rewriteBranch_of_not_isGroup {step : Step} (single : step.isGroup = false) :
    step.rewriteBranch = step.rewrite := by
  match step with
  | .task info payload => rfl
  | .block info .parallel branches => rfl
  | .block info .group inside => cases single

private theorem mergeFrom_ne_nil (head : Step) (rest : List Step) : mergeFrom head rest ≠ [] := by
  induction rest generalizing head with
  | nil => simp [mergeFrom]
  | cons next rest ih =>
      rw [mergeFrom]
      split
      · exact ih _
      · simp

theorem mergeAdjacent_eq_nil_iff {steps : List Step} : mergeAdjacent steps = [] ↔ steps = [] := by
  cases steps with
  | nil => exact ⟨fun _ => rfl, fun _ => rfl⟩
  | cons head rest => simp [mergeAdjacent, mergeFrom_ne_nil]

theorem normalise_eq_nil_iff {steps : List Step} : normalise steps = [] ↔ steps = [] := by
  simp [normalise, mergeAdjacent_eq_nil_iff]

private theorem normalise_singleton (step : Step) : normalise [step] = [step.rewrite] := by
  simp [normalise, mergeAdjacent, mergeFrom]

/-! ## What the pass leaves alone -/

theorem merge?_eq_some {head next merged : Step} (merges : merge? head next = some merged) :
    ∃ (info nextInfo : StepInfo) (script nextScript : Script) (name run : String),
      head = .task info (.script script) ∧ next = .task nextInfo (.script nextScript) ∧
        merged = .task { info with name := name } (.script { script with run := run }) := by
  unfold merge? at merges
  split at merges
  · split at merges
    · cases merges
      exact ⟨_, _, _, _, _, _, rfl, rfl, rfl⟩
    · cases merges
  · cases merges

private theorem plugins_mergeFrom (head : Step) (rest : List Step) :
    plugins (mergeFrom head rest) = plugins (head :: rest) := by
  induction rest generalizing head with
  | nil => rfl
  | cons next rest ih =>
      rw [mergeFrom]
      cases merges : merge? head next with
      | none =>
          change plugins (head :: mergeFrom next rest) = _
          rw [plugins_cons, ih, ← plugins_cons]
      | some merged =>
          obtain ⟨_, _, _, _, _, _, rfl, rfl, rfl⟩ := merge?_eq_some merges
          exact ih _

theorem plugins_mergeAdjacent (steps : List Step) :
    plugins (mergeAdjacent steps) = plugins steps := by
  cases steps with
  | nil => rfl
  | cons head rest => exact plugins_mergeFrom head rest

private theorem plugins_regroup (info : StepInfo) (steps : List Step) :
    plugins [regroup info steps] = plugins steps := by
  match steps with
  | [] => rfl
  | [_] => rfl
  | first :: second :: rest => exact plugins_block _ _ _

theorem plugins_map_congr {change : Step → Step} {steps : List Step}
    (each : ∀ step ∈ steps, plugins [change step] = plugins [step]) :
    plugins (steps.map change) = plugins steps := by
  induction steps with
  | nil => rfl
  | cons step rest ih =>
      rw [List.map_cons, plugins_cons, each step (.head _),
        ih fun step member => each step (.tail _ member), ← plugins_cons]

private theorem plugins_rewrite (step : Step) :
    plugins [step.rewrite] = plugins [step] ∧ plugins [step.rewriteBranch] = plugins [step] := by
  induction step using induct_inside with
  | task info payload => exact ⟨rfl, rfl⟩
  | block info kind inside ih =>
      cases kind with
      | parallel =>
          have branches : plugins (inside.map rewriteBranch) = plugins inside :=
            plugins_map_congr fun step member => (ih step member).2
          simp [rewriteBranch, rewrite, branches]
      | group =>
          refine ⟨rfl, ?_⟩
          rw [rewriteBranch, plugins_regroup, normalise, plugins_mergeAdjacent, rewriteAll_eq_map,
            plugins_block]
          exact plugins_map_congr fun step member => (ih step member).1

/-- Merging keeps all plugin steps as they are and in their order. -/
theorem plugins_normalise (steps : List Step) : plugins (normalise steps) = plugins steps := by
  rw [normalise, plugins_mergeAdjacent, rewriteAll_eq_map]
  exact plugins_map_congr fun step _ => (plugins_rewrite step).1

private theorem ids_mergeFrom_sublist (head : Step) (rest : List Step) :
    (ids (mergeFrom head rest)).Sublist (ids (head :: rest)) := by
  induction rest generalizing head with
  | nil => exact .refl _
  | cons next rest ih =>
      rw [mergeFrom]
      cases merges : merge? head next with
      | none =>
          change (ids (head :: mergeFrom next rest)).Sublist _
          rw [ids_cons, ids_cons head (next :: rest)]
          exact (ih next).append_left _
      | some merged =>
          obtain ⟨_, _, _, _, _, _, rfl, rfl, rfl⟩ := merge?_eq_some merges
          refine (ih _).trans ?_
          exact .cons_cons _ (.cons _ (.refl _))

theorem ids_mergeAdjacent_sublist (steps : List Step) :
    (ids (mergeAdjacent steps)).Sublist (ids steps) := by
  cases steps with
  | nil => exact .refl _
  | cons head rest => exact ids_mergeFrom_sublist head rest

private theorem ids_regroup_sublist (info : StepInfo) (steps : List Step) :
    (ids [regroup info steps]).Sublist (info.id :: ids steps) := by
  match steps with
  | [] => exact .refl _
  | [_] => exact .cons _ (.refl _)
  | first :: second :: rest =>
      have shape : regroup info (first :: second :: rest) =
          .block info .group (first :: second :: rest) := rfl
      rw [shape, ids_block]

theorem ids_map_sublist {change : Step → Step} {steps : List Step}
    (each : ∀ step ∈ steps, (ids [change step]).Sublist (ids [step])) :
    (ids (steps.map change)).Sublist (ids steps) := by
  induction steps with
  | nil => exact .refl _
  | cons step rest ih =>
      rw [List.map_cons, ids_cons, ids_cons step rest]
      exact (each step (.head _)).append (ih fun step member => each step (.tail _ member))

private theorem ids_rewrite_sublist (step : Step) :
    (ids [step.rewrite]).Sublist (ids [step]) ∧
      (ids [step.rewriteBranch]).Sublist (ids [step]) := by
  induction step using induct_inside with
  | task info payload => exact ⟨.refl _, .refl _⟩
  | block info kind inside ih =>
      cases kind with
      | parallel =>
          have branches : (ids (inside.map rewriteBranch)).Sublist (ids inside) :=
            ids_map_sublist fun step member => (ih step member).2
          simp only [rewriteBranch, rewrite, rewriteBranches_eq_map, ids_block]
          exact ⟨branches.cons_cons _, branches.cons_cons _⟩
      | group =>
          refine ⟨.refl _, (ids_regroup_sublist _ _).trans ?_⟩
          rw [ids_block, normalise, rewriteAll_eq_map]
          have kept : (ids (inside.map rewrite)).Sublist (ids inside) :=
            ids_map_sublist fun step member => (ih step member).1
          exact ((ids_mergeAdjacent_sublist _).trans kept).cons_cons _

/-- Merging makes no new ids. -/
theorem ids_normalise_sublist (steps : List Step) :
    (ids (normalise steps)).Sublist (ids steps) := by
  rw [normalise, rewriteAll_eq_map]
  exact (ids_mergeAdjacent_sublist _).trans
    (ids_map_sublist fun step _ => (ids_rewrite_sublist step).1)

end Step

namespace Span

def groupInfo (span : Span) : StepInfo :=
  { Converter.infoFor span {} with timeout := none }

private theorem branchStep_of_ne_nil (span : Span) {steps : List Step} (someStep : steps ≠ []) :
    span.branchStep steps = [⟨span.order, Step.regroup span.groupInfo steps⟩] := by
  match steps with
  | [] => exact absurd rfl someStep
  | [_] => rfl
  | _ :: _ :: _ => rfl

/-- Merging the steps of a branch and making it one step, or the other way round. -/
theorem branchStep_normalise (span : Span) {steps : List Step}
    (noGroup : ∀ step ∈ steps, step.isGroup = false) :
    span.branchStep (Step.normalise steps) =
      (span.branchStep steps).map (OrderedStep.mapStep Step.rewriteBranch) := by
  match steps with
  | [] => rfl
  | [step] =>
      rw [Step.normalise_singleton]
      simp only [branchStep, List.map_cons, List.map_nil, OrderedStep.mapStep,
        Step.rewriteBranch_of_not_isGroup (noGroup step (.head _))]
  | first :: second :: rest =>
      have someStep : Step.normalise (first :: second :: rest) ≠ [] := by
        simp [Step.normalise_eq_nil_iff]
      rw [branchStep_of_ne_nil span someStep]
      rfl

private theorem stageStep_rewrite (span : Span) (context : Context) (branches : List OrderedStep) :
    (span.stageStep context (branches.map (OrderedStep.mapStep Step.rewriteBranch))).entries =
      (span.stageStep context branches).entries.map (OrderedStep.mapStep Step.rewrite) := by
  cases branches with
  | nil => rfl
  | cons first rest =>
      simp only [stageStep, Contribution.ofSteps, List.map_cons, List.isEmpty_cons,
        Bool.false_eq_true, if_false, List.map_nil, OrderedStep.mapStep, Step.rewrite,
        Step.rewriteBranches_eq_map]
      rw [← sortedSteps_map]
      rfl

end Span

namespace Outline

variable {registry : Registry} (options : Options)

private theorem isGroup_eq_false_of_mem_entries (standard : registry.Standard) (outline : Outline) :
    ∀ entry ∈ outline.entries registry options false, entry.step.isGroup = false := by
  induction outline using induct_inside with
  | step stop inside ih =>
      intro entry member
      rw [entries_node, List.mem_append] at member
      rcases member with own | below
      · obtain ⟨step, contributed, rfl⟩ := List.mem_map.mp own
        have isTask := stop.isTask_of_mem_steps standard options step contributed
        cases step with
        | task info payload => rfl
        | block info kind steps => cases isTask
      split at below
      · unfold Span.stageStep at below
        split at below
        · cases below
        · simp only [Contribution.ofSteps, List.map_cons, List.map_nil, List.mem_singleton] at below
          rw [below]
          rfl
      · obtain ⟨outline, member, below⟩ := List.mem_flatMap.mp below
        exact ih outline member entry below

private theorem branch_merged (standard : registry.Standard) {outline : Outline}
    (inside : outline.entries registry options true =
      (outline.entries registry options false).map (OrderedStep.mapStep Step.rewrite)) :
    outline.branch registry options true =
      (outline.branch registry options false).map (OrderedStep.mapStep Step.rewriteBranch) := by
  have noGroup : ∀ step ∈ sortedSteps (outline.entries registry options false),
      step.isGroup = false := by
    intro step member
    obtain ⟨entry, present, rfl⟩ := mem_sortedSteps.mp member
    exact isGroup_eq_false_of_mem_entries options standard outline entry present
  rw [branch, branch, inside, finalize_true, finalize_false, sortedSteps_map,
    ← Span.branchStep_normalise outline.span noGroup, Step.normalise, Step.rewriteAll_eq_map]

/-- One level of a merging walk, before that level is merged itself. -/
theorem entries_merged (standard : registry.Standard) (outline : Outline) :
    outline.entries registry options true =
      (outline.entries registry options false).map (OrderedStep.mapStep Step.rewrite) := by
  induction outline using induct_inside with
  | step stop inside ih =>
      have own : (stop.entries registry options).map (OrderedStep.mapStep Step.rewrite) =
          stop.entries registry options := by
        rw [Stop.entries, List.map_map]
        apply List.map_congr_left
        intro step member
        have isTask := stop.isTask_of_mem_steps standard options step member
        simp [OrderedStep.mapStep, Step.rewrite_of_isTask isTask]
      rw [entries_node, entries_node, List.map_append, own]
      congr 1
      -- Only branches are merged here; other entries leave this level as they are.
      split
      · rw [← Span.stageStep_rewrite, List.map_flatMap]
        congr 2
        apply List.flatMap_congr
        intro outline member
        exact branch_merged options standard (ih outline member)
      · rw [List.map_flatMap]
        exact List.flatMap_congr ih

end Outline

/-! ## All else -/

namespace Contribution

theorem withoutSteps_append (first second : Contribution) :
    (first ++ second).withoutSteps = first.withoutSteps ++ second.withoutSteps := rfl

theorem withoutSteps_stageStep (span : Span) (context : Context) (branches : List OrderedStep) :
    (span.stageStep context branches).withoutSteps = {} := by
  unfold Span.stageStep
  split <;> rfl

end Contribution

namespace Outline

variable {registry : Registry} {options : Options}

private theorem withoutSteps_assembleAll_congr {outlines : List Outline}
    (each : ∀ outline ∈ outlines,
      (outline.assemble registry options true).withoutSteps =
        (outline.assemble registry options false).withoutSteps) :
    (assembleAll registry options true outlines).withoutSteps =
      (assembleAll registry options false outlines).withoutSteps := by
  induction outlines with
  | nil => rfl
  | cons outline rest ih =>
      rw [assembleAll, assembleAll, Contribution.withoutSteps_append,
        Contribution.withoutSteps_append, each outline (.head _),
        ih fun outline member => each outline (.tail _ member)]

private theorem assembleBranches_snd_congr {outlines : List Outline}
    (each : ∀ outline ∈ outlines,
      (outline.assemble registry options true).withoutSteps =
        (outline.assemble registry options false).withoutSteps) :
    (assembleBranches registry options true outlines).2 =
      (assembleBranches registry options false outlines).2 := by
  induction outlines with
  | nil => rfl
  | cons outline rest ih =>
      rw [assembleBranches, assembleBranches, each outline (.head _),
        ih fun outline member => each outline (.tail _ member)]

/-- Merging does not bear on what is told of the checkout. -/
theorem withoutSteps_assemble_congr (outline : Outline) :
    (outline.assemble registry options true).withoutSteps =
      (outline.assemble registry options false).withoutSteps := by
  induction outline using induct_inside with
  | step stop inside ih =>
      rw [assemble, assemble, Contribution.withoutSteps_append, Contribution.withoutSteps_append]
      congr 1
      split
      · rw [Contribution.withoutSteps_append, Contribution.withoutSteps_append,
          Contribution.withoutSteps_stageStep, Contribution.withoutSteps_stageStep,
          assembleBranches_snd_congr ih]
      · exact withoutSteps_assembleAll_congr ih

end Outline

namespace Span

/-- Whether a walk merges does not bear on what it keeps. -/
def KeepsUnmerged (registry : Registry) (span : Span) : Prop :=
  ∀ (pending : List PendingTool) (context : Context) (state : WalkState),
    (span.walk ⟨registry, true⟩ pending context state).2 =
      (span.walk ⟨registry, false⟩ pending context state).2

private theorem walkAll_state_congr {registry : Registry} {spans : List Span}
    (each : ∀ span ∈ spans, span.KeepsUnmerged registry) (pending : List PendingTool)
    (context : Context) (state : WalkState) :
    (walkAll ⟨registry, true⟩ pending context spans state).2 =
      (walkAll ⟨registry, false⟩ pending context spans state).2 := by
  induction spans generalizing state with
  | nil => rfl
  | cons first rest ih =>
      simp only [walkAll]
      rw [each first (.head _), ih fun span member => each span (.tail _ member)]

private theorem walkBranches_state_congr {registry : Registry} {spans : List Span}
    (each : ∀ span ∈ spans, span.KeepsUnmerged registry) (pending : List PendingTool)
    (context : Context) (state : WalkState) :
    (walkBranches ⟨registry, true⟩ pending context spans state).2.2 =
      (walkBranches ⟨registry, false⟩ pending context spans state).2.2 := by
  induction spans generalizing state with
  | nil => rfl
  | cons first rest ih =>
      simp only [walkBranches]
      rw [each first (.head _), ih fun span member => each span (.tail _ member)]

theorem keepsUnmerged (registry : Registry) (span : Span) : span.KeepsUnmerged registry := by
  induction span using induct_children with
  | step span ih =>
      intro pending context state
      rw [walk_eq_contribute, walk_eq_contribute]
      by_cases onward : span.descends registry
      case neg => simp only [if_neg onward]
      by_cases forks : span.forks registry
      · simp only [if_pos onward, if_pos forks]
        exact walkBranches_state_congr ih _ _ _
      · simp only [if_pos onward, if_neg forks]
        exact walkAll_state_congr ih _ _ _

end Span

namespace Conversion

private theorem assemble_merged (options : Options) (root : Span) {merged unmerged : Contribution}
    (told : merged.withoutSteps = unmerged.withoutSteps)
    (entries : merged.entries = unmerged.entries.map (OrderedStep.mapStep Step.rewrite)) :
    assemble { options with mergeSteps := true } root merged =
      (assemble { options with mergeSteps := false } root unmerged).normalise := by
  have clone : merged.withoutSteps.clone = unmerged.withoutSteps.clone := by rw [told]
  have repository : merged.withoutSteps.repository = unmerged.withoutSteps.repository := by
    rw [told]
  change merged.clone = unmerged.clone at clone
  change merged.repository = unmerged.repository at repository
  have steps : finalize true merged.entries =
      Step.normalise (finalize false unmerged.entries) := by
    rw [entries, finalize_true, sortedSteps_map, finalize_false, Step.normalise,
      Step.rewriteAll_eq_map]
  simp only [assemble, Pipeline.normalise, List.map_cons, List.map_nil, clone, repository, steps]
  rfl

theorem pipeline_merged {registry : Registry} (standard : registry.Standard) (options : Options)
    (root : Span) :
    (ofSpan registry { options with mergeSteps := true } root).pipeline =
      (ofSpan registry { options with mergeSteps := false } root).pipeline.normalise := by
  rw [pipeline_eq standard.shells, pipeline_eq standard.shells]
  exact assemble_merged options root (Outline.withoutSteps_assemble_congr _)
    (Outline.entries_merged options standard _)

theorem steps_merged {registry : Registry} (standard : registry.Standard) (options : Options)
    (root : Span) :
    (ofSpan registry { options with mergeSteps := true } root).pipeline.steps =
      Step.normalise
        (ofSpan registry { options with mergeSteps := false } root).pipeline.steps := by
  rw [steps_eq standard.shells, steps_eq standard.shells, Outline.entries_merged options standard,
    finalize_true, finalize_false, sortedSteps_map, Step.normalise, Step.rewriteAll_eq_map]

/-- Whatever the options are, the steps are those of the unmerged pipeline, merged or not. -/
theorem steps_eq_or_normalise {registry : Registry} (standard : registry.Standard)
    (options : Options) (root : Span) :
    (ofSpan registry options root).pipeline.steps =
        (ofSpan registry { options with mergeSteps := false } root).pipeline.steps ∨
      (ofSpan registry options root).pipeline.steps =
        Step.normalise
          (ofSpan registry { options with mergeSteps := false } root).pipeline.steps := by
  cases merge : options.mergeSteps with
  | false =>
      have same : { options with mergeSteps := false } = options := by rw [← merge]
      left
      rw [same]
  | true =>
      have same : { options with mergeSteps := true } = options := by rw [← merge]
      have merged := steps_merged standard options root
      rw [same] at merged
      exact .inr merged

/-- Merging during the walk comes to the same as merging the finished conversion. -/
theorem ofSpan_merged_eq_normalise (options : Options) (root : Span) :
    ofSpan .builtin { options with mergeSteps := true } root =
      (ofSpan .builtin { options with mergeSteps := false } root).normalise := by
  have pipeline := pipeline_merged Registry.builtin_standard options root
  have diagnostics : (ofSpan .builtin { options with mergeSteps := true } root).diagnostics =
      (ofSpan .builtin { options with mergeSteps := false } root).diagnostics :=
    congrArg WalkState.diagnostics (root.keepsUnmerged .builtin [] (.root options) {})
  calc ofSpan .builtin { options with mergeSteps := true } root
      = ⟨(ofSpan .builtin { options with mergeSteps := true } root).pipeline,
          (ofSpan .builtin { options with mergeSteps := true } root).diagnostics⟩ := rfl
    _ = (ofSpan .builtin { options with mergeSteps := false } root).normalise := by
        rw [pipeline, diagnostics]
        rfl

end Conversion

end TracePipeline
