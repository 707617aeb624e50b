import TracePipeline.Proofs.Neighbours

/-! How long ids and names are. A step that comes from one span keeps to the limits of labels. A
script that others were merged into keeps its id, but its name is the names of all of them. -/

set_option autoImplicit false

namespace TracePipeline

/-! ## Lengths of labels -/

namespace Label

theorem orFallback_ne_nil (text : List Char) : orFallback text ≠ [] := by
  unfold orFallback
  split
  case isTrue => decide
  case isFalse some => simpa using some

theorem length_stepId (label spanId : String) :
    1 ≤ (stepId label spanId).length ∧ (stepId label spanId).length ≤ 64 := by
  have some := List.length_pos_of_ne_nil
    (orFallback_ne_nil (Text.trimBy (· == '_') (collapse isIdSafe false label.toList)))
  simp only [stepId, String.length_ofList, List.length_append, List.length_take, idLimit,
    suffixLength]
  omega

theorem length_displayName (label : String) :
    1 ≤ (displayName label).length ∧ (displayName label).length ≤ 128 := by
  have some := List.length_pos_of_ne_nil (orFallback_ne_nil
    (Text.trimBy (fun c => c == '_' || c == ' ') (collapse isNameSafe false label.toList)))
  simp only [displayName, String.length_ofList, List.length_take, nameLimit]
  omega

end Label

namespace Step

/-- A step whose id and name keep to the limits of labels. -/
structure Fits (step : Step) : Prop where
  id : 1 ≤ step.id.length ∧ step.id.length ≤ 64
  name : 1 ≤ step.name.length ∧ step.name.length ≤ 128

theorem fits_of_labels {step : Step} {label spanId shown : String}
    (id : step.id = Label.stepId label spanId) (name : step.name = Label.displayName shown) :
    step.Fits where
  id := by
    rw [id]
    exact Label.length_stepId label spanId
  name := by
    rw [name]
    exact Label.length_displayName shown

/-- All steps of a tree keep to the limits. -/
def FitsInside (step : Step) : Prop :=
  ∀ inner ∈ subtree step, inner.Fits

private theorem fitsInside_of_isTask {step : Step} (task : step.isTask) (fits : step.Fits) :
    step.FitsInside := by
  cases step with
  | task info work =>
      intro inner member
      rwa [List.mem_singleton.mp member]
  | block info kind steps => cases task

/-- A block takes its id and name from a span, whatever is inside. -/
theorem fitsInside_block (span : Span) (timeout : Option String) (kind : Block)
    {steps : List Step} (each : ∀ step ∈ steps, step.FitsInside) :
    (block { Converter.infoFor span {} with timeout := timeout } kind steps).FitsInside := by
  intro inner member
  rcases List.mem_cons.mp member with rfl | deeper
  · exact fits_of_labels rfl rfl
  · rw [subtrees_eq_flatMap] at deeper
    obtain ⟨step, present, below⟩ := List.mem_flatMap.mp deeper
    exact each step present inner below

end Step

/-! ## Steps of spans -/

private theorem Span.fits_of_mem_splitSteps {span : Span} {context : Context} {shell : Shell}
    {pending : PendingTool} {invocation : ToolInvocation} {declared : Option Declaration} :
    ∀ step ∈ span.splitSteps context shell pending invocation declared, step.Fits := by
  intro step member
  simp only [splitSteps, List.mem_append, List.mem_singleton] at member
  rcases member with (before | rfl) | after
  · unfold stepBefore at before
    split at before
    · cases before
    · rw [List.mem_singleton.mp before]
      exact Step.fits_of_labels rfl rfl
  · exact Step.fits_of_labels rfl rfl
  · unfold stepAfter at after
    split at after
    · cases after
    · rw [List.mem_singleton.mp after]
      by_cases nothing : invocation.before = ""
      · rw [if_pos nothing]
        exact Step.fits_of_labels rfl rfl
      · rw [if_neg nothing]
        exact Step.fits_of_labels rfl rfl

private theorem Stop.fits_of_mem_steps {registry : Registry} (standard : registry.Standard)
    (options : Options) (stop : Stop) : ∀ step ∈ stop.steps registry options, step.Fits := by
  cases chosen : stop.visit.choice? registry stop.ledger.taken with
  | some choice =>
      rw [steps, Visit.steps_of_choice standard.shells options chosen]
      exact Span.fits_of_mem_splitSteps
  | none =>
      rcases (Visit.plain_of_no_choice standard chosen).nil_or_singleton options with
        nothing | ⟨task, single, -, id, name, -⟩
      · simp [steps, nothing]
      · simpa [steps, single] using Step.fits_of_labels id name

/-! ## Documents without merging -/

theorem fitsInside_of_mem_sortedSteps {entries : List OrderedStep}
    (each : ∀ entry ∈ entries, entry.step.FitsInside) :
    ∀ step ∈ sortedSteps entries, step.FitsInside := by
  intro step member
  obtain ⟨entry, present, rfl⟩ := mem_sortedSteps.mp member
  exact each entry present

namespace Span

private theorem fitsInside_of_mem_branchStep (span : Span) {steps : List Step}
    (each : ∀ step ∈ steps, step.FitsInside) :
    ∀ entry ∈ span.branchStep steps, entry.step.FitsInside := by
  intro entry member
  match steps with
  | [] => cases member
  | [step] =>
      rw [List.mem_singleton.mp member]
      exact each step (.head _)
  | first :: second :: rest =>
      rw [List.mem_singleton.mp member]
      exact Step.fitsInside_block span none .group each

private theorem fitsInside_of_mem_stageStep (span : Span) (context : Context)
    {branches : List OrderedStep} (each : ∀ entry ∈ branches, entry.step.FitsInside) :
    ∀ entry ∈ (span.stageStep context branches).entries, entry.step.FitsInside := by
  intro entry member
  cases branches with
  | nil => cases member
  | cons first rest =>
      rw [List.mem_singleton.mp member]
      exact Step.fitsInside_block span context.timeout .parallel
        (fitsInside_of_mem_sortedSteps each)

end Span

/-- Every step of an unmerged walk keeps to the limits. -/
theorem Outline.fitsInside_of_mem_entries {registry : Registry} (standard : registry.Standard)
    (options : Options) (outline : Outline) :
    ∀ entry ∈ outline.entries registry options false, entry.step.FitsInside := by
  induction outline using induct_inside with
  | step stop inside ih =>
      intro entry member
      rw [entries_node, List.mem_append] at member
      rcases member with own | below
      · obtain ⟨step, contributed, rfl⟩ := List.mem_map.mp own
        exact Step.fitsInside_of_isTask
          (stop.isTask_of_mem_steps standard options step contributed)
          (stop.fits_of_mem_steps standard options step contributed)
      split at below
      · refine Span.fitsInside_of_mem_stageStep _ _ ?_ entry below
        intro branch present
        obtain ⟨outline, inner, present⟩ := List.mem_flatMap.mp present
        exact Span.fitsInside_of_mem_branchStep _ (fitsInside_of_mem_sortedSteps (ih outline inner))
          branch present
      · obtain ⟨outline, inner, present⟩ := List.mem_flatMap.mp below
        exact ih outline inner entry present

theorem Conversion.fits_unmerged {registry : Registry} (standard : registry.Standard)
    (options : Options) (root : Span) :
    ∀ step ∈ Step.subtrees
        (ofSpan registry { options with mergeSteps := false } root).pipeline.steps,
      step.Fits := by
  intro step member
  rw [steps_eq standard.shells, finalize_false, Step.subtrees_eq_flatMap] at member
  obtain ⟨outer, present, below⟩ := List.mem_flatMap.mp member
  exact fitsInside_of_mem_sortedSteps (Outline.fitsInside_of_mem_entries standard options _)
    outer present step below

/-! ## Merged scripts -/

namespace Step

/-- A step that is what a run of steps becomes when each is merged into those before it. -/
inductive MergedFrom : List Step → Step → Prop where
  | single (step : Step) : MergedFrom [step] step
  | more {run : List Step} {head next merged : Step} (before : MergedFrom run head)
      (merges : merge? head next = some merged) : MergedFrom (run ++ [next]) merged

theorem MergedFrom.ne_nil {run : List Step} {step : Step} (merged : MergedFrom run step) :
    run ≠ [] := by
  cases merged with
  | single => simp
  | more => simp

/-- Every step of a merged level comes from a run of neighbours. -/
theorem exists_run_of_mem_mergeFrom {run rest : List Step} {head step : Step}
    (before : MergedFrom run head) (member : step ∈ mergeFrom head rest) :
    ∃ parts, parts <:+: run ++ rest ∧ MergedFrom parts step := by
  induction rest generalizing run head with
  | nil =>
      rw [List.mem_singleton.mp member]
      exact ⟨run, by simp, before⟩
  | cons next rest ih =>
      rw [mergeFrom] at member
      cases merges : merge? head next with
      | some merged =>
          rw [merges] at member
          obtain ⟨parts, inside, made⟩ := ih (before.more merges) member
          exact ⟨parts, by simpa using inside, made⟩
      | none =>
          rw [merges] at member
          rcases List.mem_cons.mp member with rfl | later
          · exact ⟨run, ⟨[], next :: rest, by simp⟩, before⟩
          · obtain ⟨parts, inside, made⟩ := ih (.single next) later
            exact ⟨parts, inside.trans (List.suffix_append _ _).isInfix, made⟩

private theorem exists_run_of_mem_mergeAdjacent {steps : List Step} {step : Step}
    (member : step ∈ mergeAdjacent steps) : ∃ run, run <:+: steps ∧ MergedFrom run step := by
  cases steps with
  | nil => cases member
  | cons head rest => exact exists_run_of_mem_mergeFrom (.single head) member

/-- Only tasks are merged. -/
theorem MergedFrom.single_or_tasks {run : List Step} {step : Step} (merged : MergedFrom run step) :
    run = [step] ∨ 2 ≤ run.length ∧ step.isTask ∧ ∀ part ∈ run, part.isTask := by
  induction merged with
  | single step => exact .inl rfl
  | @more run head next merged before merges ih =>
      obtain ⟨info, nextInfo, script, nextScript, name, text, rfl, rfl, rfl⟩ :=
        merge?_eq_some merges
      have nonempty := List.length_pos_of_ne_nil before.ne_nil
      refine .inr ⟨?_, rfl, ?_⟩
      · rw [List.length_append, List.length_singleton]
        omega
      intro part member
      rcases List.mem_append.mp member with earlier | last
      · rcases ih with rfl | ⟨-, -, tasks⟩
        · rw [List.mem_singleton.mp earlier]
          rfl
        · exact tasks part earlier
      · rw [List.mem_singleton.mp last]
        rfl

theorem name_of_merge? {head next merged : Step} (merges : merge? head next = some merged) :
    merged.name = head.name ++ "_" ++ next.name := by
  unfold merge? at merges
  split at merges
  · split at merges
    · cases merges
      rfl
    · cases merges
  · cases merges

/-- What is merged has the names of all its parts. -/
theorem MergedFrom.name_eq {run : List Step} {step : Step} (merged : MergedFrom run step) :
    step.name = "_".intercalate (run.map Step.name) := by
  induction merged with
  | single step => simp
  | @more run head next merged before merges ih =>
      have earlier : run.map Step.name ≠ [] := by simpa using before.ne_nil
      rw [name_of_merge? merges, ih, List.map_append,
        String.intercalate_append_of_ne_nil earlier (by simp)]
      simp

private theorem MergedFrom.length_name {run : List Step} {step : Step}
    (merged : MergedFrom run step) (fits : ∀ part ∈ run, part.Fits) :
    1 ≤ step.name.length ∧ step.name.length < 129 * run.length := by
  induction merged with
  | single step =>
      have name := (fits step (.head _)).name
      rw [List.length_singleton]
      omega
  | @more run head next merged before merges ih =>
      have earlier := ih fun part member => fits part (List.mem_append_left _ member)
      have last := (fits next (by simp)).name
      have mark : "_".length = 1 := rfl
      rw [name_of_merge? merges, String.length_append, String.length_append, List.length_append,
        List.length_singleton, mark]
      omega

/-! ## All depths of a merged document -/

/-- Where a step of a merged document comes from: it has the id and name that a step had before, or
it was merged from several tasks. -/
def StemsFrom (steps : List Step) (step : Step) : Prop :=
  (∃ old ∈ subtrees steps, old.info = step.info) ∨
    ∃ run, run.Sublist (tasks steps) ∧ 2 ≤ run.length ∧ MergedFrom run step

theorem StemsFrom.mono {inside steps : List Step} {step : Step} (stems : StemsFrom inside step)
    (within : (subtrees inside).Sublist (subtrees steps)) : StemsFrom steps step := by
  rcases stems with ⟨old, present, same⟩ | ⟨run, parts, several, merged⟩
  · exact .inl ⟨old, within.subset present, same⟩
  · exact .inr ⟨run, parts.trans (within.filter isTask), several, merged⟩

theorem StemsFrom.of_mem {steps : List Step} {member step : Step}
    (stems : StemsFrom [member] step) (present : member ∈ steps) : StemsFrom steps step := by
  apply stems.mono
  rw [subtrees_eq_flatMap steps]
  obtain ⟨before, after, rfl⟩ := List.append_of_mem present
  simp [subtrees]

private theorem isTask_rewrite (step : Step) : step.rewrite.isTask = step.isTask := by
  match step with
  | .task info payload => rfl
  | .block info .group steps => rfl
  | .block info .parallel steps => rfl

/-- The tasks of a level are the same when what is inside its blocks has been merged. -/
theorem filter_isTask_map_rewrite (steps : List Step) :
    (steps.map rewrite).filter isTask = steps.filter isTask := by
  induction steps with
  | nil => rfl
  | cons step rest ih =>
      rw [List.map_cons, List.filter_cons, List.filter_cons, isTask_rewrite, ih]
      split
      case isTrue task => rw [rewrite_of_isTask task]
      case isFalse => rfl

private theorem filter_isTask_sublist_tasks (steps : List Step) :
    (steps.filter isTask).Sublist (tasks steps) := by
  induction steps with
  | nil => exact .refl _
  | cons step rest ih =>
      have split : tasks (step :: rest) = tasks [step] ++ tasks rest := tasks_append [step] rest
      rw [split]
      cases step with
      | task info payload => exact ih.cons_cons _
      | block info kind steps => exact ih.trans (List.sublist_append_right _ _)

/-- Merging a level adds nothing to what the steps of the level stem from. -/
theorem stemsFrom_of_mem_normalise {steps : List Step}
    (each : ∀ old ∈ steps, ∀ inner ∈ subtree old.rewrite, StemsFrom [old] inner) :
    ∀ inner ∈ subtrees (normalise steps), StemsFrom steps inner := by
  intro inner member
  rw [normalise, rewriteAll_eq_map, subtrees_eq_flatMap] at member
  obtain ⟨outer, present, below⟩ := List.mem_flatMap.mp member
  obtain ⟨run, neighbours, merged⟩ := exists_run_of_mem_mergeAdjacent present
  rcases merged.single_or_tasks with rfl | ⟨several, task, parts⟩
  · obtain ⟨old, level, rfl⟩ := List.mem_map.mp (neighbours.subset (.head _))
    exact (each old level inner below).of_mem level
  · have alone : inner = outer := by
      cases outer with
      | task info payload => exact List.mem_singleton.mp below
      | block info kind steps => cases task
    have sublist : run.Sublist (steps.filter isTask) := by
      rw [← filter_isTask_map_rewrite, ← List.filter_eq_self.mpr parts]
      exact neighbours.sublist.filter isTask
    rw [alone]
    exact .inr ⟨run, sublist.trans (filter_isTask_sublist_tasks steps), several, merged⟩

private theorem stemsFrom_self {step inner : Step} (member : inner ∈ subtree step) :
    StemsFrom [step] inner :=
  .inl ⟨inner, by simpa [subtrees] using member, rfl⟩

theorem subtrees_sublist_block (info : StepInfo) (kind : Block) (steps : List Step) :
    (subtrees steps).Sublist (subtrees [block info kind steps]) := by
  simp [subtrees, subtree]

private theorem stemsFrom_regroup {info : StepInfo} {kind : Block} {steps members : List Step}
    (each : ∀ inner ∈ subtrees members, StemsFrom steps inner) :
    ∀ inner ∈ subtree (regroup info members), StemsFrom [block info kind steps] inner := by
  intro inner member
  have inside : inner ∈ subtrees members → StemsFrom [block info kind steps] inner :=
    fun below => (each inner below).mono (subtrees_sublist_block info kind steps)
  match members with
  | [single] =>
      have same : subtree (regroup info [single]) = subtree single := rfl
      exact inside (by simpa [subtrees, same] using member)
  | [] | first :: second :: rest =>
      rcases List.mem_cons.mp member with rfl | below
      · exact .inl ⟨block info kind steps, .head _, rfl⟩
      · exact inside below

private theorem stemsFrom_of_mem_rewrite (step : Step) :
    (∀ inner ∈ subtree step.rewrite, StemsFrom [step] inner) ∧
      ∀ inner ∈ subtree step.rewriteBranch, StemsFrom [step] inner := by
  induction step using induct_inside with
  | task info payload => exact ⟨fun _ => stemsFrom_self, fun _ => stemsFrom_self⟩
  | block info kind inside ih =>
      cases kind with
      | parallel =>
          have both : ∀ inner ∈ subtree (block info .parallel (inside.map rewriteBranch)),
              StemsFrom [block info .parallel inside] inner := by
            intro inner member
            rcases List.mem_cons.mp member with rfl | below
            · exact .inl ⟨block info .parallel inside, .head _, rfl⟩
            · rw [subtrees_eq_flatMap] at below
              obtain ⟨changed, made, below⟩ := List.mem_flatMap.mp below
              obtain ⟨branch, present, rfl⟩ := List.mem_map.mp made
              have stems := ((ih branch present).2 inner below).of_mem present
              exact stems.mono (subtrees_sublist_block info .parallel inside)
          simp only [rewriteBranch, rewrite, rewriteBranches_eq_map]
          exact ⟨both, both⟩
      | group =>
          refine ⟨fun _ => stemsFrom_self, stemsFrom_regroup ?_⟩
          exact stemsFrom_of_mem_normalise fun old present => (ih old present).1

theorem stemsFrom_normalise (steps : List Step) :
    ∀ inner ∈ subtrees (normalise steps), StemsFrom steps inner :=
  stemsFrom_of_mem_normalise fun old _ => (stemsFrom_of_mem_rewrite old).1

end Step

namespace Conversion

/-- The bounds of a finished document. Each id has 1 to 64 characters. A name has 1 to 128, except
that a step merged from several scripts has the names of these, joined. -/
theorem bounds_of_mem_subtrees (options : Options) (root : Span) :
    ∀ step ∈ Step.subtrees (ofSpan .builtin options root).pipeline.steps,
      (1 ≤ step.id.length ∧ step.id.length ≤ 64) ∧ 1 ≤ step.name.length ∧
        (step.name.length ≤ 128 ∨
          options.mergeSteps = true ∧ ∃ run,
            run.Sublist (Step.tasks
              (ofSpan .builtin { options with mergeSteps := false } root).pipeline.steps) ∧
            2 ≤ run.length ∧ Step.MergedFrom run step ∧
            step.name = "_".intercalate (run.map Step.name) ∧
            step.name.length < 129 * run.length ∧
            ∀ part ∈ run, 1 ≤ part.name.length ∧ part.name.length ≤ 128) := by
  have fits := fits_unmerged Registry.builtin_standard options root
  intro step member
  cases merge : options.mergeSteps with
  | false =>
      have same : { options with mergeSteps := false } = options := by rw [← merge]
      rw [same] at fits
      exact ⟨(fits step member).id, (fits step member).name.1, .inl (fits step member).name.2⟩
  | true =>
      have same : { options with mergeSteps := true } = options := by rw [← merge]
      have steps := steps_merged Registry.builtin_standard options root
      rw [same] at steps
      rw [steps] at member
      have idIn := (Step.ids_normalise_sublist _).subset (List.mem_map_of_mem (f := Step.id) member)
      obtain ⟨owner, present, owned⟩ := List.mem_map.mp idIn
      refine ⟨owned ▸ (fits owner present).id, ?_⟩
      rcases Step.stemsFrom_normalise _ step member with ⟨old, present, info⟩ | stems
      · have name : old.name = step.name := congrArg StepInfo.name info
        rw [← name]
        exact ⟨(fits old present).name.1, .inl (fits old present).name.2⟩
      · obtain ⟨run, parts, several, merged⟩ := stems
        have inside : ∀ part ∈ run, part.Fits := fun part member =>
          fits part (List.mem_of_mem_filter (parts.subset member))
        have length := merged.length_name inside
        exact ⟨length.1, .inr ⟨rfl, run, parts, several, merged, merged.name_eq, length.2,
          fun part member => (inside part member).name⟩⟩

/-- A pipeline of two shell scripts with names of seventy letters. -/
def twoScripts : Span where
  typeName := "stage"
  spanId := "aaaaaa01"
  traceId := "t"
  parentSpanId := ""
  parent := ""
  name := "build"
  spanName := ""
  attributes := [("step.id", "1")]
  parameters := []
  children := [script "bbbbbb01" "2" 'a', script "cccccc01" "3" 'b']
where
  script (spanId order : String) (letter : Char) : Span :=
    { typeName := "sh", spanId := spanId, traceId := "t", parentSpanId := "aaaaaa01", parent := ""
      name := String.ofList (List.replicate 70 letter), spanName := ""
      attributes := [("step.id", order)], parameters := [("script", .string "make")]
      children := [] }

def twoScriptsMerged : Step :=
  .task {
    id := String.ofList (List.replicate 58 'a' ++ List.replicate 6 'b')
    name := String.ofList (List.replicate 70 'a' ++ '_' :: List.replicate 70 'b')
  } (.script { shell := some .sh, run := "make\nmake" })

private theorem steps_twoScripts :
    (ofSpan .builtin {} twoScripts).pipeline.steps = [twoScriptsMerged] := by
  decide +kernel

theorem mem_subtrees_twoScripts :
    twoScriptsMerged ∈ Step.subtrees (ofSpan .builtin {} twoScripts).pipeline.steps := by
  rw [steps_twoScripts]
  exact .head _

theorem long_name_twoScripts : ¬twoScriptsMerged.name.length ≤ 128 := by
  decide +kernel

theorem merged_twoScripts :
    twoScriptsMerged ∈ Step.subtrees (ofSpan .builtin {} twoScripts).pipeline.steps ∧
      ∃ run : List Step,
        run.Sublist (Step.tasks
          (ofSpan .builtin { mergeSteps := false } twoScripts).pipeline.steps) ∧
        2 ≤ run.length ∧ twoScriptsMerged.name = "_".intercalate (run.map Step.name) := by
  obtain ⟨-, -, short | ⟨-, run, parts, several, -, name, -⟩⟩ :=
    bounds_of_mem_subtrees {} twoScripts twoScriptsMerged mem_subtrees_twoScripts
  · exact absurd short long_name_twoScripts
  · exact ⟨mem_subtrees_twoScripts, run, parts, several, name⟩

/-- The name of two merged scripts may be longer than any label. -/
theorem not_forall_length_name_le :
    ¬∀ (options : Options) (root : Span),
      ∀ step ∈ Step.subtrees (ofSpan .builtin options root).pipeline.steps,
        (1 ≤ step.id.length ∧ step.id.length ≤ 64) ∧
          (1 ≤ step.name.length ∧ step.name.length ≤ 128) := by
  intro bounds
  have bound := bounds {} twoScripts twoScriptsMerged mem_subtrees_twoScripts
  exact long_name_twoScripts bound.2.2

end Conversion

end TracePipeline
