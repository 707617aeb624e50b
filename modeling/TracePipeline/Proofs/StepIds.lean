import Mathlib.Data.List.Nodup
import TracePipeline.Proofs.Labels
import TracePipeline.Proofs.MergePass

/-! When the ids of a pipeline are distinct. All ids that come from one span end in its suffix, so
with distinct suffixes only the steps of one span can share an id. They do in three cases: a shell
is labelled like the tool that it runs, its label is cut short, or it is a branch of a parallel
stage that becomes a group beside a step of its own. -/

set_option autoImplicit false

namespace TracePipeline

/-- Every span id has a full suffix, and no two spans of a trace have the same. -/
structure Span.DistinctSuffixes (root : Span) : Prop where
  long : ∀ span ∈ root :: root.descendants, Label.suffixLength ≤ span.spanId.length
  distinct : ((root :: root.descendants).map fun span => Label.suffix span.spanId).Nodup

namespace Visit

def isBranch (registry : Registry) (visit : Visit) : Bool :=
  match visit.around with
  | [] => false
  | parent :: _ => parent.forks registry

end Visit

namespace Stop

/-- The stops at a span and inside it. -/
def inside (registry : Registry) (stop : Stop) : List Stop :=
  tour registry stop.ledger
    (stop.visit.span.visits registry stop.visit.path stop.visit.around)

/-- A stop at which no two steps get the same id. The options do not matter, since they do not
decide how many steps there are. -/
structure Clear (registry : Registry) (stop : Stop) : Prop where
  /-- A shell with text around its tool is not labelled like the tool. -/
  label : ∀ choice, stop.choice? registry = some choice →
    choice.invocation.before ≠ "" ∨ choice.invocation.after ≠ "" →
      Label.cleaned stop.visit.span.label ≠ Label.cleaned choice.pending.tool.label
  /-- A shell with text on both sides of its tool has a label that is not cut short. -/
  halves : ∀ choice, stop.choice? registry = some choice →
    choice.invocation.before ≠ "" → choice.invocation.after ≠ "" →
      (Label.cleaned stop.visit.span.label).length < Label.idLimit
  /-- A branch with a step of its own has no other step beside it. -/
  group : stop.visit.isBranch registry → stop.steps registry {} ≠ [] →
    ((stop.inside registry).flatMap (Stop.steps registry {})).length ≤ 1

end Stop

/-! ## Ids of entries -/

namespace OrderedStep

def ids (entries : List OrderedStep) : List String :=
  Step.ids (entries.map OrderedStep.step)

theorem ids_append (first second : List OrderedStep) :
    ids (first ++ second) = ids first ++ ids second := by
  simp [ids]

private theorem ids_flatMap {α : Type} (values : List α) (entries : α → List OrderedStep) :
    ids (values.flatMap entries) = values.flatMap fun value => ids (entries value) := by
  induction values with
  | nil => rfl
  | cons value rest ih => rw [List.flatMap_cons, ids_append, ih, List.flatMap_cons]

end OrderedStep

theorem ids_sortedSteps (entries : List OrderedStep) :
    (Step.ids (sortedSteps entries)).Perm (OrderedStep.ids entries) :=
  Step.ids_perm (sortedSteps_perm entries)

namespace Span

/-- The id that steps take from their span. -/
def stepId (span : Span) : String :=
  Label.stepId span.label span.spanId

private theorem ids_branchStep (span : Span) (steps : List Step) :
    OrderedStep.ids (span.branchStep steps) =
      (if 2 ≤ steps.length then [span.stepId] else []) ++ Step.ids steps := by
  match steps with
  | [] => rfl
  | [_] => rfl
  | first :: second :: rest =>
      rw [if_pos (by simp)]
      exact Step.ids_block _ _ _

private theorem ids_stageStep (span : Span) (context : Context) (branches : List OrderedStep) :
    (OrderedStep.ids (span.stageStep context branches).entries).Perm
      ((if branches = [] then [] else [span.stepId]) ++ OrderedStep.ids branches) := by
  cases branches with
  | nil => exact .refl _
  | cons first rest =>
      have inside : OrderedStep.ids (span.stageStep context (first :: rest)).entries =
          span.stepId :: Step.ids (sortedSteps (first :: rest)) :=
        Step.ids_block _ _ _
      rw [inside, if_neg (by simp)]
      exact (ids_sortedSteps _).cons _

end Span

/-! ## Ids of outlines -/

namespace Outline

def inside : Outline → List Outline
  | .node _ inside => inside

mutual

/-- An outline and all outlines inside it, in walk order. -/
def nodes : Outline → List Outline
  | .node stop inside => .node stop inside :: nodesOf inside

def nodesOf : List Outline → List Outline
  | [] => []
  | outline :: rest => nodes outline ++ nodesOf rest

end

theorem nodesOf_eq_flatMap (outlines : List Outline) :
    nodesOf outlines = outlines.flatMap nodes := by
  induction outlines with
  | nil => rfl
  | cons outline rest ih => simp [nodesOf, ih]

theorem map_stop_nodes (outline : Outline) : outline.nodes.map stop = outline.stops := by
  induction outline using induct_inside with
  | step stop inside ih =>
      rw [nodes, stops, List.map_cons, nodesOf_eq_flatMap, stopsOf_eq_flatMap, List.map_flatMap,
        List.flatMap_congr ih]
      rfl

variable (registry : Registry) (options : Options)

/-- The id of the group that an outline becomes as a branch. -/
def groupIds (outline : Outline) : List String :=
  if outline.stop.visit.isBranch registry ∧ 2 ≤ (outline.entries registry options false).length then
    [outline.span.stepId]
  else []

/-- The id of the parallel step that an outline becomes. -/
def stageIds (outline : Outline) : List String :=
  if outline.span.forks registry ∧
      outline.inside.flatMap (branch registry options false) ≠ [] then
    [outline.span.stepId]
  else []

/-- All ids that come from the outermost span of an outline. -/
def spanIds (outline : Outline) : List String :=
  Step.ids (outline.stop.steps registry options) ++
    (outline.stageIds registry options ++ outline.groupIds registry options)

/-- An outline that a walk makes of some span, as opposed to any tree of stops. -/
def Formed (outline : Outline) : Prop :=
  ∃ (ledger : Ledger) (path : List Nat) (around : List Span) (span : Span),
    outline = (span.outline registry ledger path around).1

end Outline

namespace Span

theorem outline_stop (registry : Registry) (ledger : Ledger) (path : List Nat)
    (around : List Span) (span : Span) :
    (span.outline registry ledger path around).1.stop = ⟨⟨path, span, around⟩, ledger⟩ := by
  rw [outline_eq]
  split <;> rfl

private theorem exists_of_mem_outlines {registry : Registry} {ledger : Ledger} {path : List Nat}
    {around spans : List Span} {index : Nat} {outline : Outline}
    (member : outline ∈ (outlines registry ledger path around index spans).1) :
    ∃ (earlier : Ledger) (place : Nat) (span : Span),
      outline = (span.outline registry earlier (place :: path) around).1 := by
  induction spans generalizing ledger index with
  | nil => cases member
  | cons first rest ih =>
      rw [outlines] at member
      rcases List.mem_cons.mp member with rfl | later
      · exact ⟨ledger, index, first, rfl⟩
      · exact ih later

end Span

namespace Outline.Formed

variable {registry : Registry} {outline : Outline}

theorem stops_eq (formed : outline.Formed registry) :
    outline.stops = outline.stop.inside registry := by
  obtain ⟨ledger, path, around, span, rfl⟩ := formed
  rw [Span.outline_stop]
  exact (span.outline_eq_tour registry ledger path around).1

private theorem inside_eq_nil (formed : outline.Formed registry)
    (ends : outline.span.descends registry = false) : outline.inside = [] := by
  obtain ⟨ledger, path, around, span, rfl⟩ := formed
  rw [Span.outline_span] at ends
  rw [Span.outline_eq, if_neg (by simp [ends])]
  rfl

/-- The outlines inside an outline are formed too, and are branches just if its span forks. -/
theorem of_mem_inside (formed : outline.Formed registry) {child : Outline}
    (member : child ∈ outline.inside) :
    child.Formed registry ∧ child.stop.visit.isBranch registry = outline.span.forks registry := by
  obtain ⟨ledger, path, around, span, rfl⟩ := formed
  rw [Span.outline_span]
  rw [Span.outline_eq] at member
  by_cases onward : span.descends registry
  · rw [if_pos onward] at member
    obtain ⟨earlier, place, inner, rfl⟩ := Span.exists_of_mem_outlines member
    refine ⟨⟨earlier, _, _, inner, rfl⟩, ?_⟩
    rw [Span.outline_stop]
    rfl
  · rw [if_neg onward] at member
    cases member

end Outline.Formed

namespace Outline

variable {registry : Registry} {options : Options}

private theorem ids_branch {outline : Outline} (branches : outline.stop.visit.isBranch registry) :
    (OrderedStep.ids (outline.branch registry options false)).Perm
      (OrderedStep.ids (outline.entries registry options false) ++
        outline.groupIds registry options) := by
  have groups : outline.groupIds registry options =
      if 2 ≤ (sortedSteps (outline.entries registry options false)).length then
        [outline.span.stepId]
      else [] := by
    simp only [groupIds, branches, true_and, length_sortedSteps]
  rw [branch, finalize_false, Span.ids_branchStep, ← groups]
  exact ((ids_sortedSteps _).append_left _).trans List.perm_append_comm

/-- The ids inside an outline are those of its parallel step, if there is one, and of the outlines
inside, of which each brings the id of its group with it. -/
theorem ids_inside_perm (options : Options) {stop : Stop} {inside : List Outline}
    (formed : (node stop inside).Formed registry) :
    (OrderedStep.ids
      (if stop.visit.span.forks registry then
        (stop.visit.span.stageStep (stop.visit.context registry options)
          (inside.flatMap (branch registry options false))).entries
      else inside.flatMap (entries registry options false))).Perm
        ((node stop inside).stageIds registry options ++
          inside.flatMap fun child =>
            OrderedStep.ids (child.entries registry options false) ++
              child.groupIds registry options) := by
  by_cases forks : stop.visit.span.forks registry
  · have stage : (node stop inside).stageIds registry options =
        if inside.flatMap (branch registry options false) = [] then []
        else [stop.visit.span.stepId] := by
      unfold stageIds
      by_cases nothing : inside.flatMap (branch registry options false) = []
      · rw [if_pos nothing, if_neg fun both => both.2 nothing]
      · rw [if_neg nothing, if_pos ⟨forks, nothing⟩]
        rfl
    rw [if_pos forks, stage]
    refine (Span.ids_stageStep _ _ _).trans (List.Perm.append_left _ ?_)
    rw [OrderedStep.ids_flatMap]
    apply List.Perm.flatMap_left
    intro child member
    exact ids_branch ((formed.of_mem_inside member).2.trans forks)
  · have noStage : (node stop inside).stageIds registry options = [] :=
      if_neg fun both => forks both.1
    rw [if_neg forks, noStage, List.nil_append, OrderedStep.ids_flatMap]
    apply List.Perm.flatMap_left
    intro child member
    have noGroup : child.groupIds registry options = [] :=
      if_neg fun both => forks ((formed.of_mem_inside member).2.symm.trans both.1)
    rw [noGroup, List.append_nil]

/-- The ids of an outline, and of its group if it becomes one, come from the spans in it. -/
theorem ids_entries_perm (options : Options) {outline : Outline}
    (formed : outline.Formed registry) :
    (OrderedStep.ids (outline.entries registry options false) ++
      outline.groupIds registry options).Perm
        (outline.nodes.flatMap (spanIds registry options)) := by
  induction outline using induct_inside with
  | step stop inside ih =>
      have below : (inside.flatMap fun child =>
          OrderedStep.ids (child.entries registry options false) ++
            child.groupIds registry options).Perm
          ((nodesOf inside).flatMap (spanIds registry options)) := by
        rw [nodesOf_eq_flatMap, List.flatMap_assoc]
        exact .flatMap_left _ fun child member => ih child member (formed.of_mem_inside member).1
      have own : OrderedStep.ids (stop.entries registry options) =
          Step.ids (stop.steps registry options) := by
        rw [OrderedStep.ids, Stop.map_step_entries]
      have rest := (ids_inside_perm options formed).trans (below.append_left _)
      rw [nodes, List.flatMap_cons, spanIds, entries_node, OrderedStep.ids_append, own,
        List.append_assoc, List.append_assoc]
      refine List.Perm.append_left _ ((rest.append_right _).trans ?_)
      rw [List.append_assoc, List.append_assoc]
      exact List.perm_append_comm.append_left _

end Outline

/-! ## Labels of steps -/

namespace Span

/-- The labels of the steps around a tool and of the tool's own step. -/
def splitLabels (span : Span) (choice : Choice) : List String :=
  (if choice.invocation.before = "" then [] else [span.label]) ++ choice.pending.tool.label ::
    if choice.invocation.after = "" then []
    else if choice.invocation.before = "" then [span.label]
    else [span.labelAfter choice.pending.tool]

private theorem ids_splitSteps (span : Span) (context : Context) (choice : Choice)
    (declared : Option Declaration) :
    Step.ids (span.splitSteps context choice.shell choice.pending choice.invocation declared) =
      (span.splitLabels choice).map fun label => Label.stepId label span.spanId := by
  unfold splitSteps splitLabels stepBefore stepAfter
  by_cases before : choice.invocation.before = "" <;>
    by_cases after : choice.invocation.after = "" <;>
      simp only [before, after, if_true, if_false, List.nil_append, List.append_nil, List.map_cons,
        List.map_nil, List.cons_append] <;>
      rfl

private theorem label_mem_splitLabels {span : Span} {choice : Choice}
    (several : 2 ≤ (span.splitLabels choice).length) : span.label ∈ span.splitLabels choice := by
  unfold splitLabels at several ⊢
  by_cases before : choice.invocation.before = ""
  · by_cases after : choice.invocation.after = ""
    · simp [before, after] at several
    · simp [before, after]
  · simp [before]

/-- The parts of a script have bases of their own unless the label of the shell is that of the tool
or is cut short. -/
theorem nodup_splitLabels_iff {span : Span} {choice : Choice} :
    ((span.splitLabels choice).map Label.base).Nodup ↔
      (choice.invocation.before ≠ "" ∨ choice.invocation.after ≠ "" →
        Label.cleaned span.label ≠ Label.cleaned choice.pending.tool.label) ∧
      (choice.invocation.before ≠ "" → choice.invocation.after ≠ "" →
        (Label.cleaned span.label).length < Label.idLimit) := by
  have tool := Label.base_eq_base_tool_iff span.label choice.pending.tool
  have behind := Label.base_eq_base_after_iff span.label choice.pending.tool
  have apart := Label.base_after_ne_base_tool span.label choice.pending.tool
  unfold splitLabels labelAfter
  by_cases before : choice.invocation.before = ""
  · by_cases after : choice.invocation.after = ""
    · simp [before, after]
    · simp [before, after, eq_comm, ← tool]
  · by_cases after : choice.invocation.after = ""
    · simp [before, after, tool]
    · simp [before, after, tool, behind, apart.symm]

end Span

namespace Stop

variable {registry : Registry}

def labels (registry : Registry) (stop : Stop) : List String :=
  match stop.choice? registry with
  | some choice => stop.visit.span.splitLabels choice
  | none => if (stop.steps registry {}).isEmpty then [] else [stop.visit.span.label]

theorem ids_steps (standard : registry.Standard) (options : Options) (stop : Stop) :
    Step.ids (stop.steps registry options) =
      (stop.labels registry).map fun label => Label.stepId label stop.visit.span.spanId := by
  unfold labels
  cases chosen : stop.choice? registry with
  | some choice =>
      rw [steps, Visit.steps_of_choice standard.shells options chosen]
      exact Span.ids_splitSteps _ _ _ _
  | none =>
      have plain : stop.visit.span.Plain fun options => stop.steps registry options :=
        Visit.plain_of_no_choice standard chosen
      rcases plain with nothing | ⟨task, shape⟩
      · simp only [nothing]
        rfl
      · obtain ⟨single, isTask, same, -⟩ := shape options
        have alone : Step.ids [task options] = [task options].map Step.id :=
          Step.ids_eq_map (by simpa using isTask)
        simp only [single, (shape {}).1, alone, List.map_cons, same]
        rfl

theorem length_steps (standard : registry.Standard) (options : Options) (stop : Stop) :
    (stop.steps registry options).length = (stop.labels registry).length := by
  have lengths := congrArg List.length (stop.ids_steps standard options)
  rwa [Step.ids_eq_map (stop.isTask_of_mem_steps standard options), List.length_map,
    List.length_map] at lengths

private theorem length_flatMap_steps (standard : registry.Standard) (options : Options)
    (stops : List Stop) :
    (stops.flatMap (Stop.steps registry options)).length =
      (stops.flatMap (Stop.steps registry {})).length := by
  rw [List.length_flatMap, List.length_flatMap]
  congr 1
  apply List.map_congr_left
  intro stop _
  rw [length_steps standard, length_steps standard]

/-- The conditions on the label say that the steps of the stop have bases of their own. -/
theorem clear_iff (stop : Stop) :
    stop.Clear registry ↔
      ((stop.labels registry).map Label.base).Nodup ∧
        (stop.visit.isBranch registry → stop.steps registry {} ≠ [] →
          ((stop.inside registry).flatMap (Stop.steps registry {})).length ≤ 1) := by
  unfold labels
  cases chosen : stop.choice? registry with
  | some choice =>
      rw [Span.nodup_splitLabels_iff]
      constructor
      · intro clear
        exact ⟨⟨clear.label choice chosen, clear.halves choice chosen⟩, clear.group⟩
      · rintro ⟨⟨label, halves⟩, group⟩
        refine ⟨?_, ?_, group⟩
        · intro other same
          rw [chosen] at same
          cases same
          exact label
        · intro other same
          rw [chosen] at same
          cases same
          exact halves
  | none =>
      have distinct : ((if (stop.steps registry {}).isEmpty then []
          else [stop.visit.span.label]).map Label.base).Nodup := by
        split <;> simp
      constructor
      · intro clear
        exact ⟨distinct, clear.group⟩
      · rintro ⟨-, group⟩
        exact ⟨by simp [chosen], by simp [chosen], group⟩

end Stop

/-! ## Ids of one span -/

namespace Span

theorem branchStep_eq_nil_iff {span : Span} {steps : List Step} :
    span.branchStep steps = [] ↔ steps = [] := by
  match steps with
  | [] => exact ⟨fun _ => rfl, fun _ => rfl⟩
  | [_] => simp [branchStep]
  | _ :: _ :: _ => simp [branchStep]

private theorem length_stageStep_le_one (span : Span) (context : Context)
    (branches : List OrderedStep) :
    (span.stageStep context branches).entries.length ≤ 1 := by
  cases branches with
  | nil => exact Nat.zero_le 1
  | cons first rest => exact Nat.le_refl 1

theorem stageStep_eq_nil_iff {span : Span} {context : Context} {branches : List OrderedStep} :
    (span.stageStep context branches).entries = [] ↔ branches = [] := by
  cases branches with
  | nil => exact ⟨fun _ => rfl, fun _ => rfl⟩
  | cons first rest => simp [stageStep, Contribution.ofSteps]

end Span

namespace Outline

variable {registry : Registry} {options : Options}

theorem branch_eq_nil_iff {outline : Outline} :
    outline.branch registry options false = [] ↔ outline.entries registry options false = [] := by
  rw [branch, Span.branchStep_eq_nil_iff, finalize_false, sortedSteps_eq_nil_iff]

/-- An outline comes to nothing just if none of its stops contributes a step. -/
theorem entries_eq_nil_iff {outline : Outline} :
    outline.entries registry options false = [] ↔
      outline.stops.flatMap (Stop.steps registry options) = [] := by
  induction outline using induct_inside with
  | step stop inside ih =>
      have below : (stopsOf inside).flatMap (Stop.steps registry options) = [] ↔
          ∀ child ∈ inside, child.entries registry options false = [] := by
        rw [stopsOf_eq_flatMap, List.flatMap_assoc, List.flatMap_eq_nil_iff]
        exact forall₂_congr fun child member => (ih child member).symm
      rw [entries_node, List.append_eq_nil_iff, Stop.entries_eq_nil_iff, stops, List.flatMap_cons,
        List.append_eq_nil_iff, below]
      apply and_congr_right
      intro _
      split
      · rw [Span.stageStep_eq_nil_iff, List.flatMap_eq_nil_iff]
        exact forall₂_congr fun child _ => branch_eq_nil_iff
      · exact List.flatMap_eq_nil_iff

theorem nodup_map_stepId_iff {labels : List String} {spanId : String} :
    (labels.map fun label => Label.stepId label spanId).Nodup ↔ (labels.map Label.base).Nodup := by
  simp only [List.Nodup, List.pairwise_map, ne_eq, Label.stepId_inj_base]

/-- Beside steps of its own, an outline has further entries just if some stop inside contributes a
step. -/
theorem two_le_length_entries_iff {stop : Stop} {inside : List Outline}
    (straight : stop.visit.span.forks registry = false)
    (someStep : stop.steps registry options ≠ []) :
    2 ≤ ((node stop inside).entries registry options false).length ↔
      2 ≤ ((node stop inside).stops.flatMap (Stop.steps registry options)).length := by
  have below : inside.flatMap (entries registry options false) = [] ↔
      (stopsOf inside).flatMap (Stop.steps registry options) = [] := by
    rw [stopsOf_eq_flatMap, List.flatMap_assoc, List.flatMap_eq_nil_iff, List.flatMap_eq_nil_iff]
    exact forall₂_congr fun child _ => entries_eq_nil_iff
  have own := List.length_pos_iff.mpr someStep
  rw [entries_node, stops, List.flatMap_cons, List.length_append, List.length_append,
    Stop.entries, List.length_map, if_neg (by simp [straight])]
  rw [← List.length_eq_zero_iff, ← List.length_eq_zero_iff] at below
  omega

/-- A stop with further steps at or inside it has the label of its span on a step of its own. A
shell that runs a tool has nothing inside it, so that the further steps are the parts of its
script. -/
theorem label_mem_labels (standard : registry.Standard) {outline : Outline}
    (formed : outline.Formed registry) (someStep : outline.stop.steps registry {} ≠ [])
    (several : 2 ≤ ((outline.stop.inside registry).flatMap (Stop.steps registry {})).length) :
    outline.span.label ∈ outline.stop.labels registry := by
  cases chosen : outline.stop.choice? registry with
  | none =>
      have labels : outline.stop.labels registry = [outline.span.label] := by
        simp [Stop.labels, chosen, someStep, span]
      rw [labels]
      exact .head _
  | some choice =>
      have labels : outline.stop.labels registry = outline.span.splitLabels choice := by
        simp only [Stop.labels, chosen, span]
      have leaf : outline.inside = [] :=
        formed.inside_eq_nil (Visit.not_descends_of_choice? standard.shells chosen)
      have alone : outline.stops = [outline.stop] := by
        cases outline with
        | node stop inside =>
            change inside = [] at leaf
            rw [leaf]
            rfl
      rw [← formed.stops_eq, alone, List.flatMap_singleton, Stop.length_steps standard,
        labels] at several
      rw [labels]
      exact Span.label_mem_splitLabels several

/-- A span with steps of its own makes no stage, so its ids are those of its steps and of its
group. -/
theorem nodup_spanIds_of_steps (standard : registry.Standard) {outline : Outline}
    (formed : outline.Formed registry) (someStep : outline.stop.steps registry {} ≠ []) :
    (outline.spanIds registry options).Nodup ↔
      ((outline.stop.labels registry).map Label.base).Nodup ∧
        (outline.stop.visit.isBranch registry →
          ((outline.stop.inside registry).flatMap (Stop.steps registry {})).length ≤ 1) := by
  have straight : outline.span.forks registry = false := by
    rw [← Bool.not_eq_true]
    exact fun forks => someStep (Visit.steps_of_forks {} outline.stop.ledger forks)
  have noStage : outline.stageIds registry options = [] :=
    if_neg fun both => Bool.false_ne_true (straight.symm.trans both.1)
  have several : 2 ≤ (outline.entries registry options false).length ↔
      2 ≤ ((outline.stop.inside registry).flatMap (Stop.steps registry {})).length := by
    have someStep' : outline.stop.steps registry options ≠ [] := by
      rw [← List.length_pos_iff, Stop.length_steps standard, ← Stop.length_steps standard {}]
      exact List.length_pos_iff.mpr someStep
    rw [← formed.stops_eq, ← Stop.length_flatMap_steps standard options]
    cases outline with
    | node stop inside => exact two_le_length_entries_iff straight someStep'
  rw [spanIds, noStage, List.nil_append, Stop.ids_steps standard, groupIds]
  by_cases grouped : outline.stop.visit.isBranch registry ∧
      2 ≤ (outline.entries registry options false).length
  · rw [if_pos grouped]
    refine iff_of_false ?_ ?_
    · intro distinct
      have apart := (List.nodup_append.mp distinct).2.2
      have member : outline.span.stepId ∈ (outline.stop.labels registry).map fun label =>
          Label.stepId label outline.stop.visit.span.spanId :=
        List.mem_map_of_mem (label_mem_labels standard formed someStep (several.mp grouped.2))
      exact absurd rfl (apart _ member _ (.head _))
    · rintro ⟨-, few⟩
      have one := few grouped.1
      have two := several.mp grouped.2
      omega
  · rw [if_neg grouped, List.append_nil, nodup_map_stepId_iff, iff_self_and]
    intro _ branch
    have few := mt several.mpr fun two => grouped ⟨branch, two⟩
    omega

/-- A span without steps of its own has its id once at most: a stage with branches is one step. -/
theorem nodup_spanIds_of_no_steps (standard : registry.Standard) {outline : Outline}
    (nothing : outline.stop.steps registry {} = []) :
    (outline.spanIds registry options).Nodup := by
  have noSteps : outline.stop.steps registry options = [] := by
    rw [← List.length_eq_zero_iff, Stop.length_steps standard, ← Stop.length_steps standard {},
      nothing]
    rfl
  rw [spanIds, noSteps, Step.ids_nil, List.nil_append, stageIds, groupIds]
  by_cases forks : outline.span.forks registry
  · have few : (outline.entries registry options false).length ≤ 1 := by
      cases outline with
      | node stop inside =>
          have noEntries : stop.entries registry options = [] :=
            Stop.entries_eq_nil_iff.mpr noSteps
          have stage : stop.visit.span.forks registry := forks
          rw [entries_node, noEntries, if_pos stage]
          exact Span.length_stageStep_le_one _ _ _
    have noGroup : ¬(outline.stop.visit.isBranch registry ∧
        2 ≤ (outline.entries registry options false).length) := fun both => by omega
    rw [if_neg noGroup, List.append_nil]
    split <;> simp
  · rw [if_neg fun both => forks both.1, List.nil_append]
    split <;> simp

theorem nodup_spanIds_iff (standard : registry.Standard) {outline : Outline}
    (formed : outline.Formed registry) :
    (outline.spanIds registry options).Nodup ↔ outline.stop.Clear registry := by
  rw [Stop.clear_iff]
  by_cases nothing : outline.stop.steps registry {} = []
  · refine iff_of_true (nodup_spanIds_of_no_steps standard nothing) ⟨?_, ?_⟩
    · have noLabels : outline.stop.labels registry = [] := by
        rw [← List.length_eq_zero_iff, ← Stop.length_steps standard {}, nothing]
        rfl
      simp [noLabels]
    · intro _ someStep
      exact absurd nothing someStep
  · rw [nodup_spanIds_of_steps standard formed nothing]
    apply and_congr_right
    intro _
    constructor
    · intro few branch _
      exact few branch
    · intro few branch
      exact few branch nothing

/-- All ids of a span end in its suffix. -/
theorem exists_label_of_mem_spanIds (standard : registry.Standard) {outline : Outline}
    {id : String} (member : id ∈ outline.spanIds registry options) :
    ∃ label : String, id = Label.stepId label outline.span.spanId := by
  rw [spanIds, Stop.ids_steps standard, List.mem_append, List.mem_append] at member
  rcases member with own | stage | group
  · obtain ⟨label, -, rfl⟩ := List.mem_map.mp own
    exact ⟨label, rfl⟩
  · unfold stageIds at stage
    split at stage
    · exact ⟨_, List.mem_singleton.mp stage⟩
    · cases stage
  · unfold groupIds at group
    split at group
    · exact ⟨_, List.mem_singleton.mp group⟩
    · cases group

private theorem formed_of_mem_nodes {outline node : Outline} (formed : outline.Formed registry)
    (member : node ∈ outline.nodes) : node.Formed registry := by
  induction outline using induct_inside with
  | step stop inside ih =>
      rw [nodes, nodesOf_eq_flatMap] at member
      rcases List.mem_cons.mp member with rfl | below
      · exact formed
      · obtain ⟨child, present, below⟩ := List.mem_flatMap.mp below
        exact ih child present (formed.of_mem_inside present).1 below

end Outline

namespace Span

variable {registry : Registry} {root : Span}

private theorem formed_rootOutline (registry : Registry) (root : Span) :
    (root.rootOutline registry).Formed registry :=
  ⟨{}, [], [], root, rfl⟩

private theorem nodes_spans_sublist (registry : Registry) (root : Span) :
    ((root.rootOutline registry).nodes.map Outline.span).Sublist (root :: root.descendants) := by
  have spans : (root.rootOutline registry).nodes.map Outline.span =
      (root.visits registry [] []).map Visit.span := by
    rw [← map_visit_tour registry {} (root.visits registry [] []), List.map_map]
    change _ = (root.stops registry).map _
    rw [← stops_rootOutline, ← Outline.map_stop_nodes, List.map_map]
    rfl
  rw [spans]
  exact visits_spans_sublist registry [] [] root

/-- With distinct suffixes, ids can only clash within a span. -/
theorem nodup_ids_rootOutline_iff (standard : registry.Standard) (options : Options)
    (suffixes : root.DistinctSuffixes) :
    (OrderedStep.ids ((root.rootOutline registry).entries registry options false)).Nodup ↔
      ∀ stop ∈ root.stops registry, stop.Clear registry := by
  have formed := formed_rootOutline registry root
  have spans := nodes_spans_sublist registry root
  have noGroup : (root.rootOutline registry).groupIds registry options = [] := by
    refine if_neg fun both => ?_
    rw [rootOutline, outline_stop] at both
    cases both.1
  have ids := Outline.ids_entries_perm options formed
  rw [noGroup, List.append_nil] at ids
  -- Ids of different spans end in different suffixes.
  have apart : (root.rootOutline registry).nodes.Pairwise
      (Function.onFun List.Disjoint (Outline.spanIds registry options)) := by
    have distinct : ((root.rootOutline registry).nodes.map fun node =>
        Label.suffix node.span.spanId).Nodup := by
      have mapped := (spans.map fun span => Label.suffix span.spanId).nodup suffixes.distinct
      rwa [List.map_map] at mapped
    refine (List.pairwise_map.mp distinct).imp_of_mem ?_
    intro first second firstMember secondMember different id inFirst inSecond
    obtain ⟨label, rfl⟩ := Outline.exists_label_of_mem_spanIds standard inFirst
    obtain ⟨other, same⟩ := Outline.exists_label_of_mem_spanIds standard inSecond
    have long := suffixes.long _ (spans.subset (List.mem_map_of_mem firstMember))
    have long' := suffixes.long _ (spans.subset (List.mem_map_of_mem secondMember))
    exact different (Label.suffix_eq_of_stepId_eq long long' same)
  rw [ids.nodup_iff, List.nodup_flatMap, and_iff_left apart, ← stops_rootOutline,
    ← Outline.map_stop_nodes, List.forall_mem_map]
  exact forall₂_congr fun node member =>
    Outline.nodup_spanIds_iff standard (Outline.formed_of_mem_nodes formed member)

end Span

namespace Conversion

theorem nodup_ids_unmerged_iff {registry : Registry} (standard : registry.Standard)
    {root : Span} (suffixes : root.DistinctSuffixes) (options : Options) :
    (Step.ids (ofSpan registry { options with mergeSteps := false } root).pipeline.steps).Nodup ↔
      ∀ stop ∈ root.stops registry, stop.Clear registry := by
  rw [steps_eq standard.shells, finalize_false, (ids_sortedSteps _).nodup_iff,
    Span.nodup_ids_rootOutline_iff standard options suffixes]

/-- The ids of a pipeline are distinct under all options just if every stop is clear, and already
without merging. -/
theorem nodup_ids_iff {root : Span} (suffixes : root.DistinctSuffixes) :
    ((∀ options, (Step.ids (ofSpan .builtin options root).pipeline.steps).Nodup) ↔
        ∀ stop ∈ root.stops .builtin, stop.Clear .builtin) ∧
      ∀ options : Options,
        (Step.ids
            (ofSpan .builtin { options with mergeSteps := false } root).pipeline.steps).Nodup ↔
          ∀ stop ∈ root.stops .builtin, stop.Clear .builtin := by
  have standard := Registry.builtin_standard
  have unmerged := nodup_ids_unmerged_iff standard suffixes
  refine ⟨⟨fun distinct => ?_, fun clear options => ?_⟩, unmerged⟩
  · exact (unmerged {}).mp (distinct _)
  · have distinct := (unmerged options).mpr clear
    rcases steps_eq_or_normalise standard options root with same | merged
    · rw [same]
      exact distinct
    · rw [merged]
      exact (Step.ids_normalise_sublist _).nodup distinct

/-- A wrapper of Maven around one shell that runs it between two messages. -/
def mavenBuild (name : String) : Span where
  typeName := "withMaven"
  spanId := "aaaaaa01"
  traceId := "t"
  parentSpanId := ""
  parent := ""
  name := "build"
  spanName := ""
  attributes := [("step.id", "1")]
  parameters := []
  children := [{
    typeName := "sh"
    spanId := "bbbbbb01"
    traceId := "t"
    parentSpanId := "aaaaaa01"
    parent := ""
    name := name
    spanName := ""
    attributes := [("step.id", "2")]
    parameters := [("script", .string "echo a\nmvn test\necho b")]
    children := [] }]

/-- What holds without merging holds under all options. -/
theorem nodup_ids_short_label :
    (mavenBuild "Shell Script").DistinctSuffixes ∧
      ∀ options, (Step.ids (ofSpan .builtin options
        (mavenBuild "Shell Script")).pipeline.steps).Nodup := by
  have suffixes : (mavenBuild "Shell Script").DistinctSuffixes := ⟨by decide, by decide⟩
  obtain ⟨allOptions, unmerged⟩ := nodup_ids_iff suffixes
  exact ⟨suffixes, allOptions.mpr ((unmerged {}).mp (by decide +kernel))⟩

/-- A label that is cut short in ids. -/
def longName : String :=
  "Run the integration tests against the staging environment again"

/-- The two halves of a script get the same id when their label is cut short. -/
theorem not_nodup_ids_long_label :
    ¬∀ (root : Span) (options : Options), root.DistinctSuffixes →
      (Step.ids (ofSpan .builtin options root).pipeline.steps).Nodup := by
  intro distinct
  have suffixes : (mavenBuild longName).DistinctSuffixes := ⟨by decide, by decide⟩
  have clash : ¬(Step.ids (ofSpan .builtin {} (mavenBuild longName)).pipeline.steps).Nodup := by
    decide +kernel
  exact clash (distinct _ {} suffixes)

end Conversion

end TracePipeline
