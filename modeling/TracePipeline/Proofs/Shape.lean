import TracePipeline.Proofs.Neighbours

/-! The shape of a finished document. Parallel steps have branches, groups have members and are
nothing but branches, and on no level that was merged are there neighbours left to merge. -/

set_option autoImplicit false

namespace TracePipeline

namespace Step

/-- How a step is made, apart from the steps deeper inside it. -/
def Formed (merge : Bool) : Step → Prop
  | .task .. => True
  | .block _ .parallel branches => 1 ≤ branches.length
  | .block _ .group members =>
    2 ≤ members.length ∧ (∀ member ∈ members, member.isGroup = false) ∧
      (merge = true → Settled members)

/-- All steps of a tree are well made. -/
def FormedInside (merge : Bool) (step : Step) : Prop :=
  ∀ inner ∈ subtree step, inner.Formed merge

/-- A well made tree that may stand on any level. -/
structure Placed (merge : Bool) (step : Step) : Prop where
  single : step.isGroup = false
  inside : step.FormedInside merge

theorem mem_subtrees {inner : Step} {steps : List Step} :
    inner ∈ subtrees steps ↔ ∃ step ∈ steps, inner ∈ subtree step := by
  rw [subtrees_eq_flatMap, List.mem_flatMap]

theorem placed_of_isTask (merge : Bool) {step : Step} (task : step.isTask) : step.Placed merge := by
  cases step with
  | task info payload =>
      refine ⟨rfl, fun inner member => ?_⟩
      rw [List.mem_singleton.mp member]
      trivial
  | block info kind steps => cases task

theorem formedInside_block {merge : Bool} {info : StepInfo} {kind : Block} {steps : List Step}
    (own : (block info kind steps).Formed merge) (each : ∀ step ∈ steps, step.FormedInside merge) :
    (block info kind steps).FormedInside merge := by
  intro inner member
  rcases List.mem_cons.mp member with rfl | deeper
  · exact own
  · obtain ⟨step, present, below⟩ := mem_subtrees.mp deeper
    exact each step present inner below

end Step

/-! ## Branches and stages -/

namespace Span

variable {merge : Bool} {steps : List Step}

private theorem formedInside_of_mem_branchStep (span : Span)
    (placed : ∀ step ∈ steps, step.Placed merge) (settled : merge = true → Step.Settled steps) :
    ∀ entry ∈ span.branchStep steps, entry.step.FormedInside merge := by
  intro entry member
  match steps with
  | [] => cases member
  | [step] =>
      rw [List.mem_singleton.mp member]
      exact (placed step (.head _)).inside
  | first :: second :: rest =>
      rw [List.mem_singleton.mp member]
      apply Step.formedInside_block
      · exact ⟨by simp, fun step present => (placed step present).single, settled⟩
      · exact fun step present => (placed step present).inside

private theorem placed_of_mem_stageStep (span : Span) (context : Context)
    {branches : List OrderedStep} (formed : ∀ entry ∈ branches, entry.step.FormedInside merge) :
    ∀ entry ∈ (span.stageStep context branches).entries, entry.step.Placed merge := by
  intro entry member
  cases branches with
  | nil => cases member
  | cons first rest =>
      rw [List.mem_singleton.mp member]
      refine ⟨rfl, Step.formedInside_block ?_ ?_⟩
      · change 1 ≤ (sortedSteps (first :: rest)).length
        rw [length_sortedSteps]
        exact Nat.succ_le_succ (Nat.zero_le _)
      · intro step present
        obtain ⟨branch, inside, rfl⟩ := mem_sortedSteps.mp present
        exact formed branch inside

end Span

/-! ## Outlines -/

namespace Outline

variable {registry : Registry}

private theorem formedInside_of_mem_branch {options : Options} {merge : Bool} {outline : Outline}
    (placed : ∀ entry ∈ outline.entries registry options merge, entry.step.Placed merge) :
    ∀ entry ∈ outline.branch registry options merge, entry.step.FormedInside merge := by
  apply Span.formedInside_of_mem_branchStep
  · exact forall_mem_finalize (fun _ => Step.placed_of_isTask merge) placed merge
  · rintro rfl
    exact settled_finalize_true _

/-- Every entry of a walk is well made, and none is a group. -/
theorem placed_of_mem_entries (standard : registry.Standard) (options : Options) (merge : Bool)
    (outline : Outline) :
    ∀ entry ∈ outline.entries registry options merge, entry.step.Placed merge := by
  induction outline using induct_inside with
  | step stop inside ih =>
      intro entry member
      rw [entries_node, List.mem_append] at member
      rcases member with own | below
      · obtain ⟨step, contributed, rfl⟩ := List.mem_map.mp own
        exact Step.placed_of_isTask merge (stop.isTask_of_mem_steps standard options step contributed)
      split at below
      · refine Span.placed_of_mem_stageStep _ _ ?_ entry below
        intro branch present
        obtain ⟨outline, inner, present⟩ := List.mem_flatMap.mp present
        exact formedInside_of_mem_branch (ih outline inner) branch present
      · obtain ⟨outline, inner, present⟩ := List.mem_flatMap.mp below
        exact ih outline inner entry present

end Outline

/-! ## Documents -/

/-- The blocks of a document are put together as they should be. -/
structure Step.Shaped (merge : Bool) (steps : List Step) : Prop where
  parallel : ∀ info branches, .block info .parallel branches ∈ subtrees steps → 1 ≤ branches.length
  group : ∀ info members, .block info .group members ∈ subtrees steps → 2 ≤ members.length
  /-- A group is neither on the outermost level nor inside anything but a parallel step. -/
  outermost : ∀ step ∈ steps, step.isGroup = false
  inside : ∀ outer ∈ subtrees steps, ∀ inner ∈ outer.children, inner.isGroup = true →
    ∃ info branches, outer = .block info .parallel branches
  /-- With merging there are no neighbours left to merge, so that merging changes nothing. -/
  settled : merge = true → Settled steps ∧ mergeAdjacent steps = steps
  members : merge = true → ∀ info members, .block info .group members ∈ subtrees steps →
    Settled members ∧ mergeAdjacent members = members

namespace Conversion

/-- Every conversion gives a document of the right shape. -/
theorem ofSpan_shaped (options : Options) (root : Span) :
    Step.Shaped options.mergeSteps (ofSpan .builtin options root).pipeline.steps := by
  have steps : (ofSpan .builtin options root).pipeline.steps =
      finalize options.mergeSteps
        ((root.rootOutline .builtin).entries .builtin options options.mergeSteps) :=
    steps_eq Registry.builtin_convertsShells options options.mergeSteps root
  have placed : ∀ step ∈ (ofSpan .builtin options root).pipeline.steps,
      step.Placed options.mergeSteps := by
    rw [steps]
    exact forall_mem_finalize (fun _ => Step.placed_of_isTask _)
      (Outline.placed_of_mem_entries Registry.builtin_standard options _ _) _
  have formed : ∀ inner ∈ Step.subtrees (ofSpan .builtin options root).pipeline.steps,
      inner.Formed options.mergeSteps := by
    intro inner member
    obtain ⟨step, present, below⟩ := Step.mem_subtrees.mp member
    exact (placed step present).inside inner below
  refine {
    parallel := fun info branches member => formed _ member
    group := fun info members member => (formed _ member).1
    outermost := fun step member => (placed step member).single
    inside := ?_
    settled := ?_
    members := ?_ }
  · intro outer member inner child isGroup
    match outer with
    | .task info payload => cases child
    | .block info .parallel branches => exact ⟨info, branches, rfl⟩
    | .block info .group members =>
        rw [(formed _ member).2.1 inner child] at isGroup
        cases isGroup
  · intro merge
    have settled : Step.Settled (ofSpan .builtin options root).pipeline.steps := by
      rw [steps, merge]
      exact settled_finalize_true _
    exact ⟨settled, Step.mergeAdjacent_eq_self settled⟩
  · intro merge info members member
    have settled : Step.Settled members := (formed _ member).2.2 merge
    exact ⟨settled, Step.mergeAdjacent_eq_self settled⟩

end Conversion

end TracePipeline
