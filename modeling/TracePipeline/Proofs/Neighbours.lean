import TracePipeline.Proofs.MergePass

/-! Neighbours after merging. Two neighbouring scripts of a level are merged just if they may take
equally long and run in the same surroundings. A merged script keeps both, so that in the end no
neighbours are left to merge, and merging once more changes nothing. -/

set_option autoImplicit false

namespace TracePipeline

namespace Step

/-- Two scripts that may take equally long and run in the same surroundings. -/
def Mergeable (first second : Step) : Prop :=
  ∃ (info nextInfo : StepInfo) (script nextScript : Script),
    first = .task info (.script script) ∧ second = .task nextInfo (.script nextScript) ∧
      info.timeout = nextInfo.timeout ∧ script.sameRuntime nextScript

/-- There is nothing to merge among neighbours. -/
def Settled (steps : List Step) : Prop :=
  steps.IsChain fun first second => ¬Mergeable first second

theorem merge?_eq_none_iff {head next : Step} : merge? head next = none ↔ ¬Mergeable head next := by
  constructor
  · rintro stays ⟨info, nextInfo, script, nextScript, rfl, rfl, timeout, runtime⟩
    simp [merge?, timeout, runtime] at stays
  · intro apart
    unfold merge?
    split
    · rename_i info script nextInfo nextScript
      rw [if_neg]
      intro same
      obtain ⟨timeout, runtime⟩ := Bool.and_eq_true_iff.mp same
      exact apart ⟨info, nextInfo, script, nextScript, rfl, rfl, of_decide_eq_true timeout, runtime⟩
    · rfl

/-- What comes before a script sees no difference when another one is merged into it. -/
theorem mergeable_merged_iff {head next merged : Step} (merges : merge? head next = some merged)
    (before : Step) : Mergeable before merged ↔ Mergeable before head := by
  obtain ⟨info, nextInfo, script, nextScript, name, run, rfl, rfl, rfl⟩ := merge?_eq_some merges
  constructor
  · rintro ⟨info', _, script', _, rfl, same, timeout, runtime⟩
    cases same
    exact ⟨info', info, script', script, rfl, rfl, timeout, runtime⟩
  · rintro ⟨info', _, script', _, rfl, same, timeout, runtime⟩
    cases same
    exact ⟨info', _, script', _, rfl, rfl, timeout, runtime⟩

theorem settled_mergeFrom (head : Step) (rest : List Step) :
    Settled (mergeFrom head rest) ∧
      ∀ before, ¬Mergeable before head → Settled (before :: mergeFrom head rest) := by
  induction rest generalizing head with
  | nil => exact ⟨.singleton _, fun before apart => .cons_cons apart (.singleton _)⟩
  | cons next rest ih =>
      rw [mergeFrom]
      cases merges : merge? head next with
      | some merged =>
          obtain ⟨settled, behind⟩ := ih merged
          refine ⟨settled, fun before apart => behind before ?_⟩
          rwa [mergeable_merged_iff merges]
      | none =>
          have settled := (ih next).2 head (merge?_eq_none_iff.mp merges)
          exact ⟨settled, fun before apart => .cons_cons apart settled⟩

theorem settled_mergeAdjacent (steps : List Step) : Settled (mergeAdjacent steps) := by
  cases steps with
  | nil => exact .nil
  | cons head rest => exact (settled_mergeFrom head rest).1

private theorem mergeFrom_eq_self {head : Step} {rest : List Step}
    (settled : Settled (head :: rest)) :
    mergeFrom head rest = head :: rest := by
  induction rest generalizing head with
  | nil => rfl
  | cons next rest ih =>
      obtain ⟨apart, others⟩ := List.isChain_cons_cons.mp settled
      rw [mergeFrom, merge?_eq_none_iff.mpr apart, ih others]

theorem mergeAdjacent_eq_self {steps : List Step} (settled : Settled steps) :
    mergeAdjacent steps = steps := by
  cases steps with
  | nil => rfl
  | cons head rest => exact mergeFrom_eq_self settled

/-- Merging makes tasks and passes the other steps on. -/
theorem mem_mergeFrom {head step : Step} {rest : List Step} (member : step ∈ mergeFrom head rest) :
    step ∈ head :: rest ∨ step.isTask := by
  induction rest generalizing head with
  | nil => exact .inl member
  | cons next rest ih =>
      rw [mergeFrom] at member
      cases merges : merge? head next with
      | some merged =>
          rw [merges] at member
          rcases ih member with old | task
          · rcases List.mem_cons.mp old with rfl | later
            · obtain ⟨_, _, _, _, _, _, rfl, rfl, rfl⟩ := merge?_eq_some merges
              exact .inr rfl
            · exact .inl (.tail _ (.tail _ later))
          · exact .inr task
      | none =>
          rw [merges] at member
          rcases List.mem_cons.mp member with rfl | behind
          · exact .inl (.head _)
          · exact (ih behind).imp_left (.tail _)

private theorem mem_mergeAdjacent {step : Step} {steps : List Step}
    (member : step ∈ mergeAdjacent steps) : step ∈ steps ∨ step.isTask := by
  cases steps with
  | nil => cases member
  | cons head rest => exact mem_mergeFrom member

end Step

/-- Bringing a level into order keeps what all tasks have. -/
theorem forall_mem_finalize {property : Step → Prop}
    (tasks : ∀ step : Step, step.isTask → property step) {entries : List OrderedStep}
    (each : ∀ entry ∈ entries, property entry.step) (merge : Bool) :
    ∀ step ∈ finalize merge entries, property step := by
  have sorted : ∀ step ∈ sortedSteps entries, property step := by
    intro step member
    obtain ⟨entry, present, rfl⟩ := mem_sortedSteps.mp member
    exact each entry present
  cases merge with
  | false => exact sorted
  | true =>
      intro step member
      rcases Step.mem_mergeAdjacent member with old | task
      · exact sorted step old
      · exact tasks step task

theorem settled_finalize_true (entries : List OrderedStep) :
    Step.Settled (finalize true entries) :=
  Step.settled_mergeAdjacent _

end TracePipeline
