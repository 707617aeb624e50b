import Mathlib.Data.List.Chain
import Mathlib.Data.List.Forall2
import TracePipeline.Proofs.NameBounds

/-! Runs of scripts. A level falls in exactly one way into runs that are as long as they can be, and
merging turns each of them into one step. -/

set_option autoImplicit false

namespace TracePipeline

namespace Step

/-! ## Surroundings -/

/-- How long a script may take, and the script without its text: what two scripts must have in
common to share a step. -/
def surroundings? : Step → Option (Option String × Script)
  | .task info (.script script) => some (info.timeout, { script with run := "" })
  | _ => none

theorem sameRuntime_iff {first second : Script} :
    first.sameRuntime second ↔
      ({ first with run := "" } : Script) = { second with run := "" } := by
  simp [Script.sameRuntime, and_assoc]

private theorem eq_of_surroundings? {step : Step} {found : Option String × Script}
    (some : step.surroundings? = some found) : ∃ (info : StepInfo) (script : Script),
      step = .task info (.script script) ∧ found = (info.timeout, { script with run := "" }) := by
  unfold surroundings? at some
  split at some
  case h_1 info script => exact ⟨info, script, rfl, (Option.some.inj some).symm⟩
  case h_2 => cases some

theorem mergeable_iff {first second : Step} :
    Mergeable first second ↔ first.surroundings? = second.surroundings? ∧
      first.surroundings?.isSome := by
  constructor
  · rintro ⟨info, nextInfo, script, nextScript, rfl, rfl, timeout, runtime⟩
    refine ⟨?_, rfl⟩
    rw [surroundings?, surroundings?, timeout, sameRuntime_iff.mp runtime]
  · rintro ⟨same, some⟩
    obtain ⟨what, there⟩ := Option.isSome_iff_exists.mp some
    obtain ⟨info, script, rfl, rfl⟩ := eq_of_surroundings? there
    obtain ⟨nextInfo, nextScript, rfl, equal⟩ := eq_of_surroundings? (same.symm.trans there)
    obtain ⟨timeout, runtime⟩ := Prod.mk.inj equal
    exact ⟨info, nextInfo, script, nextScript, rfl, rfl, timeout, sameRuntime_iff.mpr runtime⟩

/-- What is merged runs in the surroundings of all its parts. -/
theorem MergedFrom.surroundings {run : List Step} {step : Step} (merged : MergedFrom run step) :
    ∀ part ∈ run, part.surroundings? = step.surroundings? := by
  induction merged with
  | single step =>
      intro part member
      rw [List.mem_singleton.mp member]
  | @more run head next merged before merges ih =>
      have joins : Mergeable head next := by
        by_contra apart
        rw [merge?_eq_none_iff.mpr apart] at merges
        cases merges
      have kept : merged.surroundings? = head.surroundings? := by
        obtain ⟨_, _, _, _, _, _, rfl, rfl, rfl⟩ := merge?_eq_some merges
        rfl
      intro part member
      rw [kept]
      rcases List.mem_append.mp member with earlier | last
      · exact ih part earlier
      · rw [List.mem_singleton.mp last]
        exact (mergeable_iff.mp joins).1.symm

/-! ## Runs -/

/-- Steps that may share one: a single step, or scripts of which any two could be merged. -/
def IsRun (steps : List Step) : Prop :=
  (∃ step, steps = [step]) ∨
    steps ≠ [] ∧ ∀ first ∈ steps, ∀ second ∈ steps, Mergeable first second

theorem IsRun.ne_nil {run : List Step} (isRun : IsRun run) : run ≠ [] := by
  rcases isRun with ⟨step, rfl⟩ | ⟨some, -⟩
  · simp
  · exact some

private theorem IsRun.mergeable {run left right : List Step} (isRun : IsRun run)
    (split : run = left ++ right) {first second : Step} (before : first ∈ left)
    (after : second ∈ right) : Mergeable first second := by
  subst split
  rcases isRun with ⟨step, single⟩ | ⟨-, all⟩
  · have lengths := congrArg List.length single
    have some := List.length_pos_of_mem before
    have more := List.length_pos_of_mem after
    rw [List.length_append, List.length_singleton] at lengths
    omega
  · exact all first (List.mem_append_left _ before) second (List.mem_append_right _ after)

private theorem MergedFrom.isRun {run : List Step} {step : Step} (merged : MergedFrom run step) :
    IsRun run := by
  cases merged with
  | single => exact .inl ⟨step, rfl⟩
  | @more run head next _ before merges =>
      have script : step.surroundings?.isSome := by
        obtain ⟨_, _, _, _, _, _, rfl, rfl, rfl⟩ := merge?_eq_some merges
        rfl
      have same := (before.more merges).surroundings
      refine .inr ⟨by simp, fun first member second member' => mergeable_iff.mpr ?_⟩
      rw [same first member, same second member']
      exact ⟨rfl, script⟩

/-- A division of a level into runs none of which reaches into its neighbours. -/
structure MaximalRuns (steps : List Step) (runs : List (List Step)) : Prop where
  flatten_eq : runs.flatten = steps
  isRun : ∀ run ∈ runs, IsRun run
  maximal : ∀ before run after, runs = before ++ run :: after →
    ∀ left right, left <:+ before.flatten → right <+: after.flatten →
      IsRun (left ++ run ++ right) → left = [] ∧ right = []

private theorem MaximalRuns.tail {run : List Step} {runs : List (List Step)} {steps : List Step}
    (divided : MaximalRuns steps (run :: runs)) : MaximalRuns runs.flatten runs where
  flatten_eq := rfl
  isRun := fun inner member => divided.isRun inner (.tail _ member)
  maximal := by
    rintro before inner after rfl left right atEnd atStart isRun
    refine divided.maximal (run :: before) inner after rfl left right ?_ atStart isRun
    exact atEnd.trans (List.suffix_append run before.flatten)

theorem MaximalRuns.unique {steps : List Step} {runs others : List (List Step)}
    (divided : MaximalRuns steps runs) (other : MaximalRuns steps others) : others = runs := by
  induction runs generalizing steps others with
  | nil =>
      cases others with
      | nil => rfl
      | cons first rest =>
          have nothing := other.flatten_eq.trans divided.flatten_eq.symm
          exact absurd (List.append_eq_nil_iff.mp nothing).1 (other.isRun first (.head _)).ne_nil
  | cons run runs ih =>
      cases others with
      | nil =>
          have nothing := divided.flatten_eq.trans other.flatten_eq.symm
          exact absurd (List.append_eq_nil_iff.mp nothing).1 (divided.isRun run (.head _)).ne_nil
      | cons first rest =>
          have same : run ++ runs.flatten = first ++ rest.flatten :=
            divided.flatten_eq.trans other.flatten_eq.symm
          -- The longer one of the two first runs would reach into the neighbours of the other.
          have level : first = run := by
            obtain ⟨more, long, behind⟩ | ⟨more, long, behind⟩ := List.append_eq_append_iff.mp same
            · have reaches : IsRun ([] ++ run ++ more) := by
                rw [List.nil_append, ← long]
                exact other.isRun first (.head _)
              have nothing := (divided.maximal [] run runs rfl [] more List.nil_suffix
                ⟨rest.flatten, behind.symm⟩ reaches).2
              rw [long, nothing, List.append_nil]
            · have reaches : IsRun ([] ++ first ++ more) := by
                rw [List.nil_append, ← long]
                exact divided.isRun run (.head _)
              have nothing := (other.maximal [] first rest rfl [] more List.nil_suffix
                ⟨runs.flatten, behind.symm⟩ reaches).2
              rw [long, nothing, List.append_nil]
          subst level
          have flat : rest.flatten = runs.flatten := List.append_cancel_left same.symm
          have onward := other.tail
          rw [flat] at onward
          rw [ih divided.tail onward]

/-! ## Merging run by run -/

private theorem exists_runs_mergeFrom {run : List Step} {head : Step} (before : MergedFrom run head)
    (rest : List Step) :
    ∃ runs, runs.flatten = run ++ rest ∧ List.Forall₂ MergedFrom runs (mergeFrom head rest) := by
  induction rest generalizing run head with
  | nil => exact ⟨[run], by simp, .cons before .nil⟩
  | cons next rest ih =>
      rw [mergeFrom]
      cases merges : merge? head next with
      | some merged =>
          obtain ⟨runs, flat, each⟩ := ih (before.more merges)
          exact ⟨runs, by simpa using flat, each⟩
      | none =>
          obtain ⟨runs, flat, each⟩ := ih (.single next)
          exact ⟨run :: runs, by simpa using flat, .cons before each⟩

theorem exists_runs_mergeAdjacent (steps : List Step) :
    ∃ runs, runs.flatten = steps ∧ List.Forall₂ MergedFrom runs (mergeAdjacent steps) := by
  cases steps with
  | nil => exact ⟨[], rfl, .nil⟩
  | cons head rest => exact exists_runs_mergeFrom (.single head) rest

private theorem MergedFrom.apart {run next : List Step} {step merged : Step}
    (here : MergedFrom run step) (there : MergedFrom next merged)
    (stays : ¬Mergeable step merged) : ∀ first ∈ run, ∀ second ∈ next, ¬Mergeable first second := by
  intro first member second member' joins
  rw [mergeable_iff, here.surroundings first member, there.surroundings second member'] at joins
  exact stays (mergeable_iff.mpr joins)

private theorem isRun_of_mem {runs : List (List Step)} {steps : List Step}
    (each : List.Forall₂ MergedFrom runs steps) : ∀ run ∈ runs, IsRun run := by
  induction each with
  | nil => simp
  | cons here _ ih => exact List.forall_mem_cons.mpr ⟨here.isRun, ih⟩

/-- Runs whose merged steps cannot be merged have nothing in common at their borders. -/
theorem apart_of_settled {runs : List (List Step)} {steps : List Step}
    (each : List.Forall₂ MergedFrom runs steps) (settled : Settled steps) :
    runs.IsChain fun run next => ∀ first ∈ run, ∀ second ∈ next, ¬Mergeable first second := by
  induction each with
  | nil => exact .nil
  | @cons run step runs steps here others ih =>
      cases others with
      | nil => exact .singleton _
      | cons there more =>
          obtain ⟨stays, behind⟩ := List.isChain_cons_cons.mp settled
          exact .cons_cons (here.apart there stays) (ih behind)

theorem maximalRuns_of_apart {runs : List (List Step)} (isRun : ∀ run ∈ runs, IsRun run)
    (apart : runs.IsChain fun run next => ∀ first ∈ run, ∀ second ∈ next,
      ¬Mergeable first second) :
    MaximalRuns runs.flatten runs where
  flatten_eq := rfl
  isRun := isRun
  maximal := by
    rintro before run after rfl left right atEnd atStart reaches
    obtain ⟨inner, inside⟩ := List.exists_mem_of_ne_nil run (isRun run (by simp)).ne_nil
    constructor
    · -- The last step of `left` is the last one of the run before.
      by_contra some
      rcases List.eq_nil_or_concat before with rfl | ⟨earlier, last, rfl⟩
      · exact some (List.suffix_nil.mp atEnd)
      have nonempty := (isRun last (by simp)).ne_nil
      have inLast : left.getLast some ∈ last := by
        rw [atEnd.getLast some]
        simp [List.getLast_append_of_ne_nil, nonempty]
      have borders := (List.isChain_append.mp apart).2.2 last (by simp) run rfl
      refine borders _ inLast inner inside ?_
      exact reaches.mergeable (List.append_assoc left run right) (List.getLast_mem some)
        (List.mem_append_left _ inside)
    · by_contra some
      cases after with
      | nil => exact some (List.prefix_nil.mp atStart)
      | cons next later =>
          have nonempty := (isRun next (by simp)).ne_nil
          have inNext : right.head some ∈ next := by
            rw [atStart.head some]
            simp [List.head_append_of_ne_nil, nonempty]
          have borders := (List.isChain_cons_cons.mp (List.isChain_append.mp apart).2.1).1
          refine borders inner inside _ inNext ?_
          exact reaches.mergeable rfl (List.mem_append_right _ inside) (List.head_mem some)

/-! ## The step of a run -/

/-- The texts of scripts that run one after the other, joined. -/
def joinedText (text : String) (rest : List Step) : String :=
  (rest.filterMap script?).foldl (fun joined next => joinRuns joined next.run) text

/-- What a run becomes. A single step stays as it is; of more steps the first one stays, with the
names and the texts of all. -/
structure FoldsTo (run : List Step) (step : Step) : Prop where
  alone : ∀ only, run = [only] → step = only
  joined : 2 ≤ run.length → ∃ (info : StepInfo) (script : Script) (rest : List Step),
    run = .task info (.script script) :: rest ∧
      step = .task { info with name := "_".intercalate (run.map Step.name) }
        (.script { script with run := joinedText script.run rest })

theorem MergedFrom.eq_joined {run : List Step} {step : Step} (merged : MergedFrom run step)
    (several : 2 ≤ run.length) : ∃ (info : StepInfo) (script : Script) (rest : List Step),
      run = .task info (.script script) :: rest ∧
        step = .task { info with name := step.name }
          (.script { script with run := joinedText script.run rest }) := by
  induction merged with
  | single step => simp at several
  | @more run head next merged before merges ih =>
      obtain ⟨info, nextInfo, script, nextScript, _, _, rfl, rfl, -⟩ := merge?_eq_some merges
      have whole : merged = .task { info with name := info.name ++ "_" ++ nextInfo.name }
          (.script { script with run := joinRuns script.run nextScript.run }) := by
        simp only [merge?] at merges
        split at merges
        · exact (Option.some.inj merges).symm
        · cases merges
      subst whole
      rcases before.single_or_tasks with rfl | ⟨more, -, -⟩
      · exact ⟨info, script, [_], rfl, rfl⟩
      · obtain ⟨first, firstScript, rest, rfl, same⟩ := ih more
        obtain ⟨sameInfo, sameScript⟩ := Step.task.inj same
        refine ⟨first, firstScript, rest ++ [.task nextInfo (.script nextScript)], rfl, ?_⟩
        rw [sameInfo, Task.script.inj sameScript]
        simp [joinedText, script?, Step.name, Step.info]

theorem MergedFrom.foldsTo {run : List Step} {step : Step} (merged : MergedFrom run step) :
    FoldsTo run step where
  alone := by
    rintro only rfl
    rcases merged.single_or_tasks with same | ⟨several, -, -⟩
    · exact (List.cons.inj same).1.symm
    · simp at several
  joined := by
    intro several
    rw [← merged.name_eq]
    exact merged.eq_joined several

/-- Merging turns each of the runs of a level into one step, in their order. After that there is
nothing to merge, and merging once more changes nothing. -/
theorem mergeAdjacent_folds_runs (steps : List Step) :
    ∃ runs, MaximalRuns steps runs ∧ (∀ others, MaximalRuns steps others → others = runs) ∧
      List.Forall₂ FoldsTo runs (mergeAdjacent steps) ∧
      (mergeAdjacent steps).IsChain (fun first second => ¬Mergeable first second) ∧
      mergeAdjacent (mergeAdjacent steps) = mergeAdjacent steps := by
  obtain ⟨runs, rfl, each⟩ := exists_runs_mergeAdjacent steps
  have settled := settled_mergeAdjacent runs.flatten
  have divided := maximalRuns_of_apart (isRun_of_mem each) (apart_of_settled each settled)
  exact ⟨runs, divided, fun others other => divided.unique other,
    each.imp fun _ _ merged => merged.foldsTo, settled, mergeAdjacent_eq_self settled⟩

end Step

end TracePipeline
