import TracePipeline.Proofs.Ordering
import TracePipeline.Proofs.ScriptCommands
import TracePipeline.Proofs.ScriptRuns

/-! What a level does, read from left to right. Bringing a level into order sorts its entries, and
merging drops empty lines where scripts are joined: no command is lost, moved past another one or
given other surroundings. -/

set_option autoImplicit false

namespace TracePipeline

/-! ## Reading steps -/

/-- What a reader finds in a list of steps: a line of a script with all that decides how it runs, or
a step of another kind. -/
inductive Action where
  | line (timeout : Option String) (runtime : Script) (text : List Char)
  | step (step : Step)

namespace Action

def isEmptyLine : Action → Bool
  | line _ _ text => text.isEmpty
  | step _ => false

end Action

namespace Step

def scriptLines (timeout : Option String) (script : Script) : List Action :=
  (Text.splitBy (· == '\n') script.run.toList).map (.line timeout { script with run := "" })

/-- A script is read line by line, another step as a whole. -/
def reading : Step → List Action
  | .task info (.script script) => scriptLines info.timeout script
  | step => [.step step]

/-- What steps do, one after the other. Empty lines do nothing. -/
def actions (steps : List Step) : List Action :=
  (steps.flatMap reading).filter fun action => !action.isEmptyLine

end Step

namespace Text

/-- Cuts at the end of a text leave nothing but empty pieces. -/
theorem splitBy_trimEndBy (cut : Char → Bool) (text : List Char) :
    ∃ count, splitBy cut text = splitBy cut (trimEndBy cut text) ++ List.replicate count [] := by
  induction text using List.reverseRecOn with
  | nil => exact ⟨0, rfl⟩
  | append_singleton rest c ih =>
      by_cases isCut : cut c
      · obtain ⟨count, pieces⟩ := ih
        have trimmed : trimEndBy cut (rest ++ [c]) = trimEndBy cut rest := by
          simp [trimEndBy, isCut]
        refine ⟨count + 1, ?_⟩
        rw [splitBy_append_cut isCut, trimmed, pieces, List.append_assoc,
          List.replicate_succ']
        rfl
      · have trimmed : trimEndBy cut (rest ++ [c]) = rest ++ [c] := by
          simp [trimEndBy, isCut]
        exact ⟨0, by rw [trimmed, List.replicate_zero, List.append_nil]⟩

end Text

namespace Step

/-- Where two scripts are joined, empty lines at the end of the first one are dropped. -/
theorem scriptLines_joinRuns (timeout : Option String) (first second : Script) :
    ∃ kept count, scriptLines timeout first =
        kept ++ List.replicate count (.line timeout { first with run := "" } []) ∧
      scriptLines timeout { first with run := joinRuns first.run second.run } =
        kept ++ scriptLines timeout { first with run := second.run } := by
  obtain ⟨count, pieces⟩ := Text.splitBy_trimEndBy (· == '\n') first.run.toList
  refine ⟨(Text.splitBy (· == '\n') (Text.trimEndBy (· == '\n') first.run.toList)).map
    (.line timeout { first with run := "" }), count, ?_, ?_⟩
  · rw [scriptLines, pieces, List.map_append, List.map_replicate]
  · rw [scriptLines, scriptLines, joinRuns, String.toList_ofList,
      Text.splitBy_append_cut (by rfl), List.map_append]

/-- Merging a script into the one before it drops empty lines at the joint and nothing else. -/
theorem reading_of_merge? {head next merged : Step} (merges : merge? head next = some merged) :
    ∃ kept dropped, head.reading = kept ++ dropped ∧ (∀ action ∈ dropped, action.isEmptyLine) ∧
      merged.reading = kept ++ next.reading := by
  unfold merge? at merges
  split at merges
  case h_2 => cases merges
  case h_1 info script nextInfo nextScript =>
    split at merges
    case isFalse => cases merges
    case isTrue same =>
      cases merges
      obtain ⟨timeout, runtime⟩ := Bool.and_eq_true_iff.mp same
      have surroundings := sameRuntime_iff.mp runtime
      obtain ⟨kept, count, whole, joined⟩ := scriptLines_joinRuns info.timeout script nextScript
      refine ⟨kept, List.replicate count _, whole, ?_, ?_⟩
      · intro action member
        rw [List.eq_of_mem_replicate member]
        rfl
      · have following : scriptLines info.timeout { script with run := nextScript.run } =
            scriptLines nextInfo.timeout nextScript := by
          rw [of_decide_eq_true timeout, scriptLines, scriptLines, ← surroundings]
        rw [reading, reading, joined, following]

private theorem actions_append (first second : List Step) :
    actions (first ++ second) = actions first ++ actions second := by
  rw [actions, List.flatMap_append, List.filter_append, actions, actions]

private theorem actions_cons (step : Step) (rest : List Step) :
    actions (step :: rest) = actions [step] ++ actions rest :=
  actions_append [step] rest

private theorem actions_of_merge? {head next merged : Step}
    (merges : merge? head next = some merged) :
    actions [merged] = actions [head] ++ actions [next] := by
  obtain ⟨kept, dropped, whole, empty, joined⟩ := reading_of_merge? merges
  have nothing : dropped.filter (fun action => !action.isEmptyLine) = [] := by
    simpa using empty
  simp only [actions, List.flatMap_singleton, whole, joined, List.filter_append, nothing,
    List.append_nil]

private theorem actions_mergeFrom (head : Step) (rest : List Step) :
    actions (mergeFrom head rest) = actions (head :: rest) := by
  induction rest generalizing head with
  | nil => rfl
  | cons next rest ih =>
      rw [mergeFrom]
      cases merges : merge? head next with
      | some merged =>
          calc actions (mergeFrom merged rest)
              = actions [merged] ++ actions rest := by rw [ih, actions_cons]
            _ = actions [head] ++ actions [next] ++ actions rest := by
                rw [actions_of_merge? merges]
            _ = actions (head :: next :: rest) := by
                rw [List.append_assoc, ← actions_cons, ← actions_cons]
      | none =>
          calc actions (head :: mergeFrom next rest)
              = actions [head] ++ actions (mergeFrom next rest) := actions_cons _ _
            _ = actions (head :: next :: rest) := by rw [ih, ← actions_cons]

private theorem reading_mergeFrom_sublist (head : Step) (rest : List Step) :
    ((mergeFrom head rest).flatMap reading).Sublist ((head :: rest).flatMap reading) := by
  induction rest generalizing head with
  | nil => exact .refl _
  | cons next rest ih =>
      rw [mergeFrom]
      cases merges : merge? head next with
      | some merged =>
          obtain ⟨kept, dropped, whole, -, joined⟩ := reading_of_merge? merges
          refine (ih merged).trans ?_
          simp only [List.flatMap_cons, whole, joined, List.append_assoc]
          exact (List.Sublist.refl kept).append (List.sublist_append_right dropped _)
      | none => exact (List.Sublist.refl head.reading).append (ih next)

theorem actions_mergeAdjacent (steps : List Step) :
    actions (mergeAdjacent steps) = actions steps := by
  cases steps with
  | nil => rfl
  | cons head rest => exact actions_mergeFrom head rest

theorem reading_mergeAdjacent_sublist (steps : List Step) :
    ((mergeAdjacent steps).flatMap reading).Sublist (steps.flatMap reading) := by
  cases steps with
  | nil => exact .refl _
  | cons head rest => exact reading_mergeFrom_sublist head rest

end Step

open OrderedStep (StablySorted)

/-- A level does what its entries do in the order of their ids, equal ids in the order they came.
Of all that can be read in the sorted entries, merging removes only empty lines. -/
theorem finalize_keeps_actions (merge : Bool) (entries : List OrderedStep) :
    ∃ sorted, StablySorted entries sorted ∧
      (∀ others, StablySorted entries others → others = sorted) ∧
      Step.actions (finalize merge entries) = Step.actions (sorted.map OrderedStep.step) ∧
      ((finalize merge entries).flatMap Step.reading).Sublist
        ((sorted.map OrderedStep.step).flatMap Step.reading) := by
  have stably := OrderedStep.stablySorted_sort entries
  refine ⟨OrderedStep.sort entries, stably, fun others again => stably.unique again, ?_⟩
  cases merge with
  | false => exact ⟨rfl, .refl _⟩
  | true => exact ⟨Step.actions_mergeAdjacent _, Step.reading_mergeAdjacent_sublist _⟩

end TracePipeline
