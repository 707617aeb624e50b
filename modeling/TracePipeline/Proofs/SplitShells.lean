import Mathlib.Data.List.DropRight
import Mathlib.Data.List.TakeWhile
import TracePipeline.Proofs.ScriptRuns
import TracePipeline.Walk

/-! A shell that is split around the command of a tool. Its parts have one order id and come one
behind the other, so sorting keeps them together. Merging makes the scripts around the tool's step
longer at their outer ends and never reaches across that step. -/

set_option autoImplicit false

namespace TracePipeline

/-! ## Sorting -/

namespace OrderedStep

theorem insert_append_of_lt {entry : OrderedStep} {front : List OrderedStep}
    (before : ∀ other ∈ front, other.order < entry.order) (rest : List OrderedStep) :
    insert entry (front ++ rest) = front ++ insert entry rest := by
  induction front with
  | nil => rfl
  | cons other front ih =>
      obtain ⟨first, others⟩ := List.forall_mem_cons.mp before
      rw [List.cons_append, insert, if_neg (Int.not_le.mpr first), ih others, List.cons_append]

theorem insert_of_le_head {entry : OrderedStep} {entries : List OrderedStep}
    (least : ∀ first ∈ entries.head?, entry.order ≤ first.order) :
    insert entry entries = entry :: entries := by
  cases entries with
  | nil => rfl
  | cons first rest => rw [insert, if_pos (least first rfl)]

section Block

variable {own : List OrderedStep} {order : Int}

/-- A block of entries with one order id goes in front of the first entry that does not come before
it. -/
theorem foldr_insert_block (same : ∀ entry ∈ own, entry.order = order)
    (sorted : List OrderedStep) :
    own.foldr insert sorted = sorted.takeWhile (fun entry => entry.order < order) ++
      (own ++ sorted.dropWhile fun entry => entry.order < order) := by
  induction own with
  | nil => exact List.takeWhile_append_dropWhile.symm
  | cons entry own ih =>
      obtain ⟨here, others⟩ := List.forall_mem_cons.mp same
      rw [List.foldr_cons, ih others, insert_append_of_lt, insert_of_le_head, List.cons_append]
      · intro first member
        cases own with
        | nil =>
            have stops := List.head?_dropWhile_not (fun entry => entry.order < order) sorted
            rw [List.nil_append] at member
            rw [Option.mem_def.mp member] at stops
            simp only [decide_eq_false_iff_not] at stops
            omega
        | cons next own =>
            cases member
            rw [here]
            exact Int.le_of_eq (others _ (.head _)).symm
      · intro other member
        have before := List.mem_takeWhile_imp member
        rw [here]
        exact of_decide_eq_true before

/-- No entry goes into a block of entries with one order id. -/
theorem exists_insert_append (same : ∀ entry ∈ own, entry.order = order) (entry : OrderedStep)
    (front back : List OrderedStep) :
    ∃ front' back', insert entry (front ++ (own ++ back)) = front' ++ (own ++ back') := by
  induction front with
  | nil =>
      by_cases before : entry.order ≤ order
      · cases own with
        | nil => exact ⟨[], insert entry back, rfl⟩
        | cons first own =>
            refine ⟨[entry], back, insert_of_le_head ?_⟩
            intro other member
            cases member
            rw [same first (.head _)]
            exact before
      · refine ⟨[], insert entry back, insert_append_of_lt ?_ back⟩
        intro other member
        rw [same other member]
        exact Int.not_le.mp before
  | cons other front ih =>
      rw [List.cons_append, insert]
      split
      · exact ⟨entry :: other :: front, back, rfl⟩
      · obtain ⟨front', back', goes⟩ := ih
        exact ⟨other :: front', back', by rw [goes, List.cons_append]⟩

/-- Entries with one order id that come one behind the other stay so. -/
theorem exists_sort_append (same : ∀ entry ∈ own, entry.order = order)
    (earlier later : List OrderedStep) :
    ∃ front back, sort (earlier ++ (own ++ later)) = front ++ (own ++ back) := by
  induction earlier with
  | nil => exact ⟨_, _, (sort_append own later).trans (foldr_insert_block same (sort later))⟩
  | cons entry earlier ih =>
      obtain ⟨front, back, sorted⟩ := ih
      have last : sort (entry :: (earlier ++ (own ++ later))) =
          insert entry (sort (earlier ++ (own ++ later))) := rfl
      rw [List.cons_append, last, sorted]
      exact exists_insert_append same entry front back

end Block

end OrderedStep

private theorem exists_sortedSteps_ofSteps (order : Int) (steps : List Step)
    (earlier later : List OrderedStep) :
    ∃ front back, sortedSteps (earlier ++ ((Contribution.ofSteps order steps).entries ++ later)) =
      front ++ (steps ++ back) := by
  have same : ∀ entry ∈ (Contribution.ofSteps order steps).entries, entry.order = order := by
    intro entry member
    obtain ⟨step, -, rfl⟩ := List.mem_map.mp member
    rfl
  obtain ⟨front, back, sorted⟩ := OrderedStep.exists_sort_append same earlier later
  refine ⟨front.map OrderedStep.step, back.map OrderedStep.step, ?_⟩
  rw [sortedSteps, sorted, List.map_append, List.map_append]
  simp [Contribution.ofSteps, Function.comp_def]

/-! ## Merging -/

namespace Step

theorem merge?_eq_none_of_noScript {wall : Step} (noScript : wall.surroundings? = none)
    (other : Step) : merge? other wall = none ∧ merge? wall other = none := by
  simp only [merge?_eq_none_iff, mergeable_iff, noScript]
  refine ⟨fun joins => ?_, fun joins => ?_⟩
  · rw [joins.1] at joins
    cases joins.2
  · cases joins.2

/-- A step that is no script cuts a level in two, each of which is merged by itself. -/
theorem mergeFrom_append_cons {wall : Step} (noScript : wall.surroundings? = none) (head : Step)
    (front back : List Step) :
    mergeFrom head (front ++ wall :: back) =
      mergeFrom head front ++ mergeFrom wall back := by
  induction front generalizing head with
  | nil =>
      rw [List.nil_append, mergeFrom.eq_2, (merge?_eq_none_of_noScript noScript head).1]
      rfl
  | cons next front ih =>
      rw [List.cons_append, mergeFrom, mergeFrom]
      cases merge? head next with
      | some merged => exact ih merged
      | none => simp [ih]

private theorem mergeAdjacent_append_cons {wall : Step} (noScript : wall.surroundings? = none)
    (front back : List Step) :
    mergeAdjacent (front ++ wall :: back) =
      mergeAdjacent front ++ wall :: mergeAdjacent back := by
  have onward : mergeFrom wall back = wall :: mergeAdjacent back := by
    cases back with
    | nil => rfl
    | cons next back => rw [mergeFrom, (merge?_eq_none_of_noScript noScript next).2, mergeAdjacent]
  rw [← onward]
  cases front with
  | nil => rfl
  | cons head front => exact mergeFrom_append_cons noScript head front back

/-- The last step of a merged level is what the last step of the level was merged into. -/
theorem exists_last_mergeFrom {run : List Step} {head : Step} (before : MergedFrom run head)
    (rest : List Step) (last : Step) :
    ∃ front part step, mergeFrom head (rest ++ [last]) = front ++ [step] ∧
      MergedFrom (part ++ [last]) step := by
  induction rest generalizing run head with
  | nil =>
      rw [List.nil_append, mergeFrom]
      cases merges : merge? head last with
      | some merged => exact ⟨[], run, merged, rfl, before.more merges⟩
      | none => exact ⟨[head], [], last, rfl, .single last⟩
  | cons next rest ih =>
      rw [List.cons_append, mergeFrom]
      cases merges : merge? head next with
      | some merged => exact ih (before.more merges)
      | none =>
          obtain ⟨front, part, step, whole, made⟩ := ih (.single next)
          exact ⟨head :: front, part, step, by simp [whole], made⟩

private theorem exists_last_mergeAdjacent (rest : List Step) (last : Step) :
    ∃ front part step, mergeAdjacent (rest ++ [last]) = front ++ [step] ∧
      MergedFrom (part ++ [last]) step := by
  cases rest with
  | nil => exact ⟨[], [], last, rfl, .single last⟩
  | cons head rest => exact exists_last_mergeFrom (.single head) rest last

/-- The first step of a merged level is what others were merged into behind the first step of the
level. -/
theorem exists_first_mergeFrom {run : List Step} {head : Step} (before : MergedFrom run head)
    (rest : List Step) :
    ∃ more step back, mergeFrom head rest = step :: back ∧ MergedFrom (run ++ more) step := by
  induction rest generalizing run head with
  | nil => exact ⟨[], head, [], rfl, by simpa using before⟩
  | cons next rest ih =>
      rw [mergeFrom]
      cases merges : merge? head next with
      | some merged =>
          obtain ⟨more, step, back, whole, made⟩ := ih (before.more merges)
          exact ⟨next :: more, step, back, whole, by simpa using made⟩
      | none => exact ⟨[], head, mergeFrom next rest, rfl, by simpa using before⟩

end Step

/-! ## Texts that others are joined to -/

/-- A text that ends with another one, at the start of a line. -/
def EndsWith (part text : String) : Prop :=
  text = part ∨ ∃ front, text.toList = front ++ '\n' :: part.toList

/-- A text that begins with another one, at the end of a line. Line feeds at the end of that one may
be missing when more follows. -/
def BeginsWith (part text : String) : Prop :=
  text = part ∨
    ∃ rest, text.toList = Text.trimEndBy (· == '\n') part.toList ++ '\n' :: rest

private theorem endsWith_joinRuns (text part : String) : EndsWith part (Step.joinRuns text part) :=
  .inr ⟨Text.trimEndBy (· == '\n') text.toList, by simp [Step.joinRuns]⟩

private theorem Text.trimEndBy_append_cons {drop : Char → Bool} {text : List Char} {mark : Char}
    (settled : trimEndBy drop text = text) (drops : drop mark) (rest : List Char) :
    trimEndBy drop (text ++ mark :: rest) = text ∨
      trimEndBy drop (text ++ mark :: rest) = text ++ mark :: trimEndBy drop rest := by
  have whole : (text ++ mark :: rest).reverse = rest.reverse ++ mark :: text.reverse := by simp
  rw [trimEndBy, trimEndBy, whole, List.dropWhile_append]
  split
  · left
    rw [List.dropWhile_cons_of_pos drops]
    exact settled
  · right
    simp

private theorem Text.trimEndBy_trimEndBy (drop : Char → Bool) (text : List Char) :
    trimEndBy drop (trimEndBy drop text) = trimEndBy drop text :=
  List.rdropWhile_idempotent drop text

private theorem BeginsWith.joinRuns {part text : String} (begins : BeginsWith part text)
    (next : String) :
    BeginsWith part (Step.joinRuns text next) := by
  refine .inr ?_
  rw [Step.joinRuns, String.toList_ofList]
  rcases begins with rfl | ⟨rest, whole⟩
  · exact ⟨next.toList, rfl⟩
  · rw [whole]
    -- All of the rest goes if it holds nothing but line feeds.
    have settled := Text.trimEndBy_trimEndBy (· == '\n') part.toList
    have lineFeed : ('\n' == '\n') = true := rfl
    rcases Text.trimEndBy_append_cons settled lineFeed rest with gone | kept
    · exact ⟨next.toList, by rw [gone]⟩
    · exact ⟨Text.trimEndBy (· == '\n') rest ++ '\n' :: next.toList, by rw [kept]; simp⟩

namespace Step

private theorem beginsWith_joinedText (part : String) (rest : List Step) :
    BeginsWith part (joinedText part rest) := by
  have folded (scripts : List Script) {text : String} (begins : BeginsWith part text) :
      BeginsWith part (scripts.foldl (fun joined next => joinRuns joined next.run) text) := by
    induction scripts generalizing text with
    | nil => exact begins
    | cons script scripts ih => exact ih (begins.joinRuns script.run)
  exact folded _ (.inl rfl)

/-! ## Scripts in a context -/

/-- A script step that runs in a context, with a text of some kind. -/
structure RunsIn (context : Context) (shell : Shell) (kind : String → Prop) (step : Step) :
    Prop where
  surroundings : step.surroundings? = some (context.timeout, context.script shell "")
  text : ∃ script, step.script? = some script ∧ kind script.run

private theorem RunsIn.mono {context : Context} {shell : Shell} {kind wider : String → Prop}
    {step : Step} (runs : RunsIn context shell kind step) (wide : ∀ text, kind text → wider text) :
    RunsIn context shell wider step where
  surroundings := runs.surroundings
  text := by
    obtain ⟨script, own, holds⟩ := runs.text
    exact ⟨script, own, wide script.run holds⟩

private theorem text_of_merge? {head next merged : Step} (merges : merge? head next = some merged) :
    ∃ first second script, head.script? = some first ∧ next.script? = some second ∧
      merged.script? = some script ∧ script.run = joinRuns first.run second.run := by
  unfold merge? at merges
  split at merges
  case h_1 info first nextInfo second =>
    split at merges
    · cases merges
      exact ⟨first, second, _, rfl, rfl, rfl, rfl⟩
    · cases merges
  case h_2 => cases merges

section Merged

variable {context : Context} {shell : Shell} {part : String} {run : List Step} {step : Step}

private theorem MergedFrom.runsIn_endsWith {last : Step}
    (own : RunsIn context shell (· = part) last)
    (merged : MergedFrom (run ++ [last]) step) : RunsIn context shell (EndsWith part) step where
  surroundings := by rw [← merged.surroundings last (by simp), own.surroundings]
  text := by
    obtain ⟨script, only, rfl⟩ := own.text
    generalize whole : run ++ [last] = parts at merged
    cases merged with
    | single =>
        obtain ⟨-, rfl⟩ := List.append_singleton_inj.mp (whole.trans (List.nil_append [step]).symm)
        exact ⟨script, only, .inl rfl⟩
    | more before merges =>
        obtain ⟨-, rfl⟩ := List.append_singleton_inj.mp whole
        obtain ⟨first, second, joined, -, there, made, text⟩ := text_of_merge? merges
        rw [only] at there
        cases there
        exact ⟨joined, made, text ▸ endsWith_joinRuns first.run script.run⟩

private theorem MergedFrom.runsIn_beginsWith {first : Step}
    (own : RunsIn context shell (· = part) first)
    (merged : MergedFrom (first :: run) step) : RunsIn context shell (BeginsWith part) step where
  surroundings := by rw [← merged.surroundings first (.head _), own.surroundings]
  text := by
    obtain ⟨script, only, rfl⟩ := own.text
    rcases merged.single_or_tasks with alone | ⟨several, -, -⟩
    · obtain ⟨rfl, -⟩ := List.cons.inj alone
      exact ⟨script, only, .inl rfl⟩
    · obtain ⟨info, start, rest, shape, whole⟩ := merged.eq_joined several
      obtain ⟨rfl, -⟩ := List.cons.inj shape
      cases only
      exact ⟨_, by rw [whole]; rfl, beginsWith_joinedText script.run rest⟩

end Merged

end Step

/-! ## The parts of a split shell -/

/-- The parts of a split shell stand side by side: the tool's step as it was made, the text in front
of the command at the end of the script before it, and the text behind the command at the start of
the script after it. -/
def StandsTogether (context : Context) (shell : Shell) (invocation : ToolInvocation)
    (toolStep : Step) (steps : List Step) : Prop :=
  ∃ front back, steps = front ++ toolStep :: back ∧
    (invocation.before ≠ "" → ∃ earlier step, front = earlier ++ [step] ∧
      step.RunsIn context shell (EndsWith invocation.before)) ∧
    (invocation.after ≠ "" → ∃ step later, back = step :: later ∧
      step.RunsIn context shell (BeginsWith invocation.after))

namespace Span

variable {span : Span} {context : Context} {shell : Shell} {invocation : ToolInvocation}

theorem exists_stepBefore (span : Span) (context : Context) (shell : Shell)
    (some : invocation.before ≠ "") :
    ∃ step, span.stepBefore context shell invocation = [step] ∧
      step.RunsIn context shell (· = invocation.before) :=
  ⟨_, if_neg some, rfl, _, rfl, rfl⟩

theorem exists_stepAfter (span : Span) (context : Context) (shell : Shell) (tool : Tool)
    (some : invocation.after ≠ "") :
    ∃ step, span.stepAfter context shell tool invocation = [step] ∧
      step.RunsIn context shell (· = invocation.after) :=
  ⟨_, if_neg some, rfl, _, rfl, rfl⟩

theorem standsTogether_finalize (pending : PendingTool) (declared : Option Declaration)
    (earlier later : List OrderedStep) (merge : Bool) :
    StandsTogether context shell invocation
      (pending.step span invocation.arguments context declared)
      (finalize merge (earlier ++
        ((Contribution.ofSteps span.order
          (span.splitSteps context shell pending invocation declared)).entries ++ later))) := by
  obtain ⟨front, back, sorted⟩ := exists_sortedSteps_ofSteps span.order
    (span.splitSteps context shell pending invocation declared) earlier later
  have whole : front ++ (span.splitSteps context shell pending invocation declared ++ back) =
      front ++ span.stepBefore context shell invocation ++
        pending.step span invocation.arguments context declared ::
          (span.stepAfter context shell pending.tool invocation ++ back) := by
    simp [splitSteps]
  rw [whole] at sorted
  cases merge with
  | false =>
      refine ⟨_, _, sorted, fun some => ?_, fun some => ?_⟩
      · obtain ⟨step, only, runs⟩ := exists_stepBefore span context shell some
        exact ⟨front, step, by rw [only], runs.mono fun _ same => .inl same⟩
      · obtain ⟨step, only, runs⟩ := exists_stepAfter span context shell pending.tool some
        exact ⟨step, back, by rw [only]; rfl, runs.mono fun _ same => .inl same⟩
  | true =>
      rw [finalize_true, sorted, Step.mergeAdjacent_append_cons rfl]
      refine ⟨_, _, rfl, fun some => ?_, fun some => ?_⟩
      · obtain ⟨step, only, runs⟩ := exists_stepBefore span context shell some
        obtain ⟨others, part, last, merged, made⟩ := Step.exists_last_mergeAdjacent front step
        exact ⟨others, last, by rw [only, merged], made.runsIn_endsWith runs⟩
      · obtain ⟨step, only, runs⟩ := exists_stepAfter span context shell pending.tool some
        obtain ⟨more, first, others, merged, made⟩ :=
          Step.exists_first_mergeFrom (.single step) back
        exact ⟨first, others, by rw [only]; exact merged, made.runsIn_beginsWith runs⟩

/-- The parts of a shell that was taken for a tool stand together in whatever level they come to,
merged or not. -/
theorem convertLeaf_standsTogether {converter : Converter} {tools : List PendingTool}
    {state : WalkState} {pending : PendingTool}
    (usable : (converter.requiresSidecar && !span.sidecar.isPresent) = false)
    (taken : span.takenBy? tools state = some (shell, pending, invocation))
    (earlier later : List OrderedStep) (merge : Bool) :
    StandsTogether context shell invocation
      (pending.step span invocation.arguments context (state.declaration? pending.tool))
      (finalize merge
        (earlier ++ ((span.convertLeaf converter tools context state).1.entries ++ later))) := by
  have split : (span.convertLeaf converter tools context state).1 =
      .ofSteps span.order (span.splitSteps context shell pending invocation
        (state.declaration? pending.tool)) := by
    simp [convertLeaf, usable, taken]
  rw [split]
  exact standsTogether_finalize pending _ earlier later merge

/-- A shell with commands on both sides of the one that runs Maven. -/
def packagingShell : Span where
  typeName := "sh"
  spanId := "aaaaaa01"
  traceId := "t"
  parentSpanId := ""
  parent := ""
  name := "build"
  spanName := ""
  attributes := [("step.id", "3")]
  parameters := [("script", .string "cd app\nmvn package\n./deploy.sh\n\n")]
  children := []

/-- Other shells with the same order id and in the same surroundings share the outer scripts. -/
theorem standsTogether_packagingShell :
    packagingShell.takenBy? [⟨.maven, none⟩] {} =
        some (.sh, ⟨.maven, none⟩, ⟨"cd app", "package", "./deploy.sh\n"⟩) ∧
      StandsTogether {} .sh ⟨"cd app", "package", "./deploy.sh\n"⟩
        (PendingTool.step ⟨.maven, none⟩ packagingShell "package" {} none)
        (finalize true
          ([⟨3, Converter.scriptStep packagingShell {} .sh "make"⟩] ++
            ((packagingShell.convertLeaf ⟨Converter.shell .sh, false⟩ [⟨.maven, none⟩] {} {}).1.entries
              ++ [⟨3, Converter.scriptStep packagingShell {} .sh "ls"⟩]))) := by
  have taken : packagingShell.takenBy? [⟨.maven, none⟩] {} =
      some (.sh, ⟨.maven, none⟩, ⟨"cd app", "package", "./deploy.sh\n"⟩) := by
    decide +kernel
  exact ⟨taken, convertLeaf_standsTogether rfl taken _ _ true⟩

end Span

end TracePipeline
