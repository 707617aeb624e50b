import Mathlib.Data.List.DropRight
import TracePipeline.Label
import TracePipeline.Tool

/-! Ids made from labels. An id is a base that comes from the label and a suffix that comes from
the span. Two ids of one span are the same just if their bases are; ids of spans with different
suffixes never are. -/

set_option autoImplicit false

namespace TracePipeline.Label

/-- A label with its unsafe characters replaced, without underscores at its ends. -/
def cleaned (label : String) : List Char :=
  Text.trimBy (· == '_') (collapse isIdSafe false label.toList)

/-- The part of an id that comes from the label. -/
def base (label : String) : List Char :=
  (orFallback (cleaned label)).take idLimit

def suffix (spanId : String) : List Char :=
  spanId.toList.take suffixLength

theorem stepId_eq (label spanId : String) :
    stepId label spanId = String.ofList (base label ++ suffix spanId) := rfl

theorem stepId_inj_base {first second spanId : String} :
    stepId first spanId = stepId second spanId ↔ base first = base second := by
  rw [stepId_eq, stepId_eq, String.ofList_inj]
  exact List.append_left_inj _

private theorem length_suffix {spanId : String} (long : suffixLength ≤ spanId.length) :
    (suffix spanId).length = suffixLength := by
  rw [suffix, List.length_take, String.length_toList]
  exact Nat.min_eq_left long

/-- Full suffixes can be read off the ids. -/
theorem suffix_eq_of_stepId_eq {label label' spanId spanId' : String}
    (long : suffixLength ≤ spanId.length) (long' : suffixLength ≤ spanId'.length)
    (same : stepId label spanId = stepId label' spanId') : suffix spanId = suffix spanId' := by
  rw [stepId_eq, stepId_eq, String.ofList_inj] at same
  exact (List.append_inj' same (by rw [length_suffix long, length_suffix long'])).2

/-! ## Bases of tools -/

private theorem cleaned_tool (tool : Tool) :
    cleaned tool.label ≠ [] ∧ (cleaned tool.label).length < idLimit ∧
      cleaned tool.label ≠ fallback := by
  cases tool <;> decide

private theorem base_tool (tool : Tool) : base tool.label = cleaned tool.label := by
  cases tool <;> decide

theorem orFallback_of_ne_nil {text : List Char} (someText : text ≠ []) :
    orFallback text = text := by
  rw [orFallback, if_neg]
  simpa using someText

/-- A base that is not cut short tells the cleaned label, unless nothing is left of that. -/
theorem cleaned_eq_of_base_eq {label : String} {text : List Char} (same : base label = text)
    (short : text.length < idLimit) (other : text ≠ fallback) : cleaned label = text := by
  have whole : orFallback (cleaned label) = text := by
    rw [base] at same
    have uncut : (orFallback (cleaned label)).length ≤ idLimit := by
      rw [← same, List.length_take] at short
      omega
    rwa [List.take_of_length_le uncut] at same
  by_cases nothing : cleaned label = []
  · rw [nothing] at whole
    exact absurd whole.symm other
  · rwa [orFallback_of_ne_nil nothing] at whole

theorem base_eq_base_tool_iff (label : String) (tool : Tool) :
    base label = base tool.label ↔ cleaned label = cleaned tool.label := by
  obtain ⟨-, short, other⟩ := cleaned_tool tool
  constructor
  · intro same
    rw [base_tool] at same
    exact cleaned_eq_of_base_eq same short other
  · intro same
    rw [base, base, same]

/-! ## Bases of the steps behind a tool -/

private theorem collapse_append_unsafe {isSafe : Char → Bool} {mark : Char}
    (unsafeMark : isSafe mark = false) (text rest : List Char) (inRun : Bool) :
    ∃ run : List Char, (∀ c ∈ run, c = '_') ∧
      collapse isSafe inRun (text ++ mark :: rest) =
        collapse isSafe inRun text ++ run ++ collapse isSafe true rest := by
  induction text generalizing inRun with
  | nil =>
      cases inRun with
      | true => exact ⟨[], by simp, by simp [collapse, unsafeMark]⟩
      | false => exact ⟨['_'], by simp, by simp [collapse, unsafeMark]⟩
  | cons c text ih =>
      by_cases safe : isSafe c
      · obtain ⟨run, only, same⟩ := ih false
        exact ⟨run, only, by simp [collapse, safe, same]⟩
      · obtain ⟨run, only, same⟩ := ih true
        refine ⟨run, only, ?_⟩
        cases inRun with
        | true => simp [collapse, safe, same]
        | false => simp [collapse, safe, same]

private theorem trimEndBy_append {drop : Char → Bool} {rest : List Char} (someRest : rest ≠ [])
    (ends : ¬drop (rest.getLast someRest)) (text : List Char) :
    Text.trimEndBy drop (text ++ rest) = text ++ rest := by
  refine List.rdropWhile_eq_self_iff.mpr fun someText => ?_
  rwa [List.getLast_append_of_ne_nil someText someRest]

/-- Trimming stops at a text whose ends both stay. What is in front of it is kept or trimmed. -/
theorem trimBy_append {drop : Char → Bool} {run rest : List Char} (only : ∀ c ∈ run, drop c)
    (someRest : rest ≠ []) (starts : ¬drop (rest.head someRest))
    (ends : ¬drop (rest.getLast someRest)) (text : List Char) :
    ∃ middle : List Char,
      Text.trimBy drop (text ++ run ++ rest) = Text.trimBy drop text ++ (middle ++ rest) := by
  have stays : rest.dropWhile drop = rest := by
    obtain ⟨first, others, rfl⟩ := List.exists_cons_of_ne_nil someRest
    exact List.dropWhile_cons_of_neg starts
  have front : (run ++ rest).dropWhile drop = rest := by
    rw [List.dropWhile_append_of_pos only, stays]
  rw [List.append_assoc, Text.trimBy, Text.trimBy, List.dropWhile_append]
  by_cases gone : text.dropWhile drop = []
  · refine ⟨[], ?_⟩
    have whole := trimEndBy_append someRest ends []
    simpa [gone, front, Text.trimEndBy] using whole
  · refine ⟨(text.dropWhile drop).rtakeWhile drop ++ run, ?_⟩
    have whole := trimEndBy_append someRest ends (text.dropWhile drop ++ run)
    have split : Text.trimEndBy drop (text.dropWhile drop) ++
        (text.dropWhile drop).rtakeWhile drop = text.dropWhile drop :=
      List.rdropWhile_append_rtakeWhile
    rw [if_neg (by simpa using gone), ← List.append_assoc, whole, ← List.append_assoc,
      ← List.append_assoc]
    congr 2
    exact split.symm

/-- What the label behind a tool ends in. -/
def ending (tool : Tool) : List Char :=
  collapse isIdSafe true ("after " ++ tool.label).toList

theorem ending_spec (tool : Tool) :
    ∃ someEnding : ending tool ≠ [], ¬(((ending tool).head someEnding) == '_') ∧
      ¬(((ending tool).getLast someEnding) == '_') ∧
      (cleaned tool.label).length < (ending tool).length ∧
      fallback.length < (ending tool).length := by
  cases tool <;> decide

/-- The cleaned label behind a tool goes on from the cleaned label of the span. -/
theorem cleaned_after (label : String) (tool : Tool) :
    ∃ more : List Char, cleaned (label ++ " after " ++ tool.label) = cleaned label ++ more ∧
      (ending tool).length ≤ more.length := by
  obtain ⟨someEnding, starts, ends, -⟩ := ending_spec tool
  have text : (label ++ " after " ++ tool.label).toList =
      label.toList ++ ' ' :: ("after " ++ tool.label).toList := by
    simp [String.toList_append]
  have unsafeBlank : isIdSafe ' ' = false := by decide
  obtain ⟨run, only, collapsed⟩ := collapse_append_unsafe unsafeBlank label.toList
    ("after " ++ tool.label).toList false
  have dropped : ∀ c ∈ run, (c == '_') = true := by simpa using only
  obtain ⟨middle, trimmed⟩ := trimBy_append dropped someEnding starts ends
    (collapse isIdSafe false label.toList)
  refine ⟨middle ++ ending tool, ?_, by simp⟩
  rw [cleaned, text, collapsed]
  exact trimmed

/-- The step behind a tool never has the id of the tool's own step. -/
theorem base_after_ne_base_tool (label : String) (tool : Tool) :
    base (label ++ " after " ++ tool.label) ≠ base tool.label := by
  intro same
  obtain ⟨more, goesOn, long⟩ := cleaned_after label tool
  obtain ⟨-, -, -, longer, -⟩ := ending_spec tool
  have lengths := congrArg List.length ((base_eq_base_tool_iff _ tool).mp same)
  rw [goesOn, List.length_append] at lengths
  omega

/-- The steps around a tool have the same id just if their label is cut short. -/
theorem base_eq_base_after_iff (label : String) (tool : Tool) :
    base label = base (label ++ " after " ++ tool.label) ↔ idLimit ≤ (cleaned label).length := by
  obtain ⟨more, goesOn, long⟩ := cleaned_after label tool
  obtain ⟨-, -, -, -, longer⟩ := ending_spec tool
  have someMore : cleaned label ++ more ≠ [] := by
    intro nothing
    rw [(List.append_eq_nil_iff.mp nothing).2, List.length_nil] at long
    omega
  rw [base, base, goesOn, orFallback_of_ne_nil someMore]
  constructor
  · intro same
    have lengths := congrArg List.length same
    rw [List.length_take, List.length_take, List.length_append] at lengths
    by_cases nothing : cleaned label = []
    · have standsIn : (orFallback (cleaned label)).length = 6 := by
        rw [nothing]
        rfl
      have short : fallback.length = 6 := rfl
      rw [standsIn, nothing, List.length_nil, Nat.zero_add, idLimit] at lengths
      omega
    · rw [orFallback_of_ne_nil nothing] at lengths
      omega
  · intro cut
    have someLabel : cleaned label ≠ [] := by
      intro nothing
      rw [nothing] at cut
      cases cut
    rw [orFallback_of_ne_nil someLabel, List.take_append_of_le_length cut]

end TracePipeline.Label
