import TracePipeline.Proofs.Labels
import TracePipeline.Proofs.NameBounds

/-! The characters of ids. What an id takes from a label is safe, however the label is made: each
run of unsafe characters becomes one underscore, and all other characters stay in their order. What
it takes from the span id stays as it is. -/

set_option autoImplicit false

namespace TracePipeline.Label

/-! ## Runs of unsafe characters -/

/-- A text in which one underscore stands for each maximal run of unsafe characters of another. -/
inductive Collapsed (isSafe : Char → Bool) : List Char → List Char → Prop
  | nil : Collapsed isSafe [] []
  | kept {c : Char} {text rest : List Char} (safe : isSafe c)
      (others : Collapsed isSafe text rest) : Collapsed isSafe (c :: text) (c :: rest)
  | run {run text rest : List Char} (nonempty : run ≠ []) (harmful : ∀ c ∈ run, isSafe c = false)
      (maximal : ∀ c ∈ text.head?, isSafe c) (others : Collapsed isSafe text rest) :
      Collapsed isSafe (run ++ text) ('_' :: rest)

private theorem collapsed_collapse_both (isSafe : Char → Bool) (text : List Char) :
    Collapsed isSafe text (collapse isSafe false text) ∧
      ∃ run rest, text = run ++ rest ∧ (∀ c ∈ run, isSafe c = false) ∧
        (∀ c ∈ rest.head?, isSafe c) ∧ Collapsed isSafe rest (collapse isSafe true text) := by
  -- Inside a run the rest of the run is passed over, so both states of the pass are told together.
  induction text with
  | nil => exact ⟨.nil, [], [], rfl, by simp, by simp, .nil⟩
  | cons c text ih =>
      obtain ⟨outside, run, rest, split, harmful, maximal, inside⟩ := ih
      by_cases safe : isSafe c
      · have kept : Collapsed isSafe (c :: text) (c :: collapse isSafe false text) :=
          .kept safe outside
        refine ⟨by simpa [collapse, safe] using kept, [], c :: text, rfl, by simp, ?_, ?_⟩
        · simpa using safe
        · simpa [collapse, safe] using kept
      · have others : ∀ d ∈ c :: run, isSafe d = false := by simpa [safe] using harmful
        constructor
        · have one := Collapsed.run (List.cons_ne_nil c run) others maximal inside
          simpa [collapse, safe, split] using one
        · exact ⟨c :: run, rest, by simp [split], others, maximal, by simpa [collapse, safe]⟩

theorem collapsed_collapse (isSafe : Char → Bool) (text : List Char) :
    Collapsed isSafe text (collapse isSafe false text) :=
  (collapsed_collapse_both isSafe text).1

namespace Collapsed

variable {isSafe : Char → Bool} {text rest : List Char}

theorem forall_safe (collapsed : Collapsed isSafe text rest) (mark : isSafe '_') :
    ∀ c ∈ rest, isSafe c := by
  induction collapsed with
  | nil => simp
  | kept safe others ih => simpa using ⟨safe, ih⟩
  | run nonempty harmful maximal others ih => simpa using ⟨mark, ih⟩

/-- But for underscores, the safe characters stay as they are. -/
theorem filter_eq (collapsed : Collapsed isSafe text rest) :
    rest.filter (fun c => isSafe c && c != '_') = text.filter (fun c => isSafe c && c != '_') := by
  induction collapsed with
  | nil => rfl
  | kept safe others ih => simp only [List.filter_cons, ih]
  | @run run text rest nonempty harmful maximal others ih =>
      have gone : run.filter (fun c => isSafe c && c != '_') = [] :=
        List.filter_eq_nil_iff.mpr fun c member => by simp [harmful c member]
      rw [List.filter_append, gone, List.nil_append, ← ih]
      simp

end Collapsed

/-! ## Trimmed ends -/

/-- What is left of a text when all that is dropped at its ends is gone. -/
structure Trimmed (drop : Char → Bool) (text core : List Char) : Prop where
  ends : ∃ front back, text = front ++ (core ++ back) ∧ ∀ c ∈ front ++ back, drop c
  starts : ∀ c ∈ core.head?, drop c = false
  stops : ∀ c ∈ core.getLast?, drop c = false

theorem trimmed_trimBy (drop : Char → Bool) (text : List Char) :
    Trimmed drop text (Text.trimBy drop text) := by
  have split : Text.trimBy drop text ++ (text.dropWhile drop).rtakeWhile drop =
      text.dropWhile drop := List.rdropWhile_append_rtakeWhile
  constructor
  case ends =>
    refine ⟨text.takeWhile drop, (text.dropWhile drop).rtakeWhile drop, ?_, ?_⟩
    · rw [split, List.takeWhile_append_dropWhile]
    · intro c member
      rcases List.mem_append.mp member with front | back
      · exact List.mem_takeWhile_imp front
      · exact List.mem_rtakeWhile_imp back
  case starts =>
    intro c first
    have head : (text.dropWhile drop).head? = some c := by
      rw [← split, List.head?_append, Option.mem_def.mp first, Option.some_or]
    have kept := List.head?_dropWhile_not drop text
    rw [head] at kept
    simpa using kept
  case stops =>
    intro c last
    obtain ⟨someText, same⟩ := List.mem_getLast?_eq_getLast last
    have kept := List.rdropWhile_last_not drop (text.dropWhile drop) someText
    rw [same]
    exact Bool.eq_false_iff.mpr kept

namespace Trimmed

variable {drop : Char → Bool} {text core : List Char}

theorem subset (trimmed : Trimmed drop text core) : core ⊆ text := by
  obtain ⟨front, back, rfl, -⟩ := trimmed.ends
  intro c member
  simp [member]

private theorem filter_eq (trimmed : Trimmed drop text core) :
    core.filter (fun c => !drop c) = text.filter (fun c => !drop c) := by
  obtain ⟨front, back, rfl, dropped⟩ := trimmed.ends
  have gone {part : List Char} (inside : part ⊆ front ++ back) :
      part.filter (fun c => !drop c) = [] :=
    List.filter_eq_nil_iff.mpr fun c member => by simp [dropped c (inside member)]
  rw [List.filter_append, List.filter_append, gone (List.subset_append_left front back),
    gone (List.subset_append_right front back), List.nil_append, List.append_nil]

end Trimmed

/-! ## What an id takes from a label -/

/-- The safe characters of a text other than the underscore. -/
def letters (text : List Char) : List Char :=
  text.filter fun c => isIdSafe c && c != '_'

/-- The part of an id that comes from a label. One underscore stands for each run of unsafe
characters, those at the ends are taken off, and what is left is cut short. The letters of the label
stay in their order up to the cut; a label without any becomes the fallback. -/
structure Keeps (label base : List Char) : Prop where
  shape : ∃ text core, Collapsed isIdSafe label text ∧ Trimmed (· == '_') text core ∧
    base = (orFallback core).take idLimit
  order : letters label ≠ [] → letters base <+: letters label
  whole : letters label ≠ [] → base.length < idLimit → letters base = letters label
  empty : letters label = [] → base = fallback

theorem isIdSafe_mark : isIdSafe '_' := by decide

theorem trimmed_cleaned (label : String) :
    Trimmed (· == '_') (collapse isIdSafe false label.toList) (cleaned label) :=
  trimmed_trimBy _ _

theorem letters_cleaned (label : String) : letters (cleaned label) = letters label.toList := by
  have safe := (collapsed_collapse isIdSafe label.toList).forall_safe isIdSafe_mark
  have marks {text : List Char} (inside : text ⊆ collapse isIdSafe false label.toList) :
      letters text = text.filter fun c => !(c == '_') :=
    List.filter_congr fun c member => by simp [safe c (inside member), bne]
  calc letters (cleaned label)
      = (cleaned label).filter fun c => !(c == '_') := marks (trimmed_cleaned label).subset
    _ = (collapse isIdSafe false label.toList).filter fun c => !(c == '_') :=
        (trimmed_cleaned label).filter_eq
    _ = letters (collapse isIdSafe false label.toList) := (marks (List.Subset.refl _)).symm
    _ = letters label.toList := (collapsed_collapse isIdSafe label.toList).filter_eq

theorem cleaned_eq_nil_iff (label : String) :
    cleaned label = [] ↔ letters label.toList = [] := by
  rw [← letters_cleaned]
  constructor
  case mp =>
    intro nothing
    rw [nothing]
    rfl
  case mpr =>
    intro none
    cases shape : cleaned label with
    | nil => rfl
    | cons c rest =>
        have member : c ∈ cleaned label := by simp [shape]
        have safe := (collapsed_collapse isIdSafe label.toList).forall_safe isIdSafe_mark c
          ((trimmed_cleaned label).subset member)
        -- The first character is safe, so no letter would mean an underscore, which is trimmed.
        have solid := (trimmed_cleaned label).starts c (by simp [shape])
        have kept := List.filter_eq_nil_iff.mp none c member
        simp_all

theorem keeps_base (label : String) : Keeps label.toList (base label) := by
  have kept : letters label.toList ≠ [] → orFallback (cleaned label) = cleaned label :=
    fun some => orFallback_of_ne_nil fun nothing => some ((cleaned_eq_nil_iff label).mp nothing)
  constructor
  case shape =>
    exact ⟨_, _, collapsed_collapse isIdSafe label.toList, trimmed_cleaned label, rfl⟩
  case order =>
    intro some
    rw [base, kept some, ← letters_cleaned]
    exact (List.take_prefix idLimit (cleaned label)).filter _
  case whole =>
    intro some short
    rw [base, kept some] at short ⊢
    rw [List.length_take] at short
    rw [List.take_of_length_le (by omega), letters_cleaned]
  case empty =>
    intro none
    rw [base, (cleaned_eq_nil_iff label).mpr none]
    rfl

/-- What all characters of a text and of the fallback satisfy, those of the text or its fallback
do. -/
theorem forall_orFallback {isSafe : Char → Bool} {text : List Char}
    (standsIn : fallback.all isSafe) (safe : ∀ c ∈ text, isSafe c) :
    ∀ c ∈ orFallback text, isSafe c := by
  intro c member
  unfold orFallback at member
  split at member
  case isTrue => exact List.all_eq_true.mp standsIn c member
  case isFalse => exact safe c member

theorem forall_safe_base (label : String) : ∀ c ∈ base label, isIdSafe c := by
  intro c member
  refine forall_orFallback (by decide) (fun d inside => ?_) c (List.mem_of_mem_take member)
  exact (collapsed_collapse isIdSafe label.toList).forall_safe isIdSafe_mark d
    ((trimmed_cleaned label).subset inside)

private theorem head?_base (label : String) : ∃ c, (base label).head? = some c ∧ c ≠ '_' := by
  have first : (base label).head? = (orFallback (cleaned label)).head? := by
    rw [base, List.head?_take, if_neg (by decide)]
  rw [first]
  cases shape : cleaned label with
  | nil => exact ⟨'u', rfl, by decide⟩
  | cons c rest =>
      have solid := (trimmed_cleaned label).starts c (by simp [shape])
      exact ⟨c, rfl, by simpa using solid⟩

/-- What an id is made of. The part from the label is safe whatever the label is, and tells all of
its letters that fit. The first characters of the span id follow as they are, so an id is safe just
if they are. -/
theorem stepId_safe_iff (label spanId : String) :
    (1 ≤ (stepId label spanId).length ∧ (stepId label spanId).length ≤ 64) ∧
      (stepId label spanId).toList.head? ≠ some '_' ∧
      (∃ base : List Char, (stepId label spanId).toList = base ++ spanId.toList.take 6 ∧
        base.length ≤ 58 ∧ (∀ c ∈ base, isIdSafe c) ∧ Keeps label.toList base) ∧
      ((∀ c ∈ (stepId label spanId).toList, isIdSafe c) ↔
        ∀ c ∈ spanId.toList.take 6, isIdSafe c) := by
  have parts : (stepId label spanId).toList = base label ++ spanId.toList.take 6 := by
    rw [stepId_eq, String.toList_ofList]
    rfl
  have safe := forall_safe_base label
  refine ⟨length_stepId label spanId, ?_, ⟨base label, parts, ?_, safe, keeps_base label⟩, ?_⟩
  · obtain ⟨c, first, solid⟩ := head?_base label
    rw [parts, List.head?_append, first]
    simpa using solid
  · rw [base, List.length_take]
    exact Nat.min_le_left _ _
  · rw [parts, List.forall_mem_append]
    exact and_iff_right safe

/-- A span id with a slash and a blank goes into the id as it is. -/
theorem not_forall_stepId_safe :
    ¬∀ label spanId : String, ∀ c ∈ (stepId label spanId).toList, isIdSafe c := by
  intro always
  have slash : '/' ∈ (stepId "build" "a/b cd").toList := by decide
  exact absurd (always "build" "a/b cd" '/' slash) (by decide)

end TracePipeline.Label
