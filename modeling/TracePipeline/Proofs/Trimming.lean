import Mathlib.Data.List.Infix
import Mathlib.Data.List.TakeWhile
import TracePipeline.Text.Blank

/-! Trimmed texts and texts in pieces. What trimming leaves of a text is told by the text alone: it
begins and ends with something to see, and the rest is blank. -/

set_option autoImplicit false

namespace TracePipeline.Text

/-- A text that begins and ends with something to see. -/
structure Solid (text : List Char) : Prop where
  ne_nil : text ≠ []
  starts : ∀ c ∈ text.head?, isBlank c = false
  ends : ∀ c ∈ text.getLast?, isBlank c = false

theorem Solid.not_blank {text : List Char} (solid : Solid text) : ¬text.all isBlank := by
  intro blank
  have first := solid.starts _ (List.head?_eq_some_head solid.ne_nil)
  rw [List.all_eq_true.mp blank _ (List.head_mem solid.ne_nil)] at first
  cases first

theorem Solid.reverse {text : List Char} (solid : Solid text) : Solid text.reverse where
  ne_nil := by simpa using solid.ne_nil
  starts := by simpa using solid.ends
  ends := by simpa using solid.starts

theorem Solid.join {first second : List Char} (solid : Solid first) (gap : List Char)
    (solid' : Solid second) : Solid (first ++ (gap ++ second)) where
  ne_nil := by simp [solid.ne_nil]
  starts := by
    rw [List.head?_append_of_ne_nil _ solid.ne_nil]
    exact solid.starts
  ends := by
    rw [← List.append_assoc, List.getLast?_append_of_ne_nil _ solid'.ne_nil]
    exact solid'.ends

private theorem exists_first {text : List Char} (some : ¬text.all isBlank) :
    ∃ gap c rest, text = gap ++ c :: rest ∧ gap.all isBlank ∧ isBlank c = false := by
  induction text with
  | nil => exact absurd rfl some
  | cons c rest ih =>
      by_cases blank : isBlank c
      · have further : ¬rest.all isBlank := fun blanks => some (by simp [blank, blanks])
        obtain ⟨gap, first, others, rfl, blanks, seen⟩ := ih further
        exact ⟨c :: gap, first, others, rfl, by simp [blank, blanks], seen⟩
      · exact ⟨[], c, rest, rfl, rfl, by simpa using blank⟩

theorem blank_or_solid (text : List Char) : text.all isBlank ∨
    ∃ before core after, text = before ++ (core ++ after) ∧ before.all isBlank ∧ Solid core ∧
      after.all isBlank := by
  by_cases blank : text.all isBlank
  · exact .inl blank
  right
  obtain ⟨before, first, rest, rfl, blanks, starts⟩ := exists_first blank
  have some : ¬(first :: rest).reverse.all isBlank := by simp [starts]
  obtain ⟨after, last, inner, same, blanks', ends⟩ := exists_first some
  have whole : first :: rest = (last :: inner).reverse ++ after.reverse := by
    rw [← List.reverse_append, ← same, List.reverse_reverse]
  refine ⟨before, (last :: inner).reverse, after.reverse, by rw [whole], blanks,
    ⟨by simp, ?_, by simp [ends]⟩, by simpa using blanks'⟩
  have head := congrArg List.head? whole
  rw [List.head?_append_of_ne_nil _ (by simp), List.head?_cons] at head
  rw [← head]
  simpa using starts

theorem trim_of_blank {gap : List Char} (blank : gap.all isBlank) : trim gap = [] := by
  have nothing : gap.dropWhile isBlank = [] :=
    List.dropWhile_eq_nil_iff.mpr (List.all_eq_true.mp blank)
  rw [trim, trimBy, nothing]
  rfl

theorem trim_of_solid {before core after : List Char} (blank : before.all isBlank)
    (solid : Solid core) (blank' : after.all isBlank) :
    trim (before ++ (core ++ after)) = core := by
  obtain ⟨first, rest, rfl⟩ := List.exists_cons_of_ne_nil solid.ne_nil
  have starts : isBlank first = false := solid.starts first rfl
  have front : (before ++ (first :: rest ++ after)).dropWhile isBlank = first :: rest ++ after := by
    rw [List.dropWhile_append_of_pos (List.all_eq_true.mp blank)]
    exact List.dropWhile_cons_of_neg (by simp [starts])
  have back : (first :: rest ++ after).reverse.dropWhile isBlank = (first :: rest).reverse := by
    rw [List.reverse_append,
      List.dropWhile_append_of_pos (by simpa using List.all_eq_true.mp blank')]
    have ends := solid.reverse.starts
    generalize (first :: rest).reverse = text at ends
    cases text with
    | nil => rfl
    | cons c text => exact List.dropWhile_cons_of_neg (by simp [ends c rfl])
  rw [trim, trimBy, trimEndBy, front, back, List.reverse_reverse]

theorem trim_append_blank {gap : List Char} (text : List Char) (blank : gap.all isBlank) :
    trim (text ++ gap) = trim text := by
  obtain allBlank | ⟨before, core, after, rfl, blank', solid, blank''⟩ := blank_or_solid text
  · rw [trim_of_blank allBlank, trim_of_blank (by simp [allBlank, blank])]
  · have wider : (after ++ gap).all isBlank := by simp [blank, blank'']
    rw [List.append_assoc, List.append_assoc, trim_of_solid blank' solid wider,
      trim_of_solid blank' solid blank'']

theorem trim_blank_append {gap : List Char} (blank : gap.all isBlank) (text : List Char) :
    trim (gap ++ text) = trim text := by
  obtain allBlank | ⟨before, core, after, rfl, blank', solid, blank''⟩ := blank_or_solid text
  · rw [trim_of_blank allBlank, trim_of_blank (by simp [allBlank, blank])]
  · have wider : (gap ++ before).all isBlank := by simp [blank, blank']
    rw [← List.append_assoc, trim_of_solid wider solid blank'', trim_of_solid blank' solid blank'']

theorem trim_reverse (text : List Char) : trim text.reverse = (trim text).reverse := by
  obtain blank | ⟨before, core, after, rfl, blank, solid, blank'⟩ := blank_or_solid text
  · rw [trim_of_blank blank, trim_of_blank (by simpa using blank), List.reverse_nil]
  · rw [trim_of_solid blank solid blank', List.reverse_append, List.reverse_append,
      List.append_assoc]
    exact trim_of_solid (by simpa using blank') solid.reverse (by simpa using blank)

/-- What is left of a text without the blanks at its ends. A blank text has no core. -/
def HasCore (text core : List Char) : Prop :=
  ∃ before after, text = before ++ (core ++ after) ∧ before.all isBlank ∧ after.all isBlank ∧
    Solid core

theorem hasCore_iff {text core : List Char} :
    HasCore text core ↔ trim text = core ∧ core ≠ [] := by
  constructor
  · intro holds
    obtain ⟨before, after, rfl, blank, blank', solid⟩ := holds
    exact ⟨trim_of_solid blank solid blank', solid.ne_nil⟩
  · intro holds
    obtain ⟨rfl, someCore⟩ := holds
    obtain blank | ⟨before, core, after, rfl, blank, solid, blank'⟩ := blank_or_solid text
    · exact absurd (trim_of_blank blank) someCore
    · rw [trim_of_solid blank solid blank']
      exact ⟨before, after, rfl, blank, blank', solid⟩

/-! ## Texts in pieces -/

theorem splitBy_ne_nil (cut : Char → Bool) (text : List Char) : splitBy cut text ≠ [] := by
  cases text with
  | nil => simp [splitBy]
  | cons c rest =>
      rw [splitBy]
      split
      · simp
      · split <;> simp

theorem splitBy_append_cut {cut : Char → Bool} {mark : Char} (isCut : cut mark)
    (first second : List Char) :
    splitBy cut (first ++ mark :: second) = splitBy cut first ++ splitBy cut second := by
  induction first with
  | nil => simp [splitBy, isCut]
  | cons c rest ih =>
      rw [List.cons_append, splitBy, splitBy, ih]
      split
      · rfl
      · cases pieces : splitBy cut rest with
        | nil => exact absurd pieces (splitBy_ne_nil cut rest)
        | cons piece pieces => rfl

theorem splitBy_of_notCut {cut : Char → Bool} {piece : List Char}
    (within : ∀ c ∈ piece, cut c = false) : splitBy cut piece = [piece] := by
  induction piece with
  | nil => rfl
  | cons c piece ih =>
      rw [splitBy, ih fun other member => within other (.tail _ member), within c (.head _)]
      rfl


theorem splitOnce?_eq_none_iff {mark : Char} {text : List Char} :
    splitOnce? mark text = none ↔ mark ∉ text := by
  induction text with
  | nil => simp [splitOnce?]
  | cons c rest ih =>
      by_cases here : c = mark
      · simp [splitOnce?, here]
      · simp [splitOnce?, here, ih, Ne.symm here]

theorem splitOnce?_eq_some_iff {mark : Char} {text before after : List Char} :
    splitOnce? mark text = some (before, after) ↔
      text = before ++ mark :: after ∧ mark ∉ before := by
  induction text generalizing before with
  | nil => simp [splitOnce?]
  | cons c rest ih =>
      by_cases here : c = mark
      · cases before with
        | nil => simp [splitOnce?, here]
        | cons d before => simp_all [splitOnce?]
      · cases before with
        | nil => simp [splitOnce?, here]
        | cons d before => simp [splitOnce?, here, ih]; grind

end TracePipeline.Text
