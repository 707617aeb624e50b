import TracePipeline.Proofs.CommandPlaces
import TracePipeline.Proofs.JsonTexts

/-! The lines of pretty texts. A value may hold any text, but what ends a line is escaped in its
pretty text: cutting the pretty text into lines loses nothing of it. -/

set_option autoImplicit false

namespace TracePipeline

namespace Text

/-- The pieces of a text hold its characters other than the cuts. -/
theorem of_mem_splitBy {cut : Char → Bool} {text piece : List Char} {c : Char}
    (member : piece ∈ splitBy cut text) (inside : c ∈ piece) : c ∈ text ∧ cut c = false := by
  have flat : c ∈ (splitBy cut text).flatten := List.mem_flatten.mpr ⟨piece, member, inside⟩
  rw [flatten_splitBy, List.mem_filter, Bool.not_eq_true'] at flat
  exact flat

private theorem dropReturn_of_notMem {line : List Char} (absent : '\r' ∉ line) :
    dropReturn line = line := by
  rcases eq_dropReturn line with same | ended
  · exact same.symm
  · exact absurd (ended ▸ by simp) absent

private theorem linesOfPieces_append_singleton {pieces : List (List Char)} {last : List Char}
    (absent : ∀ piece ∈ pieces, '\r' ∉ piece) (some : last ≠ []) :
    linesOfPieces (pieces ++ [last]) = pieces ++ [last] := by
  induction pieces with
  | nil => simp [linesOfPieces, some]
  | cons piece pieces ih =>
      have own := dropReturn_of_notMem (absent piece (.head _))
      have others := ih fun other member => absent other (.tail _ member)
      cases pieces with
      | nil => simp_all [linesOfPieces]
      | cons next pieces => simp_all [linesOfPieces]

/-- The last piece of a text has the last character of the text, unless that is a cut. -/
theorem splitBy_append_singleton (cut : Char → Bool) {c : Char} (isPart : cut c = false)
    (front : List Char) :
    ∃ pieces last, splitBy cut (front ++ [c]) = pieces ++ [last ++ [c]] := by
  induction front with
  | nil => exact ⟨[], [], by simp [splitBy, isPart]⟩
  | cons first rest ih =>
      obtain ⟨pieces, last, cuts⟩ := ih
      rw [List.cons_append, splitBy, cuts]
      split
      · exact ⟨[] :: pieces, last, rfl⟩
      · cases pieces with
        | nil => exact ⟨[], first :: last, rfl⟩
        | cons piece pieces => exact ⟨(first :: piece) :: pieces, last, rfl⟩

/-- A text without carriage returns that does not end with a line feed is cut into lines at its
line feeds. -/
theorem lines_append_singleton {front : List Char} {c : Char} (absent : '\r' ∉ front ++ [c])
    (noFeed : c ≠ '\n') : lines (front ++ [c]) = splitBy (· == '\n') (front ++ [c]) := by
  have isPart : (c == '\n') = false := beq_eq_false_iff_ne.mpr noFeed
  obtain ⟨pieces, last, cuts⟩ := splitBy_append_singleton (· == '\n') isPart front
  have clean : ∀ piece ∈ pieces, '\r' ∉ piece := by
    intro piece member inside
    exact absent (of_mem_splitBy (cuts ▸ List.mem_append_left _ member) inside).1
  rw [lines, cuts]
  exact linesOfPieces_append_singleton clean (by simp)

end Text

/-! ## Characters of texts -/

/-- A character that is no control other than a line feed. -/
def isShown (c : Char) : Bool :=
  c == '\n' || 0x20 ≤ c.toNat

private theorem isShown_of_isDigit {c : Char} (digit : c.isDigit) : isShown c := by
  simp only [Char.isDigit, Bool.and_eq_true, decide_eq_true_eq, ge_iff_le, UInt32.le_iff_toNat_le]
    at digit
  have visible : 0x20 ≤ c.toNat := Nat.le_trans (by decide) digit.1
  simp [isShown, visible]

theorem all_toDigits (value : Nat) : (Nat.toDigits 10 value).all isShown := by
  rw [List.all_eq_true]
  intro c member
  exact isShown_of_isDigit (Nat.isDigit_of_mem_toDigits (by decide) (by decide) member)

namespace Binary64

private theorem all_exponentText (style : Style) (exponent : Int) :
    (exponentText style exponent).all isShown := by
  rw [exponentText, List.all_append, all_toDigits, Bool.and_true]
  split
  · rfl
  · split <;> rfl

private theorem Decimal.all_text (style : Style) (decimal : Decimal) :
    (decimal.text style).all isShown := by
  have zeros (count : Nat) : (List.replicate count '0').all isShown := by
    simp [isShown]
  have digits := all_toDigits decimal.coefficient
  unfold Decimal.text
  dsimp only
  generalize Nat.toDigits 10 decimal.coefficient = text at digits
  split
  · simp only [List.all_append, digits, zeros]
    rfl
  split
  · rename_i _ positional
    generalize (text.length + decimal.exponent).toNat = count
    rw [← List.take_append_drop count text, List.all_append, Bool.and_eq_true] at digits
    rw [List.all_append, List.all_cons, digits.1, digits.2]
    rfl
  split
  · rw [List.all_append, List.all_append, zeros, digits]
    rfl
  -- With an exponent, the point stands behind the first digit if there are more.
  cases text with
  | nil => rfl
  | cons first rest =>
      obtain ⟨own, others⟩ := Bool.and_eq_true_iff.mp (List.all_cons.symm.trans digits)
      cases rest with
      | nil =>
          rw [List.all_cons, List.all_cons, own, all_exponentText]
          rfl
      | cons second rest =>
          rw [List.all_append, List.all_cons, List.all_cons, own, others, List.all_cons,
            all_exponentText]
          rfl

private theorem all_text (style : Style) (x : Binary64) : (x.text style).all isShown := by
  unfold text
  split
  case h_1 negative significand exponent _ =>
    dsimp only
    rw [apply_ite (List.all · isShown), List.all_append, List.all_append, Decimal.all_text]
    cases negative <;> simp [isShown]
  case h_2 negative _ => cases negative <;> rfl
  case h_3 => rfl

end Binary64

private theorem Number.all_text (value : Number) : value.text.all isShown := by
  cases value with
  | integer value =>
      rw [text, integerText, List.all_append, all_toDigits, Bool.and_true]
      split <;> rfl
  | real value => exact value.all_text style

namespace Json

private theorem all_hexQuad (code : Nat) : (hexQuad code).all isShown := by
  have digit : ∀ value < 16, isShown (Nat.digitChar value) := by decide
  have own (value : Nat) : isShown (Nat.digitChar (value % 16)) :=
    digit _ (Nat.mod_lt _ (by decide))
  simp only [hexQuad, List.map_cons, List.map_nil, List.all_cons, own]
  rfl

private theorem all_escape (c : Char) : (escape c).all isShown := by
  unfold escape
  iterate 7
    split
    · rfl
  split
  · rw [List.all_cons, List.all_cons, all_hexQuad]
    rfl
  · rename_i visible
    simpa [isShown] using .inr (Nat.le_of_not_lt visible)

theorem all_quote (text : String) : (quote text).all isShown := by
  have inside : (text.toList.flatMap escape).all isShown := by
    simp only [List.all_flatMap, all_escape, List.all_eq_true, implies_true]
  rw [quote, List.all_append, List.all_cons, inside]
  rfl

theorem all_lineStart (level : Nat) : (lineStart level).all isShown := by
  simp [lineStart, isShown]

private theorem all_prettyItems {items : List Json} (each : ∀ item ∈ items, ∀ level,
    (item.pretty level).all isShown) (level : Nat) : (prettyItems level items).all isShown := by
  induction items with
  | nil =>
      rw [prettyItems, List.all_append, all_lineStart]
      rfl
  | cons item items ih =>
      rw [prettyItems, List.all_append, List.all_append, List.all_cons, all_lineStart,
        each item (.head _), ih fun other member => each other (.tail _ member)]
      rfl

private theorem all_prettyEntries {entries : List (String × Json)}
    (each : ∀ entry ∈ entries, ∀ level, (entry.2.pretty level).all isShown) (level : Nat) :
    (prettyEntries level entries).all isShown := by
  induction entries with
  | nil =>
      rw [prettyEntries, List.all_append, all_lineStart]
      rfl
  | cons entry entries ih =>
      obtain ⟨key, value⟩ := entry
      rw [prettyEntries]
      simp only [List.all_append, List.all_cons, all_lineStart, all_quote,
        each (key, value) (.head _), ih fun other member => each other (.tail _ member)]
      rfl

/-- The pretty text of a value has no controls in it but line feeds. -/
theorem all_pretty (value : Json) (level : Nat) : (value.pretty level).all isShown := by
  induction value using induct_inside generalizing level with
  | null => rfl
  | bool value => cases value <;> rfl
  | number value => exact value.all_text
  | string value => exact all_quote value
  | array items ih =>
      cases items with
      | nil => rfl
      | cons item items =>
          rw [pretty, List.all_append, List.all_append, List.all_cons, all_lineStart,
            ih item (.head _), all_prettyItems fun other member => ih other (.tail _ member)]
          rfl
  | object entries ih =>
      cases entries with
      | nil => rfl
      | cons entry entries =>
          obtain ⟨key, value⟩ := entry
          rw [pretty]
          simp only [List.all_append, List.all_cons, all_lineStart, all_quote,
            ih (key, value) (.head _),
            all_prettyEntries fun other member => ih other (.tail _ member)]
          rfl

private theorem exists_prettyEntries (entries : List (String × Json)) :
    ∃ front, prettyEntries 0 entries = front ++ ['}'] := by
  induction entries with
  | nil => exact ⟨lineStart 0, rfl⟩
  | cons entry entries ih =>
      obtain ⟨front, ended⟩ := ih
      exact ⟨_, by rw [prettyEntries, ended, ← List.append_assoc]⟩

/-- The lines of the text of an object are what it has between its line feeds. -/
theorem lines_pretty_object (entries : List (String × Json)) :
    Text.lines (pretty 0 (.object entries)) =
      Text.splitBy (· == '\n') (pretty 0 (.object entries)) := by
  have ended : ∃ front, pretty 0 (.object entries) = front ++ ['}'] := by
    cases entries with
    | nil => exact ⟨['{'], rfl⟩
    | cons entry entries =>
        obtain ⟨front, ended⟩ := exists_prettyEntries entries
        exact ⟨_, by rw [pretty, ended, ← List.append_assoc]⟩
  have absent : '\r' ∉ pretty 0 (.object entries) := fun member =>
    absurd (List.all_eq_true.mp (all_pretty (.object entries) 0) _ member) (by decide)
  obtain ⟨front, whole⟩ := ended
  rw [whole] at absent ⊢
  exact Text.lines_append_singleton absent (by decide)

end Json

end TracePipeline
