import Mathlib.Data.List.Forall2
import TracePipeline.Proofs.JsonTokens

/-! Texts of JSON values and how they are read. Whatever white space stands between its parts, a
text of a value is read as a tree that shows the value. -/

set_option autoImplicit false

namespace TracePipeline

/-! ## Values and trees -/

namespace Json

mutual

/-- How many lists and objects stand around each other at most. -/
def depth : Json → Nat
  | .array items => depthItems items + 1
  | .object entries => depthEntries entries + 1
  | _ => 0

def depthItems : List Json → Nat
  | [] => 0
  | item :: items => max item.depth (depthItems items)

def depthEntries : List (String × Json) → Nat
  | [] => 0
  | (_, value) :: entries => max value.depth (depthEntries entries)

end

/-- A property of all values follows from the values inside to the list or object around them. -/
theorem induct_inside {motive : Json → Prop} (null : motive .null)
    (bool : ∀ value, motive (.bool value)) (number : ∀ value, motive (.number value))
    (string : ∀ value, motive (.string value))
    (array : ∀ items, (∀ item ∈ items, motive item) → motive (.array items))
    (object : ∀ entries, (∀ entry ∈ entries, motive entry.2) → motive (.object entries))
    (value : Json) : motive value := by
  refine @Json.rec motive (fun items => ∀ item ∈ items, motive item)
    (fun entries => ∀ entry ∈ entries, motive entry.2) (fun entry => motive entry.2)
    null bool number string array object ?_ ?_ ?_ ?_ ?_ value
  · intro item member
    cases member
  · intro first rest firstHolds restHolds item member
    rcases List.mem_cons.mp member with rfl | later
    · exact firstHolds
    · exact restHolds item later
  · intro entry member
    cases member
  · intro first rest firstHolds restHolds entry member
    rcases List.mem_cons.mp member with rfl | later
    · exact firstHolds
    · exact restHolds entry later
  · intro key value holds
    exact holds

end Json

/-- A tree shows a value: it holds the value without a fault, and no part of it is nested too
deep. -/
inductive Tree.Shows : Json → Tree → Prop
  | scalar {value : Json} {content : Scalar} {start stop : Position}
      (same : content.toJson = value) : Shows value (.scalar start (.ok content) stop)
  | array {level : Nat} {items : List Json} {trees : List Tree} {start stop : Position}
      (within : level < levelLimit) (each : List.Forall₂ Shows items trees) :
      Shows (.array items) (.array start level trees (.closed stop))
  | object {level : Nat} {entries : List (String × Json)} {parts : List (Key × Tree)}
      {start stop : Position} (within : level < levelLimit)
      (keys : List.Forall₂ (fun entry part => part.1.text = .ok entry.1) entries parts)
      (each : List.Forall₂ (fun entry part => Shows entry.2 part.2) entries parts) :
      Shows (.object entries) (.object start level parts (.closed stop))

/-! ## Texts of values -/

namespace Json

open Cursor (Blank)

/-- Parts with commas between them, up to the closing bracket. -/
inductive Joined {α : Type} (bracket : Char) (spells : α → List Char → Prop) :
    List α → List Char → Prop
  | last {part : α} {text gap : List Char} (own : spells part text) (blank : Blank gap) :
      Joined bracket spells [part] (text ++ (gap ++ [bracket]))
  | more {part : α} {parts : List α} {text gap skipped rest : List Char} (own : spells part text)
      (before : Blank gap) (behind : Blank skipped) (later : Joined bracket spells parts rest) :
      Joined bracket spells (part :: parts) (text ++ (gap ++ ',' :: (skipped ++ rest)))

/-- A key with its value. -/
inductive Paired (spells : Json → List Char → Prop) : String × Json → List Char → Prop
  | pair {key : String} {value : Json} {body text gap skipped : List Char}
      (named : Quoted.Spells key.toList body) (before : Blank gap) (behind : Blank skipped)
      (own : spells value text) :
      Paired spells (key, value) ('"' :: (body ++ '"' :: (gap ++ ':' :: (skipped ++ text))))

/-- A text of a value, with any white space between its parts. The entries of an object stand in
any order, and a key may stand there more than once. -/
inductive Spelled : Json → List Char → Prop
  | null : Spelled .null ['n', 'u', 'l', 'l']
  | true : Spelled (.bool true) ['t', 'r', 'u', 'e']
  | false : Spelled (.bool false) ['f', 'a', 'l', 's', 'e']
  | number {value : Number} {text : List Char} (own : value.Spelled text) :
      Spelled (.number value) text
  | string {value : String} {body : List Char} (own : Quoted.Spells value.toList body) :
      Spelled (.string value) ('"' :: (body ++ ['"']))
  | noItems {gap : List Char} (blank : Blank gap) : Spelled (.array []) ('[' :: (gap ++ [']']))
  | array {items : List Json} {gap rest : List Char} (blank : Blank gap)
      (inside : Joined ']' Spelled items rest) : Spelled (.array items) ('[' :: (gap ++ rest))
  | noEntries {gap : List Char} (blank : Blank gap) : Spelled (.object []) ('{' :: (gap ++ ['}']))
  | object {entries : List (String × Json)} {gap rest : List Char} (blank : Blank gap)
      (inside : Joined '}' (Paired Spelled) entries rest) :
      Spelled (.object entries) ('{' :: (gap ++ rest))

end Json

/-! ## Starts and ends of parts -/

namespace Json

open Cursor (Blank Settled isSpace)

/-- A text starts with a character that is neither white space nor a closing bracket. -/
def Opens (text : List Char) : Prop :=
  ∃ c rest, text = c :: rest ∧ isSpace (.char c) = false ∧ c ≠ ']' ∧ c ≠ '}'

theorem ne_of_isDigit {c other : Char} (digit : c.isDigit) (mark : other.isDigit = false) :
    c ≠ other := by
  rintro rfl
  rw [digit] at mark
  cases mark

private theorem isSpace_of_isDigit {c : Char} (digit : c.isDigit) : isSpace (.char c) = false := by
  simp only [isSpace, Bool.or_eq_false_iff, beq_eq_false_iff_ne]
  exact ⟨⟨⟨ne_of_isDigit digit rfl, ne_of_isDigit digit rfl⟩, ne_of_isDigit digit rfl⟩,
    ne_of_isDigit digit rfl⟩

theorem Opens.append {text : List Char} (opens : Opens text) (more : List Char) :
    Opens (text ++ more) := by
  obtain ⟨c, rest, rfl, solid⟩ := opens
  exact ⟨c, rest ++ more, rfl, solid⟩

theorem Opens.settled {text : List Char} (opens : Opens text) (rest : List Glyph) :
    Settled (Glyph.ofText text ++ rest) := by
  obtain ⟨c, more, rfl, solid, -⟩ := opens
  rintro glyph ⟨⟩
  exact solid

private theorem opens_number {number : Number} {text : List Char} (spelled : number.Spelled text) :
    Opens text := by
  obtain ⟨c, rest, shape, rfl | digit⟩ := Number.Spelled.head spelled
  · exact ⟨'-', rest, shape, by decide, by decide, by decide⟩
  · exact ⟨c, rest, shape, isSpace_of_isDigit digit, ne_of_isDigit digit rfl,
      ne_of_isDigit digit rfl⟩

theorem Spelled.opens {value : Json} {text : List Char} (spelled : Spelled value text) :
    Opens text := by
  cases spelled with
  | null | true | false | string | noItems | array | noEntries | object =>
      exact ⟨_, _, rfl, by decide, by decide, by decide⟩
  | number own => exact opens_number own

theorem other_of_isSpace {c : Char} (space : isSpace (.char c) = true) :
    c.isDigit = false ∧ c ≠ '.' ∧ c ≠ 'e' ∧ c ≠ 'E' := by
  simp only [isSpace, Bool.or_eq_true, beq_iff_eq] at space
  rcases space with ((rfl | rfl) | rfl) | rfl <;> decide

/-- What follows a part does not lengthen a number at its end. -/
theorem ended_of_blank {gap : List Char} (blank : Blank gap) {mark : Char}
    (other : mark = ',' ∨ mark = ']' ∨ mark = '}') (rest : List Glyph) :
    Numeral.Ended (Glyph.ofText gap ++ .char mark :: rest) := by
  intro c first
  cases gap with
  | nil =>
      cases first
      rcases other with rfl | rfl | rfl <;> decide
  | cons space gap =>
      cases first
      exact other_of_isSpace (blank c (.head _))

end Json

namespace Tree

open Cursor (Blank)
open Json (Opens)

variable {cursor : Cursor} {rest : List Glyph}

theorem follow_bracket {bracket : Char} {gap : List Char} (blank : Blank gap)
    (solid : Cursor.isSpace (.char bracket) = false)
    (here : cursor.rest = Glyph.ofText (gap ++ [bracket]) ++ rest) :
    ∃ next, follow bracket cursor = .close next ∧ next.rest = rest := by
  have settled : Cursor.Settled (.char bracket :: rest) := by
    rintro glyph ⟨⟩
    exact solid
  have behind : cursor.skipSpace.rest = .char bracket :: rest :=
    Cursor.rest_skipSpace blank settled (here.trans (by simp [Glyph.ofText]))
  refine ⟨cursor.skipSpace.advance, ?_, Cursor.rest_advance behind⟩
  simp only [follow, behind, if_true]

theorem follow_comma {bracket : Char} (closing : bracket = ']' ∨ bracket = '}')
    {gap skipped text : List Char} (before : Blank gap) (after : Blank skipped) (opens : Opens text)
    (here : cursor.rest = Glyph.ofText (gap ++ ',' :: (skipped ++ text)) ++ rest) :
    ∃ next, follow bracket cursor = .more next ∧ next.rest = Glyph.ofText text ++ rest := by
  have comma : cursor.skipSpace.rest =
      .char ',' :: (Glyph.ofText skipped ++ (Glyph.ofText text ++ rest)) := by
    refine Cursor.rest_skipSpace before ?_ (here.trans (by simp [Glyph.ofText]))
    rintro glyph ⟨⟩
    rfl
  have next : cursor.skipSpace.advance.skipSpace.rest = Glyph.ofText text ++ rest :=
    Cursor.rest_skipSpace after (opens.settled rest) (Cursor.rest_advance comma)
  refine ⟨cursor.skipSpace.advance.skipSpace, ?_, next⟩
  obtain ⟨c, more, rfl, -, notList, notObject⟩ := opens
  have other : Glyph.char c ≠ .char bracket := by
    rcases closing with rfl | rfl
    · simpa using notList
    · simpa using notObject
  have notBracket : Glyph.char ',' ≠ .char bracket := by
    rcases closing with rfl | rfl <;> decide
  have shape : cursor.skipSpace.advance.skipSpace.rest =
      .char c :: (Glyph.ofText more ++ rest) := next
  simp only [follow, comma, if_neg notBracket, if_true, shape, if_neg other]

private theorem readKey_spelled {key : String} {body gap skipped text : List Char}
    (named : Quoted.Spells key.toList body) (before : Blank gap) (after : Blank skipped)
    (opens : Opens text)
    (here : cursor.rest =
      Glyph.ofText (body ++ '"' :: (gap ++ ':' :: (skipped ++ text))) ++ rest) :
    ∃ label next, readKey cursor = (label, .ok next) ∧ label.text = .ok key ∧
      next.rest = Glyph.ofText text ++ rest := by
  obtain ⟨closed, read, left⟩ := Quoted.read_spelled named
    (here.trans (by simp [Glyph.ofText] : _ = Glyph.ofText body ++
      .char '"' :: (Glyph.ofText (gap ++ ':' :: (skipped ++ text)) ++ rest)))
  have colon : closed.skipSpace.rest =
      .char ':' :: (Glyph.ofText skipped ++ (Glyph.ofText text ++ rest)) := by
    refine Cursor.rest_skipSpace before ?_ (left.trans (by simp [Glyph.ofText]))
    rintro glyph ⟨⟩
    rfl
  have next : closed.skipSpace.advance.skipSpace.rest = Glyph.ofText text ++ rest :=
    Cursor.rest_skipSpace after (opens.settled rest) (Cursor.rest_advance colon)
  refine ⟨⟨.ok key, closed.skipSpace.position⟩, closed.skipSpace.advance.skipSpace, ?_, rfl, next⟩
  simp [readKey, read, colon]

private theorem readQuoted_spelled {text : String} {body : List Char}
    (spells : Quoted.Spells text.toList body)
    (here : cursor.rest = Glyph.ofText ('"' :: (body ++ ['"'])) ++ rest) :
    ∃ next, readQuoted cursor =
        (.scalar cursor.position (.ok (.string text)) next.position, some next) ∧
      next.rest = rest := by
  have opening : cursor.rest = .char '"' :: (Glyph.ofText body ++ .char '"' :: rest) :=
    here.trans (by simp [Glyph.ofText])
  obtain ⟨next, read, left⟩ := Quoted.read_spelled spells (Cursor.rest_advance opening)
  refine ⟨next, ?_, left⟩
  rw [readQuoted, read]
  rfl

private theorem readNumber_spelled {number : Number} {text : List Char}
    (spelled : number.Spelled text)
    (ended : Numeral.Ended rest) (here : cursor.rest = Glyph.ofText text ++ rest) :
    ∃ next, readNumber cursor =
        (.scalar cursor.position (.ok (.number number)) next.position, some next) ∧
      next.rest = rest := by
  obtain ⟨numeral, own, value⟩ := spelled
  obtain ⟨next, read, left⟩ := Numeral.read_spelled own ended here
  refine ⟨next, ?_, left⟩
  rw [readNumber, read]
  simp only [value]

private theorem readLetters_eq {letters : List Char}
    (here : cursor.rest = Glyph.ofText letters ++ rest) :
    ∃ next, readLetters letters cursor = .ok next ∧ next.rest = rest := by
  induction letters generalizing cursor with
  | nil => exact ⟨cursor, rfl, here⟩
  | cons letter letters ih =>
      have first : cursor.rest = .char letter :: (Glyph.ofText letters ++ rest) := here
      obtain ⟨next, read, left⟩ := ih (Cursor.rest_advance first)
      refine ⟨next, ?_, left⟩
      simp only [readLetters, first, if_true, read]

private theorem readWord_eq {first : Char} {letters : List Char} (value : Scalar)
    (here : cursor.rest = Glyph.ofText (first :: letters) ++ rest) :
    ∃ next, readWord letters value cursor =
        (.scalar cursor.position (.ok value) next.position, some next) ∧ next.rest = rest := by
  have behind : cursor.advance.rest = Glyph.ofText letters ++ rest := Cursor.rest_advance here
  obtain ⟨next, read, left⟩ := readLetters_eq behind
  refine ⟨next, ?_, left⟩
  simp only [readWord, read]

/-! ## Reading values -/

/-- Each text of a value is read as a tree that shows the value, up to its end and no further. -/
def Readable (value : Json) : Prop :=
  ∀ {text : List Char} {fuel level : Nat} {cursor : Cursor} {rest : List Glyph},
    value.Spelled text → 2 * text.length ≤ fuel → level + value.depth < levelLimit →
    Numeral.Ended rest → cursor.rest = Glyph.ofText text ++ rest →
    ∃ tree next, readValue fuel level cursor = (tree, some next) ∧ next.rest = rest ∧
      Shows value tree

theorem ofText_append (first second : List Char) (rest : List Glyph) :
    Glyph.ofText (first ++ second) ++ rest =
      Glyph.ofText first ++ (Glyph.ofText second ++ rest) := by
  simp [Glyph.ofText]

/-- A value is read up to the mark behind it. -/
theorem Readable.before_mark {value : Json} (readable : Readable value)
    {text gap more : List Char} {mark : Char} {fuel level : Nat} (own : value.Spelled text)
    (blank : Blank gap) (other : mark = ',' ∨ mark = ']' ∨ mark = '}')
    (enough : 2 * text.length ≤ fuel) (shallow : level + value.depth < levelLimit)
    (here : cursor.rest = Glyph.ofText (text ++ (gap ++ mark :: more)) ++ rest) :
    ∃ tree next, readValue fuel level cursor = (tree, some next) ∧
      next.rest = Glyph.ofText (gap ++ mark :: more) ++ rest ∧ Shows value tree := by
  rw [ofText_append] at here
  have ended : Numeral.Ended (Glyph.ofText (gap ++ mark :: more) ++ rest) := by
    rw [ofText_append]
    exact Json.ended_of_blank blank other _
  exact readable own enough shallow ended here

theorem opens_of_joined {α : Type} {bracket : Char} {spells : α → List Char → Prop}
    (opens : ∀ {part text}, spells part text → Opens text) {parts : List α} {text : List Char}
    (joined : Json.Joined bracket spells parts text) : Opens text := by
  cases joined with
  | last own => exact (opens own).append _
  | more own => exact (opens own).append _

private theorem readItems_joined {items : List Json} (readable : ∀ item ∈ items, Readable item)
    {text : List Char} {fuel level : Nat} (joined : Json.Joined ']' Json.Spelled items text)
    (enough : 2 * text.length ≤ fuel) (shallow : level + Json.depthItems items < levelLimit)
    (here : cursor.rest = Glyph.ofText text ++ rest) :
    ∃ trees next, readItems fuel level cursor = (trees, .closed next.position, some next) ∧
      next.rest = rest ∧ List.Forall₂ Shows items trees := by
  -- Each item takes one step of the count, and the mark behind it pays for that step.
  induction joined generalizing fuel cursor with
  | @last item text gap own blank =>
      simp only [List.length_append, List.length_singleton] at enough
      obtain ⟨fuel, rfl⟩ : ∃ before, fuel = before + 1 := ⟨fuel - 1, by omega⟩
      have itemShallow : level + item.depth < levelLimit := by
        simp only [Json.depthItems] at shallow
        omega
      obtain ⟨tree, stop, read, left, shows⟩ := Readable.before_mark (readable item (.head _)) own
        blank (.inr (.inl rfl)) (by omega : 2 * text.length ≤ fuel) itemShallow here
      obtain ⟨next, closed, after⟩ := follow_bracket blank rfl left
      refine ⟨[tree], next, ?_, after, .cons shows .nil⟩
      simp only [readItems, read, closed]
  | @more item items text gap skipped later own before behind joined ih =>
      simp only [List.length_append, List.length_cons] at enough
      obtain ⟨fuel, rfl⟩ : ∃ before, fuel = before + 1 := ⟨fuel - 1, by omega⟩
      simp only [Json.depthItems] at shallow
      have itemShallow : level + item.depth < levelLimit := by omega
      obtain ⟨tree, stop, read, left, shows⟩ := Readable.before_mark (readable item (.head _)) own
        before (.inl rfl) (by omega : 2 * text.length ≤ fuel) itemShallow here
      obtain ⟨start, comma, after⟩ := follow_comma (.inl rfl) before behind
        (opens_of_joined Json.Spelled.opens joined) left
      obtain ⟨trees, next, others, ended, all⟩ := ih
        (fun item member => readable item (.tail _ member)) (by omega : 2 * later.length ≤ fuel)
        (by omega) after
      refine ⟨tree :: trees, next, ?_, ended, .cons shows all⟩
      simp only [readItems, read, comma, others]

theorem opens_of_paired {entry : String × Json} {text : List Char}
    (paired : Json.Paired Json.Spelled entry text) : Opens text := by
  cases paired with
  | pair => exact ⟨'"', _, rfl, by decide, by decide, by decide⟩

/-- An entry is read up to the mark behind it. -/
theorem readEntry_before_mark {entry : String × Json} (readable : Readable entry.2)
    {text gap more : List Char} {mark : Char} {fuel level : Nat}
    (own : Json.Paired Json.Spelled entry text) (blank : Blank gap)
    (other : mark = ',' ∨ mark = ']' ∨ mark = '}') (enough : 2 * text.length ≤ fuel)
    (shallow : level + entry.2.depth < levelLimit)
    (here : cursor.rest = Glyph.ofText (text ++ (gap ++ mark :: more)) ++ rest) :
    cursor.rest.head? = some (.char '"') ∧ ∃ key start tree next,
      readKey cursor.advance = (key, .ok start) ∧ key.text = .ok entry.1 ∧
      readValue fuel level start = (tree, some next) ∧
      next.rest = Glyph.ofText (gap ++ mark :: more) ++ rest ∧ Shows entry.2 tree := by
  cases own with
  | @pair key value body text inner skipped quoted before behind spelled =>
      have opening : cursor.rest = .char '"' :: (Glyph.ofText (body ++
          '"' :: (inner ++ ':' :: (skipped ++ (text ++ (gap ++ mark :: more))))) ++ rest) :=
        here.trans (by simp [Glyph.ofText])
      obtain ⟨label, start, readLabel, named, after⟩ :=
        readKey_spelled quoted before behind (spelled.opens.append _) (Cursor.rest_advance opening)
      have long : 2 * text.length ≤ fuel := by
        simp only [List.length_append, List.length_cons] at enough
        omega
      obtain ⟨tree, next, read, left, shows⟩ :=
        Readable.before_mark readable spelled blank other long shallow after
      exact ⟨by rw [opening]; rfl, label, start, tree, next, readLabel, named, read, left, shows⟩

private theorem readEntries_joined {entries : List (String × Json)}
    (readable : ∀ entry ∈ entries, Readable entry.2) {text : List Char} {fuel level : Nat}
    (joined : Json.Joined '}' (Json.Paired Json.Spelled) entries text)
    (enough : 2 * text.length ≤ fuel) (shallow : level + Json.depthEntries entries < levelLimit)
    (here : cursor.rest = Glyph.ofText text ++ rest) :
    ∃ parts next, readEntries fuel level cursor = (parts, .closed next.position, some next) ∧
      next.rest = rest ∧
      List.Forall₂ (fun entry part => part.1.text = .ok entry.1) entries parts ∧
      List.Forall₂ (fun entry part => Shows entry.2 part.2) entries parts := by
  induction joined generalizing fuel cursor with
  | @last entry text gap own blank =>
      simp only [List.length_append, List.length_singleton] at enough
      obtain ⟨fuel, rfl⟩ : ∃ before, fuel = before + 1 := ⟨fuel - 1, by omega⟩
      have entryShallow : level + entry.2.depth < levelLimit := by
        simp only [Json.depthEntries] at shallow
        omega
      obtain ⟨quoted, key, start, tree, stop, readLabel, named, read, left, shows⟩ :=
        readEntry_before_mark (readable entry (.head _)) own blank (.inr (.inr rfl))
          (by omega : 2 * text.length ≤ fuel) entryShallow here
      obtain ⟨next, closed, after⟩ := follow_bracket blank rfl left
      refine ⟨[(key, tree)], next, ?_, after, .cons named .nil, .cons shows .nil⟩
      simp only [readEntries, quoted, readLabel, read, closed, ne_eq, not_true_eq_false, if_false]
  | @more entry entries text gap skipped later own before behind joined ih =>
      simp only [List.length_append, List.length_cons] at enough
      obtain ⟨fuel, rfl⟩ : ∃ before, fuel = before + 1 := ⟨fuel - 1, by omega⟩
      simp only [Json.depthEntries] at shallow
      have entryShallow : level + entry.2.depth < levelLimit := by omega
      obtain ⟨quoted, key, start, tree, stop, readLabel, named, read, left, shows⟩ :=
        readEntry_before_mark (readable entry (.head _)) own before (.inl rfl)
          (by omega : 2 * text.length ≤ fuel) entryShallow here
      obtain ⟨second, comma, after⟩ := follow_comma (.inr rfl) before behind
        (opens_of_joined opens_of_paired joined) left
      obtain ⟨parts, next, others, ended, labels, all⟩ := ih
        (fun entry member => readable entry (.tail _ member)) (by omega : 2 * later.length ≤ fuel)
        (by omega) after
      refine ⟨(key, tree) :: parts, next, ?_, ended, .cons named labels, .cons shows all⟩
      simp only [readEntries, quoted, readLabel, read, comma, others, ne_eq, not_true_eq_false,
        if_false]

private theorem readValue_number {c : Char} {more : List Glyph}
    (starts : c = '-' ∨ c.isDigit = true)
    (here : cursor.rest = .char c :: more) (fuel level : Nat) :
    readValue (fuel + 1) level cursor = readNumber cursor := by
  have notQuote : c ≠ '"' := by
    rcases starts with rfl | digit
    · decide
    · exact Json.ne_of_isDigit digit rfl
  have notObject : c ≠ '{' := by
    rcases starts with rfl | digit
    · decide
    · exact Json.ne_of_isDigit digit rfl
  have notList : c ≠ '[' := by
    rcases starts with rfl | digit
    · decide
    · exact Json.ne_of_isDigit digit rfl
  have number : (c = '-' || c.isDigit) = true := by
    simpa using starts
  simp only [readValue, here, if_neg notQuote, if_neg notObject, if_neg notList, number, if_true]

/-- One step of the count is always there, as no value has an empty text. -/
theorem readable_of_step {value : Json}
    (step : ∀ {text : List Char} {fuel level : Nat} {cursor : Cursor} {rest : List Glyph},
      value.Spelled text → 2 * text.length ≤ fuel + 1 → level + value.depth < levelLimit →
      Numeral.Ended rest → cursor.rest = Glyph.ofText text ++ rest →
      ∃ tree next, readValue (fuel + 1) level cursor = (tree, some next) ∧ next.rest = rest ∧
        Shows value tree) : Readable value := by
  intro text fuel level cursor rest spelled enough shallow ended here
  obtain ⟨c, more, rfl, -⟩ := spelled.opens
  cases fuel with
  | zero => simp at enough
  | succ fuel => exact step spelled enough shallow ended here

private theorem readable_array {items : List Json} (readable : ∀ item ∈ items, Readable item) :
    Readable (.array items) := by
  apply readable_of_step
  intro text fuel level cursor rest spelled enough shallow ended here
  simp only [Json.depth] at shallow
  have fits : level + 1 < levelLimit := by omega
  cases spelled with
  | @noItems gap blank =>
      have opening : cursor.rest = .char '[' :: (Glyph.ofText (gap ++ [']']) ++ rest) := here
      have first : cursor.advance.skipSpace.rest = .char ']' :: rest := by
        refine Cursor.rest_skipSpace blank ?_
          ((Cursor.rest_advance opening).trans (ofText_append gap [']'] rest))
        rintro glyph ⟨⟩
        rfl
      refine ⟨.array cursor.position (level + 1) []
        (.closed cursor.advance.skipSpace.advance.position), cursor.advance.skipSpace.advance, ?_,
        Cursor.rest_advance first, .array fits .nil⟩
      simp [readValue, opening, first]
  | @array items gap inner blank inside =>
      have opening : cursor.rest = .char '[' :: (Glyph.ofText (gap ++ inner) ++ rest) := here
      have opens := opens_of_joined Json.Spelled.opens inside
      have first : cursor.advance.skipSpace.rest = Glyph.ofText inner ++ rest :=
        Cursor.rest_skipSpace blank (opens.settled rest)
          ((Cursor.rest_advance opening).trans (ofText_append gap inner rest))
      have long : 2 * inner.length ≤ fuel := by
        simp only [List.length_cons, List.length_append] at enough
        omega
      obtain ⟨trees, next, read, left, all⟩ :=
        readItems_joined readable inside long (by omega : level + 1 + _ < _) first
      refine ⟨.array cursor.position (level + 1) trees (.closed next.position), next, ?_, left,
        .array fits all⟩
      obtain ⟨c, more, rfl, -, notClosed, -⟩ := opens
      have nonempty : cursor.advance.skipSpace.rest = .char c :: (Glyph.ofText more ++ rest) :=
        first
      simp [readValue, opening, nonempty, notClosed, read]

private theorem readable_object {entries : List (String × Json)}
    (readable : ∀ entry ∈ entries, Readable entry.2) : Readable (.object entries) := by
  apply readable_of_step
  intro text fuel level cursor rest spelled enough shallow ended here
  simp only [Json.depth] at shallow
  have fits : level + 1 < levelLimit := by omega
  cases spelled with
  | @noEntries gap blank =>
      have opening : cursor.rest = .char '{' :: (Glyph.ofText (gap ++ ['}']) ++ rest) := here
      have first : cursor.advance.skipSpace.rest = .char '}' :: rest := by
        refine Cursor.rest_skipSpace blank ?_
          ((Cursor.rest_advance opening).trans (ofText_append gap ['}'] rest))
        rintro glyph ⟨⟩
        rfl
      refine ⟨.object cursor.position (level + 1) []
        (.closed cursor.advance.skipSpace.advance.position), cursor.advance.skipSpace.advance, ?_,
        Cursor.rest_advance first, .object fits .nil .nil⟩
      simp [readValue, opening, first]
  | @object entries gap inner blank inside =>
      have opening : cursor.rest = .char '{' :: (Glyph.ofText (gap ++ inner) ++ rest) := here
      have opens := opens_of_joined opens_of_paired inside
      have first : cursor.advance.skipSpace.rest = Glyph.ofText inner ++ rest :=
        Cursor.rest_skipSpace blank (opens.settled rest)
          ((Cursor.rest_advance opening).trans (ofText_append gap inner rest))
      have long : 2 * inner.length ≤ fuel := by
        simp only [List.length_cons, List.length_append] at enough
        omega
      obtain ⟨parts, next, read, left, keys, all⟩ :=
        readEntries_joined readable inside long (by omega : level + 1 + _ < _) first
      refine ⟨.object cursor.position (level + 1) parts (.closed next.position), next, ?_, left,
        .object fits keys all⟩
      obtain ⟨c, more, rfl, -, -, notClosed⟩ := opens
      have nonempty : cursor.advance.skipSpace.rest = .char c :: (Glyph.ofText more ++ rest) :=
        first
      simp [readValue, opening, nonempty, notClosed, read]

theorem readable (value : Json) : Readable value := by
  induction value using Json.induct_inside with
  | array items ih => exact readable_array ih
  | object entries ih => exact readable_object ih
  | null =>
      apply readable_of_step
      intro text fuel level cursor rest spelled enough shallow ended here
      cases spelled
      obtain ⟨next, read, left⟩ := readWord_eq .null here
      have first : cursor.rest = .char 'n' :: (Glyph.ofText ['u', 'l', 'l'] ++ rest) := here
      refine ⟨.scalar cursor.position (.ok .null) next.position, next, ?_, left, .scalar rfl⟩
      simpa [readValue, first] using read
  | bool value =>
      apply readable_of_step
      intro text fuel level cursor rest spelled enough shallow ended here
      cases spelled with
      | true =>
          obtain ⟨next, read, left⟩ := readWord_eq (.bool true) here
          have first : cursor.rest = .char 't' :: (Glyph.ofText ['r', 'u', 'e'] ++ rest) := here
          refine ⟨.scalar cursor.position (.ok (.bool true)) next.position, next, ?_, left,
            .scalar rfl⟩
          simpa [readValue, first] using read
      | false =>
          obtain ⟨next, read, left⟩ := readWord_eq (.bool false) here
          have first : cursor.rest = .char 'f' :: (Glyph.ofText ['a', 'l', 's', 'e'] ++ rest) :=
            here
          refine ⟨.scalar cursor.position (.ok (.bool false)) next.position, next, ?_, left,
            .scalar rfl⟩
          simpa [readValue, first] using read
  | number value =>
      apply readable_of_step
      intro text fuel level cursor rest spelled enough shallow ended here
      cases spelled with
      | number own =>
          obtain ⟨c, more, shape, starts⟩ := Number.Spelled.head own
          obtain ⟨next, read, left⟩ := readNumber_spelled own ended here
          rw [shape] at here
          exact ⟨.scalar cursor.position (.ok (.number value)) next.position, next,
            (readValue_number starts here fuel level).trans read, left, .scalar rfl⟩
  | string value =>
      apply readable_of_step
      intro text fuel level cursor rest spelled enough shallow ended here
      cases spelled with
      | @string value body own =>
          obtain ⟨next, read, left⟩ := readQuoted_spelled own here
          have first : cursor.rest = .char '"' :: (Glyph.ofText (body ++ ['"']) ++ rest) := here
          refine ⟨.scalar cursor.position (.ok (.string value)) next.position, next, ?_, left,
            .scalar rfl⟩
          simp [readValue, first, read]

end Tree

namespace Document

open Cursor (Blank)

private theorem ended_of_only_blank {gap : List Char} (blank : Blank gap) :
    Numeral.Ended (Glyph.ofText gap) := by
  intro c first
  cases gap with
  | nil => cases first
  | cons space gap =>
      cases first
      exact Json.other_of_isSpace (blank c (.head _))

/-- A text of a value, with any white space around it, is a document with a tree that shows the
value. -/
theorem ofText_spelled {value : Json} {before text after : List Char} (leading : Blank before)
    (trailing : Blank after) (spelled : value.Spelled text)
    (shallow : value.depth < Tree.levelLimit) :
    ∃ tree, ofText (String.ofList (before ++ (text ++ after))) = ⟨tree, none⟩ ∧
      Tree.Shows value tree := by
  have start : (Cursor.ofGlyphs (Glyph.ofText (before ++ (text ++ after)))).skipSpace.rest =
      Glyph.ofText text ++ Glyph.ofText after := by
    apply Cursor.rest_skipSpace leading (spelled.opens.settled _)
    simp [Cursor.ofGlyphs, Glyph.ofText]
  have enough : 2 * text.length ≤ 2 * (Glyph.ofText (before ++ (text ++ after))).length + 2 := by
    simp only [Glyph.ofText, List.length_map, List.length_append]
    omega
  obtain ⟨tree, next, read, left, shows⟩ := Tree.readable value spelled enough
    (by omega : 0 + value.depth < Tree.levelLimit) (ended_of_only_blank trailing) start
  have nothing : next.skipSpace.rest = [] := by
    refine Cursor.rest_skipSpace trailing (by simp [Cursor.Settled]) ?_
    rw [left, List.append_nil]
  refine ⟨tree, ?_, shows⟩
  simp only [ofText, String.toList_ofList, ofGlyphs, read, nothing, List.isEmpty_nil, if_true]

end Document

/-! ## Written texts -/

namespace Json

open Cursor (Blank blank_nil)

/-- All numbers in a value are integers that 64 bits hold. -/
inductive Integral : Json → Prop
  | null : Integral .null
  | bool (value : Bool) : Integral (.bool value)
  | integer {value : Int} (within : Numeral.Within value) : Integral (.number (.integer value))
  | string (value : String) : Integral (.string value)
  | array {items : List Json} (each : ∀ item ∈ items, Integral item) : Integral (.array items)
  | object {entries : List (String × Json)} (each : ∀ entry ∈ entries, Integral entry.2) :
      Integral (.object entries)

private theorem spelled_quote (value : String) : Spelled (.string value) (quote value) :=
  .string (Quoted.spells_flatMap_escape value.toList)

theorem paired_quote (key : String) {value : Json} {gap text : List Char} (blank : Blank gap)
    (own : Spelled value text) :
    Paired Spelled (key, value) (quote key ++ ':' :: (gap ++ text)) := by
  have pair := Paired.pair (Quoted.spells_flatMap_escape key.toList) blank_nil blank own
  simpa [quote] using pair

private theorem joined_compactItems {item : Json} {items : List Json}
    (each : ∀ inner ∈ item :: items, Spelled inner inner.compact) :
    Joined ']' Spelled (item :: items) (compactItems (item :: items) ++ [']']) := by
  induction items generalizing item with
  | nil => exact .last (each item (.head _)) blank_nil
  | cons next items ih =>
      have later := ih fun inner member => each inner (.tail _ member)
      have whole := Joined.more (each item (.head _)) blank_nil blank_nil later
      simpa [compactItems] using whole

private theorem joined_compactEntries {entry : String × Json} {entries : List (String × Json)}
    (each : ∀ inner ∈ entry :: entries, Spelled inner.2 inner.2.compact) :
    Joined '}' (Paired Spelled) (entry :: entries)
      (compactEntries (entry :: entries) ++ ['}']) := by
  have own {entry : String × Json} (value : Spelled entry.2 entry.2.compact) :
      Paired Spelled entry (quote entry.1 ++ ':' :: entry.2.compact) :=
    paired_quote entry.1 blank_nil value
  induction entries generalizing entry with
  | nil =>
      have whole : Joined '}' (Paired Spelled) [entry] _ :=
        .last (own (each entry (.head _))) blank_nil
      simpa [compactEntries] using whole
  | cons next entries ih =>
      have later := ih fun inner member => each inner (.tail _ member)
      have whole := Joined.more (own (each entry (.head _))) blank_nil blank_nil later
      simpa [compactEntries] using whole

theorem spelled_compact {value : Json} (integral : value.Integral) :
    Spelled value value.compact := by
  induction integral with
  | null => exact .null
  | bool value =>
      cases value with
      | true => exact .true
      | false => exact .false
  | integer within => exact .number (Number.spelled_integerText within)
  | string value => exact spelled_quote value
  | @array items each ih =>
      cases items with
      | nil => exact .noItems blank_nil
      | cons item items =>
          have whole := Spelled.array blank_nil (joined_compactItems ih)
          simpa [compact] using whole
  | @object entries each ih =>
      cases entries with
      | nil => exact .noEntries blank_nil
      | cons entry entries =>
          have whole := Spelled.object blank_nil (joined_compactEntries ih)
          simpa [compact] using whole

theorem blank_lineStart (level : Nat) : Blank (lineStart level) := by
  intro c member
  rcases List.mem_cons.mp member with rfl | later
  · decide
  · rw [(List.mem_replicate.mp later).2]
    decide

private theorem joined_prettyItems {item : Json} {items : List Json}
    (each : ∀ inner ∈ item :: items, ∀ level, Spelled inner (inner.pretty level)) (level : Nat) :
    Joined ']' Spelled (item :: items)
      (item.pretty (level + 1) ++ prettyItems level items) := by
  induction items generalizing item with
  | nil => exact .last (each item (.head _) _) (blank_lineStart level)
  | cons next items ih =>
      have later := ih fun inner member => each inner (.tail _ member)
      have whole := Joined.more (each item (.head _) (level + 1)) blank_nil
        (blank_lineStart (level + 1)) later
      simpa [prettyItems] using whole

private theorem joined_prettyEntries {entry : String × Json} {entries : List (String × Json)}
    (each : ∀ inner ∈ entry :: entries, ∀ level, Spelled inner.2 (inner.2.pretty level))
    (level : Nat) :
    Joined '}' (Paired Spelled) (entry :: entries)
      (quote entry.1 ++ ':' :: ' ' :: (entry.2.pretty (level + 1) ++
        prettyEntries level entries)) := by
  have space : Blank [' '] := fun c member => List.mem_singleton.mp member ▸ rfl
  have own {entry : String × Json}
      (value : ∀ level, Spelled entry.2 (entry.2.pretty level)) :
      Paired Spelled entry (quote entry.1 ++ ':' :: ' ' :: entry.2.pretty (level + 1)) :=
    paired_quote entry.1 space (value (level + 1))
  induction entries generalizing entry with
  | nil =>
      have whole : Joined '}' (Paired Spelled) [entry] _ :=
        .last (own (each entry (.head _))) (blank_lineStart level)
      simpa [prettyEntries] using whole
  | cons next entries ih =>
      have later := ih fun inner member => each inner (.tail _ member)
      have whole := Joined.more (own (each entry (.head _))) blank_nil
        (blank_lineStart (level + 1)) later
      simpa [prettyEntries] using whole

theorem spelled_pretty {value : Json} (integral : value.Integral) (level : Nat) :
    Spelled value (value.pretty level) := by
  induction value using induct_inside generalizing level with
  | null | bool | number | string => simpa [pretty] using spelled_compact integral
  | array items ih =>
      cases integral with
      | array each =>
          have inside : ∀ item ∈ items, ∀ level, Spelled item (item.pretty level) :=
            fun item member => ih item member (each item member)
          cases items with
          | nil => simpa [pretty] using Spelled.noItems blank_nil
          | cons item items =>
              have whole := Spelled.array (blank_lineStart (level + 1))
                (joined_prettyItems inside level)
              simpa [pretty] using whole
  | object entries ih =>
      cases integral with
      | object each =>
          have inside : ∀ entry ∈ entries, ∀ level, Spelled entry.2 (entry.2.pretty level) :=
            fun entry member => ih entry member (each entry member)
          cases entries with
          | nil => simpa [pretty] using Spelled.noEntries blank_nil
          | cons entry entries =>
              have whole := Spelled.object (blank_lineStart (level + 1))
                (joined_prettyEntries inside level)
              simpa [pretty] using whole

/-- The pretty text of a value without other numbers than integers is read back. -/
theorem ofText_prettyText {value : Json} (integral : value.Integral)
    (shallow : value.depth < Tree.levelLimit) :
    ∃ tree, Document.ofText value.prettyText = ⟨tree, none⟩ ∧ Tree.Shows value tree := by
  have read := Document.ofText_spelled blank_nil blank_nil (spelled_pretty integral 0) shallow
  simpa [prettyText] using read

end Json

end TracePipeline
