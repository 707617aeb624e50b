import TracePipeline.Proofs.JsonAcceptance
import TracePipeline.Trace.Sidecar

/-! Payloads are the objects that a raw text encodes, as they are or inside one string. Whatever
else a raw text holds is missing when it is blank and malformed when it is not. -/

set_option autoImplicit false

namespace TracePipeline

/-! ## Texts that are encoded over and over -/

namespace Json

open Cursor (Blank)

/-- White space around a text. -/
structure Padding where
  before : List Char
  after : List Char
  leading : Blank before
  trailing : Blank after

/-- The compact text of a value with white space around it. -/
def paddedText (value : Json) (padding : Padding) : String :=
  String.ofList (padding.before ++ (value.compact ++ padding.after))

/-- The text of a value, encoded as a string as often as there is more white space for it. -/
def encoded (value : Json) (outer : Padding) : List Padding → String
  | [] => value.paddedText outer
  | inner :: more => (Json.string (value.encoded inner more)).paddedText outer

theorem read?_paddedText {value : Json} (plain : value.Plain)
    (shallow : value.depth < Tree.levelLimit) (padding : Padding) :
    read? (value.paddedText padding) = .ok value :=
  read?_eq_ok_iff.mpr (encodedAs_compact plain shallow padding.leading padding.trailing)

private theorem read?_encoded_nil {value : Json} (plain : value.Plain)
    (shallow : value.depth < Tree.levelLimit) (outer : Padding) :
    read? (value.encoded outer []) = .ok value :=
  read?_paddedText plain shallow outer

/-- Reading a text takes one encoding off it. -/
theorem read?_encoded_cons (value : Json) (outer inner : Padding) (more : List Padding) :
    read? (value.encoded outer (inner :: more)) = .ok (.string (value.encoded inner more)) :=
  read?_paddedText (.string _) (Nat.zero_lt_succ _) outer

theorem EncodedAs.unique {value other : Json} {text : String} (encoded : value.EncodedAs text)
    (encoded' : other.EncodedAs text) : value = other :=
  Except.ok.inj ((read?_eq_ok_iff.mpr encoded).symm.trans (read?_eq_ok_iff.mpr encoded'))

/-! ### Blank texts -/

theorem isBlankText_eq_false {text : String} {c : Char} (member : c ∈ text.toList)
    (solid : Text.isBlank c = false) : isBlankText text = false := by
  rw [isBlankText, List.all_eq_false]
  exact ⟨c, member, by simp [solid]⟩

theorem EncodedAs.string_not_blank {value text : String} (encoded : (string value).EncodedAs text) :
    isBlankText text = false := by
  obtain ⟨raw, before, body, after, same, -, -, -, spelled, rfl⟩ := encoded
  cases spelled with
  | string => exact isBlankText_eq_false (by simp : '"' ∈ _) (by decide)
  | null | true | false | number | noItems | array | noEntries | object => cases same

private theorem EncodedAs.object_not_blank {entries : Entries Json} {text : String}
    (encoded : (object entries).EncodedAs text) : isBlankText text = false := by
  obtain ⟨raw, before, body, after, same, -, -, -, spelled, rfl⟩ := encoded
  cases spelled with
  | noEntries => exact isBlankText_eq_false (by simp : '{' ∈ _) (by decide)
  | object => exact isBlankText_eq_false (by simp : '{' ∈ _) (by decide)
  | null | true | false | number | string | noItems | array => cases same

end Json

/-! ## Payloads -/

namespace Sidecar

open Json (Padding)

/-- A text carries the entries of an object: it encodes the object, or a text that does. -/
def Carries (text : String) (entries : Entries Json) : Prop :=
  (Json.object entries).EncodedAs text ∨
    ∃ inner, (Json.string inner).EncodedAs text ∧ (Json.object entries).EncodedAs inner

variable {text : String} {entries : Entries Json}

theorem Carries.not_blank (carries : Carries text entries) : isBlankText text = false := by
  rcases carries with once | ⟨inner, twice, -⟩
  · exact once.object_not_blank
  · exact twice.string_not_blank

theorem Carries.ofText_eq (carries : Carries text entries) : ofText text = .present entries := by
  rcases carries with once | ⟨inner, outside, inside⟩
  · rw [ofText, Json.read?_eq_ok_iff.mpr once]
  · rw [ofText, Json.read?_eq_ok_iff.mpr outside]
    simp only [Json.read?_eq_ok_iff.mpr inside]

/-- A text carries the entries that are read of it, and is malformed otherwise. -/
theorem ofText_cases (text : String) :
    (∃ entries, ofText text = .present entries ∧ Carries text entries) ∨
      ∃ reason, ofText text = .malformed reason := by
  unfold ofText
  split
  case h_1 => exact .inr ⟨_, rfl⟩
  case h_2 entries read => exact .inl ⟨entries, rfl, .inl (Json.read?_eq_ok_iff.mp read)⟩
  case h_3 inner outside =>
    split
    case h_1 entries inside =>
      exact .inl ⟨entries, rfl, .inr ⟨inner, Json.read?_eq_ok_iff.mp outside,
        Json.read?_eq_ok_iff.mp inside⟩⟩
    case h_2 => exact .inr ⟨_, rfl⟩
  case h_4 => exact .inr ⟨_, rfl⟩

theorem ofText_eq_present_iff : ofText text = .present entries ↔ Carries text entries := by
  refine ⟨fun read => ?_, Carries.ofText_eq⟩
  rcases ofText_cases text with ⟨found, own, carries⟩ | ⟨reason, malformed⟩
  · cases own.symm.trans read
    exact carries
  · cases malformed.symm.trans read

theorem ofText_eq_malformed_iff :
    (∃ reason, ofText text = .malformed reason) ↔ ∀ entries, ¬Carries text entries := by
  constructor
  case mp =>
    rintro ⟨reason, malformed⟩ entries carries
    cases malformed.symm.trans carries.ofText_eq
  case mpr =>
    intro nothing
    rcases ofText_cases text with ⟨found, -, carries⟩ | malformed
    · exact absurd carries (nothing found)
    · exact malformed

private theorem ofText_ne_absent (text : String) : ofText text ≠ .absent := by
  intro absent
  rcases ofText_cases text with ⟨entries, present, -⟩ | ⟨reason, malformed⟩
  · cases present.symm.trans absent
  · cases malformed.symm.trans absent

theorem read_blank (blank : isBlankText text = true) : read (some text) = .absent :=
  if_pos blank

theorem read_not_blank (solid : isBlankText text = false) : read (some text) = ofText text :=
  if_neg (by simp [solid])

theorem read_eq_absent_iff (raw : Option String) :
    read raw = .absent ↔ ∀ text ∈ raw, isBlankText text := by
  cases raw with
  | none => exact ⟨fun _ => nofun, fun _ => rfl⟩
  | some text =>
      simp only [Option.mem_def, Option.some.injEq, forall_eq']
      cases blank : isBlankText text with
      | true => simp [read_blank blank]
      | false => simp [read_not_blank blank, ofText_ne_absent]

theorem read_eq_present_iff (raw : Option String) (entries : Entries Json) :
    read raw = .present entries ↔ ∃ text ∈ raw, Carries text entries := by
  cases raw with
  | none => exact ⟨nofun, nofun⟩
  | some text =>
      simp only [Option.mem_def, Option.some.injEq, exists_eq_left']
      cases blank : isBlankText text with
      | true =>
          have nothing : ¬Carries text entries := fun carries =>
            Bool.noConfusion (blank.symm.trans carries.not_blank)
          simp [read_blank blank, nothing]
      | false => rw [read_not_blank blank, ofText_eq_present_iff]

theorem read_eq_malformed_iff (raw : Option String) :
    (∃ reason, read raw = .malformed reason) ↔
      ∃ text ∈ raw, isBlankText text = false ∧ ∀ entries, ¬Carries text entries := by
  cases raw with
  | none => exact ⟨nofun, nofun⟩
  | some text =>
      simp only [Option.mem_def, Option.some.injEq, exists_eq_left']
      cases blank : isBlankText text with
      | true => simp [read_blank blank]
      | false => simp [read_not_blank blank, ofText_eq_malformed_iff]

/-- An object that is encoded once or twice is carried. -/
theorem carries_encoded (plain : (Json.object entries).Plain)
    (shallow : (Json.object entries).depth < Tree.levelLimit) (outer : Padding)
    {inner : List Padding} (few : inner.length ≤ 1) :
    Carries ((Json.object entries).encoded outer inner) entries := by
  match inner with
  | [] => exact .inl (Json.read?_eq_ok_iff.mp (Json.read?_encoded_nil plain shallow outer))
  | [padding] =>
      refine .inr ⟨(Json.object entries).encoded padding [],
        Json.read?_eq_ok_iff.mp (Json.read?_encoded_cons _ outer padding []), ?_⟩
      exact Json.read?_eq_ok_iff.mp (Json.read?_encoded_nil plain shallow padding)

/-- What is encoded three times or more carries nothing. -/
theorem not_carries_encoded (value : Json) (outer second third : Padding) (more : List Padding)
    (entries : Entries Json) :
    ¬Carries (value.encoded outer (second :: third :: more)) entries := by
  have outside := Json.read?_eq_ok_iff.mp
    (Json.read?_encoded_cons value outer second (third :: more))
  have inside := Json.read?_eq_ok_iff.mp (Json.read?_encoded_cons value second third more)
  rintro (once | ⟨inner, twice, object⟩)
  · cases once.unique outside
  · cases twice.unique outside
    cases object.unique inside

theorem read_encoded_often (value : Json) (outer : Padding) {inner : List Padding}
    (often : 2 ≤ inner.length) :
    ∃ reason, read (some (value.encoded outer inner)) = .malformed reason := by
  match inner with
  | second :: third :: more =>
      have solid := (Json.read?_eq_ok_iff.mp
        (Json.read?_encoded_cons value outer second (third :: more))).string_not_blank
      exact (read_eq_malformed_iff _).mpr
        ⟨_, rfl, solid, not_carries_encoded value outer second third more⟩

/-- A payload is an object encoded once or twice. A raw text holds the entries it carries; nothing
is there when it is missing or blank, and it is malformed otherwise. Each object without real
numbers, nested not too deep, is read back from its text and from this text inside a string, with
any white space around them. Nothing is read back of what is encoded more often. -/
theorem read_iff_carries :
    (∀ raw, read raw = .absent ↔ ∀ text ∈ raw, isBlankText text) ∧
      (∀ raw entries, read raw = .present entries ↔ ∃ text ∈ raw, Carries text entries) ∧
      (∀ raw, (∃ reason, read raw = .malformed reason) ↔
        ∃ text ∈ raw, isBlankText text = false ∧ ∀ entries, ¬Carries text entries) ∧
      (∀ (entries : Entries Json) (outer : Padding) (inner : List Padding),
        (Json.object entries).Plain → (Json.object entries).depth < Tree.levelLimit →
        inner.length ≤ 1 →
        read (some ((Json.object entries).encoded outer inner)) = .present entries) ∧
      ∀ (value : Json) (outer : Padding) (inner : List Padding), 2 ≤ inner.length →
        ∃ reason, read (some (value.encoded outer inner)) = .malformed reason := by
  refine ⟨read_eq_absent_iff, read_eq_present_iff, read_eq_malformed_iff, ?_, ?_⟩
  · intro entries outer inner plain shallow few
    exact (read_eq_present_iff _ _).mpr ⟨_, rfl, carries_encoded plain shallow outer few⟩
  · intro value outer inner often
    exact read_encoded_often value outer often

/-- A setting with a line feed in its value, encoded twice and between blanks. -/
theorem read_settings_encodedTwice :
    read (some "\n\"\x7b\\\"run\\\":\\\"make\\\\ntest\\\"\x7d\" ") =
      .present [("run", .string "make\ntest")] := by
  have plain : (Json.object [("run", .string "make\ntest")]).Plain :=
    .object (by decide) (List.forall_mem_singleton.mpr (.string _))
  let outer : Padding := ⟨['\n'], [' '], by simp [Cursor.Blank, Cursor.isSpace],
    by simp [Cursor.Blank, Cursor.isSpace]⟩
  let inner : Padding := ⟨[], [], Cursor.blank_nil, Cursor.blank_nil⟩
  have text : (Json.object [("run", .string "make\ntest")]).encoded outer [inner] =
      "\n\"\x7b\\\"run\\\":\\\"make\\\\ntest\\\"\x7d\" " := by
    decide
  rw [← text]
  exact read_iff_carries.2.2.2.1 [("run", .string "make\ntest")] outer [inner] plain (by decide)
    (by decide)

end Sidecar

end TracePipeline
