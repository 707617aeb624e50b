import TracePipeline.Json.Numeral
import TracePipeline.Json.Quoted

/-!
# Reading JSON texts

Every text has a located tree. Reading stops where even the skipping reader cannot go on. Recursion
is bounded by a count that the length of the input sets; every two steps take at least one glyph.
-/

set_option autoImplicit false

namespace TracePipeline

namespace Tree

/-! ## Values without parts -/

def readLetters : List Char → Cursor → Except Fault Cursor
  | [], cursor => .ok cursor
  | letter :: letters, cursor =>
    match cursor.rest with
    | [] => .error (.placed .endInValue cursor.position)
    | glyph :: _ =>
      if glyph = .char letter then readLetters letters cursor.advance
      else .error (.placed .expectedWord cursor.intoNext)

/-- Reads a word that stands for a value; its first letter is at the cursor. -/
def readWord (letters : List Char) (value : Scalar) (cursor : Cursor) : Tree × Option Cursor :=
  match readLetters letters cursor.advance with
  | .ok next => (.scalar cursor.position (.ok value) next.position, some next)
  | .error fault => (.broken cursor.position fault fault, none)

/-- Reads a number. A number that is too large can be passed over. -/
def readNumber (cursor : Cursor) : Tree × Option Cursor :=
  match Numeral.read cursor with
  | .error (strict, skipping) => (.broken cursor.position strict skipping, none)
  | .ok (numeral, next) =>
    let stop := next.position
    match numeral.value with
    | .ok value => (.scalar cursor.position (.ok (.number value)) stop, some next)
    | .error behind =>
      let fault := Fault.placed .numberOutOfRange ⟨stop.line, stop.column - behind⟩
      (.scalar cursor.position (.error fault) stop, some next)

def readQuoted (cursor : Cursor) : Tree × Option Cursor :=
  match Quoted.read cursor.advance with
  | .broken strict skipping => (.broken cursor.position strict skipping, none)
  | .closed text next =>
    (.scalar cursor.position (text.map .string) next.position, some next)

def readNothing (cause : Cause) (place : Position) (cursor : Cursor) : Tree × Option Cursor :=
  (.broken cursor.position (.placed cause place) (.placed cause place), none)

/-! ## Parts -/

/-- What stands behind an item or an entry. -/
inductive Follow where
  | close (next : Cursor)
  | more (next : Cursor)
  | stop (reason : Break) (place : Position)

def follow (bracket : Char) (cursor : Cursor) : Follow :=
  let cursor := cursor.skipSpace
  match cursor.rest with
  | [] => .stop .endOfText cursor.position
  | glyph :: _ =>
    if glyph = .char bracket then .close cursor.advance
    else if glyph = .char ',' then
      let next := cursor.advance.skipSpace
      match next.rest with
      | [] => .stop .endAfterComma next.position
      | glyph :: _ =>
        if glyph = .char bracket then .stop .commaBeforeEnd next.intoNext else .more next
    else .stop .noComma cursor.intoNext

/-- Reads the key of an entry; the cursor is behind its opening quote. The answer is the key with
the cursor at the value, or with what stands in the place of the value. -/
def readKey (cursor : Cursor) : Key × Except Tree Cursor :=
  match Quoted.read cursor with
  | .broken strict skipping =>
    (⟨.error strict, cursor.position⟩, .error (.broken cursor.position strict skipping))
  | .closed text next =>
    let colon := next.skipSpace
    match colon.rest with
    | [] =>
      let fault := Fault.placed .endInObject colon.position
      (⟨text, colon.position⟩, .error (.broken colon.position fault fault))
    | glyph :: _ =>
      let abandoned :=
        if glyph = .char '}' then colon.advance.position else colon.position
      if glyph = .char ':' then (⟨text, abandoned⟩, .ok colon.advance.skipSpace)
      else
        let fault := Fault.placed .expectedColon colon.intoNext
        (⟨text, abandoned⟩, .error (.broken colon.position fault fault))

mutual

/-- Reads a value; no white space is at the cursor. `level` counts the lists and objects around
it. -/
def readValue (fuel level : Nat) (cursor : Cursor) : Tree × Option Cursor :=
  match fuel with
  | 0 => readNothing .expectedValue cursor.position cursor
  | fuel + 1 =>
    match cursor.rest with
    | [] => readNothing .endInValue cursor.position cursor
    | .stray _ :: _ => readNothing .expectedValue cursor.intoNext cursor
    | .char c :: _ =>
      if c = '"' then readQuoted cursor
      else if c = '{' then
        let first := cursor.advance.skipSpace
        let (entries, ending, next) :=
          if first.rest.head? = some (.char '}') then
            ([], .closed first.advance.position, some first.advance)
          else if first.rest.isEmpty then ([], .broken .endOfText first.position, none)
          else readEntries fuel (level + 1) first
        (.object cursor.position (level + 1) entries ending, next)
      else if c = '[' then
        let first := cursor.advance.skipSpace
        let (items, ending, next) :=
          if first.rest.head? = some (.char ']') then
            ([], .closed first.advance.position, some first.advance)
          else if first.rest.isEmpty then ([], .broken .endOfText first.position, none)
          else readItems fuel (level + 1) first
        (.array cursor.position (level + 1) items ending, next)
      else if c = '-' || c.isDigit then readNumber cursor
      else if c = 'n' then readWord ['u', 'l', 'l'] .null cursor
      else if c = 't' then readWord ['r', 'u', 'e'] (.bool true) cursor
      else if c = 'f' then readWord ['a', 'l', 's', 'e'] (.bool false) cursor
      else readNothing .expectedValue cursor.intoNext cursor
termination_by structural fuel

def readItems (fuel level : Nat) (cursor : Cursor) : List Tree × Ending × Option Cursor :=
  match fuel with
  | 0 => ([], .unreached, none)
  | fuel + 1 =>
    let (item, next) := readValue fuel level cursor
    match next with
    | none => ([item], .unreached, none)
    | some next =>
      match follow ']' next with
      | .close next => ([item], .closed next.position, some next)
      | .stop reason place => ([item], .broken reason place, none)
      | .more next =>
        let (items, ending, next) := readItems fuel level next
        (item :: items, ending, next)
termination_by structural fuel

def readEntries (fuel level : Nat) (cursor : Cursor) :
    List (Key × Tree) × Ending × Option Cursor :=
  match fuel with
  | 0 => ([], .unreached, none)
  | fuel + 1 =>
    if cursor.rest.head? ≠ some (.char '"') then ([], .broken .noKey cursor.intoNext, none)
    else
      match readKey cursor.advance with
      | (key, .error tree) => ([(key, tree)], .unreached, none)
      | (key, .ok start) =>
        let (value, next) := readValue fuel level start
        match next with
        | none => ([(key, value)], .unreached, none)
        | some next =>
          match follow '}' next with
          | .close next => ([(key, value)], .closed next.position, some next)
          | .stop reason place => ([(key, value)], .broken reason place, none)
          | .more next =>
            let (entries, ending, next) := readEntries fuel level next
            ((key, value) :: entries, ending, next)
termination_by structural fuel

end

end Tree

/-- A whole text: its tree, and the fault of a text that goes on behind it. -/
structure Document where
  root : Tree
  trailing : Option Fault

namespace Document

def ofGlyphs (glyphs : List Glyph) : Document :=
  let start := (Cursor.ofGlyphs glyphs).skipSpace
  match Tree.readValue (2 * glyphs.length + 2) 0 start with
  | (root, none) => ⟨root, none⟩
  | (root, some next) =>
    let next := next.skipSpace
    if next.rest.isEmpty then ⟨root, none⟩
    else ⟨root, some (.placed .trailingCharacters next.intoNext)⟩

def ofText (text : String) : Document :=
  ofGlyphs (Glyph.ofText text.toList)

def ofBytes (bytes : List UInt8) : Document :=
  ofGlyphs (Glyph.ofBytes bytes)

/-- Reads the root, then asks that the text ends behind it. -/
def read {α : Type} (reader : Tree → Except Fault α) (document : Document) : Except Fault α := do
  let value ← reader document.root
  match document.trailing with
  | none => pure value
  | some fault => throw fault

end Document

end TracePipeline
