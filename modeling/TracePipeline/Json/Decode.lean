import TracePipeline.Json.Printer
import TracePipeline.Json.Reader
import TracePipeline.Text.Shown

/-!
# Decoding located trees

Readers that want a value of a certain shape from a tree. A reader goes through a tree in the order
of its text and stops at the first fault. Records may be written as objects, whose unknown keys are
passed over, or as lists of their fields in order.
-/

set_option autoImplicit false

namespace TracePipeline

/-- How the tree came about whose parts are read. -/
inductive Origin where
  /-- From a text, part by part. -/
  | streamed
  /-- From parts of a text that were kept back until it was known what they are. -/
  | buffered
  /-- From a value that was given as such. -/
  | inline
deriving DecidableEq, Repr

namespace Scalar

def describe : Scalar → String
  | .null => "null"
  | .bool true => "boolean `true`"
  | .bool false => "boolean `false`"
  | .number (.integer value) =>
    String.ofList ("integer `".toList ++ Number.integerText value ++ "`".toList)
  | .number (.real value) =>
    String.ofList ("floating point `".toList ++ value.text Number.style ++ "`".toList)
  | .string value => String.ofList ("string ".toList ++ Text.shown value.toList)

def toJson : Scalar → Json
  | .null => .null
  | .bool value => .bool value
  | .number value => .number value
  | .string value => .string value

end Scalar

namespace Tree

/-! ## Single values -/

/-- The fault of a tree that is not of the expected shape. A tree that cannot be read has its own
fault. -/
def mismatch (expected : String) : Tree → Fault
  | .scalar _ (.ok value) stop => .placed (.wrongType value.describe expected) stop
  | .scalar _ (.error fault) _ => fault
  | .array start .. => .placed (.wrongType "sequence" expected) start
  | .object start .. => .placed (.wrongType "map" expected) start
  | .broken _ strict _ => strict

def readString : Tree → Except Fault String
  | .scalar _ (.ok (.string value)) _ => .ok value
  | tree => .error (tree.mismatch "a string")

def readBool : Tree → Except Fault Bool
  | .scalar _ (.ok (.bool value)) _ => .ok value
  | tree => .error (tree.mismatch "a boolean")

def readWord32 : Tree → Except Fault UInt32
  | .scalar _ (.ok (.number (.integer value))) stop =>
    if 0 ≤ value ∧ value < Nat.pow 2 32 then .ok (UInt32.ofNat value.toNat)
    else
      .error (.placed (.wrongValue (Scalar.number (.integer value)).describe "u32") stop)
  | tree => .error (tree.mismatch "u32")

def isNull : Tree → Bool
  | .scalar _ (.ok .null) _ => true
  | _ => false

def readOption {α : Type} (reader : Tree → Except Fault α) (tree : Tree) :
    Except Fault (Option α) :=
  if tree.isNull then .ok none else some <$> reader tree

/-- Reads a value for which a default stands in when it is `null`. -/
def readOrDefault {α : Type} [Inhabited α] (reader : Tree → Except Fault α) (tree : Tree) :
    Except Fault α :=
  if tree.isNull then .ok default else reader tree

/-! ## Lists and objects -/

/-- The greatest number of lists and objects that may stand around each other, plus one. -/
def levelLimit : Nat := 128

/-- Goes into a list or an object, unless it is nested too deep. -/
def enter (start : Position) (level : Nat) : Except Fault Unit :=
  if level < levelLimit then .ok ()
  else .error (.placed .nestedTooDeep ⟨start.line, start.column + 1⟩)

mutual

/-- Passes over a value. What it holds is not looked at. -/
def skip : Tree → Except Fault Unit
  | .scalar .. => .ok ()
  | .array _ _ items ending => do
    skipItems items
    let _ ← ending.close Break.listCauseSkipping
  | .object _ _ entries ending => do
    skipEntries entries
    let _ ← ending.close Break.objectCauseSkipping
  | .broken _ _ skipping => .error skipping

def skipItems : List Tree → Except Fault Unit
  | [] => .ok ()
  | item :: items => do
    skip item
    skipItems items

def skipEntries : List (Key × Tree) → Except Fault Unit
  | [] => .ok ()
  | (_, value) :: entries => do
    skip value
    skipEntries entries

end

mutual

def readJson : Tree → Except Fault Json
  | .scalar _ content _ => content.map Scalar.toJson
  | .array start level items ending => do
    enter start level
    let values ← readJsonItems items
    let _ ← ending.close Break.listCause
    pure (.array values)
  | .object start level entries ending => do
    enter start level
    let values ← readJsonEntries [] entries
    let _ ← ending.close Break.objectCause
    pure (.object values)
  | .broken _ strict _ => .error strict

def readJsonItems : List Tree → Except Fault (List Json)
  | [] => .ok []
  | item :: items => do
    let value ← readJson item
    let values ← readJsonItems items
    pure (value :: values)

/-- Reads entries of any shape. Of equal keys the last one stays. -/
def readJsonEntries (before : Entries Json) : List (Key × Tree) → Except Fault (Entries Json)
  | [] => .ok before
  | (key, item) :: entries => do
    let name ← key.text
    let value ← readJson item
    readJsonEntries (before.insert name value) entries

end

def readList {α : Type} (reader : Tree → Except Fault α) : Tree → Except Fault (List α)
  | .array start level items ending => do
    enter start level
    let values ← items.mapM reader
    let _ ← ending.close Break.listCause
    pure values
  | tree => .error (tree.mismatch "a sequence")

/-- Reads entries one after the other. Of equal keys the last one stays. -/
def readMapEntries {α : Type} (reader : Tree → Except Fault α) (before : Entries α) :
    List (Key × Tree) → Except Fault (Entries α)
  | [] => .ok before
  | (key, item) :: entries => do
    let name ← key.text
    let value ← reader item
    readMapEntries reader (before.insert name value) entries

def readMap {α : Type} (reader : Tree → Except Fault α) : Tree → Except Fault (Entries α)
  | .object start level entries ending => do
    enter start level
    let values ← readMapEntries reader [] entries
    let _ ← ending.close Break.objectCause
    pure values
  | tree => .error (tree.mismatch "a map")

end Tree

/-! ## Records -/

/-- A field of a record that is being read into a draft of type `σ`. -/
structure Slot (σ : Type) where
  name : String
  otherKey : Option String := none
  filled : σ → Bool
  fill : σ → Tree → Except Fault σ

namespace Slot

variable {σ : Type}

def of {α : Type} (name : String) (get : σ → Option α) (set : σ → α → σ)
    (reader : Tree → Except Fault α) : Slot σ where
  name := name
  filled := fun draft => (get draft).isSome
  fill := fun draft tree => (reader tree).map (set draft)

def answersTo (slot : Slot σ) (key : String) : Bool :=
  slot.name == key || slot.otherKey == some key

def fillEntry (slots : List (Slot σ)) (draft : σ) (key : Key) (name : String) (value : Tree) :
    Except Fault σ :=
  match slots.find? fun slot => slot.answersTo name with
  | none => do
    value.skip
    pure draft
  | some slot =>
    if slot.filled draft then .error (.placed (.duplicateField slot.name) key.abandoned)
    else slot.fill draft value

def fillEntries (slots : List (Slot σ)) : σ → List (Key × Tree) → Except Fault σ
  | draft, [] => .ok draft
  | draft, (key, value) :: entries => do
    let name ← key.text
    let draft ← fillEntry slots draft key name value
    fillEntries slots draft entries

/-- Reads the fields of a record written as a list. The answer holds the items behind the last
field, or nothing if there are fewer items than fields. -/
def fillItems : List (Slot σ) → σ → List Tree → Except Fault (σ × Option (List Tree))
  | [], draft, items => .ok (draft, some items)
  | _ :: _, draft, [] => .ok (draft, none)
  | slot :: slots, draft, item :: items => do
    let draft ← slot.fill draft item
    fillItems slots draft items

end Slot

namespace Tree

def countText (count : Nat) (word : String) : String :=
  toString count ++ " " ++ word ++ (if count = 1 then "" else "s")

/-- The fault of a record written as a list that lacks the field at an index. -/
def shortList (name : String) (size index : Nat) (stop : Position) : Fault :=
  .placed (.wrongLength index ("struct " ++ name ++ " with " ++ countText size "element")) stop

/-- Asks that a record written as a list has no items behind its last field. -/
def endRecord (origin : Origin) (size : Nat) (items : List Tree) (ending : Ending) :
    Except Fault Unit :=
  match items with
  | [] => do
    let _ ← ending.close Break.listCauseTaken
  | item :: _ =>
    let length := size + items.length
    match origin with
    | .streamed => .error (.placed .trailingCharacters item.intoStart)
    | .buffered =>
      .error ⟨.wrongLength length (countText size "element" ++ " in sequence"), none⟩
    | .inline => .error ⟨.wrongLength length "fewer elements in array", none⟩

/-- Reads a record. `finish` turns the draft into the record, or names the first field that is
missing. -/
def readRecord {σ α : Type} (origin : Origin) (name : String) (slots : List (Slot σ)) (empty : σ)
    (finish : σ → Except String α) : Tree → Except Fault α
  | .object start level entries ending => do
    enter start level
    let draft ← Slot.fillEntries slots empty entries
    let stop ← ending.close Break.objectCause
    match finish draft with
    | .ok record => pure record
    | .error missing => throw (.placed (.missingField missing) stop)
  | .array start level items ending => do
    enter start level
    let (draft, behind) ← Slot.fillItems slots empty items
    let stop ←
      match behind with
      | none => ending.close Break.listCause
      | some items => do
        endRecord origin slots.length items ending
        pure start
    match finish draft with
    | .ok record => pure record
    | .error missing =>
      throw (shortList name slots.length (slots.findIdx fun slot => slot.name == missing) stop)
  | tree => .error (tree.mismatch ("struct " ++ name))

/-- Reads the name of one of a few variants. The name may also be the key of an object with one
entry whose value is empty. -/
def readVariant {α : Type} (origin : Origin) (variants : List (String × α)) :
    Tree → Except Fault α
  | .scalar _ (.ok (.string name)) stop => named name stop
  | .object start _ entries _ =>
    match entries with
    | [(key, value)] => do
      let name ← key.text
      let variant ← named name start
      if isEmpty value then pure variant else throw (value.mismatch "unit")
    | _ => .error (.placed (.wrongValue "map" "map with a single key") start)
  | tree => .error (tree.mismatch "string or map")
where
  named (name : String) (place : Position) : Except Fault α :=
    match variants.lookup name with
    | some variant => .ok variant
    | none => .error (.placed (.unknownVariant name (variants.map Prod.fst)) place)
  isEmpty : Tree → Bool
    | .object _ _ entries _ => origin == .buffered && entries.isEmpty
    | tree => tree.isNull

def required {α : Type} (name : String) (field : Option α) : Except String α :=
  match field with
  | some value => .ok value
  | none => .error name

/-- The tree of a value that is given as such. Nothing in it has a place that a message shows. -/
def ofScalar (value : Scalar) : Tree :=
  .scalar .start (.ok value) .start

mutual

def ofJson : Json → Tree
  | .null => ofScalar .null
  | .bool value => ofScalar (.bool value)
  | .number value => ofScalar (.number value)
  | .string value => ofScalar (.string value)
  | .array items => .array .start 0 (ofJsonItems items) (.closed .start)
  | .object entries => .object .start 0 (ofJsonEntries entries) (.closed .start)

def ofJsonItems : List Json → List Tree
  | [] => []
  | item :: items => ofJson item :: ofJsonItems items

def ofJsonEntries : List (String × Json) → List (Key × Tree)
  | [] => []
  | (key, value) :: entries => (⟨.ok key, .start⟩, ofJson value) :: ofJsonEntries entries

end

/-- Reads a value that is given as such; its faults have no place. -/
def readInline {α : Type} (reader : Tree → Except Fault α) (value : Json) : Except Fault α :=
  (reader (ofJson value)).mapError Fault.unplaced

end Tree

def Json.read? (text : String) : Except Fault Json :=
  (Document.ofText text).read Tree.readJson

end TracePipeline
