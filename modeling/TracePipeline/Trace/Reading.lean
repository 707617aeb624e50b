import TracePipeline.Failure
import TracePipeline.Trace.Span

/-!
# Reading traces

A trace is a JSON document whose root is a span. A missing key and a `null` read alike, as the empty
value. Attributes are texts; other values under them are written as texts.
-/

set_option autoImplicit false

namespace TracePipeline

/-- A span that is being read, with the fields seen so far. -/
structure SpanDraft where
  typeName : Option String := none
  spanId : Option String := none
  traceId : Option String := none
  parentSpanId : Option String := none
  parent : Option String := none
  name : Option String := none
  spanName : Option String := none
  attributes : Option (Entries String) := none
  parameters : Option (Entries Json) := none
  children : Option (List Span) := none
deriving Inhabited

namespace SpanDraft

/-- The span of a draft. What is missing is empty. -/
def finish (draft : SpanDraft) : Span where
  typeName := draft.typeName.getD ""
  spanId := draft.spanId.getD ""
  traceId := draft.traceId.getD ""
  parentSpanId := draft.parentSpanId.getD ""
  parent := draft.parent.getD ""
  name := draft.name.getD ""
  spanName := draft.spanName.getD ""
  attributes := draft.attributes.getD []
  parameters := draft.parameters.getD []
  children := draft.children.getD []

end SpanDraft

namespace Span

def attributeText? : Json → Option String
  | .null => none
  | .string value => some value
  | other => some other.compactText

def attributesOf (values : Entries Json) : Entries String :=
  values.filterMap fun (key, value) => (attributeText? value).map fun text => (key, text)

/-- Reads a text, for which `null` is the empty one. -/
def readText : Tree → Except Fault String :=
  Tree.readOrDefault Tree.readString

def readValues : Tree → Except Fault (Entries Json) :=
  Tree.readOrDefault (Tree.readMap Tree.readJson)

/-- The fields of a span other than its children, in the order of a span written as a list. -/
def slots : List (Slot SpanDraft) := [
  .of "stepType" SpanDraft.typeName (fun draft text => { draft with typeName := some text })
    readText,
  .of "spanId" SpanDraft.spanId (fun draft text => { draft with spanId := some text }) readText,
  .of "traceId" SpanDraft.traceId (fun draft text => { draft with traceId := some text }) readText,
  .of "parentSpanId" SpanDraft.parentSpanId
    (fun draft text => { draft with parentSpanId := some text }) readText,
  .of "parent" SpanDraft.parent (fun draft text => { draft with parent := some text }) readText,
  .of "name" SpanDraft.name (fun draft text => { draft with name := some text }) readText,
  .of "spanName" SpanDraft.spanName (fun draft text => { draft with spanName := some text })
    readText,
  { Slot.of "attributes" SpanDraft.attributes
      (fun draft values => { draft with attributes := some values })
      (fun tree => (readValues tree).map attributesOf) with
    otherKey := some "attributesMap" },
  .of "parameterMap" SpanDraft.parameters
    (fun draft values => { draft with parameters := some values }) readValues]

def childrenName : String := "children"

def fieldCount : Nat := slots.length + 1

mutual

def read : Tree → Except Fault Span
  | .object start level entries ending => do
    Tree.enter start level
    let draft ← readEntries {} entries
    let _ ← ending.close Break.objectCause
    pure draft.finish
  | .array start level items ending => do
    Tree.enter start level
    let (draft, behind) ← readItems slots {} items
    match behind with
    | none => do
      let _ ← ending.close Break.listCause
    | some items => Tree.endRecord .streamed fieldCount items ending
    pure draft.finish
  | tree => .error (tree.mismatch "struct SpanNode")

def readEntries (draft : SpanDraft) : List (Key × Tree) → Except Fault SpanDraft
  | [] => .ok draft
  | (key, value) :: entries => do
    let name ← key.text
    if name = childrenName then
      if draft.children.isSome then
        throw (.placed (.duplicateField childrenName) key.abandoned)
      let children ← readChildren value
      readEntries { draft with children := children } entries
    else
      let draft ← Slot.fillEntry slots draft key name value
      readEntries draft entries

/-- Reads the fields of a span written as a list. The answer holds the items behind the last
field, or nothing if there are fewer items than fields. -/
def readItems (slots : List (Slot SpanDraft)) (draft : SpanDraft) :
    List Tree → Except Fault (SpanDraft × Option (List Tree))
  | [] => .ok (draft, none)
  | item :: items =>
    match slots with
    | [] => do
      let children ← readChildren item
      pure ({ draft with children := children }, some items)
    | slot :: slots => do
      let draft ← slot.fill draft item
      readItems slots draft items

/-- Reads the spans inside, for which `null` is the empty list. -/
def readChildren : Tree → Except Fault (List Span)
  | .array start level items ending => do
    Tree.enter start level
    let spans ← readAll items
    let _ ← ending.close Break.listCause
    pure spans
  | tree => if tree.isNull then .ok [] else .error (tree.mismatch "a sequence")

def readAll : List Tree → Except Fault (List Span)
  | [] => .ok []
  | item :: items => do
    let span ← read item
    let spans ← readAll items
    pure (span :: spans)

end

def ofDocument (document : Document) : Except Failure Span :=
  (document.read read).mapError .unreadableTrace

def ofText (text : String) : Except Failure Span :=
  ofDocument (.ofText text)

/-- Reads a trace from bytes, which have to be a text in UTF-8. -/
def ofBytes (bytes : List UInt8) : Except Failure Span :=
  ofDocument (.ofBytes bytes)

end Span

end TracePipeline
