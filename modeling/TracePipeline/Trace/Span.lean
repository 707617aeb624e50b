import TracePipeline.Trace.Sidecar

/-!
# Spans

A build trace is a tree of spans, one for each step that ran. A span carries attributes, the
parameters of its step, and an order id that tells when it ran among the others.
-/

set_option autoImplicit false

namespace TracePipeline

/-- One recorded step and those inside it. Everything may be empty. -/
structure Span where
  typeName : String
  spanId : String
  traceId : String
  parentSpanId : String
  parent : String
  name : String
  spanName : String
  attributes : Entries String
  parameters : Entries Json
  children : List Span
deriving Repr, Inhabited

namespace Span

/-! ## Attributes -/

def sidecarKey : String := "harness-attribute"

/-- The attributes that may hold the order id; the first one that is there counts. -/
def orderKeys : List String := ["step.id", "jenkins.pipeline.step.id"]

def typeKey : String := "jenkins.pipeline.step.type"

/-- The step type. Any text may be one. -/
def stepType (span : Span) : String :=
  if span.typeName ≠ "" then span.typeName else (span.attributes.get? typeKey).getD ""

/-- The name that ids and names of steps are made from: the first of the name, the span name and
the step type that is not blank. -/
def label (span : Span) : String :=
  if !isBlankText span.name then span.name
  else if !isBlankText span.spanName then span.spanName
  else if !isBlankText span.stepType then span.stepType
  else ""

/-- A span without attributes only groups its children. -/
def isStructural (span : Span) : Bool :=
  span.attributes.isEmpty

def param (span : Span) (key : String) : Param :=
  .ofValue? (span.parameters.get? key)

def params (span : Span) : Param :=
  .ofEntries span.parameters

def sidecar (span : Span) : Sidecar :=
  .read (span.attributes.get? sidecarKey)

/-! ## Order ids -/

def rawOrder? (span : Span) : Option String :=
  orderKeys.findSome? fun key => span.attributes.get? key

/-- The integer of 64 bits that a text spells, with an optional sign. -/
def parseInteger? (text : List Char) : Option Int :=
  let (negative, digits) := Binary64.takeSign text
  if digits.isEmpty || !digits.all Char.isDigit then none
  else
    let magnitude : Int := Binary64.digitsValue digits
    let value := if negative then -magnitude else magnitude
    if -(Nat.pow 2 63 : Int) ≤ value ∧ value < Nat.pow 2 63 then some value else none

def directOrder? (span : Span) : Option Int :=
  span.rawOrder?.bind fun text => parseInteger? (Text.trim text.toList)

/-- Whether `other` marks the same stage or parallel branch as `span`, which has to have a name. -/
def isMarkedBy (span other : Span) : Bool :=
  span.name ≠ "" &&
    (other.spanName = "Stage: " ++ span.name ||
      other.spanName = "Parallel branch: " ++ span.name ||
      (other.stepType = "stage" && other.name = span.name))

mutual

/-- The order id of the first span below that marks `group` and has one. -/
def markerOrder? (group : Span) : Span → Option Int
  | { children, .. } => markerOrderAmong? group children

def markerOrderAmong? (group : Span) : List Span → Option Int
  | [] => none
  | child :: rest =>
    let own := if group.isMarkedBy child then child.directOrder? else none
    (own.or (markerOrder? group child)).or (markerOrderAmong? group rest)

end

/-- The order id among the siblings: the span's own, or for a stage or a parallel branch the one of
a marker below it, or zero. -/
def order (span : Span) : Int :=
  match span.directOrder? with
  | some order => order
  | none =>
    if span.stepType = "stage" || span.stepType = "parallel" then
      (markerOrder? span span).getD 0
    else 0

/-! ## Descendants -/

mutual

/-- All spans below, each before its own children. -/
def descendants : Span → List Span
  | { children, .. } => descendantsOf children

def descendantsOf : List Span → List Span
  | [] => []
  | child :: rest => child :: (descendants child ++ descendantsOf rest)

end

theorem descendants_eq (span : Span) : span.descendants = descendantsOf span.children := by
  cases span
  rw [descendants]

theorem descendantsOf_eq_flatMap (spans : List Span) :
    descendantsOf spans = spans.flatMap fun span => span :: span.descendants := by
  induction spans with
  | nil => rfl
  | cons span rest ih => rw [descendantsOf, ih, List.flatMap_cons, List.cons_append]

theorem descendantsOf_append (first second : List Span) :
    descendantsOf (first ++ second) = descendantsOf first ++ descendantsOf second := by
  simp only [descendantsOf_eq_flatMap, List.flatMap_append]

end Span

end TracePipeline
