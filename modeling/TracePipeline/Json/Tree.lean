import TracePipeline.Json.Fault
import TracePipeline.Json.Value

/-!
# Located trees

A JSON text as a tree that knows where its parts stand. A tree is made of every text: where the text
cannot be read, the tree holds the fault. Two kinds of reader look at a tree. The strict reader
wants the values; the skipping reader only passes over them, checks less, and words some faults
differently.
-/

set_option autoImplicit false

namespace TracePipeline

inductive Scalar where
  | null
  | bool (value : Bool)
  | number (value : Number)
  | string (value : String)
deriving DecidableEq, Repr

/-- Why a list or an object is not closed. -/
inductive Break where
  | noComma
  | commaBeforeEnd
  | endAfterComma
  | endOfText
  | noKey
deriving DecidableEq, Repr

/-- How the parts of a list or an object end. -/
inductive Ending where
  | closed (stop : Position)
  | broken (reason : Break) (place : Position)
  /-- The last part cannot be passed over, so the end is never reached. -/
  | unreached
deriving DecidableEq, Repr

/-- A key of an object. -/
structure Key where
  text : Except Fault String
  /-- Where reading stands when the entry is given up at its key: behind the white space that
  follows, and behind a closing brace if one stands there. -/
  abandoned : Position

/-- A value, or what stands in its place. -/
inductive Tree where
  /-- A value without parts, which the skipping reader passes over up to `stop`. -/
  | scalar (start : Position) (content : Except Fault Scalar) (stop : Position)
  /-- A list. `level` counts the lists and objects around it and itself. -/
  | array (start : Position) (level : Nat) (items : List Tree) (ending : Ending)
  | object (start : Position) (level : Nat) (entries : List (Key × Tree)) (ending : Ending)
  /-- Nothing that can be passed over, with the fault of each reader. -/
  | broken (start : Position) (strict skipping : Fault)

def Tree.start : Tree → Position
  | .scalar start .. | .array start .. | .object start .. | .broken start .. => start

/-- One byte into a tree. No tree starts with a line feed. -/
def Tree.intoStart (tree : Tree) : Position :=
  ⟨tree.start.line, tree.start.column + 1⟩

def Break.listCause : Break → Cause
  | .noComma => .expectedListComma
  | .commaBeforeEnd => .trailingComma
  | .endAfterComma => .endInValue
  | .endOfText => .endInList
  | .noKey => .expectedValue

/-- The fault of the skipping reader at the end of a list. A comma promises a value. -/
def Break.listCauseSkipping : Break → Cause
  | .commaBeforeEnd => .expectedValue
  | reason => reason.listCause

/-- The fault at the end of a list for a reader that has taken all it wants. -/
def Break.listCauseTaken : Break → Cause
  | .noComma => .trailingCharacters
  | .endAfterComma => .trailingCharacters
  | reason => reason.listCause

def Break.objectCause : Break → Cause
  | .noComma => .expectedObjectComma
  | .commaBeforeEnd => .trailingComma
  | .endAfterComma => .endInValue
  | .endOfText => .endInObject
  | .noKey => .keyNotString

/-- The fault of the skipping reader at the end of an object. A comma promises a key. -/
def Break.objectCauseSkipping : Break → Cause
  | .commaBeforeEnd => .keyNotString
  | .endAfterComma => .endInObject
  | reason => reason.objectCause

/-- Asks that parts are closed, and answers where. A reader meets the fault of the last part before
it asks for an end that is never reached. -/
def Ending.close (cause : Break → Cause) : Ending → Except Fault Position
  | .closed stop => .ok stop
  | .broken reason place => .error (.placed (cause reason) place)
  | .unreached => .ok .start

end TracePipeline
