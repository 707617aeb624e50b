import TracePipeline.Binary64.Decimal
import TracePipeline.Json.Printer
import TracePipeline.Text.Blank
import TracePipeline.Text.Search

/-!
# Step parameters

Defensive views of parameter values, whose shape depends on the step and on what recorded it. A view
of the wrong shape is absent or empty, never an error.
-/

set_option autoImplicit false

namespace TracePipeline

/-- A parameter: a value other than `null`, or nothing. -/
abbrev Param := Option Json

namespace Param

def ofValue? (value : Option Json) : Param :=
  value.filter fun value => !value.isNull

def ofEntries (entries : Entries Json) : Param :=
  some (.object entries)

/-! ## Views -/

def entries? (param : Param) : Option (Entries Json) :=
  param.bind Json.entries?

def get (param : Param) (key : String) : Param :=
  ofValue? (param.entries?.bind fun entries => entries.get? key)

def asString? : Param → Option String
  | some (.string value) => some value
  | _ => none

/-- The text of a text, a number or a truth value. -/
def scalarText? : Param → Option String
  | some (.string value) => some value
  | some (.number value) => some (String.ofList value.text)
  | some (.bool true) => some "true"
  | some (.bool false) => some "false"
  | _ => none

/-- The text of a text, a number or a truth value, unless it is blank. -/
def text? (param : Param) : Option String :=
  param.scalarText?.bind someText?

/-- A truth value, or a text that spells one in any case. -/
def asBool? : Param → Option Bool
  | some (.bool value) => some value
  | some (.string value) =>
    let word := String.ofList (Text.asciiLower (Text.trim value.toList))
    if word = "true" then some true
    else if word = "false" then some false
    else none
  | _ => none

def asReal? : Param → Option Binary64
  | some (.number (.integer value)) => some (.ofInt value)
  | some (.number (.real value)) => some value
  | some (.string value) => Binary64.ofText? (Text.trim value.toList)
  | _ => none

/-- The items of a list; no other value has any. -/
def items : Param → List Json
  | some (.array items) => items
  | _ => []

/-- The texts of a list's items. A single value that has a text reads as a list of one. -/
def texts (param : Param) : List String :=
  match param.text? with
  | some single => [single]
  | none => param.items.filterMap fun item => text? (ofValue? (some item))

/-! ## Searching -/

mutual

/-- The first value other than `null` under a key, at any depth. An object's own key comes first,
then its values in key order; a list's items are searched in order. -/
def findIn (key : String) : Json → Option Json
  | .object entries =>
    match ofValue? (Entries.get? entries key) with
    | some value => some value
    | none => findInEntries key entries
  | .array items => findInItems key items
  | _ => none

def findInItems (key : String) : List Json → Option Json
  | [] => none
  | item :: items => (findIn key item).or (findInItems key items)

def findInEntries (key : String) : List (String × Json) → Option Json
  | [] => none
  | (_, value) :: entries => (findIn key value).or (findInEntries key entries)

end

def find (param : Param) (key : String) : Param :=
  param.bind (findIn key)

end Param

end TracePipeline
