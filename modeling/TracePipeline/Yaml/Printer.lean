import TracePipeline.Json.Printer
import TracePipeline.Yaml.Scalar

/-!
# Writing YAML

A value becomes a block: an entry or an item a line, with two spaces for each level. Items stand
under their key without a step to the right. An empty list or object stays on the line of its key.
-/

set_option autoImplicit false

namespace TracePipeline.Yaml

/-- Numbers show no sign before an exponent that is not negative. -/
def numberStyle : Binary64.Style := ⟨false⟩

def numberText : Number → List Char
  | .integer value => Number.integerText value
  | .real value => value.text numberStyle

/-- Whether a key may stand before a colon on one line: it has no line breaks and at most 128
bytes. -/
def isSimpleKey (key : String) : Bool :=
  key.utf8ByteSize ≤ 128 && !key.toList.any isLineBreak

/-- How a value begins behind a key at a column, and at which column its block stands. -/
def afterKey (column : Nat) : Json → List Char × Nat
  | .array (_ :: _) => ('\n' :: blanks column, column)
  | .object (_ :: _) => ('\n' :: blanks (column + 2), column + 2)
  | _ => ([' '], column + 2)

/-- An entry whose first line has been begun. A key that is not simple stands behind a question
mark, and its value behind a colon on the next line. The value's text is given for each column. -/
def entry (column : Nat) (key : String) (value : Json) (text : Nat → List Char) : List Char :=
  if isSimpleKey key then
    let (start, valueColumn) := afterKey column value
    scalar (column + 2) key.toList ++ ':' :: start ++ text valueColumn
  else
    '?' :: ' ' :: scalarLine (column + 2) key.toList ++
      blanks column ++ ':' :: ' ' :: text (column + 2)

mutual

/-- A value whose first line has been begun, up to the end of its last line. Its further lines, or
those of its items and entries, start at a column. -/
def block (column : Nat) : Json → List Char
  | .null => ['n', 'u', 'l', 'l', '\n']
  | .bool true => ['t', 'r', 'u', 'e', '\n']
  | .bool false => ['f', 'a', 'l', 's', 'e', '\n']
  | .number value => numberText value ++ ['\n']
  | .string value => scalarLine column value.toList
  | .array [] => ['[', ']', '\n']
  | .array (item :: items) => '-' :: ' ' :: block (column + 2) item ++ itemLines column items
  | .object [] => ['\x7b', '\x7d', '\n']
  | .object ((key, value) :: entries) =>
    entry column key value (fun column => block column value) ++ entryLines column entries

def itemLines (column : Nat) : List Json → List Char
  | [] => []
  | item :: items =>
    blanks column ++ '-' :: ' ' :: block (column + 2) item ++ itemLines column items

def entryLines (column : Nat) : List (String × Json) → List Char
  | [] => []
  | (key, value) :: entries =>
    blanks column ++ entry column key value (fun column => block column value) ++
      entryLines column entries

end

end TracePipeline.Yaml

namespace TracePipeline.Json

def yamlText (value : Json) : String :=
  String.ofList (Yaml.block 0 value)

end TracePipeline.Json
