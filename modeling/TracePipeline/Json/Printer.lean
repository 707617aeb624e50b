import TracePipeline.Binary64.Decimal
import TracePipeline.Json.Value

/-!
# Writing JSON

A value has a compact text, without any white space, and a pretty text, with one entry or item a
line and two spaces for each level. Keys are written in the order the object holds them.
-/

set_option autoImplicit false

namespace TracePipeline

namespace Number

/-- Numbers show a plus sign before an exponent that is not negative. -/
def style : Binary64.Style := ⟨true⟩

def integerText (value : Int) : List Char :=
  (if value < 0 then ['-'] else []) ++ Nat.toDigits 10 value.natAbs

/-- The text of a number: integers as they are, others always with a point or an exponent. -/
def text : Number → List Char
  | .integer value => integerText value
  | .real value => value.text style

end Number

namespace Json

/-! ## Quoted texts -/

def hexQuad (code : Nat) : List Char :=
  [code / 4096 % 16, code / 256 % 16, code / 16 % 16, code % 16].map Nat.digitChar

/-- A character inside quotes. Quotes, backslashes and controls are escaped, with a short escape
where there is one. -/
def escape (c : Char) : List Char :=
  if c = '"' then ['\\', '"']
  else if c = '\\' then ['\\', '\\']
  else if c = '\n' then ['\\', 'n']
  else if c = '\r' then ['\\', 'r']
  else if c = '\t' then ['\\', 't']
  else if c = '\x08' then ['\\', 'b']
  else if c = '\x0c' then ['\\', 'f']
  else if c.toNat < 0x20 then '\\' :: 'u' :: hexQuad c.toNat
  else [c]

def quote (text : String) : List Char :=
  '"' :: text.toList.flatMap escape ++ ['"']

/-! ## Compact texts -/

mutual

def compact : Json → List Char
  | .null => ['n', 'u', 'l', 'l']
  | .bool true => ['t', 'r', 'u', 'e']
  | .bool false => ['f', 'a', 'l', 's', 'e']
  | .number value => value.text
  | .string value => quote value
  | .array items => '[' :: compactItems items ++ [']']
  | .object entries => '{' :: compactEntries entries ++ ['}']

def compactItems : List Json → List Char
  | [] => []
  | [item] => compact item
  | item :: items => compact item ++ ',' :: compactItems items

def compactEntries : List (String × Json) → List Char
  | [] => []
  | [(key, value)] => quote key ++ ':' :: compact value
  | (key, value) :: entries => quote key ++ ':' :: compact value ++ ',' :: compactEntries entries

end

/-! ## Pretty texts -/

/-- The start of a line at a level: two spaces for each. -/
def lineStart (level : Nat) : List Char :=
  '\n' :: List.replicate (2 * level) ' '

mutual

/-- The text of a value whose surroundings stand at a level. Empty lists and objects stay on one
line. -/
def pretty (level : Nat) : Json → List Char
  | .array [] => ['[', ']']
  | .array (item :: items) =>
    '[' :: lineStart (level + 1) ++ pretty (level + 1) item ++ prettyItems level items
  | .object [] => ['{', '}']
  | .object ((key, value) :: entries) =>
    '{' :: lineStart (level + 1) ++ quote key ++ ':' :: ' ' :: pretty (level + 1) value ++
      prettyEntries level entries
  | value => compact value

def prettyItems (level : Nat) : List Json → List Char
  | [] => lineStart level ++ [']']
  | item :: items =>
    ',' :: lineStart (level + 1) ++ pretty (level + 1) item ++ prettyItems level items

def prettyEntries (level : Nat) : List (String × Json) → List Char
  | [] => lineStart level ++ ['}']
  | (key, value) :: entries =>
    ',' :: lineStart (level + 1) ++ quote key ++ ':' :: ' ' :: pretty (level + 1) value ++
      prettyEntries level entries

end

def compactText (value : Json) : String :=
  String.ofList value.compact

/-- The pretty text of a value, without a line feed at its end. -/
def prettyText (value : Json) : String :=
  String.ofList (value.pretty 0)

end Json

end TracePipeline
