import TracePipeline.Json.Glyph

/-!
# Faults

What can be wrong with a JSON text, or with a value where another shape is expected, and how it is
said.
-/

set_option autoImplicit false

namespace TracePipeline

/-- What is wrong. The first group concerns the text, the second the shape of the value. -/
inductive Cause where
  | endInValue
  | endInString
  | endInList
  | endInObject
  | expectedValue
  | expectedWord
  | expectedColon
  | expectedListComma
  | expectedObjectComma
  | trailingComma
  | trailingCharacters
  | keyNotString
  | invalidNumber
  | numberOutOfRange
  | invalidEscape
  | controlCharacter
  | loneSurrogate
  | unfinishedEscape
  | invalidCodePoint
  | nestedTooDeep
  | wrongType (found expected : String)
  | wrongValue (found expected : String)
  | wrongLength (length : Nat) (expected : String)
  | missingField (name : String)
  | duplicateField (name : String)
  | unknownVariant (name : String) (known : List String)
deriving DecidableEq, Repr

namespace Cause

/-- Names in grave accents, with commas and a final "or" between them. -/
def alternatives (names : List String) : String :=
  joinWords (names.map fun name => "`" ++ name ++ "`")
where
  joinWords : List String → String
    | [] => ""
    | [name] => name
    | name :: names => name ++ ", " ++ joinWords names

def message : Cause → String
  | endInValue => "EOF while parsing a value"
  | endInString => "EOF while parsing a string"
  | endInList => "EOF while parsing a list"
  | endInObject => "EOF while parsing an object"
  | expectedValue => "expected value"
  | expectedWord => "expected ident"
  | expectedColon => "expected `:`"
  | expectedListComma => "expected `,` or `]`"
  | expectedObjectComma => "expected `,` or `\x7d`"
  | trailingComma => "trailing comma"
  | trailingCharacters => "trailing characters"
  | keyNotString => "key must be a string"
  | invalidNumber => "invalid number"
  | numberOutOfRange => "number out of range"
  | invalidEscape => "invalid escape"
  | controlCharacter =>
    "control character (\\u0000-\\u001F) found while parsing a string"
  | loneSurrogate => "lone leading surrogate in hex escape"
  | unfinishedEscape => "unexpected end of hex escape"
  | invalidCodePoint => "invalid unicode code point"
  | nestedTooDeep => "recursion limit exceeded"
  | wrongType found expected => "invalid type: " ++ found ++ ", expected " ++ expected
  | wrongValue found expected => "invalid value: " ++ found ++ ", expected " ++ expected
  | wrongLength length expected =>
    "invalid length " ++ toString length ++ ", expected " ++ expected
  | missingField name => "missing field `" ++ name ++ "`"
  | duplicateField name => "duplicate field `" ++ name ++ "`"
  | unknownVariant name known =>
    "unknown variant `" ++ name ++ "`, expected one of " ++ alternatives known

end Cause

/-- Something wrong, and where, if it has a place in a text. -/
structure Fault where
  cause : Cause
  place : Option Position
deriving DecidableEq, Repr

namespace Fault

def placed (cause : Cause) (place : Position) : Fault :=
  ⟨cause, some place⟩

/-- The same fault, held against a value that stands in no text. -/
def unplaced (fault : Fault) : Fault :=
  ⟨fault.cause, none⟩

def message (fault : Fault) : String :=
  match fault.place with
  | none => fault.cause.message
  | some place =>
    fault.cause.message ++ " at line " ++ toString place.line ++ " column " ++
      toString place.column

end Fault

end TracePipeline
