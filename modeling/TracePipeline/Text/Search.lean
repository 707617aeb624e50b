/-!
# Searching in texts

Prefixes and occurrences of one text in another, and the case maps of the ASCII letters, on lists of
characters.
-/

set_option autoImplicit false

namespace TracePipeline.Text

/-- The rest of a text after a given start, when it begins with it. -/
def dropStart? : List Char → List Char → Option (List Char)
  | [], text => some text
  | _ :: _, [] => none
  | s :: start, c :: text => if s = c then dropStart? start text else none

def startsWith (start text : List Char) : Bool :=
  (dropStart? start text).isSome

def occursIn (part : List Char) : List Char → Bool
  | [] => part.isEmpty
  | c :: text => startsWith part (c :: text) || occursIn part text

/-- The lower-case form of the ASCII letters; every other character stays. -/
def asciiLower (text : List Char) : List Char :=
  text.map Char.toLower

/-- The upper-case form of the ASCII letters; every other character stays. -/
def asciiUpper (text : List Char) : List Char :=
  text.map Char.toUpper

end TracePipeline.Text

namespace TracePipeline

def textStartsWith (start text : String) : Bool :=
  Text.startsWith start.toList text.toList

def textContains (part text : String) : Bool :=
  Text.occursIn part.toList text.toList

def joinTexts (separator : String) (texts : List String) : String :=
  String.ofList (List.intercalate separator.toList (texts.map String.toList))

end TracePipeline
