/-!
# Blank characters

The white space that separates words and is trimmed from the ends of texts, and the ways a text is
cut at it. All of it works on lists of characters, by structural recursion.
-/

set_option autoImplicit false

namespace TracePipeline.Text

/-- White space in the sense of the Unicode property of that name. -/
def isBlank (c : Char) : Bool :=
  let code := c.toNat
  (0x09 ≤ code && code ≤ 0x0D) || code == 0x20 || code == 0x85 || code == 0xA0 || code == 0x1680 ||
    (0x2000 ≤ code && code ≤ 0x200A) || code == 0x2028 || code == 0x2029 || code == 0x202F ||
    code == 0x205F || code == 0x3000

/-- Drops the longest end whose characters all satisfy `drop`. -/
def trimEndBy (drop : Char → Bool) (text : List Char) : List Char :=
  (text.reverse.dropWhile drop).reverse

/-- Drops the longest start and the longest end whose characters all satisfy `drop`. -/
def trimBy (drop : Char → Bool) (text : List Char) : List Char :=
  trimEndBy drop (text.dropWhile drop)

def trim (text : List Char) : List Char :=
  trimBy isBlank text

/-- Cuts a text at every character that satisfies `cut`, which is dropped. There is always one
piece more than there are cuts. -/
def splitBy (cut : Char → Bool) : List Char → List (List Char)
  | [] => [[]]
  | c :: rest =>
    if cut c then [] :: splitBy cut rest
    else
      match splitBy cut rest with
      | [] => [[c]]
      | piece :: pieces => (c :: piece) :: pieces

/-- The maximal runs of characters that are not blank. -/
def words (text : List Char) : List (List Char) :=
  (splitBy isBlank text).filter fun piece => !piece.isEmpty

/-- Cuts a text at the first `mark`, which is dropped; nothing when there is none. -/
def splitOnce? (mark : Char) : List Char → Option (List Char × List Char)
  | [] => none
  | c :: rest =>
    if c = mark then some ([], rest)
    else (splitOnce? mark rest).map fun (before, after) => (c :: before, after)

/-- A line without a carriage return at its end. -/
def dropReturn : List Char → List Char
  | [] => []
  | ['\r'] => []
  | c :: rest => c :: dropReturn rest

/-- The lines of a list of pieces that were cut at line feeds. The last piece had no line feed
behind it: it keeps a carriage return, and is no line when it is empty. -/
def linesOfPieces : List (List Char) → List (List Char)
  | [] => []
  | [last] => if last.isEmpty then [] else [last]
  | piece :: pieces => dropReturn piece :: linesOfPieces pieces

/-- The lines of a text, without their ends. A line ends with a line feed or with a carriage
return and a line feed. -/
def lines (text : List Char) : List (List Char) :=
  linesOfPieces (splitBy (· == '\n') text)

end TracePipeline.Text

namespace TracePipeline

/-- Whether a text holds nothing but blanks. -/
def isBlankText (text : String) : Bool :=
  text.toList.all Text.isBlank

def trimText (text : String) : String :=
  String.ofList (Text.trim text.toList)

/-- Keeps a text that holds more than blanks. -/
def someText? (text : String) : Option String :=
  if isBlankText text then none else some text

end TracePipeline
