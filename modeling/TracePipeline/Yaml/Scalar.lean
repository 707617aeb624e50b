import TracePipeline.Binary64.Decimal

/-!
# YAML scalars

How a text stands in a YAML document. A text with a line feed becomes a literal block. Any other one
stands plain, unless it would then read as something else than a text or as a part of the layout;
then it is put in single quotes. What neither can hold is put in double quotes, with escapes.
-/

set_option autoImplicit false

namespace TracePipeline.Yaml

/-! ## Texts that read as other values -/

/-- The words for nothing, for truth values, for the infinities and for no number. -/
def reservedWords : List String := [
  "", "~", "null", "Null", "NULL", "true", "True", "TRUE", "false", "False", "FALSE",
  ".inf", ".Inf", ".INF", "+.inf", "+.Inf", "+.INF", "-.inf", "-.Inf", "-.INF",
  ".nan", ".NaN", ".NAN"]

def baseOf? : Char → Option Nat
  | 'x' => some 16
  | 'o' => some 8
  | 'b' => some 2
  | _ => none

def digitValue? (c : Char) : Option Nat :=
  if '0' ≤ c ∧ c ≤ '9' then some (c.toNat - '0'.toNat)
  else if 'a' ≤ c ∧ c ≤ 'f' then some (c.toNat - 'a'.toNat + 10)
  else if 'A' ≤ c ∧ c ≤ 'F' then some (c.toNat - 'A'.toNat + 10)
  else none

def valueInBase? (base : Nat) (digits : List Char) : Option Nat :=
  digits.foldlM (fun value c => do
    let digit ← digitValue? c
    if digit < base then some (value * base + digit) else none) 0

/-- Whether a text spells an integer of 128 bits in hexadecimal, octal or binary digits. -/
def isBasedInteger (text : List Char) : Bool :=
  let (negative, rest) := Binary64.takeSign text
  match rest with
  | '0' :: letter :: digit :: digits =>
    match (baseOf? letter).bind fun base => valueInBase? base (digit :: digits) with
    | some value => if negative then value ≤ Nat.pow 2 127 else value < Nat.pow 2 128
    | none => false
  | _ => false

def isDecimalNumber (text : List Char) : Bool :=
  (Binary64.ofText? text).any Binary64.isFinite

/-- Whether a text spells an integer with a zero before its digits. It is no number, however many
digits it has, but a reader may take it for one. -/
def isPaddedInteger (text : List Char) : Bool :=
  match (Binary64.takeSign text).2 with
  | '0' :: digits => !digits.isEmpty && digits.all Char.isDigit
  | _ => false

/-- Whether a plain text would be read as something else than a text. -/
def readsAsOther (text : List Char) : Bool :=
  reservedWords.contains (String.ofList text) || isBasedInteger text || isDecimalNumber text ||
    isPaddedInteger text

/-! ## Characters -/

def isLineBreak (c : Char) : Bool :=
  c = '\n' || c = '\r' || c = '\u0085' || c = '\u2028' || c = '\u2029'

/-- The characters that may stand in a document as themselves. Tabs are not among them. -/
def isDocumentChar (c : Char) : Bool :=
  c = '\n' || (' ' ≤ c && c ≤ '~') || ('\u00A0' ≤ c && c ≤ '\uFFFD' && c ≠ '\uFEFF') ||
    0x10000 ≤ c.toNat

def hasPair (first second : Char → Bool) : List Char → Bool
  | [] => false
  | [_] => false
  | c :: d :: rest => (first c && second d) || hasPair first second (d :: rest)

def isSpace (c : Char) : Bool :=
  c = ' '

/-! ## Styles -/

inductive Style where
  | plain
  | singleQuoted
  | doubleQuoted
  | literal
deriving DecidableEq, Repr

/-- The text is over, or a space follows. -/
def endsWord : List Char → Bool
  | [] => true
  | c :: _ => isSpace c

/-- Whether a colon before a space, or a number sign behind one, would end a plain text or its key.
The flag says whether a space stands before the text. -/
def hasInnerIndicator : (afterSpace : Bool) → List Char → Bool
  | _, [] => false
  | afterSpace, c :: rest =>
    (c = ':' && endsWord rest) || (c = '#' && afterSpace) || hasInnerIndicator (isSpace c) rest

def startIndicators : List Char :=
  [',', '[', ']', '\x7b', '\x7d', '&', '*', '!', '|', '>', '\'', '"', '%', '@', '\x60']

/-- Whether a plain text would begin like a part of the layout. -/
def hasStartIndicator : List Char → Bool
  | '-' :: '-' :: '-' :: _ => true
  | '.' :: '.' :: '.' :: _ => true
  | c :: rest => startIndicators.contains c || ((c = '-' || c = '?') && endsWord rest)
  | [] => false

def allowsPlain (text : List Char) : Bool :=
  text.all (fun c => isDocumentChar c && !isLineBreak c) &&
    !text.head?.any isSpace && !text.getLast?.any isSpace &&
    !hasStartIndicator text && !hasInnerIndicator true text

def allowsSingleQuotes (text : List Char) : Bool :=
  text.all isDocumentChar && !hasPair isLineBreak isSpace text && !hasPair isSpace isLineBreak text

def allowsLiteral (text : List Char) : Bool :=
  text.all isDocumentChar && !hasPair isSpace isLineBreak text && !text.getLast?.any isSpace

def styleOf (text : List Char) : Style :=
  if text.contains '\n' then
    if allowsLiteral text then .literal else .doubleQuoted
  else if allowsPlain text && !readsAsOther text then .plain
  else if allowsSingleQuotes text then .singleQuoted
  else .doubleQuoted

/-! ## Writing -/

def blanks (column : Nat) : List Char :=
  List.replicate column ' '

/-- A text over lines, each of which that holds a character starts at a column. The flag says
whether the text begins on a fresh line. -/
def alignLines (column : Nat) : (fresh : Bool) → List Char → List Char
  | _, [] => []
  | fresh, c :: rest =>
    if isLineBreak c then c :: alignLines column true rest
    else (if fresh then blanks column else []) ++ c :: alignLines column false rest

/-- A text in single quotes, where a quote is written twice. A closing quote on a fresh line starts
at the column too. -/
def singleQuoted (column : Nat) (text : List Char) : List Char :=
  let body := text.flatMap fun c => if c = '\'' then ['\'', '\''] else [c]
  '\'' :: alignLines column false body ++
    (if text.getLast?.any isLineBreak then blanks column else []) ++ ['\'']

/-- The hexadecimal digits of a code point, in upper case and filled up to a width. -/
def hexDigits (width code : Nat) : List Char :=
  let digits := (Nat.toDigits 16 code).map Char.toUpper
  List.replicate (width - digits.length) '0' ++ digits

def shortEscape? (c : Char) : Option Char :=
  List.lookup c [('\x00', '0'), ('\x07', 'a'), ('\x08', 'b'), ('\t', 't'), ('\n', 'n'),
    ('\x0b', 'v'), ('\x0c', 'f'), ('\r', 'r'), ('\x1b', 'e'), ('"', '"'), ('\\', '\\'),
    ('\u0085', 'N'), ('\u2028', 'L'), ('\u2029', 'P')]

def escape (c : Char) : List Char :=
  match shortEscape? c with
  | some letter => ['\\', letter]
  | none =>
    if isDocumentChar c then [c]
    else if c.toNat ≤ 0xFF then '\\' :: 'x' :: hexDigits 2 c.toNat
    else if c.toNat ≤ 0xFFFF then '\\' :: 'u' :: hexDigits 4 c.toNat
    else '\\' :: 'U' :: hexDigits 8 c.toNat

def doubleQuoted (text : List Char) : List Char :=
  '"' :: text.flatMap escape ++ ['"']

/-- What a block's header says about its end: nothing where one line break is kept, a minus where
there is none, a plus where there are several or nothing else. -/
def chomping (text : List Char) : List Char :=
  match text.reverse with
  | [] => ['-']
  | [c] => if isLineBreak c then ['+'] else ['-']
  | c :: d :: _ => if !isLineBreak c then ['-'] else if isLineBreak d then ['+'] else []

/-- A text as a literal block. The header gives the indentation where the text's own start would
hide it. -/
def literalBlock (column : Nat) (text : List Char) : List Char :=
  let hint := if text.head?.any fun c => isSpace c || isLineBreak c then ['2'] else []
  '|' :: hint ++ chomping text ++ '\n' :: alignLines column true text

def scalar (column : Nat) (text : List Char) : List Char :=
  match styleOf text with
  | .plain => text
  | .singleQuoted => singleQuoted column text
  | .doubleQuoted => doubleQuoted text
  | .literal => literalBlock column text

def scalarLine (column : Nat) (text : List Char) : List Char :=
  let written := scalar column text
  if styleOf text = .literal && text.getLast?.any isLineBreak then written else written ++ ['\n']

end TracePipeline.Yaml
