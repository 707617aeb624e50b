import TracePipeline.Binary64.Basic
import TracePipeline.Text.Search

/-!
# Decimal texts of double precision numbers

Reading a decimal text gives the nearest number. Writing a number takes the fewest digits that read
back as the same number, and among those the nearest; a tie goes to the even digit.
-/

set_option autoImplicit false

namespace TracePipeline.Binary64

/-! ## Reading -/

/-- The number nearest to `coefficient * 10 ^ exponent`. Exponents far outside the format are
answered without computing the power. -/
def ofDecimal (negative : Bool) (coefficient : Nat) (exponent : Int) : Binary64 :=
  if coefficient = 0 then ofMagnitude negative 0
  else if 400 < exponent then infinity negative
  else if exponent < -(400 + coefficient.log2 : Int) then ofMagnitude negative 0
  else if exponent < 0 then ofQuotient negative coefficient (Nat.pow 10 exponent.natAbs)
  else ofQuotient negative (coefficient * Nat.pow 10 exponent.toNat) 1

def digitsValue (digits : List Char) : Nat :=
  Nat.ofDigitChars 10 digits 0

def takeSign : List Char → Bool × List Char
  | '-' :: rest => (true, rest)
  | '+' :: rest => (false, rest)
  | text => (false, text)

def readExponent? : List Char → Option Int
  | [] => some 0
  | mark :: rest =>
    let (negative, digits) := takeSign rest
    if (mark == 'e' || mark == 'E') && !digits.isEmpty && digits.all Char.isDigit then
      some (if negative then -(digitsValue digits : Int) else digitsValue digits)
    else none

/-- A decimal without its sign: digits with an optional point, at least one of them, and an
optional exponent. -/
def readMagnitude? (negative : Bool) (text : List Char) : Option Binary64 :=
  let whole := text.takeWhile Char.isDigit
  let rest := text.dropWhile Char.isDigit
  let (fraction, tail) :=
    match rest with
    | '.' :: rest => (rest.takeWhile Char.isDigit, rest.dropWhile Char.isDigit)
    | rest => ([], rest)
  if whole.isEmpty && fraction.isEmpty then none
  else
    (readExponent? tail).map fun exponent =>
      ofDecimal negative (digitsValue (whole ++ fraction)) (exponent - fraction.length)

/-- The number a text spells: a signed decimal, an infinity, or no number, the words in any case. -/
def ofText? (text : List Char) : Option Binary64 :=
  let (negative, rest) := takeSign text
  let word := String.ofList (Text.asciiLower rest)
  if word = "inf" || word = "infinity" then some (infinity negative)
  else if word = "nan" then some nan
  else readMagnitude? negative rest

/-! ## The fewest digits -/

structure Decimal where
  coefficient : Nat
  exponent : Int
deriving DecidableEq, Repr

def decimalQuotient (numerator denominator : Nat) (exponent : Int) : Nat × Nat :=
  if exponent < 0 then (numerator * Nat.pow 10 exponent.natAbs, denominator)
  else (numerator, denominator * Nat.pow 10 exponent.toNat)

/-- The greatest exponent whose power of ten is not above a positive quotient. -/
def decade (numerator denominator : Nat) : Int :=
  let guess : Int := Int.fdiv (((numerator.log2 : Int) - denominator.log2 - 1) * 1233) 4096 - 1
  let reached (exponent : Int) : Bool :=
    let (n, d) := decimalQuotient numerator denominator exponent
    decide (d ≤ n)
  ([guess + 3, guess + 2, guess + 1].find? reached).getD guess

/-- The decimals next to a quotient on the grid of `10 ^ exponent`, the nearer one first; a tie
puts the even one first. -/
def neighbours (numerator denominator : Nat) (exponent : Int) : List Decimal :=
  let (n, d) := decimalQuotient numerator denominator exponent
  let below : Decimal := ⟨n / d, exponent⟩
  let above : Decimal := ⟨n / d + 1, exponent⟩
  let twice := 2 * (n % d)
  if twice < d || (twice = d && n / d % 2 = 0) then [below, above] else [above, below]

/-- A decimal whose coefficient does not end in zero, with the same value. The count bounds the
zeros that are taken off. -/
def Decimal.stripZeros : Nat → Decimal → Decimal
  | 0, decimal => decimal
  | count + 1, decimal =>
    if decimal.coefficient % 10 = 0 then
      stripZeros count ⟨decimal.coefficient / 10, decimal.exponent + 1⟩
    else decimal

/-- The shortest decimal that reads back as the positive number `significand * 2 ^ exponent`: the
grids with 1, 2, … 17 digits are tried in turn, and the nearer neighbour first. -/
def shortest (significand : Nat) (exponent : Int) : Decimal :=
  let number := ofScaled false significand exponent
  let (numerator, denominator) := scaledQuotient significand 1 (-exponent)
  let top := decade numerator denominator
  let candidates := (List.range 17).flatMap fun (digits : Nat) =>
    neighbours numerator denominator (top - digits)
  let readsBack (decimal : Decimal) : Bool :=
    ofDecimal false decimal.coefficient decimal.exponent = number
  ((candidates.find? readsBack).getD ⟨0, 0⟩).stripZeros 20

/-! ## Layout -/

/-- How a number is written: whether an exponent that is not negative carries a plus sign. Numbers
from `10 ^ -5` up to, but not including, `10 ^ 16` are written positionally, the others with an
exponent. -/
structure Style where
  plusSign : Bool

def exponentText (style : Style) (exponent : Int) : List Char :=
  (if exponent < 0 then ['-'] else if style.plusSign then ['+'] else []) ++
    Nat.toDigits 10 exponent.natAbs

/-- A decimal in its layout. A positional number always shows a point with a digit behind it. -/
def Decimal.text (style : Style) (decimal : Decimal) : List Char :=
  let digits := Nat.toDigits 10 decimal.coefficient
  let point : Int := digits.length + decimal.exponent
  if 0 ≤ decimal.exponent && point ≤ 16 then
    digits ++ List.replicate decimal.exponent.toNat '0' ++ ['.', '0']
  else if 0 < point && point ≤ 16 then
    digits.take point.toNat ++ '.' :: digits.drop point.toNat
  else if -5 < point && point ≤ 0 then
    ['0', '.'] ++ List.replicate point.natAbs '0' ++ digits
  else
    match digits with
    | [] => []
    | [digit] => digit :: 'e' :: exponentText style (point - 1)
    | first :: rest => first :: '.' :: rest ++ 'e' :: exponentText style (point - 1)

/-- The text of a number. Only finite numbers have one in the formats that use it. -/
def text (style : Style) (x : Binary64) : List Char :=
  match x.shape with
  | .finite negative significand exponent =>
    let sign := if negative then ['-'] else []
    if significand = 0 then sign ++ ['0', '.', '0']
    else sign ++ (shortest significand exponent).text style
  | .infinite negative => (if negative then ['-'] else []) ++ ['i', 'n', 'f']
  | .nan => ['n', 'a', 'n']

end TracePipeline.Binary64
