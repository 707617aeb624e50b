import TracePipeline.Binary64.Decimal
import TracePipeline.Json.Tree

/-!
# Numerals

Number texts of JSON. A numeral without a fraction and an exponent is an integer where 64 bits hold
it; every other numeral is a double precision number. Its first digits, as many as 64 bits hold, are
scaled by a power of ten with a single rounding.
-/

set_option autoImplicit false

namespace TracePipeline

/-- The parts of a number text: a sign, digits, digits behind a point, and an exponent with its
sign. -/
structure Numeral where
  negative : Bool
  whole : List Char
  fraction : Option (List Char)
  exponent : Option (Bool × List Char)
deriving DecidableEq, Repr

namespace Numeral

/-! ## Reading -/

/-- The digits before the point. A zero stands alone. The first fault is the strict reader's. -/
def readWhole (cursor : Cursor) : Except (Fault × Fault) (List Char × Cursor) :=
  match cursor.rest with
  | [] => .error (.placed .endInValue cursor.position, .placed .invalidNumber cursor.position)
  | .char '0' :: _ =>
    let next := cursor.advance
    if (next.takeDigits.1).isEmpty then .ok (['0'], next)
    else .error (.placed .invalidNumber next.intoNext, .placed .invalidNumber next.intoNext)
  | _ =>
    let (digits, next) := cursor.takeDigits
    if digits.isEmpty then
      .error (.placed .invalidNumber cursor.intoNext, .placed .invalidNumber cursor.intoNext)
    else .ok (digits, next)

def readDigits (cursor : Cursor) : Except (Fault × Fault) (List Char × Cursor) :=
  let (digits, next) := cursor.takeDigits
  if !digits.isEmpty then .ok (digits, next)
  else
    let strict := if cursor.rest.isEmpty then Cause.endInValue else .invalidNumber
    .error (.placed strict cursor.intoNext, .placed .invalidNumber cursor.intoNext)

def readFraction (cursor : Cursor) : Except (Fault × Fault) (Option (List Char) × Cursor) :=
  match cursor.rest with
  | .char '.' :: _ => do
    let (digits, next) ← readDigits cursor.advance
    pure (some digits, next)
  | _ => .ok (none, cursor)

def readSign (cursor : Cursor) : Bool × Cursor :=
  match cursor.rest with
  | .char '+' :: _ => (false, cursor.advance)
  | .char '-' :: _ => (true, cursor.advance)
  | _ => (false, cursor)

def startsExponent (cursor : Cursor) : Bool :=
  match cursor.rest with
  | .char c :: _ => c == 'e' || c == 'E'
  | _ => false

def readExponent (cursor : Cursor) :
    Except (Fault × Fault) (Option (Bool × List Char) × Cursor) :=
  if startsExponent cursor then do
    let (negative, digitsStart) := readSign cursor.advance
    let (digits, next) ← readDigits digitsStart
    pure (some (negative, digits), next)
  else .ok (none, cursor)

def read (cursor : Cursor) : Except (Fault × Fault) (Numeral × Cursor) := do
  let (negative, wholeStart) :=
    match cursor.rest with
    | .char '-' :: _ => (true, cursor.advance)
    | _ => (false, cursor)
  let (whole, next) ← readWhole wholeStart
  let (fraction, next) ← readFraction next
  let (exponent, next) ← readExponent next
  pure (⟨negative, whole, fraction, exponent⟩, next)

/-! ## Value -/

def digitValue (digit : Char) : Nat :=
  digit.toNat - '0'.toNat

/-- Appends digits to a number as long as it stays within a limit, and gives the digits left. -/
def takeWithin (limit : Nat) (value : Nat) : List Char → Nat × List Char
  | [] => (value, [])
  | digit :: digits =>
    if value * 10 + digitValue digit ≤ limit then
      takeWithin limit (value * 10 + digitValue digit) digits
    else (value, digit :: digits)

def wordMax : Nat := Nat.pow 2 64 - 1

/-- The greatest exponent that is followed to its value. -/
def exponentMax : Nat := Nat.pow 2 31 - 1

def signed (negative : Bool) (value : Binary64) : Binary64 :=
  .ofMagnitude negative value.bits.toNat

/-- Divides by the `308`th power of ten until an exponent is within the table of powers. A number
other than zero is gone after three steps at most. -/
def scaleDown : Nat → Binary64 → Int → Binary64
  | 0, value, _ => value
  | steps + 1, value, exponent =>
    if exponent < -308 then
      scaleDown steps (value / .ofDecimal false 1 308) (exponent + 308)
    else value / .ofNat (Nat.pow 10 exponent.natAbs)

def scale? (significand : Nat) (exponent : Int) : Option Binary64 :=
  let value := Binary64.ofNat significand
  if significand = 0 then some value
  else if 308 < exponent then none
  else if exponent < 0 then some (scaleDown 4 value exponent)
  else
    let scaled := value * .ofNat (Nat.pow 10 exponent.toNat)
    if scaled = .infinity false then none else some scaled

/-- The number that a numeral with a fraction or an exponent, or with more digits than 64 bits hold,
stands for. The error tells how many digits are behind the place where the number is found too
large. -/
def realValue (numeral : Numeral) : Except Nat Binary64 :=
  let (significand, dropped) := takeWithin wordMax 0 numeral.whole
  let fraction := numeral.fraction.getD []
  let (significand, unused) := takeWithin wordMax significand fraction
  let shift : Int := (dropped.length : Int) - ((fraction.length : Int) - unused.length)
  let finish (exponent : Int) : Except Nat Binary64 :=
    match scale? significand exponent with
    | some value => .ok (signed numeral.negative value)
    | none => .error 0
  match numeral.exponent with
  | none => finish shift
  | some (negative, digits) =>
    match takeWithin exponentMax 0 digits with
    | (exponent, []) => finish (if negative then shift - exponent else shift + exponent)
    | (_, _ :: behind) =>
      if significand ≠ 0 ∧ negative = false then .error behind.length
      else .ok (signed numeral.negative (.ofNat 0))

/-- The number a numeral stands for. Zero with a minus sign is no integer. -/
def value (numeral : Numeral) : Except Nat Number :=
  match takeWithin wordMax 0 numeral.whole, numeral.fraction, numeral.exponent with
  | (magnitude, []), none, none =>
    if !numeral.negative then .ok (.integer magnitude)
    else if 0 < magnitude ∧ magnitude ≤ Nat.pow 2 63 then .ok (.integer (-magnitude))
    else .ok (.real (signed true (.ofNat magnitude)))
  | _, _, _ => numeral.realValue.map .real

end Numeral

end TracePipeline
