/-!
# Double precision numbers

The 64-bit floating-point format as a word, decoded to an exact value and encoded again by rounding
to the nearest representable value, a tie going to the even significand. All arithmetic is exact
arithmetic on natural numbers followed by one rounding.
-/

set_option autoImplicit false

namespace TracePipeline

/-- A double precision number, held as its 64-bit word. -/
structure Binary64 where
  bits : UInt64
deriving DecidableEq, Repr, Inhabited

namespace Binary64

/-- What a word stands for: `significand * 2 ^ exponent` with a sign, an infinity, or no number. -/
inductive Shape where
  | finite (negative : Bool) (significand : Nat) (exponent : Int)
  | infinite (negative : Bool)
  | nan
deriving DecidableEq, Repr

/-- The value of a word. The significand of a finite word is below `2 ^ 53`. -/
def shape (x : Binary64) : Shape :=
  let word := x.bits.toNat
  let negative := decide (Nat.pow 2 63 ≤ word)
  let scale : Nat := word / Nat.pow 2 52 % Nat.pow 2 11
  let fraction : Nat := word % Nat.pow 2 52
  if scale = 2047 then
    if fraction = 0 then .infinite negative else .nan
  else if scale = 0 then .finite negative fraction (-1074)
  else .finite negative (Nat.pow 2 52 + fraction) ((scale : Int) - 1075)

/-- The word with a given sign and the remaining 63 bits. -/
def ofMagnitude (negative : Bool) (magnitude : Nat) : Binary64 :=
  ⟨UInt64.ofNat ((if negative then Nat.pow 2 63 else 0) + magnitude)⟩

def infinity (negative : Bool) : Binary64 :=
  ofMagnitude negative (2047 * Nat.pow 2 52)

def nan : Binary64 :=
  ofMagnitude false (2047 * Nat.pow 2 52 + Nat.pow 2 51)

/-- The nearest natural number to a quotient, a half going to the even neighbour. -/
def nearestQuotient (numerator denominator : Nat) : Nat :=
  let quotient := numerator / denominator
  let twice := 2 * (numerator % denominator)
  if twice < denominator then quotient
  else if denominator < twice then quotient + 1
  else quotient + quotient % 2

/-- `numerator / denominator` divided by `2 ^ exponent`, as a quotient again. -/
def scaledQuotient (numerator denominator : Nat) (exponent : Int) : Nat × Nat :=
  if exponent < 0 then (numerator * Nat.pow 2 exponent.natAbs, denominator)
  else (numerator, denominator * Nat.pow 2 exponent.toNat)

/-- The exponent of the grid on which a positive quotient is rounded: the significand gets 53 bits,
or fewer where the exponent reaches its lowest value. -/
def gridExponent (numerator denominator : Nat) : Int :=
  let guess : Int := (numerator.log2 : Int) - denominator.log2 - 52
  let (n, d) := scaledQuotient numerator denominator guess
  max (if n < Nat.pow 2 52 * d then guess - 1 else guess) (-1074)

/-- The number nearest to a quotient. A value too large for the format becomes an infinity. -/
def ofQuotient (negative : Bool) (numerator denominator : Nat) : Binary64 :=
  if numerator = 0 then ofMagnitude negative 0
  else
    let exponent := gridExponent numerator denominator
    let (n, d) := scaledQuotient numerator denominator exponent
    let magnitude := (exponent + 1074).toNat * Nat.pow 2 52 + nearestQuotient n d
    if 2047 * Nat.pow 2 52 ≤ magnitude then infinity negative else ofMagnitude negative magnitude

def ofScaled (negative : Bool) (significand : Nat) (exponent : Int) : Binary64 :=
  if exponent < 0 then ofQuotient negative significand (Nat.pow 2 exponent.natAbs)
  else ofQuotient negative (significand * Nat.pow 2 exponent.toNat) 1

def ofNat (n : Nat) : Binary64 :=
  ofQuotient false n 1

def ofInt (n : Int) : Binary64 :=
  ofQuotient (decide (n < 0)) n.natAbs 1

def mul (x y : Binary64) : Binary64 :=
  match x.shape, y.shape with
  | .finite s m e, .finite t n f => ofScaled (s != t) (m * n) (e + f)
  | .infinite s, .infinite t => infinity (s != t)
  | .infinite s, .finite t n _ => if n = 0 then nan else infinity (s != t)
  | .finite s m _, .infinite t => if m = 0 then nan else infinity (s != t)
  | .nan, _ => nan
  | _, .nan => nan

def div (x y : Binary64) : Binary64 :=
  match x.shape, y.shape with
  | .finite s m e, .finite t n f =>
    if n = 0 then (if m = 0 then nan else infinity (s != t))
    else
      let (top, bottom) := scaledQuotient m n (f - e)
      ofQuotient (s != t) top bottom
  | .infinite _, .infinite _ => nan
  | .infinite s, .finite t _ _ => infinity (s != t)
  | .finite s _ _, .infinite t => ofMagnitude (s != t) 0
  | .nan, _ => nan
  | _, .nan => nan

instance : Mul Binary64 := ⟨mul⟩
instance : Div Binary64 := ⟨div⟩

def isFinite (x : Binary64) : Bool :=
  match x.shape with
  | .finite .. => true
  | _ => false

def isPositiveFinite (x : Binary64) : Bool :=
  match x.shape with
  | .finite false significand _ => significand != 0
  | _ => false

/-- The least natural number that is not below a number, at most `limit`. Negative numbers and the
word for no number give zero. -/
def ceilNat (limit : Nat) (x : Binary64) : Nat :=
  match x.shape with
  | .finite false significand exponent =>
    if exponent < 0 then
      min limit ((significand + (Nat.pow 2 exponent.natAbs - 1)) / Nat.pow 2 exponent.natAbs)
    else min limit (significand * Nat.pow 2 exponent.toNat)
  | .infinite false => limit
  | _ => 0

/-- The greatest natural number that is not above a number, at most `limit`. Negative numbers and
the word for no number give zero. -/
def floorNat (limit : Nat) (x : Binary64) : Nat :=
  match x.shape with
  | .finite false significand exponent =>
    if exponent < 0 then min limit (significand / Nat.pow 2 exponent.natAbs)
    else min limit (significand * Nat.pow 2 exponent.toNat)
  | .infinite false => limit
  | _ => 0

end Binary64

end TracePipeline
