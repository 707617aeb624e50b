/-!
# Glyphs and positions

A text to be read is a list of glyphs: characters, and bytes that belong to none. A position counts
lines from one and bytes within the line from zero.
-/

set_option autoImplicit false

namespace TracePipeline

/-- One unit of input: a character, or a byte that is no part of one. -/
inductive Glyph where
  | char (c : Char)
  | stray (byte : UInt8)
deriving DecidableEq, Repr

namespace Glyph

def width : Glyph → Nat
  | .char c => c.utf8Size
  | .stray _ => 1

def ofText (text : List Char) : List Glyph :=
  text.map .char

def isTail (byte : UInt8) : Bool :=
  0x80 ≤ byte && byte ≤ 0xBF

def tailBits (byte : UInt8) : Nat :=
  byte.toNat % 64

/-- The bytes that may follow the first byte of a character of three bytes. They exclude the
overlong forms and the surrogates. -/
def secondOfThree (first second : UInt8) : Bool :=
  if first == 0xE0 then 0xA0 ≤ second && second ≤ 0xBF
  else if first == 0xED then 0x80 ≤ second && second ≤ 0x9F
  else isTail second

/-- The bytes that may follow the first byte of a character of four bytes. They exclude the
overlong forms and what lies beyond the last code point. -/
def secondOfFour (first second : UInt8) : Bool :=
  if first == 0xF0 then 0x90 ≤ second && second ≤ 0xBF
  else if first == 0xF4 then 0x80 ≤ second && second ≤ 0x8F
  else isTail second

/-- The glyphs of a byte sequence. A byte that starts no complete character is a glyph of its own,
and reading goes on at the byte behind it. -/
def ofBytes : List UInt8 → List Glyph
  | [] => []
  | a :: rest =>
    if a < 0x80 then .char (Char.ofNat a.toNat) :: ofBytes rest
    else
      match rest with
      | [] => [.stray a]
      | b :: rest₁ =>
        if 0xC2 ≤ a && a ≤ 0xDF && isTail b then
          .char (Char.ofNat (a.toNat % 32 * 64 + tailBits b)) :: ofBytes rest₁
        else
          match rest₁ with
          | [] => .stray a :: ofBytes (b :: [])
          | c :: rest₂ =>
            if 0xE0 ≤ a && a ≤ 0xEF && secondOfThree a b && isTail c then
              .char (Char.ofNat (a.toNat % 16 * 4096 + tailBits b * 64 + tailBits c)) ::
                ofBytes rest₂
            else
              match rest₂ with
              | [] => .stray a :: ofBytes (b :: c :: [])
              | d :: rest₃ =>
                if 0xF0 ≤ a && a ≤ 0xF4 && secondOfFour a b && isTail c && isTail d then
                  .char (Char.ofNat (a.toNat % 8 * 262144 + tailBits b * 4096 + tailBits c * 64 +
                    tailBits d)) :: ofBytes rest₃
                else .stray a :: ofBytes (b :: c :: d :: rest₃)

end Glyph

/-- A place in a text: the line, from one, and the bytes before it in that line. -/
structure Position where
  line : Nat
  column : Nat
deriving DecidableEq, Repr

namespace Position

def start : Position :=
  ⟨1, 0⟩

def after (position : Position) (glyph : Glyph) : Position :=
  if glyph = .char '\n' then ⟨position.line + 1, 0⟩
  else ⟨position.line, position.column + glyph.width⟩

/-- The position one byte into the input that follows, or here at its end. -/
def intoNext (position : Position) : List Glyph → Position
  | [] => position
  | glyph :: _ =>
    if glyph = .char '\n' then ⟨position.line + 1, 0⟩
    else ⟨position.line, position.column + 1⟩

/-- The position a number of bytes into the input that follows, or at its end. -/
def intoBytes (position : Position) : List Glyph → Nat → Position
  | [], _ => position
  | _, 0 => position
  | glyph :: rest, count + 1 =>
    if glyph.width ≤ count + 1 then intoBytes (position.after glyph) rest (count + 1 - glyph.width)
    else ⟨position.line, position.column + (count + 1)⟩

end Position

/-- Where reading stands: the position, and the input that follows. -/
structure Cursor where
  position : Position
  rest : List Glyph
deriving DecidableEq, Repr

namespace Cursor

def ofGlyphs (glyphs : List Glyph) : Cursor :=
  ⟨.start, glyphs⟩

def intoNext (cursor : Cursor) : Position :=
  cursor.position.intoNext cursor.rest

def advance (cursor : Cursor) : Cursor :=
  match cursor.rest with
  | [] => cursor
  | glyph :: rest => ⟨cursor.position.after glyph, rest⟩

def isSpace : Glyph → Bool
  | .char c => c == ' ' || c == '\n' || c == '\t' || c == '\r'
  | .stray _ => false

def skipSpaceFrom (position : Position) : List Glyph → Cursor
  | [] => ⟨position, []⟩
  | glyph :: rest =>
    if isSpace glyph then skipSpaceFrom (position.after glyph) rest
    else ⟨position, glyph :: rest⟩

def skipSpace (cursor : Cursor) : Cursor :=
  skipSpaceFrom cursor.position cursor.rest

def takeDigitsFrom (position : Position) : List Glyph → List Char × Cursor
  | .char c :: rest =>
    if c.isDigit then
      let (digits, cursor) := takeDigitsFrom (position.after (.char c)) rest
      (c :: digits, cursor)
    else ([], ⟨position, .char c :: rest⟩)
  | rest => ([], ⟨position, rest⟩)

def takeDigits (cursor : Cursor) : List Char × Cursor :=
  takeDigitsFrom cursor.position cursor.rest

end Cursor

end TracePipeline
