import TracePipeline.Json.Tree

/-!
# Quoted texts

Reading a text in quotes. Reading goes on behind an escape that stands for no character and behind
bytes that are no characters, so that the skipping reader, which does not mind them, finds the end.
-/

set_option autoImplicit false

namespace TracePipeline

/-- A quoted text that was read. -/
inductive Quoted where
  /-- The closing quote was found: the text, or the strict reader's fault, and the cursor behind
  it. -/
  | closed (text : Except Fault String) (next : Cursor)
  /-- The closing quote cannot be reached. -/
  | broken (strict skipping : Fault)

namespace Quoted

def hexDigit? (c : Char) : Option Nat :=
  if '0' ≤ c && c ≤ '9' then some (c.toNat - '0'.toNat)
  else if 'a' ≤ c && c ≤ 'f' then some (c.toNat - 'a'.toNat + 10)
  else if 'A' ≤ c && c ≤ 'F' then some (c.toNat - 'A'.toNat + 10)
  else none

def hexGlyph? : Glyph → Option Nat
  | .char c => hexDigit? c
  | .stray _ => none

def hexQuad? (a b c d : Char) : Option Nat := do
  let a ← hexDigit? a
  let b ← hexDigit? b
  let c ← hexDigit? c
  let d ← hexDigit? d
  pure (a * 4096 + b * 256 + c * 16 + d)

/-- The first half of a pair of code units. -/
def isLeading (code : Nat) : Bool :=
  0xD800 ≤ code && code ≤ 0xDBFF

/-- The second half of a pair of code units. -/
def isTrailing (code : Nat) : Bool :=
  0xDC00 ≤ code && code ≤ 0xDFFF

def pairChar (leading trailing : Nat) : Char :=
  Char.ofNat ((leading - 0xD800) * 0x400 + (trailing - 0xDC00) + 0x10000)

def escaped? (c : Char) : Option Char :=
  if c = '"' then some '"'
  else if c = '\\' then some '\\'
  else if c = '/' then some '/'
  else if c = 'b' then some '\x08'
  else if c = 'f' then some '\x0c'
  else if c = 'n' then some '\n'
  else if c = 'r' then some '\r'
  else if c = 't' then some '\t'
  else none

/-- Where reading stands inside a quoted text: between characters, behind a backslash, or among the
digits of a code unit, with the number of digits to come and the value of those before. -/
inductive Mode where
  | plain
  | escape
  | unit (missing value : Nat)

/-- The fault of a code unit that lacks digits: the text ends, or another byte is among them. -/
def unitFault (position : Position) (rest : List Glyph) (missing : Nat) : Fault :=
  let bytes := rest.foldl (fun count glyph => count + glyph.width) 0
  .placed (if bytes < missing then .endInString else .invalidEscape)
    (position.intoBytes rest missing)

/-- The strict reader's fault behind the first half of a pair, when no second half follows. There
is none where the text ends or the next escape is at fault itself, as reading comes to that. -/
def pairFault? (position : Position) : List Glyph → Option Fault
  | [] => none
  | .char '\\' :: rest =>
    let position := position.after (.char '\\')
    match rest with
    | [] => none
    | .char 'u' :: .char a :: .char b :: .char c :: .char d :: _ =>
      match hexQuad? a b c d with
      | none => none
      | some code =>
        if isTrailing code then none
        else some (.placed .loneSurrogate ⟨position.line, position.column + 5⟩)
    | .char 'u' :: _ => none
    | rest => some (.placed .unfinishedEscape (position.intoNext rest))
  | rest => some (.placed .unfinishedEscape (position.intoNext rest))

/-- What has been read of a quoted text: its characters, the last one first, the first half of a
pair if it came last, the strict reader's fault, and how many bytes the text takes from the first
byte on that is no part of a character, if there is one. An escape counts as the character it stands
for. -/
structure Progress where
  taken : List Char
  leading : Option Nat
  fault : Option Fault
  unreadable : Option Nat

namespace Progress

def start : Progress :=
  ⟨[], none, none, none⟩

def push (progress : Progress) (c : Char) : Progress :=
  { progress with
    taken := c :: progress.taken, leading := none,
    unreadable := progress.unreadable.map (· + c.utf8Size) }

def pushStray (progress : Progress) : Progress :=
  { progress with unreadable := some (progress.unreadable.getD 0 + 1) }

/-- The strict reader stops here, unless it stopped before. -/
def fail (progress : Progress) (fault : Fault) : Progress :=
  { progress with fault := progress.fault <|> some fault }

def pushUnit (progress : Progress) (code : Nat) (next : Cursor) : Progress :=
  if isLeading code then
    { progress with
      leading := some code, fault := progress.fault <|> pairFault? next.position next.rest }
  else if isTrailing code then
    match progress.leading with
    | some leading => progress.push (pairChar leading code)
    | none => progress.fail (.placed .loneSurrogate next.position)
  else progress.push (Char.ofNat code)

def stop (progress : Progress) (strict skipping : Fault) : Quoted :=
  .broken (progress.fault.getD strict) skipping

/-- The closing quote was reached, at a position. Bytes that are no characters are held against
the text only now. The fault is as far before the end of the closing quote as the text has bytes
from the first of them on; escapes are longer than what they stand for, so this need not be where
that byte is. -/
def close (progress : Progress) (quote : Position) (next : Cursor) : Quoted :=
  match progress.fault with
  | some fault => .closed (.error fault) next
  | none =>
    match progress.unreadable with
    | some bytes =>
      let place : Position := ⟨quote.line, quote.column + 1 - bytes⟩
      .closed (.error (.placed .invalidCodePoint place)) next
    | none => .closed (.ok (String.ofList progress.taken.reverse)) next

end Progress

def readFrom (position : Position) (mode : Mode) (progress : Progress) : List Glyph → Quoted
  | [] =>
    let fault := Fault.placed .endInString position
    progress.stop fault fault
  | glyph :: rest =>
    let next := position.after glyph
    match mode, glyph with
    | .plain, .stray _ => readFrom next .plain progress.pushStray rest
    | .plain, .char c =>
      if c = '"' then progress.close position ⟨next, rest⟩
      else if c = '\\' then readFrom next .escape progress rest
      else if c.toNat < 0x20 then
        progress.stop (.placed .controlCharacter next) (.placed .controlCharacter position)
      else readFrom next .plain (progress.push c) rest
    | .escape, .stray byte =>
      let fault := Fault.placed .invalidEscape (position.intoNext (.stray byte :: rest))
      progress.stop fault fault
    | .escape, .char c =>
      if c = 'u' then
        readFrom next (.unit 4 0) progress rest
      else
        match escaped? c with
        | some c => readFrom next .plain (progress.push c) rest
        | none =>
          let fault := Fault.placed .invalidEscape (position.intoNext (.char c :: rest))
          progress.stop fault fault
    | .unit missing value, glyph =>
      match hexGlyph? glyph with
      | none =>
        let fault := unitFault position (glyph :: rest) missing
        progress.stop fault fault
      | some digit =>
        if missing = 1 then
          readFrom next .plain (progress.pushUnit (value * 16 + digit) ⟨next, rest⟩) rest
        else readFrom next (.unit (missing - 1) (value * 16 + digit)) progress rest

/-- Reads a quoted text whose opening quote is behind the cursor. -/
def read (cursor : Cursor) : Quoted :=
  readFrom cursor.position .plain .start cursor.rest

end Quoted

end TracePipeline
