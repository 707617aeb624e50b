import TracePipeline.Text.Printable

/-!
# Shown texts

How a message shows a text: in double quotes, with escapes for quotes, backslashes and everything
that cannot be printed.
-/

set_option autoImplicit false

namespace TracePipeline.Text

def showChar (c : Char) : List Char :=
  if c = '\x00' then ['\\', '0']
  else if c = '\t' then ['\\', 't']
  else if c = '\r' then ['\\', 'r']
  else if c = '\n' then ['\\', 'n']
  else if c = '"' then ['\\', '"']
  else if c = '\\' then ['\\', '\\']
  else if isPrintable c then [c]
  else ['\\', 'u', '{'] ++ Nat.toDigits 16 c.toNat ++ ['}']

/-- A text as a message shows it. -/
def shown (text : List Char) : List Char :=
  '"' :: text.flatMap showChar ++ ['"']

end TracePipeline.Text
