/-!
# Shell words

Texts written so that a POSIX shell reads each as one word with that value.
-/

set_option autoImplicit false

namespace TracePipeline.ShellWord

/-- A character inside single quotes. A single quote ends the quoted part, stands escaped, and
starts the next quoted part. -/
def quoteChar (c : Char) : List Char :=
  if c = '\'' then ['\'', '\\', '\'', '\''] else [c]

def quote (text : List Char) : List Char :=
  '\'' :: text.flatMap quoteChar ++ ['\'']

/-- The characters that keep a meaning inside double quotes. -/
def isSpecial (c : Char) : Bool :=
  c == '\\' || c == '"' || c == '$' || c.toNat == 0x60

def escapeChar (c : Char) : List Char :=
  if isSpecial c then ['\\', c] else [c]

def escape (text : List Char) : List Char :=
  text.flatMap escapeChar

def quoteText (text : String) : String :=
  String.ofList (quote text.toList)

def escapeText (text : String) : String :=
  String.ofList (escape text.toList)

end TracePipeline.ShellWord
