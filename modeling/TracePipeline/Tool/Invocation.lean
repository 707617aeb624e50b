import TracePipeline.Tool

/-!
# Tool invocations

Finding the first command in a shell script that runs a tool, and cutting the script around it. A
line is read as blank-separated tokens; the tokens `&&` and `;` end a command. A command that is
joined to another by a pipe, by `||` or by `&` is left alone.
-/

set_option autoImplicit false

namespace TracePipeline

/-- A command that was found: what its tool is given, and the script text before and after it. -/
structure ToolInvocation where
  before : String
  arguments : String
  after : String
deriving DecidableEq, Repr

namespace ToolInvocation

/-! ## Tokens -/

abbrev Token := List Char

/-- A token without a semicolon at its end, which becomes a token of its own. -/
def splitSemicolon (token : Token) : List Token :=
  match token.reverse with
  | ';' :: rest => if rest.isEmpty then [token] else [rest.reverse, [';']]
  | _ => [token]

def tokens (line : List Char) : List Token :=
  (Text.words line).flatMap splitSemicolon

/-- A token that ends one command and starts the next. -/
def isSeparator (token : Token) : Bool :=
  token == ['&', '&'] || token == [';']

/-- A token that ties a command to its neighbour. -/
def isOperator (token : Token) : Bool :=
  token == ['|'] || token == ['|', '|'] || token == ['&']

def joinTokens (tokens : List Token) : List Char :=
  List.intercalate [' '] tokens

/-- Lines with line feeds between them; nothing when all of it is blank. -/
def joinLines (lines : List (List Char)) : String :=
  let text := List.intercalate ['\n'] lines
  if text.all Text.isBlank then "" else String.ofList text

/-! ## Commands -/

/-- The part of a token behind its last slash or backslash. -/
def baseName (token : Token) : Token :=
  (Text.splitBy (fun c => c == '/' || c == '\\') token).getLastD token

def runs (tool : Tool) (token : Token) : Bool :=
  tool.commands.any fun command => command.toList == baseName token

/-- The arguments of a command that runs a tool. For the scanner, a Maven command with a goal of the
scanner counts as a whole. -/
def arguments? (tool : Tool) (command : List Token) : Option (List Char) :=
  match command with
  | [] => none
  | first :: rest =>
    if command.any isOperator then none
    else if runs tool first then some (joinTokens rest)
    else if tool = .sonarScanner && runs .maven first &&
        command.any (Text.startsWith "sonar:".toList) then
      some (joinTokens command)
    else none

/-- What is found on one line: the tokens before the command without the separator in front of it,
the arguments, and the tokens after the separator behind it. -/
structure Found where
  before : List Token
  arguments : List Char
  after : List Token

/-- Looks for the first command that runs a tool. `passed` holds the tokens up to the command that
is being read, `command` its tokens so far. -/
def findCommand (tool : Tool) (passed command : List Token) : List Token → Option Found
  | [] => (arguments? tool command).map fun arguments => ⟨passed.dropLast, arguments, []⟩
  | token :: rest =>
    if isSeparator token then
      match arguments? tool command with
      | some arguments => some ⟨passed.dropLast, arguments, rest⟩
      | none => findCommand tool (passed ++ command ++ [token]) [] rest
    else findCommand tool passed (command ++ [token]) rest

def remainder (tokens : List Token) : List (List Char) :=
  if tokens.isEmpty then [] else [joinTokens tokens]

/-- Looks for the first line with a command that runs a tool. The answer holds the lines before it
and behind it. -/
def findLine (tool : Tool) :
    List (List Char) → Option (List (List Char) × Found × List (List Char))
  | [] => none
  | line :: rest =>
    match findCommand tool [] [] (tokens line) with
    | some found => some ([], found, rest)
    | none => (findLine tool rest).map fun (before, found, after) => (line :: before, found, after)

end ToolInvocation

/-- The first command of a script that runs a tool. -/
def Tool.findInvocation? (tool : Tool) (script : String) : Option ToolInvocation :=
  (ToolInvocation.findLine tool (Text.lines script.toList)).map fun (before, found, after) => {
    before := ToolInvocation.joinLines (before ++ ToolInvocation.remainder found.before)
    arguments := String.ofList found.arguments
    after := ToolInvocation.joinLines (ToolInvocation.remainder found.after ++ after) }

end TracePipeline
