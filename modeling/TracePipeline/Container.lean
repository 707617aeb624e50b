import TracePipeline.Text.Blank
import TracePipeline.Text.Search

/-!
# Containers

The container a step runs in, and the arguments of a container command from which its settings are
read.
-/

set_option autoImplicit false

namespace TracePipeline

structure Container where
  image : Option String := none
  connector : Option String := none
  entrypoint : Option String := none
  args : List String := []
  privileged : Bool := false
  network : Option String := none
deriving DecidableEq, Repr, Inhabited

namespace Container

inductive Flag where
  | privileged
  | network
  | entrypoint
deriving DecidableEq, Repr

def flag? (flag : List Char) : Option Flag :=
  let flag := String.ofList flag
  if flag = "--privileged" then some .privileged
  else if flag = "--network" || flag = "--net" then some .network
  else if flag = "--entrypoint" then some .entrypoint
  else none

/-- A token as a flag and the value behind its equals sign. Only a token that starts like a long
flag has a value. -/
def splitFlag (token : List Char) : List Char × Option (List Char) :=
  match Text.splitOnce? '=' token with
  | some (flag, value) =>
    if Text.startsWith ['-', '-'] flag then (flag, some value) else (token, none)
  | none => (token, none)

/-- Writes the value of a flag that takes one. -/
def setFlag (container : Container) (flag : Flag) (value : Option String) : Container :=
  match flag with
  | .privileged => { container with privileged := value != some "false" }
  | .network => { container with network := value }
  | .entrypoint => { container with entrypoint := value }

/-- Reads tokens one after the other. A flag that needs a value and has none takes the next token,
whatever it is; what is no flag is passed on. -/
def readTokens (container : Container) : List (List Char) → Container
  | [] => container
  | token :: rest =>
    let (name, value) := splitFlag token
    match flag? name with
    | none =>
      readTokens { container with args := container.args ++ [String.ofList token] } rest
    | some flag =>
      if flag = .privileged || value.isSome then
        readTokens (container.setFlag flag (value.map String.ofList)) rest
      else
        match rest with
        | [] => container.setFlag flag none
        | next :: rest => readTokens (container.setFlag flag (some (String.ofList next))) rest

/-- The settings that the arguments of a container command ask for. Tokens end at blanks; quotes
have no meaning. -/
def ofArguments (arguments : String) : Container :=
  readTokens {} (Text.words arguments.toList)

end Container

end TracePipeline
