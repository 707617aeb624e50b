/-!
# Requests on the command line

What the arguments of a call ask for. Arguments are read from left to right. The first fault ends
the reading, and so does the first option that asks for the help text or the version. After `--`
every argument is an input.
-/

set_option autoImplicit false

namespace TracePipeline.CommandLine

/-! ## What can be asked for -/

inductive Format where
  | yaml
  | json
deriving DecidableEq, Repr

def Format.ofName? : String → Option Format
  | "yaml" => some .yaml
  | "json" => some .json
  | _ => none

/-- One conversion as it is asked for. What is missing was not mentioned. -/
structure Job where
  input : Option String := none
  output : Option String := none
  format : Option Format := none
  options : Option String := none
  name : Option String := none
  image : Option String := none
  noMerge : Bool := false
deriving DecidableEq, Repr

inductive Request where
  | help
  | version
  | convert (job : Job)
deriving DecidableEq, Repr

inductive UsageFault where
  | unexpected (argument : String)
  | missingValue (option : String)
  | needlessValue (option value : String)
  | invalidValue (option value : String)
  | repeated (option : String)
deriving DecidableEq, Repr

def UsageFault.message : UsageFault → String
  | unexpected argument => "unexpected argument '" ++ argument ++ "' found"
  | missingValue option => "a value is required for '" ++ option ++ "' but none was supplied"
  | needlessValue option value =>
    "unexpected value '" ++ value ++ "' for '" ++ option ++ "' found; no more were expected"
  | invalidValue option value => "invalid value '" ++ value ++ "' for '" ++ option ++ "'"
  | repeated option => "the argument '" ++ option ++ "' cannot be used multiple times"

/-! ## Options -/

inductive Setting where
  | input
  | output
  | format
  | options
  | name
  | image
deriving DecidableEq, Repr

def Setting.label : Setting → String
  | input => "[INPUT]"
  | output => "--output"
  | format => "--format"
  | options => "--options"
  | name => "--name"
  | image => "--image"

/-- What an option does: it gives a setting its value, or it stands alone. -/
inductive Effect where
  | set (setting : Setting)
  | noMerge
  | help
  | version
deriving DecidableEq, Repr

def longOptions : List (String × Effect) := [
  ("output", .set .output), ("format", .set .format), ("options", .set .options),
  ("name", .set .name), ("image", .set .image), ("no-merge", .noMerge), ("help", .help),
  ("version", .version)]

def shortOptions : List (Char × Effect) := [
  ('o', .set .output), ('f', .set .format), ('n', .set .name), ('h', .help), ('V', .version)]

def once (setting : Setting) (old : Option String) (value : String) :
    Except UsageFault (Option String) :=
  match old with
  | some _ => .error (.repeated setting.label)
  | none => .ok (some value)

/-- A path, which is never empty, unless the setting has one already. -/
def oncePath (setting : Setting) (old : Option String) (value : String) :
    Except UsageFault (Option String) :=
  if value = "" then .error (.invalidValue setting.label value) else once setting old value

/-- Gives a setting its value. A second input is an argument too many. -/
def Job.set (job : Job) (setting : Setting) (value : String) : Except UsageFault Job :=
  match setting with
  | .input =>
    if job.input.isSome then .error (.unexpected value)
    else (oncePath .input job.input value).map fun input => { job with input }
  | .output => (oncePath .output job.output value).map fun output => { job with output }
  | .options => (oncePath .options job.options value).map fun options => { job with options }
  | .name => (once .name job.name value).map fun name => { job with name }
  | .image => (once .image job.image value).map fun image => { job with image }
  | .format =>
    match job.format, Format.ofName? value with
    | some _, _ => .error (.repeated Setting.format.label)
    | none, none => .error (.invalidValue Setting.format.label value)
    | none, some format => .ok { job with format := some format }

def Job.separate (job : Job) : Except UsageFault Job :=
  if job.noMerge then .error (.repeated "--no-merge") else .ok { job with noMerge := true }

/-! ## Arguments -/

/-- The form of an argument. A value may be attached to an option: behind an equals sign, or right
behind a one-letter name. -/
inductive Argument where
  | separator
  | long (name : String) (attached : Option String)
  | short (letter : Char) (attached : Option String)
  | plain (value : String)
deriving DecidableEq, Repr

def afterEquals? (text : List Char) : Option String :=
  match text.dropWhile (· ≠ '=') with
  | _ :: value => some (String.ofList value)
  | [] => none

/-- The value right behind a one-letter name; an equals sign in between is left out. -/
def attachedValue? : List Char → Option String
  | [] => none
  | '=' :: value => some (String.ofList value)
  | value => some (String.ofList value)

/-- The form of an argument. A single dash is a value like any other. -/
def Argument.ofText (text : String) : Argument :=
  match text.toList with
  | ['-', '-'] => .separator
  | '-' :: '-' :: rest =>
    .long (String.ofList (rest.takeWhile (· ≠ '='))) (afterEquals? rest)
  | '-' :: letter :: rest => .short letter (attachedValue? rest)
  | _ => .plain text

def Request.ofInputs (job : Job) : List String → Except UsageFault Request
  | [] => .ok (.convert job)
  | text :: texts => job.set .input text >>= fun job => ofInputs job texts

/-- Reads the arguments behind those that made up a job so far. A setting may be waiting for its
value, which has to be the next argument and must not look like an option. -/
def Request.ofRest (job : Job) : (waiting : Option Setting) → List String →
    Except UsageFault Request
  | none, [] => .ok (.convert job)
  | some setting, [] => .error (.missingValue setting.label)
  | some setting, text :: texts =>
    match Argument.ofText text with
    | .plain value => job.set setting value >>= fun job => ofRest job none texts
    | _ => .error (.missingValue setting.label)
  | none, text :: texts =>
    match Argument.ofText text with
    | .separator => ofInputs job texts
    | .plain value => job.set .input value >>= fun job => ofRest job none texts
    | .long name attached =>
      match longOptions.lookup name, attached with
      | none, _ => .error (.unexpected text)
      | some (.set setting), none => ofRest job (some setting) texts
      | some (.set setting), some value =>
        job.set setting value >>= fun job => ofRest job none texts
      | some _, some value => .error (.needlessValue ("--" ++ name) value)
      | some .noMerge, none => job.separate >>= fun job => ofRest job none texts
      | some .help, none => .ok .help
      | some .version, none => .ok .version
    | .short letter attached =>
      match shortOptions.lookup letter, attached with
      | none, _ => .error (.unexpected text)
      | some (.set setting), none => ofRest job (some setting) texts
      | some (.set setting), some value =>
        job.set setting value >>= fun job => ofRest job none texts
      | some .noMerge, _ => job.separate >>= fun job => ofRest job none texts
      | some .help, _ => .ok .help
      | some .version, _ => .ok .version

def Request.ofArguments (arguments : List String) : Except UsageFault Request :=
  ofRest {} none arguments

/-! ## Texts about the program -/

def versionText : String :=
  "jenkins-convert 0.1.0\n"

def usageText : String :=
  "Usage: jenkins-convert [OPTIONS] [INPUT]\n"

def helpText : String :=
  "Convert a Jenkins JSON trace export into a pipeline document\n\n" ++ usageText ++
  "\nArguments:\n" ++
  "  [INPUT]  Trace file to read; `-` or omitted reads stdin\n" ++
  "\nOptions:\n" ++
  "  -o, --output <OUTPUT>    Write the document here instead of stdout\n" ++
  "  -f, --format <FORMAT>    [default: yaml] [possible values: yaml, json]\n" ++
  "      --options <OPTIONS>  " ++
  "Options as a JSON file (`pipelineName`, `defaultImage`, `mergeSteps`)\n" ++
  "  -n, --name <NAME>        Pipeline name; overrides the options file\n" ++
  "      --image <IMAGE>      " ++
  "Image for steps outside any container block; overrides the options file\n" ++
  "      --no-merge           Keep adjacent script steps separate\n" ++
  "  -h, --help               Print help\n" ++
  "  -V, --version            Print version\n" ++
  "\nExample:\n    jenkins-convert trace.json --name build --output pipeline.yaml\n"

end TracePipeline.CommandLine
