import TracePipeline.CommandLine.Request
import TracePipeline.Log

/-!
# Runs of the command line

A run reads its input and its options, converts, and delivers the document to one place. Where a
file is, how it is read and what becomes of a printed text is left to the host, so that a run can be
made on a machine or in memory.
-/

set_option autoImplicit false

namespace TracePipeline.CommandLine

/-! ## Hosts -/

inductive FileFault where
  | missing
  | isDirectory
  | notDirectory
  | nameTooLong
  | notText
  | noSpace
  | other (message : String)
deriving DecidableEq, Repr

def FileFault.message : FileFault → String
  | missing => "No such file or directory (os error 2)"
  | isDirectory => "Is a directory (os error 21)"
  | notDirectory => "Not a directory (os error 20)"
  | nameTooLong => "File name too long (os error 36)"
  | notText => "stream did not contain valid UTF-8"
  | noSpace => "No space left on device (os error 28)"
  | other message => message

/-- What a run needs of the machine it is made on. A write that fails changes nothing. The log is
printed with the errors; which records it shows, and how, is up to the machine. -/
class Host (m : Type → Type) where
  readInput : m (Except FileFault String)
  readFile (path : String) : m (Except FileFault String)
  writeFile (path text : String) : m (Except FileFault Unit)
  writeOutput (text : String) : m (Except FileFault Unit)
  writeErrors (text : String) : m (Except FileFault Unit)
  log (record : LogRecord) : m Unit

/-! ## Messages -/

inductive Trouble where
  | read (source : String) (fault : FileFault)
  | write (path : String) (fault : FileFault)
  | print (fault : FileFault)
  | unconvertible (failure : Failure)
deriving DecidableEq, Repr

def Trouble.message : Trouble → String
  | read source _ => "failed to read " ++ source
  | write path _ => "failed to write " ++ path
  | print fault => fault.message
  | unconvertible failure => failure.display

def Trouble.cause? : Trouble → Option FileFault
  | read _ fault => some fault
  | write _ fault => some fault
  | print _ => none
  | unconvertible _ => none

def Trouble.report (trouble : Trouble) : String :=
  "Error: " ++ trouble.message ++ "\n" ++
    match trouble.cause? with
    | some fault => "\nCaused by:\n    " ++ fault.message ++ "\n"
    | none => ""

def warningLine (diagnostic : Diagnostic) : String :=
  "warning: " ++ diagnostic.display ++ "\n"

/-- The texts in which a document is printed: a line feed follows it unless it ends with one. -/
def outputTexts (document : String) : List String :=
  if document.toList.getLast? = some '\n' then [document] else [document, "\n"]

/-! ## Printing -/

section

variable {m : Type → Type} [Monad m] [Host m]

/-- Writes texts one after the other, up to the first one that is refused. -/
def writeAll (write : String → m (Except FileFault Unit)) : List String → m (Except FileFault Unit)
  | [] => pure (.ok ())
  | text :: texts => do
    match ← write text with
    | .error fault => pure (.error fault)
    | .ok () => writeAll write texts

def logAll : List LogRecord → m Unit
  | [] => pure ()
  | record :: records => do
    Host.log record
    logAll records

/-- Ends a run that has failed. Nobody asks whether its report can be printed. -/
def fail (trouble : Trouble) : m UInt32 := do
  let _ ← Host.writeErrors trouble.report
  pure 1

end

/-! ## Runs -/

def Format.render (format : Format) (pipeline : Pipeline) : String :=
  match format with
  | yaml => pipeline.yamlText
  | json => pipeline.jsonText

namespace Job

/-- The options of a job: its own choices go before those of its options file. -/
def override (job : Job) (options : Options) : Options where
  pipelineName := job.name.or options.pipelineName
  defaultImage := job.image.or options.defaultImage
  mergeSteps := options.mergeSteps && !job.noMerge

def document (job : Job) (pipeline : Pipeline) : String :=
  (job.format.getD .yaml).render pipeline

variable {m : Type → Type} [Monad m] [Host m]

def readPath (path : String) : m (Except Trouble String) := do
  pure ((← Host.readFile path).mapError (.read path))

/-- Reads the trace of a job: the file it names, or the standard input for a dash or no name. -/
def readTrace (job : Job) : m (Except Trouble String) :=
  match job.input with
  | none | some "-" => do pure ((← Host.readInput).mapError (.read "stdin"))
  | some path => readPath path

def readOptions (job : Job) : m (Except Trouble Options) := do
  match job.options with
  | none => pure (.ok (job.override {}))
  | some path =>
    pure ((← readPath path) >>= fun text =>
      ((Options.ofText text).mapError .unconvertible).map job.override)

/-- The conversion of a job and what it tells the log. The trace is read first, then the options,
and only then is it converted. -/
def conversion (job : Job) : m (Except Trouble (Conversion × List LogRecord)) := do
  match ← job.readTrace with
  | .error trouble => pure (.error trouble)
  | .ok text =>
    match ← job.readOptions with
    | .error trouble => pure (.error trouble)
    | .ok options => pure ((Conversion.ofTextLogged .builtin options text).mapError .unconvertible)

/-- Delivers a conversion: to the file the job names, or else to the standard output. -/
def deliver (job : Job) (conversion : Conversion) : m UInt32 := do
  let text := job.document conversion.pipeline
  match job.output with
  | none =>
    match ← writeAll Host.writeOutput (outputTexts text) with
    | .ok () => pure 0
    | .error fault => fail (.print fault)
  | some path =>
    match ← Host.writeFile path text with
    | .ok () => pure 0
    | .error fault => fail (.write path fault)

/-- Runs a job. It stops short when a warning cannot be printed. -/
def run (job : Job) : m UInt32 := do
  match ← job.conversion with
  | .error trouble => fail trouble
  | .ok (conversion, records) =>
    logAll records
    match ← writeAll Host.writeErrors (conversion.diagnostics.map warningLine) with
    | .ok () => job.deliver conversion
    | .error _ => pure 101

end Job

def UsageFault.report (fault : UsageFault) : String :=
  "error: " ++ fault.message ++ "\n\n" ++ usageText ++ "\nFor more information, try '--help'.\n"

/-- Runs the command line. The result is the exit code. -/
def run {m : Type → Type} [Monad m] [Host m] (arguments : List String) : m UInt32 :=
  match Request.ofArguments arguments with
  | .error fault => do
    let _ ← Host.writeErrors fault.report
    pure 2
  | .ok .help => do
    let _ ← Host.writeOutput helpText
    pure 0
  | .ok .version => do
    let _ ← Host.writeOutput versionText
    pure 0
  | .ok (.convert job) => job.run

end TracePipeline.CommandLine
