import TracePipeline.CommandLine.Run

/-!
# Directories in memory

A host for runs that touch no machine: bytes on the standard input, the text files of the directory
the program is called in, and the texts it prints. Directories inside it are those that its file
names mention. Outside it there are the directories above and the root, all of them empty. A file
written there has a name that begins with two points or a slash.
-/

set_option autoImplicit false

namespace TracePipeline.CommandLine

/-- What a run in memory finds. -/
structure Directory where
  input : List UInt8 := []
  files : Entries String := []
deriving DecidableEq, Repr

/-- Where a path leads: to a directory, to a file, to a name that is free for one, or to a name that
no file can have. -/
inductive Place where
  | directory
  | file (name text : String)
  | free (name : String)
  | tooLong
deriving DecidableEq, Repr

namespace Directory

/-! ## Paths -/

/-- A path of this many bytes is too long. -/
def pathLimit : Nat :=
  4096

def nameLimit : Nat :=
  255

/-- The parts of a path between its slashes. Slashes that follow each other count as one. -/
def parts (path : String) : List String :=
  ((Text.splitBy (· == '/') path.toList).filter fun part => !part.isEmpty).map String.ofList

def nameOf (parts : List String) : String :=
  joinTexts "/" parts

def root : List String :=
  [""]

/-- The parts of the directory above another one. Above the directory of the run they are pairs of
points, and above the root there is the root. -/
def above (folder : List String) : List String :=
  if folder.all (· = "..") then folder ++ [".."]
  else if folder = root then root
  else folder.dropLast

def hasFolder (directory : Directory) (name : String) : Bool :=
  directory.files.keys.any fun file => textStartsWith (name ++ "/") file

def entry (directory : Directory) (folder : List String) (part : String) : Place :=
  let name := nameOf (folder ++ [part])
  if nameLimit < part.utf8ByteSize then .tooLong
  else
    match directory.files.get? name with
    | some text => .file name text
    | none => if directory.hasFolder name then .directory else .free name

def follow (directory : Directory) (folder : List String) : List String → Except FileFault Place
  | [] => .ok .directory
  | "." :: rest => follow directory folder rest
  | ".." :: rest => follow directory (above folder) rest
  | part :: rest =>
    match directory.entry folder part, rest with
    | place, [] => .ok place
    | .directory, rest => follow directory (folder ++ [part]) rest
    | .file _ _, _ => .error .notDirectory
    | .free _, _ => .error .missing
    | .tooLong, _ => .error .nameTooLong

def find (directory : Directory) (path : String) : Except FileFault Place :=
  if pathLimit ≤ path.utf8ByteSize then .error .nameTooLong
  else if path = "" then .error .missing
  else directory.follow (if textStartsWith "/" path then root else []) (parts path)

def namesFolder (path : String) : Bool :=
  path.toList.getLast? = some '/'

def isInside (name : String) : Bool :=
  !textStartsWith "/" name && !textStartsWith "../" name

/-! ## Reading and writing -/

def inputText (directory : Directory) : Except FileFault String :=
  match String.fromUTF8? ⟨directory.input.toArray⟩ with
  | some text => .ok text
  | none => .error .notText

def read (directory : Directory) (path : String) : Except FileFault String :=
  match directory.find path with
  | .error fault => .error fault
  | .ok .directory => .error .isDirectory
  | .ok (.free _) => .error .missing
  | .ok .tooLong => .error .nameTooLong
  | .ok (.file _ text) => if namesFolder path then .error .notDirectory else .ok text

/-- The directory with a text in a file. A path that names a directory is refused whether there is
one or not. -/
def write (directory : Directory) (path text : String) : Except FileFault Directory :=
  match directory.find path with
  | .error fault => .error fault
  | .ok place =>
    if namesFolder path then .error .isDirectory
    else
      match place with
      | .directory => .error .isDirectory
      | .tooLong => .error .nameTooLong
      | .file name _ | .free name =>
        .ok { directory with files := directory.files.insert name text }

def changes (before after : Directory) : Entries String :=
  after.files.filter fun (name, text) => isInside name && before.files.get? name ≠ some text

end Directory

/-! ## Sessions -/

/-- A run in memory: the directory it is called in and what it prints. The log is printed with the
errors. -/
structure Session where
  directory : Directory
  output : String := ""
  errors : String := ""
  /-- How many bytes the output takes at most, if there is a limit. -/
  room : Option Nat := none
  /-- The least level of the records that the log shows, if it shows any. -/
  logLevel : Option LogLevel := none
deriving DecidableEq, Repr

namespace Session

def hasRoomFor (session : Session) (text : String) : Bool :=
  match session.room with
  | none => true
  | some room => decide (session.output.utf8ByteSize + text.utf8ByteSize ≤ room)

def shows (session : Session) (record : LogRecord) : Bool :=
  match session.logLevel with
  | none => false
  | some least => least.shows record.level

/-- The session after a record has come to its log. A record that is shown ends its line. -/
def withRecord (session : Session) (record : LogRecord) : Session :=
  if session.shows record then
    { session with errors := session.errors ++ record.text ++ "\n" }
  else session

end Session

/-- A write that fails leaves the session as it is. -/
instance : Host (StateM Session) where
  readInput := fun session => (session.directory.inputText, session)
  readFile path := fun session => (session.directory.read path, session)
  writeFile path text := fun session =>
    match session.directory.write path text with
    | .ok after => (.ok (), { session with directory := after })
    | .error fault => (.error fault, session)
  writeOutput text := fun session =>
    if session.hasRoomFor text then (.ok (), { session with output := session.output ++ text })
    else (.error .noSpace, session)
  writeErrors text := fun session => (.ok (), { session with errors := session.errors ++ text })
  log record := fun session => ((), session.withRecord record)

namespace Session

/-- Runs the command line in a session. -/
def run (session : Session) (arguments : List String) : UInt32 × Session :=
  StateT.run (m := Id) (CommandLine.run (m := StateM Session) arguments) session

end Session

/-- What a run leaves behind, apart from files. -/
structure Outcome where
  code : UInt32
  output : String
  errors : String
deriving DecidableEq, Repr

/-- Runs the command line in a directory, without a log. -/
def runIn (directory : Directory) (arguments : List String) : Outcome × Directory :=
  let (code, session) := ({ directory } : Session).run arguments
  (⟨code, session.output, session.errors⟩, session.directory)

end TracePipeline.CommandLine
