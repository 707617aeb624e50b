import TracePipeline.CommandLine.Run

/-!
# The program

Runs the command line on the machine it is called on.
-/

set_option autoImplicit false

namespace TracePipeline.CommandLine

/-- The number of an error of the machine. Some calls give it with the opposite sign. -/
def errorNumber (code : UInt32) : UInt32 :=
  if code < 0x80000000 then code else 0 - code

def FileFault.ofError (error : IO.Error) : FileFault :=
  match error with
  | .noFileOrDirectory .. => .missing
  | .inappropriateType _ code _ =>
    if errorNumber code = 21 then .isDirectory else .notDirectory
  | .invalidArgument _ code _ =>
    if errorNumber code = 36 then .nameTooLong else .other (toString error)
  | .resourceExhausted _ code _ =>
    if errorNumber code = 28 then .noSpace else .other (toString error)
  | _ => .other (toString error)

def textOfBytes (bytes : ByteArray) : Except FileFault String :=
  match String.fromUTF8? bytes with
  | some text => .ok text
  | none => .error .notText

def attempt {α : Type} (action : IO α) : IO (Except FileFault α) := do
  try return .ok (← action) catch error => return .error (.ofError error)

/-- All bytes of a stream that are still to be read. -/
partial def readAll (stream : IO.FS.Stream) (bytes : ByteArray) : IO ByteArray := do
  let more ← stream.read 65536
  if more.isEmpty then return bytes else readAll stream (bytes ++ more)

def print (stream : IO.FS.Stream) (text : String) : IO (Except FileFault Unit) :=
  attempt (do stream.putStr text; stream.flush)

/-- The least level that the log shows. The environment may name another one than warnings, or a
level above them, which none of the records has. -/
def logLevel? : IO (Option LogLevel) := do
  match (← IO.getEnv "RUST_LOG").map fun value => Text.asciiLower value.toList with
  | some value =>
    if value = "off".toList || value = "error".toList then return none
    else if value = "info".toList then return some .info
    else if value = "debug".toList || value = "trace".toList then return some .debug
    else return some .warn
  | none => return some .warn

instance : Host IO where
  readInput := do
    return (← attempt (do readAll (← IO.getStdin) .empty)) >>= textOfBytes
  readFile path := do
    return (← attempt (IO.FS.readBinFile path)) >>= textOfBytes
  writeFile path text := attempt (IO.FS.writeFile path text)
  writeOutput text := do print (← IO.getStdout) text
  writeErrors text := do print (← IO.getStderr) text
  log record := do
    if (← logLevel?).any fun least => least.shows record.level then
      let _ ← print (← IO.getStderr) (record.text ++ "\n")

end TracePipeline.CommandLine

/-- Runs the program with the arguments of the call. -/
def main (arguments : List String) : IO UInt32 :=
  TracePipeline.CommandLine.run arguments
