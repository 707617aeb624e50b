import TracePipeline.Json.Decode
import TracePipeline.Trace.Param

/-!
# Sidecars

The JSON payload that a span carries as the text of one of its attributes. Some recorders encode it
twice, as a JSON text inside a JSON string.
-/

set_option autoImplicit false

namespace TracePipeline

/-- The payload of a span: missing, unreadable with the reason, or the entries of an object. -/
inductive Sidecar where
  | absent
  | malformed (reason : String)
  | present (entries : Entries Json)
deriving Repr

namespace Sidecar

/-- Reads a payload that is encoded once or twice. -/
def ofText (text : String) : Sidecar :=
  match Json.read? text with
  | .error fault => .malformed fault.message
  | .ok (.object entries) => .present entries
  | .ok (.string inner) =>
    match Json.read? inner with
    | .ok (.object entries) => .present entries
    | _ => .malformed ("expected a JSON object, got string '" ++ inner ++ "'")
  | .ok other => .malformed ("expected a JSON object, got " ++ other.kind)

/-- Reads the attribute that may hold a payload. A blank one holds none. -/
def read (raw : Option String) : Sidecar :=
  match raw with
  | none => .absent
  | some text => if isBlankText text then .absent else ofText text

def isPresent : Sidecar → Bool
  | .present _ => true
  | _ => false

/-- The payload as a parameter; nothing when it is missing or unreadable. -/
def root : Sidecar → Param
  | .present entries => .ofEntries entries
  | _ => none

def get (sidecar : Sidecar) (key : String) : Param :=
  sidecar.root.get key

end Sidecar

end TracePipeline
