import TracePipeline.Json.Fault

/-!
# Failures and diagnostics

A failure ends a conversion; only reading the input can fail. A diagnostic is a finding that a
conversion goes on after.
-/

set_option autoImplicit false

namespace TracePipeline

/-- Why a conversion cannot be made. -/
inductive Failure where
  | unreadableTrace (fault : Fault)
  | unreadableOptions (fault : Fault)
deriving DecidableEq, Repr

namespace Failure

def code : Failure → String
  | unreadableTrace _ => "P001"
  | unreadableOptions _ => "P002"

def phase : Failure → String
  | unreadableTrace _ => "Parse"
  | unreadableOptions _ => "Parse"

def message : Failure → String
  | unreadableTrace fault => "Failed to parse Jenkins trace JSON: " ++ fault.message
  | unreadableOptions fault => "Invalid conversion options: " ++ fault.message

def display (failure : Failure) : String :=
  "[" ++ failure.phase ++ ":" ++ failure.code ++ "] " ++ failure.message

end Failure

/-- A finding about a span that does not end the conversion. -/
structure Diagnostic where
  code : String
  message : String
  spanId : Option String
deriving DecidableEq, Repr

namespace Diagnostic

def display (diagnostic : Diagnostic) : String :=
  let text := "[" ++ diagnostic.code ++ "] " ++ diagnostic.message
  match diagnostic.spanId with
  | none => text
  | some spanId => text ++ " (span '" ++ spanId ++ "')"

end Diagnostic

end TracePipeline
