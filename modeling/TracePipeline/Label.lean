import TracePipeline.Text.Blank
import TracePipeline.Text.Word

/-!
# Labels

Step ids and display names made from the free-form label of a span. Unsafe characters become
underscores, one for each run.
-/

set_option autoImplicit false

namespace TracePipeline.Label

/-- Puts one underscore in the place of each maximal run of unsafe characters. `inRun` tells whether
the run has its underscore already. -/
def collapse (isSafe : Char → Bool) (inRun : Bool) : List Char → List Char
  | [] => []
  | c :: rest =>
    if isSafe c then c :: collapse isSafe false rest
    else if inRun then collapse isSafe true rest
    else '_' :: collapse isSafe true rest

/-- What stands in for a label of which nothing is left. -/
def fallback : List Char := "unamed".toList

def orFallback (text : List Char) : List Char :=
  if text.isEmpty then fallback else text

def isIdSafe (c : Char) : Bool :=
  c.isAlphanum || c == '.' || c == '-' || c == '_'

def isNameSafe (c : Char) : Bool :=
  Text.isWord c || c == ' ' || c == '-'

/-- The greatest length of the part of an id that comes from the label. -/
def idLimit : Nat := 58

/-- The length of the part of an id that comes from the span id. -/
def suffixLength : Nat := 6

def nameLimit : Nat := 128

/-- The id of a step: the label with its unsafe characters replaced and cut short, and the start of
the span id as it is. -/
def stepId (label spanId : String) : String :=
  let cleaned := Text.trimBy (· == '_') (collapse isIdSafe false label.toList)
  String.ofList ((orFallback cleaned).take idLimit ++ spanId.toList.take suffixLength)

/-- The display name of a step: the label with its unsafe characters replaced, without underscores
and spaces at its ends, cut short. -/
def displayName (label : String) : String :=
  let cleaned :=
    Text.trimBy (fun c => c == '_' || c == ' ') (collapse isNameSafe false label.toList)
  String.ofList ((orFallback cleaned).take nameLimit)

end TracePipeline.Label
