/-!
# Character ranges

Sets of characters given as a list of closed ranges of code points.
-/

set_option autoImplicit false

namespace TracePipeline.Text

/-- Whether a code point lies in one of the closed ranges. -/
def inRanges (ranges : List (Nat × Nat)) (code : Nat) : Bool :=
  ranges.any fun (low, high) => low ≤ code && code ≤ high

end TracePipeline.Text
