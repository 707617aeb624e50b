import TracePipeline.Binary64.Decimal
import TracePipeline.Text.Blank
import TracePipeline.Text.Search

/-!
# Durations

Times with a unit, as texts of whole units or as whole seconds. Fractions are rounded up, and no
result exceeds what 64 bits hold.
-/

set_option autoImplicit false

namespace TracePipeline.Duration

/-- The greatest whole number that a duration shows. -/
def limit : Nat := Nat.pow 2 64 - 1

def unitName (unit : String) : String :=
  String.ofList (Text.asciiUpper (Text.trim unit.toList))

/-- A time in the unit that its text shows, and the sign of that unit. Units below a millisecond are
shown in milliseconds, and an unknown unit is a minute. -/
def scaled (time : Binary64) (unit : String) : Binary64 × String :=
  let name := unitName unit
  if name = "NANOSECONDS" then (time / .ofNat 1000000, "ms")
  else if name = "MICROSECONDS" then (time / .ofNat 1000, "ms")
  else if name = "MILLISECONDS" then (time, "ms")
  else if name = "SECONDS" then (time, "s")
  else if name = "HOURS" then (time, "h")
  else if name = "DAYS" then (time, "d")
  else (time, "m")

/-- The text of a time limit, such as `10m`. There is none for a time that is not finite or not
above zero. -/
def text? (time : Binary64) (unit : String) : Option String :=
  if time.isPositiveFinite then
    let (value, sign) := scaled time unit
    some (toString (value.ceilNat limit) ++ sign)
  else none

/-- The seconds in a unit; an unknown unit is a second. -/
def secondsIn (unit : String) : Binary64 :=
  let name := unitName unit
  if name = "NANOSECONDS" then .ofDecimal false 1 (-9)
  else if name = "MICROSECONDS" then .ofDecimal false 1 (-6)
  else if name = "MILLISECONDS" then .ofDecimal false 1 (-3)
  else if name = "MINUTES" then .ofNat 60
  else if name = "HOURS" then .ofNat 3600
  else if name = "DAYS" then .ofNat 86400
  else .ofNat 1

/-- A time in whole seconds. A time that is not finite or not above zero is no time at all. -/
def seconds (time : Binary64) (unit : String) : Nat :=
  if time.isPositiveFinite then (time * secondsIn unit).ceilNat limit else 0

end TracePipeline.Duration
