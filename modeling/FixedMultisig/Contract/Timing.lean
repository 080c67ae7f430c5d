import FixedMultisig.Contract.DecimalText
import FixedMultisig.Contract.Expiration

/-!
# Arithmetic of expirations and durations

What the source offers besides comparing and expiring: the empty expiration,
some durations, and sums and multiples.  A sum of a height and a time is an
error, and a sum of two numbers that does not fit traps.
-/

namespace FixedMultisig

open CheckedWord

namespace Expiration

/-- The empty value never expires. -/
def default : Expiration := never

def add (expires : Expiration) (duration : Duration) :
    Except (Halt StdError) Expiration :=
  match expires, duration with
  | atTime time, .time delta => do
      return atTime (← orAbort (checkedAdd time delta))
  | atHeight height, .height delta => do
      return atHeight (← orAbort (checkedAdd height delta))
  | never, _ => .ok never
  | _, _ => .error (.error (.genericErr "Cannot add height and time"))

end Expiration

namespace Duration

def hour : Duration := time (60 * 60)

def day : Duration := time (24 * 60 * 60)

def week : Duration := time (7 * 24 * 60 * 60)

/-- A little longer. -/
def plusOne : Duration → Option Duration
  | height blocks => (checkedAdd blocks 1).map height
  | time seconds => (checkedAdd seconds 1).map time

def add (duration rhs : Duration) : Except (Halt StdError) Duration :=
  match duration, rhs with
  | time seconds, time seconds' => do
      return time (← orAbort (checkedAdd seconds seconds'))
  | height blocks, height blocks' => do
      return height (← orAbort (checkedAdd blocks blocks'))
  | _, _ => .error (.error (.genericErr "Cannot add height and time"))

def mul (duration : Duration) (rhs : U64) : Option Duration :=
  match duration with
  | time seconds => (checkedMul seconds rhs).map time
  | height blocks => (checkedMul blocks rhs).map height

example : hour.mul 24 = some day ∧ day.mul 7 = some week := by decide

end Duration

end FixedMultisig
