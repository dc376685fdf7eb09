/-!
Simulated time, in whole microseconds from the start of a run. Clocks have 64 bits, and adding an offset stops
at the last instant they can tell (`SimTime.last`).
-/
namespace Sidelink

/-- An instant of a run, in microseconds. -/
abbrev SimTime := Nat

namespace SimTime

/-- The last instant of a 64-bit clock. -/
def last : SimTime := 18446744073709551615

def ofMillis (ms : Nat) : SimTime := ms * 1000

/-- Whole milliseconds since the start of the run. -/
def toMillis (t : SimTime) : Nat := t / 1000

def plusMicros (t : SimTime) (us : Nat) : SimTime := min (t + us) last

def plusMillis (t : SimTime) (ms : Nat) : SimTime := plusMicros t (min (ms * 1000) last)

/-- The last whole millisecond that is not after an instant. -/
def truncateToMillis (t : SimTime) : SimTime := t - t % 1000

/-- Milliseconds with three decimal places. -/
def text (t : SimTime) : String :=
  let micros := t % 1000
  let zeros := if micros < 10 then "00" else if micros < 100 then "0" else ""
  s!"{t / 1000}.{zeros}{micros}ms"

end SimTime
end Sidelink
