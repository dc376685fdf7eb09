import Std.Data.TreeSet
import Sidelink.Calendar.Heap

/-!
The calendar of a simulation: events wait until they are due, and come out in order of time, those of one
instant in the order they were entered. A cancelled event stays in the heap, but its number is no longer among
the live ones, and whoever reaches it drops it (`dropDead`).
-/
namespace Sidelink

/-- An event was to be entered before the current instant. -/
structure PastEvent where
  time : SimTime
  now : SimTime
  deriving DecidableEq

def PastEvent.message (e : PastEvent) : String := s!"Event scheduled in the past: {e.time.text} < {e.now.text}"

/-- Events in order of time. -/
structure Calendar (ε : Type) where
  heap : Calendar.Heap ε
  live : Std.TreeSet EventId
  nextId : EventId
  now : SimTime

namespace Calendar
variable {ε : Type}

def empty : Calendar ε := ⟨.leaf, ∅, 0, 0⟩

instance : Inhabited (Calendar ε) := ⟨empty⟩

/-- The number of events that still wait. -/
def size (c : Calendar ε) : Nat := c.live.size

def isPending (c : Calendar ε) (id : EventId) : Bool := c.live.contains id

/-- Enters an event at an instant that has not passed, and tells its number. -/
def enter (c : Calendar ε) (time : SimTime) (event : ε) : EventId × Calendar ε :=
  (c.nextId,
    { c with heap := c.heap.insert ⟨time, c.nextId, event⟩, live := c.live.insert c.nextId, nextId := c.nextId + 1 })

/-- Enters an event, unless its instant has passed. -/
def schedule (c : Calendar ε) (time : SimTime) (event : ε) : Except PastEvent (EventId × Calendar ε) :=
  if time < c.now then .error ⟨time, c.now⟩ else .ok (c.enter time event)

/-- Enters an event, at once if its instant has passed. -/
def enterSoon (c : Calendar ε) (time : SimTime) (event : ε) : Calendar ε := (c.enter (max time c.now) event).2

/-- Cancels an event, and tells whether it still waited. -/
def cancel (c : Calendar ε) (id : EventId) : Bool × Calendar ε :=
  if c.live.contains id then (true, { c with live := c.live.erase id }) else (false, c)

/-- A heap without the cancelled events at its root, after at most `fuel` of them. -/
def dropDead (live : Std.TreeSet EventId) : Nat → Heap ε → Heap ε
  | 0, h => h
  | fuel + 1, h =>
    match h.pop? with
    | none => h
    | some (e, rest) => if live.contains e.id then h else dropDead live fuel rest

/-- The calendar with a live event at the root of its heap, or with an empty heap: the heap never holds more
entries than were numbered. -/
def settled (c : Calendar ε) : Calendar ε := { c with heap := dropDead c.live c.nextId c.heap }

/-- The instant of the next event. -/
def peek (c : Calendar ε) : Option SimTime × Calendar ε :=
  let c := c.settled
  (c.heap.pop?.map (·.1.time), c)

/-- The next event; the clock moves to its instant. -/
def pop (c : Calendar ε) : Option (Entry ε × Calendar ε) :=
  let c := c.settled
  c.heap.pop?.map (fun (e, rest) => (e, { c with heap := rest, live := c.live.erase e.id, now := e.time }))

end Calendar
end Sidelink
