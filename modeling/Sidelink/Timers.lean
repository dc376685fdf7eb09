import Sidelink.Identity
import Sidelink.Time

/-!
Drain checks: a node that waits for its queues towards a peer to drain asks to be called back. The node sees a
clock and the number that the next request gets (`Timers`), and leaves behind the requests it made, in order;
whoever keeps the time carries them out. `TimerLog` keeps them without ever calling back by itself.
-/
namespace Sidelink

/-- What a node asks of the timekeeper. -/
inductive TimerRequest where
  /-- Call back about a peer at an instant, under a number. -/
  | start (id : EventId) (time : SimTime) (peer : NodeId)
  | cancel (id : EventId)
  deriving DecidableEq

/-- The clock as a node sees it while it handles one input, and the requests it has made so far. -/
structure Timers where
  now : SimTime
  nextId : EventId
  requests : List TimerRequest
  deriving Inhabited

namespace Timers

def start (t : Timers) (time : SimTime) (peer : NodeId) : EventId × Timers :=
  (t.nextId, { t with nextId := t.nextId + 1, requests := t.requests ++ [.start t.nextId time peer] })

def cancel (t : Timers) (id : EventId) : Timers := { t with requests := t.requests ++ [.cancel id] }

end Timers

/-- A drain check that was asked for. -/
structure ScheduledCheck where
  id : EventId
  time : SimTime
  peer : NodeId
  deriving DecidableEq

/-- All drain checks that were asked for, cancelled and fired. -/
structure TimerLog where
  now : SimTime
  nextId : EventId
  scheduled : List ScheduledCheck
  cancelled : List EventId
  fired : List EventId
  deriving Inhabited

namespace TimerLog

def empty : TimerLog := ⟨0, 0, [], [], []⟩

def timers (log : TimerLog) : Timers := ⟨log.now, log.nextId, []⟩

/-- Carries out one request. Only a check that was asked for, and that neither fired nor was cancelled before, can
be cancelled. -/
def carryOut (log : TimerLog) : TimerRequest → TimerLog
  | .start id time peer => { log with nextId := id + 1, scheduled := log.scheduled ++ [⟨id, time, peer⟩] }
  | .cancel id =>
    if log.scheduled.any (·.id == id) && !log.fired.contains id && !log.cancelled.contains id then
      { log with cancelled := log.cancelled ++ [id] }
    else log

/-- Carries out the requests of a node. -/
def commit (log : TimerLog) (t : Timers) : TimerLog := t.requests.foldl carryOut log

/-- Lets a check fire, whatever became of it before, and moves the clock to its instant, never back. -/
def fire? (log : TimerLog) (id : EventId) : Option (NodeId × TimerLog) :=
  (log.scheduled.find? (·.id == id)).map fun check =>
    (check.peer, { log with now := max log.now check.time, fired := log.fired ++ [id] })

end TimerLog
end Sidelink
