import Sidelink.Link.TransmitBuffer
import Sidelink.Peer.Links
import Sidelink.Timers

/-!
Moving the traffic with a peer from one path to another. While a peer switches, its transmit buffers hold, and
units for it wait in a queue of limited length. The switch is done when no buffer has anything left to drain, or at
once where the buffers are cleared; then the buffers take units again, and those that waited are handed out to be
sent on the new path. A switch that has to wait for a buffer asks for a drain check; a later switch of the same peer
replaces the one under way and its check.
-/
namespace Sidelink

/-- A unit that waits for the switch of its peer. -/
structure DeferredSdu where
  lcid : Lcid
  sn : UInt32
  mode : DeliveryMode
  sdu : Bytes
  recipients : List NodeId
  deriving DecidableEq, Inhabited

/-- Where a peer is in its switches. -/
inductive SwitchPhase where
  /-- It never switched. -/
  | active
  /-- It switches to a path; the drain check that is scheduled, if there is one. -/
  | switching (target : Path) (check : Option EventId)
  /-- Its last switch is done. -/
  | switched
  deriving DecidableEq, Inhabited

structure PeerSwitch where
  phase : SwitchPhase
  /-- The units that wait, oldest first. -/
  deferred : List DeferredSdu
  deriving DecidableEq, Inhabited

/-- A switch that is done. -/
structure SwitchCompletion where
  peer : NodeId
  path : Path
  /-- The units that waited, oldest first. -/
  deferred : List DeferredSdu
  deriving DecidableEq, Inhabited

structure SwitchCounters where
  started : Nat
  completed : Nat
  deferred : Nat
  overflowed : Nat
  /-- Data units dropped by switches that clear the buffers. -/
  discarded : Nat
  deriving DecidableEq, Inhabited

/-- The switches of a node's peers. -/
structure PathSwitches where
  peers : SortedMap NodeId PeerSwitch
  /-- The path of each peer that completed a switch. -/
  paths : SortedMap NodeId Path
  /-- How many units may wait for one peer. -/
  capacity : Nat
  /-- The time between two drain checks, in microseconds. -/
  interval : Nat
  counters : SwitchCounters
  deriving Inhabited

/-- What a step of a switch leaves behind. -/
structure SwitchStep where
  switches : PathSwitches
  buffers : TransmitBuffers
  timers : Timers
  completion : Option SwitchCompletion
  deriving Inhabited

namespace TransmitBuffers

/-- Changes the buffers of some keys. -/
def onKeys (buffers : TransmitBuffers) (keys : List EntityKey) (f : TransmitBuffer → TransmitBuffer) :
    TransmitBuffers :=
  buffers.mapEntries (fun k b => if k ∈ keys then f b else b)

/-- How many data units the buffers of some keys hold. -/
def queuedAt (buffers : TransmitBuffers) (keys : List EntityKey) : Nat :=
  (keys.filterMap buffers.get?).foldr (fun b n => b.queue.length + n) 0

/-- Whether a buffer of some keys drains. -/
def anyDraining (buffers : TransmitBuffers) (keys : List EntityKey) : Bool :=
  keys.any (fun k => (buffers.get? k).any TransmitBuffer.isDraining)

end TransmitBuffers

namespace PathSwitches

def new (capacity interval : Nat) : PathSwitches := ⟨.empty, .empty, capacity, interval, ⟨0, 0, 0, 0, 0⟩⟩

/-! ## Views -/

/-- The path to a peer that can be reached directly. -/
def currentPath (s : PathSwitches) (peer : NodeId) : Path := (s.paths.get? peer).getD .direct

def phase (s : PathSwitches) (peer : NodeId) : SwitchPhase :=
  match s.peers.get? peer with
  | some p => p.phase
  | none => .active

/-- The units that wait for a peer. -/
def deferred (s : PathSwitches) (peer : NodeId) : List DeferredSdu :=
  match s.peers.get? peer with
  | some p => p.deferred
  | none => []

def isSwitching (s : PathSwitches) (peer : NodeId) : Bool :=
  match s.phase peer with
  | .switching _ _ => true
  | _ => false

/-- The peers that switch, in order of their ids. -/
def switchingPeers (s : PathSwitches) : List NodeId := s.peers.keys.filter s.isSwitching

/-- Whether a peer switches and one of its buffers drains. -/
def isDraining (s : PathSwitches) (links : PeerLinks) (buffers : TransmitBuffers) (peer : NodeId) : Bool :=
  s.isSwitching peer && TransmitBuffers.anyDraining buffers (links.keys peer)

/-! ## Steps -/

def setPhase (s : PathSwitches) (peer : NodeId) (phase : SwitchPhase) : PathSwitches :=
  { s with peers := s.peers.insert peer ⟨phase, s.deferred peer⟩ }

/-- Ends the switch of a peer on a path. -/
def complete (s : PathSwitches) (links : PeerLinks) (buffers : TransmitBuffers) (timers : Timers) (peer : NodeId)
    (path : Path) : SwitchStep where
  switches :=
    { s with
      peers := s.peers.insert peer ⟨.switched, []⟩
      paths := s.paths.insert peer path
      counters := { s.counters with completed := s.counters.completed + 1 } }
  buffers := TransmitBuffers.onKeys buffers (links.keys peer) TransmitBuffer.resume
  timers := timers
  completion := some ⟨peer, path, s.deferred peer⟩

/-- Ends the switch of a peer if nothing drains, and makes sure that a check is scheduled otherwise. -/
def reevaluate (s : PathSwitches) (links : PeerLinks) (buffers : TransmitBuffers) (timers : Timers)
    (peer : NodeId) : SwitchStep :=
  match s.phase peer with
  | .switching target check =>
    if TransmitBuffers.anyDraining buffers (links.keys peer) then
      match check with
      | some _ => ⟨s, buffers, timers, none⟩
      | none =>
        let (id, timers) := timers.start (timers.now.plusMicros s.interval) peer
        ⟨s.setPhase peer (.switching target (some id)), buffers, timers, none⟩
    else
      let timers := match check with
        | some id => timers.cancel id
        | none => timers
      s.complete links buffers timers peer target
  | _ => ⟨s, buffers, timers, none⟩

/-- Starts to switch a peer to a path. A check that is scheduled for an earlier switch is cancelled. -/
def start (s : PathSwitches) (links : PeerLinks) (buffers : TransmitBuffers) (timers : Timers) (peer : NodeId)
    (path : Path) (clear : Bool) : SwitchStep :=
  let timers := match s.phase peer with
    | .switching _ (some id) => timers.cancel id
    | _ => timers
  let s := { s.setPhase peer (.switching path none) with
    counters := { s.counters with started := s.counters.started + 1 } }
  let keys := links.keys peer
  let buffers := TransmitBuffers.onKeys buffers keys TransmitBuffer.hold
  if clear then
    let s := { s with
      counters := { s.counters with discarded := s.counters.discarded + TransmitBuffers.queuedAt buffers keys } }
    s.complete links (TransmitBuffers.onKeys buffers keys TransmitBuffer.discard) timers peer path
  else s.reevaluate links buffers timers peer

/-- The drain check of a peer fired. -/
def checkFired (s : PathSwitches) (links : PeerLinks) (buffers : TransmitBuffers) (timers : Timers)
    (peer : NodeId) : SwitchStep :=
  match s.phase peer with
  | .switching target _ => (s.setPhase peer (.switching target none)).reevaluate links buffers timers peer
  | _ => ⟨s, buffers, timers, none⟩

/-- Lets a unit wait for a peer, if there is room and the peer ever switched. -/
def defer (s : PathSwitches) (peer : NodeId) (sdu : DeferredSdu) : Bool × PathSwitches :=
  match s.peers.get? peer with
  | none => (false, s)
  | some p =>
    if s.capacity ≤ p.deferred.length then
      (false, { s with counters := { s.counters with overflowed := s.counters.overflowed + 1 } })
    else
      (true,
        { s with
          peers := s.peers.insert peer { p with deferred := p.deferred ++ [sdu] }
          counters := { s.counters with deferred := s.counters.deferred + 1 } })

/-- Forgets all peers. -/
def clear (s : PathSwitches) : PathSwitches := { s with peers := .empty, paths := .empty }

end PathSwitches
end Sidelink
