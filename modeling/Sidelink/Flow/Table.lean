import Std.Data.TreeMap
import Sidelink.Flow.Key
import Sidelink.Identity

/-!
The table of connections: each flow is given a connection id when its first packet is sent, ids are counted
upwards from 1 and never given twice, and each connection has a descriptor. When the ids are used up no new flow
is taken (`FlowTable.create`).
-/
namespace Sidelink

/-- What is known of a connection. -/
structure Descriptor where
  lcid : Lcid
  application : Application
  trafficClass : TrafficClass
  modeCode : UInt8
  priority : UInt8
  direction : Direction
  /-- This node, where the destination is a peer that it reaches directly. -/
  txPeer : Option NodeId
  /-- The destination, where it is a peer that this node reaches directly. -/
  rxPeer : Option NodeId
  group : Option Nat
  /-- The path that the packets take now. -/
  path : Path
  /-- The last sequence number given to a packet. -/
  lastSn : Option UInt32
  deriving DecidableEq, Inhabited

structure FlowTable where
  lcids : Std.TreeMap FlowKey Lcid FlowKey.order
  descriptors : SortedMap Lcid Descriptor
  /-- The number of the next connection id. -/
  next : Nat

namespace FlowTable

def empty : FlowTable := ⟨∅, .empty, 1⟩

instance : Inhabited FlowTable := ⟨empty⟩

def lookup? (t : FlowTable) (key : FlowKey) : Option Lcid := t.lcids.get? key

/-- The number of flows. -/
def size (t : FlowTable) : Nat := t.lcids.size

/-- Gives a flow its connection id, and tells whether it is a new one; none, if the ids are used up. -/
def lookupOrCreate (t : FlowTable) (key : FlowKey) : Option (Lcid × Bool × FlowTable) :=
  match t.lookup? key with
  | some lcid => some (lcid, false, t)
  | none =>
    if t.next < 0xFFFF then
      let lcid : Lcid := ⟨UInt16.ofNat t.next⟩
      some (lcid, true, { t with lcids := t.lcids.insert key lcid, next := t.next + 1 })
    else none

/-- Gives a flow its connection id, an old or a new one; none, if the ids are used up. -/
def create (t : FlowTable) (key : FlowKey) : Option (Lcid × FlowTable) :=
  (t.lookupOrCreate key).map fun (lcid, _, t) => (lcid, t)

def descriptor? (t : FlowTable) (lcid : Lcid) : Option Descriptor := t.descriptors.get? lcid

def setDescriptor (t : FlowTable) (d : Descriptor) : FlowTable :=
  { t with descriptors := t.descriptors.insert d.lcid d }

def modifyDescriptor (t : FlowTable) (lcid : Lcid) (f : Descriptor → Descriptor) : FlowTable :=
  { t with descriptors := t.descriptors.modify lcid f }

/-- Moves every connection towards a peer to a path. -/
def setPeerPath (t : FlowTable) (peer : NodeId) (path : Path) : FlowTable :=
  { t with descriptors := t.descriptors.mapEntries (fun _ d => if d.rxPeer = some peer then { d with path } else d) }

/-- The connections towards a peer, in order. -/
def peerLcids (t : FlowTable) (peer : NodeId) : List Lcid :=
  (t.descriptors.filter (fun _ d => d.rxPeer = some peer)).keys

/-- Forgets all flows; the ids that were given stay used up. -/
def clear (t : FlowTable) : FlowTable := { t with lcids := ∅, descriptors := .empty }

end FlowTable
end Sidelink
