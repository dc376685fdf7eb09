import Sidelink.Link.Segment

/-!
The transmit buffer of a connection towards one node. It takes a service data unit only as a whole, cut into
segments where the delivery mode asks for that, and hands data units out in the order they went in. While its
connection changes path it holds: what is queued still leaves, but nothing is taken. How many segments a unit takes is
computed from a sum, and a unit for which this sum is no word of 64 bits gets no answer: there the program stops.
-/
namespace Sidelink

/-- A data unit that waits for transmission, and the nodes it is for. -/
structure QueuedPdu where
  bytes : Bytes
  recipients : List NodeId
  deriving DecidableEq, Inhabited

/-- What became of the units offered to a buffer, and of the data units it held. -/
structure TransmitCounters where
  accepted : Nat
  refused : Nat
  overflowed : Nat
  /-- The units that got no answer. -/
  uncounted : Nat
  pulled : Nat
  discarded : Nat
  deriving DecidableEq, Inhabited

structure TransmitBuffer where
  key : EntityKey
  mode : DeliveryMode
  path : Path
  capacity : Nat
  /-- How many octets of a unit go into one segment. -/
  dataSize : Nat
  queue : List QueuedPdu
  /-- Whether nothing is taken, so that the queue can drain. -/
  holding : Bool
  counters : TransmitCounters
  deriving DecidableEq, Inhabited

/-- How many segments carry `length` octets, `chunk` octets each. An empty unit takes one segment, and nothing can
be carried in segments without room. -/
def segmentCount (length chunk : Nat) : Nat :=
  if chunk = 0 then 0 else if length = 0 then 1 else (length + chunk - 1) / chunk

/-- `segmentCount` as it is computed, if the sum of the length and the size is a word. -/
def segmentCount? (length chunk : Nat) : Option Nat :=
  if chunk = 0 then some 0
  else if length = 0 then some 1
  else (LongWord.sum? length chunk).map fun sum => (sum - 1) / chunk

namespace TransmitBuffer

def new (key : EntityKey) (mode : DeliveryMode) (path : Path) (capacity maxPduSize : Nat) : TransmitBuffer where
  key := key
  mode := mode
  path := path
  capacity := capacity
  dataSize := maxPduSize - SegmentHeader.overhead mode
  queue := []
  holding := false
  counters := ⟨0, 0, 0, 0, 0, 0⟩

/-! ## Segmentation -/

/-- The last `count` segments of a unit: `rest` is the data from `offset` on. -/
def segmentsFrom (mode : DeliveryMode) (dataSize : Nat) (sn : UInt32) : Nat → Nat → Bytes → List Bytes
  | 0, _, _ => []
  | count + 1, offset, rest =>
    let flags : SegmentFlags :=
      ⟨offset = 0, count = 0, count = 0 && mode == .acknowledged⟩
    SegmentHeader.encode ⟨flags, sn, UInt32.ofNat offset⟩ (rest.take dataSize) ::
      segmentsFrom mode dataSize sn count (offset + dataSize) (rest.drop dataSize)

/-- How many data units a unit of some length takes. -/
def pduCount (b : TransmitBuffer) (length : Nat) : Nat :=
  match b.mode with
  | .transparent => 1
  | .unacknowledged | .acknowledged => segmentCount length b.dataSize

/-- `pduCount` as it is computed. -/
def pduCount? (b : TransmitBuffer) (length : Nat) : Option Nat :=
  match b.mode with
  | .transparent => some 1
  | .unacknowledged | .acknowledged => segmentCount? length b.dataSize

/-- The data units of a unit. -/
def pdus (b : TransmitBuffer) (sn : UInt32) (sdu : Bytes) : List Bytes :=
  match b.mode with
  | .transparent => [sdu]
  | .unacknowledged | .acknowledged => segmentsFrom b.mode b.dataSize sn (b.pduCount sdu.length) 0 sdu

/-! ## Operations -/

/-- Takes a unit whole, or not at all: while the buffer holds it is refused, and where its data units do not all
fit it overflows. Where their number cannot be computed there is no answer. -/
def offer (b : TransmitBuffer) (sn : UInt32) (sdu : Bytes) (recipients : List NodeId) : Option Bool × TransmitBuffer :=
  if b.holding then
    (some false, { b with counters := { b.counters with refused := b.counters.refused + 1 } })
  else
    match b.pduCount? sdu.length with
    | none => (none, { b with counters := { b.counters with uncounted := b.counters.uncounted + 1 } })
    | some count =>
      if count = 0 || b.capacity < b.queue.length + count then
        (some false, { b with counters := { b.counters with overflowed := b.counters.overflowed + 1 } })
      else
        (some true,
          { b with
            queue := b.queue ++ (b.pdus sn sdu).map (fun bytes => ⟨bytes, recipients⟩)
            counters := { b.counters with accepted := b.counters.accepted + 1 } })

/-- Hands out the first data units, at most `limit` of them. -/
def pull (b : TransmitBuffer) (limit : Nat) : List QueuedPdu × TransmitBuffer :=
  let out := b.queue.take limit
  (out,
    { b with
      queue := b.queue.drop limit
      counters := { b.counters with pulled := b.counters.pulled + out.length } })

def hold (b : TransmitBuffer) : TransmitBuffer := { b with holding := true }

def resume (b : TransmitBuffer) : TransmitBuffer := { b with holding := false }

/-- Whether the buffer holds and still has data units to hand out. -/
def isDraining (b : TransmitBuffer) : Bool := b.holding && !b.queue.isEmpty

/-- Drops all data units. -/
def discard (b : TransmitBuffer) : TransmitBuffer :=
  { b with
    queue := []
    counters := { b.counters with discarded := b.counters.discarded + b.queue.length } }

end TransmitBuffer

/-- The transmit buffers of a node, by the node at the other end and the connection. -/
abbrev TransmitBuffers := SortedMap EntityKey TransmitBuffer

end Sidelink
