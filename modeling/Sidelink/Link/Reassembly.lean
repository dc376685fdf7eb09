import Sidelink.Link.Segment

/-!
The receiving end of a connection: segments are collected by sequence number until they make up their unit. A
receiver keeps track of the sequence numbers from its lower edge on, as many as its window has; a number beyond
the window moves the edge, and whatever the edge passes is given up. Numbers below the edge, and numbers whose
unit was handed out, are dropped. When its connection changes path, a receiver is replaced by a new one that takes
its state over (`Receiver.reconcile`).
-/
namespace Sidelink

/-- The largest sequence number, and the largest offset in a unit. -/
def lastWord : Nat := 4294967295

/-! ## Units in parts -/

/-- The segments of one unit by offset, and its length once its last segment is here. -/
structure Partial where
  segments : SortedMap Nat Bytes
  total : Option Nat
  deriving Inhabited

namespace Partial

def empty : Partial := ⟨.empty, none⟩

/-- Adds a segment; none, if there is one at its offset. -/
def insert? (p : Partial) (offset : Nat) (data : Bytes) (last : Bool) : Option Partial :=
  if p.segments.contains offset then none
  else
    some {
      segments := p.segments.insert offset data
      total := if last then some (offset + data.length) else p.total }

/-- How far segments in order of offset reach without a gap, if they reach as far as `covered`. -/
def coverage (covered : Nat) : List (Nat × Bytes) → Option Nat
  | [] => some covered
  | (offset, data) :: rest =>
    if covered < offset then none else coverage (max covered (offset + data.length)) rest

/-- Whether the segments cover the unit without a gap. -/
def isComplete (p : Partial) : Bool :=
  match p.total, coverage 0 p.segments.entries with
  | some total, some covered => total ≤ covered
  | _, _ => false

/-- The data of segments in order of offset, each from where the ones before it end. -/
def join (cursor : Nat) : List (Nat × Bytes) → Bytes
  | [] => []
  | (offset, data) :: rest =>
    let finish := offset + data.length
    if finish ≤ cursor then join cursor rest else data.drop (cursor - offset) ++ join finish rest

/-- The unit that the segments make up. -/
def assemble (p : Partial) : Bytes := join 0 p.segments.entries

/-- Adds the segments of another part of the same unit; where both have one at an offset, the first stays. -/
def merge (p q : Partial) : Partial where
  segments := q.segments.entries.foldl (fun m e => if m.contains e.1 then m else m.insert e.1 e.2) p.segments
  total := p.total.or q.total

end Partial

/-! ## Receivers -/

/-- What became of the data units that a receiver was given. -/
structure ReceiveCounters where
  received : Nat
  delivered : Nat
  /-- Data units that were late, or that repeated others. -/
  dropped : Nat
  /-- Units given up before they were complete. -/
  abandoned : Nat
  deriving DecidableEq, Inhabited

def ReceiveCounters.add (a b : ReceiveCounters) : ReceiveCounters :=
  ⟨a.received + b.received, a.delivered + b.delivered, a.dropped + b.dropped, a.abandoned + b.abandoned⟩

/-- What a receiver knows. -/
structure ReceiveState where
  /-- The lower edge: everything below it is done with. -/
  edge : Nat
  pending : SortedMap Nat Partial
  /-- The numbers from the edge on whose unit was handed out. -/
  delivered : SortedSet Nat
  counters : ReceiveCounters
  deriving Inhabited

namespace ReceiveState

def new : ReceiveState := ⟨0, .empty, .empty, ⟨0, 0, 0, 0⟩⟩

/-- The edge after all numbers that follow on it without a gap, among numbers in increasing order. The edge never
passes the largest number. -/
def climb (edge : Nat) : List Nat → Nat
  | [] => edge
  | sn :: rest =>
    if sn < edge then climb edge rest
    else if sn = edge && edge < lastWord then climb (edge + 1) rest
    else edge

/-- Moves the edge over the numbers that were handed out, and forgets the numbers below it. -/
def advance (s : ReceiveState) : ReceiveState :=
  let edge := climb s.edge s.delivered.keys
  { s with edge, delivered := s.delivered.filter (fun sn _ => edge ≤ sn) }

/-- Hands out the unit of a number, as it stands. -/
def complete (s : ReceiveState) (sn : Nat) : Option (Bytes × ReceiveState) :=
  (s.pending.get? sn).map fun p =>
    (p.assemble,
      advance
        { s with
          pending := s.pending.erase sn
          delivered := s.delivered.add sn
          counters := { s.counters with delivered := s.counters.delivered + 1 } })

/-- Moves the edge to a number, and gives up the units below it. -/
def slide (s : ReceiveState) (edge : Nat) : ReceiveState :=
  let behind := s.pending.filter (fun sn _ => sn < edge)
  advance
    { s with
      edge
      pending := s.pending.filter (fun sn _ => edge ≤ sn)
      counters := { s.counters with abandoned := s.counters.abandoned + behind.size } }

def drop (s : ReceiveState) : ReceiveState :=
  { s with counters := { s.counters with dropped := s.counters.dropped + 1 } }

/-- Takes in a segment, and hands out the unit that it completes. -/
def accept (s : ReceiveState) (window : Nat) (header : SegmentHeader) (data : Bytes) : Option Bytes × ReceiveState :=
  let s := { s with counters := { s.counters with received := s.counters.received + 1 } }
  let sn := header.sn.toNat
  if sn < s.edge || s.delivered.contains sn then (none, s.drop)
  else
    let s := if min (s.edge + window) lastWord ≤ sn then s.slide (sn - (window - 1)) else s
    match ((s.pending.get? sn).getD .empty).insert? header.offset.toNat data header.flags.last with
    | none => (none, s.drop)
    | some p =>
      let s := { s with pending := s.pending.insert sn p }
      if p.isComplete then
        match s.complete sn with
        | some (sdu, s) => (some sdu, s)
        | none => (none, s)
      else (none, s)

/-- Gives up all units that are not complete. -/
def clear (s : ReceiveState) : ReceiveState :=
  { s with
    pending := .empty
    counters := { s.counters with abandoned := s.counters.abandoned + s.pending.size } }

/-- Hands out the units of some numbers, in their order. -/
def completeAll (s : ReceiveState) : List Nat → List Bytes × ReceiveState
  | [] => ([], s)
  | sn :: rest =>
    match s.complete sn with
    | some (sdu, s) =>
      let (sdus, s) := completeAll s rest
      (sdu :: sdus, s)
    | none => completeAll s rest

/-- Adds the parts that another state has of units not done with. -/
def absorb (s : ReceiveState) (pending : List (Nat × Partial)) : ReceiveState :=
  { s with
    pending := pending.foldl
      (fun m (sn, p) =>
        if sn < s.edge || s.delivered.contains sn then m
        else m.insert sn (((m.get? sn).getD .empty).merge p))
      s.pending }

/-- Takes over the state of another receiver, and hands out the units that both together complete, in order of
their numbers. -/
def reconcile (s prior : ReceiveState) : List Bytes × ReceiveState :=
  let s : ReceiveState :=
    { edge := max s.edge prior.edge
      pending := s.pending
      delivered := prior.delivered.keys.foldl SortedMap.add s.delivered
      counters := s.counters.add prior.counters }
  let s := (s.absorb prior.pending.entries).advance
  s.completeAll (s.pending.filter (fun _ p => p.isComplete)).keys

end ReceiveState

/-- The receiving end of a connection. -/
structure Receiver where
  key : EntityKey
  path : Path
  window : Nat
  state : ReceiveState
  deriving Inhabited

namespace Receiver

def new (key : EntityKey) (path : Path) (window : Nat) : Receiver := ⟨key, path, window, .new⟩

/-- Takes in a data unit, and hands out the unit that it completes. A data unit that cannot be read, or that ends
beyond the largest offset, changes nothing. -/
def receive (r : Receiver) (pdu : Bytes) : Except MalformedPdu (Option Bytes × Receiver) := do
  let (header, data) ← SegmentHeader.parse pdu
  if lastWord < header.offset.toNat + data.length then
    throw (.outOfRange header.offset.toNat data.length)
  let (sdu, state) := r.state.accept r.window header data
  return (sdu, { r with state })

/-- The state that a replacement takes over, without the incomplete units if they are to be given up. -/
def handOver (r : Receiver) (clear : Bool) : ReceiveState :=
  if clear then r.state.clear else r.state

/-- Takes over the state of the receiver that this one replaces. -/
def reconcile (r : Receiver) (prior : ReceiveState) : List Bytes × Receiver :=
  let (sdus, state) := r.state.reconcile prior
  (sdus, { r with state })

end Receiver

/-- The receivers of a node, by the node that sends and the connection. -/
abbrev Receivers := SortedMap EntityKey Receiver

/-- The data units that the receivers of a node dropped. -/
def Receivers.drops (receivers : Receivers) : Nat :=
  receivers.values.foldr (fun r n => r.state.counters.dropped + n) 0

end Sidelink
