import Sidelink.Directory
import Sidelink.Packet
import Sidelink.Peer.Switching

/-!
Where a packet goes. A mobile node sends everything to its serving node, a base station sends to the destination or
to the relay that serves it, and a node that reaches peers directly sends to them on their current path, to groups
by multicast, and to everybody else like a mobile node. The direction of a connection is found apart from the
route, and does not depend on the path that a peer is on.
-/
namespace Sidelink

/-- Why a packet is dropped. -/
inductive DropReason where
  | unknownDestination
  | noServingNode
  | queueFull
  deriving DecidableEq, Inhabited

namespace DropReason

def message : DropReason → String
  | .unknownDestination => "unknown destination"
  | .noServingNode => "no serving node"
  | .queueFull => "queue full"

def name : DropReason → String
  | .unknownDestination => "unknown_destination"
  | .noServingNode => "no_serving_node"
  | .queueFull => "queue_full"

def all : List DropReason := [.unknownDestination, .noServingNode, .queueFull]

end DropReason

/-- The way of a packet. -/
structure Route where
  /-- The node it is sent to; the sending node itself for a group. -/
  nextHop : NodeId
  recipients : List NodeId
  path : Path
  /-- The destination, where it is a peer that is reached directly. -/
  peer : Option NodeId
  group : Option Nat
  deriving DecidableEq, Inhabited

/-- What a node knows when it looks for a route. -/
structure RoutingView where
  node : NodeId
  directory : Directory
  switches : PathSwitches
  /-- How far a group reaches, in meters. -/
  radius : Float

/-- The nodes within a radius of a node. The node itself is left out, and so is any other at the very same place; a
node without a position reaches nobody. -/
def groupWithin (source : NodeId) (positions : SortedMap NodeId Position) (radius : Float) : List NodeId :=
  match positions.get? source with
  | none => []
  | some origin =>
    (positions.filter fun peer position =>
      let distance := origin.distance position
      peer ≠ source && 0 < distance && distance ≤ radius).keys

namespace RoutingView

/-- The node that a packet is for. -/
def destination? (v : RoutingView) (packet : Packet) : Option NodeId :=
  v.directory.resolve? packet.endpoints.address

/-- The node that traffic to a peer is sent to on a path. -/
def nextHop? (v : RoutingView) (peer : NodeId) : Path → Option NodeId
  | .direct | .multicast => some peer
  | .infrastructure => v.directory.serving? v.node

/-- The positions of all terminals that have one. -/
def positions (v : RoutingView) : SortedMap NodeId Position :=
  .ofList (v.directory.terminals.filterMap fun id => (v.directory.position? id).map fun p => (id, p))

/-- The direction of the connection of a packet. -/
def direction (v : RoutingView) (role : Role) (packet : Packet) : Direction :=
  match role with
  | .mobile => .uplink
  | .baseStation => .downlink
  | .peerDirect =>
    if packet.endpoints.isGroup then .groupcast
    else
      match v.destination? packet with
      | some destination => if v.directory.reaches v.node destination then .sidelink else .uplink
      | none => .uplink

/-- The route through the serving node, which is also the recipient of what has no known destination. -/
def servingRoute (v : RoutingView) (packet : Packet) : Except DropReason Route :=
  match v.directory.serving? v.node with
  | none => .error .noServingNode
  | some serving => .ok ⟨serving, [(v.destination? packet).getD serving], .infrastructure, none, none⟩

/-- The route from a base station. -/
def downlinkRoute (v : RoutingView) (packet : Packet) : Except DropReason Route :=
  match v.destination? packet with
  | none => .error .unknownDestination
  | some destination =>
    let nextHop := match v.directory.serving? destination with
      | some relay => if relay ≠ v.node then relay else destination
      | none => destination
    .ok ⟨nextHop, [destination], .infrastructure, none, none⟩

/-- The route from a node that reaches peers directly. -/
def sidelinkRoute (v : RoutingView) (packet : Packet) : Except DropReason Route :=
  if packet.endpoints.isGroup then
    .ok ⟨v.node, groupWithin v.node v.positions v.radius, .multicast, none, packet.endpoints.group?⟩
  else
    match v.destination? packet with
    | none => .error .unknownDestination
    | some destination =>
      if v.directory.reaches v.node destination then
        let path := v.switches.currentPath destination
        match v.nextHop? destination path with
        | none => .error .noServingNode
        | some nextHop => .ok ⟨nextHop, [destination], path, some destination, none⟩
      else v.servingRoute packet

/-- The route of a packet, or why it has none. -/
def route (v : RoutingView) (role : Role) (packet : Packet) : Except DropReason Route :=
  match role with
  | .mobile => v.servingRoute packet
  | .baseStation => v.downlinkRoute packet
  | .peerDirect => v.sidelinkRoute packet

end RoutingView
end Sidelink
