/-!
How traffic is told apart: the direction of a connection, the path its packets take, its delivery mode on the
radio link, and the class and kind of application it serves. Each comes with the name that reports and
configurations use.
-/
namespace Sidelink

/-- The direction of a connection. -/
inductive Direction where
  /-- From a mobile node to its serving node. -/
  | uplink
  /-- From a serving node to a mobile node. -/
  | downlink
  /-- Between two nodes that reach each other. -/
  | sidelink
  /-- From a node to all others in its reach. -/
  | groupcast
  deriving DecidableEq, Inhabited

namespace Direction

/-- The label of a direction in the description of a flow. -/
def label : Direction → String
  | .uplink => "Uplink"
  | .downlink => "Downlink"
  | .sidelink => "D2d"
  | .groupcast => "D2dMulti"

def name : Direction → String
  | .uplink => "uplink"
  | .downlink => "downlink"
  | .sidelink => "d2d"
  | .groupcast => "d2d_multi"

def all : List Direction := [.uplink, .downlink, .sidelink, .groupcast]

end Direction

/-- The path a packet takes to its destination. -/
inductive Path where
  /-- Through the serving node. -/
  | infrastructure
  /-- Straight to the peer. -/
  | direct
  /-- To every node in reach at once. -/
  | multicast
  deriving DecidableEq, Inhabited

namespace Path

def name : Path → String
  | .infrastructure => "infrastructure"
  | .direct => "direct"
  | .multicast => "multicast"

def all : List Path := [.infrastructure, .direct, .multicast]

end Path

/-- The delivery mode of a connection on the radio link. -/
inductive DeliveryMode where
  | transparent
  | unacknowledged
  | acknowledged
  deriving DecidableEq, Inhabited

namespace DeliveryMode

/-- The code that configurations use. -/
def code : DeliveryMode → Nat
  | .transparent => 0
  | .unacknowledged => 1
  | .acknowledged => 2

def ofCode? : Nat → Option DeliveryMode
  | 0 => some .transparent
  | 1 => some .unacknowledged
  | 2 => some .acknowledged
  | _ => none

def name : DeliveryMode → String
  | .transparent => "tm"
  | .unacknowledged => "um"
  | .acknowledged => "am"

def all : List DeliveryMode := [.transparent, .unacknowledged, .acknowledged]

end DeliveryMode

/-- The class of service of a flow. -/
inductive TrafficClass where
  | conversational
  | streaming
  | interactive
  | background
  deriving DecidableEq, Inhabited

namespace TrafficClass

def name : TrafficClass → String
  | .conversational => "conversational"
  | .streaming => "streaming"
  | .interactive => "interactive"
  | .background => "background"

def all : List TrafficClass := [.conversational, .streaming, .interactive, .background]

end TrafficClass

/-- The kind of application behind a flow. -/
inductive Application where
  | voip
  | gaming
  | vod
  | cbr
  /-- Safety alerts and awareness beacons. -/
  | alert
  deriving DecidableEq, Inhabited

namespace Application

def name : Application → String
  | .voip => "voip"
  | .gaming => "gaming"
  | .vod => "vod"
  | .cbr => "cbr"
  | .alert => "alert"

def all : List Application := [.voip, .gaming, .vod, .cbr, .alert]

end Application

/-- What a node is to the network. -/
inductive Role where
  /-- Sends everything to its serving node. -/
  | mobile
  /-- Serves mobile nodes, some of them through a relay. -/
  | baseStation
  /-- Reaches peers directly. -/
  | peerDirect
  deriving DecidableEq, Inhabited

namespace Role

def name : Role → String
  | .mobile => "mobile"
  | .baseStation => "base_station"
  | .peerDirect => "peer_direct"

def all : List Role := [.mobile, .baseStation, .peerDirect]

end Role
end Sidelink
