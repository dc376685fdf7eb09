import Sidelink.Blank
import Sidelink.Address
import Sidelink.Identity

/-!
Flows of a scenario: a node sends packets of one size at a fixed period to a destination, which is written as an
address, as a token or as the word for everybody. Everybody has a token of its own, the largest there is, so that
this token may also be written as a number.
-/
namespace Sidelink

/-- What the text of a destination stands for. -/
inductive Destination where
  | ip (host : Ipv4)
  | token (value : UInt32)
  | broadcast
  deriving DecidableEq, Inhabited

/-- Why a text is no destination. -/
inductive DestinationError where
  | invalid (text : String)
  | token (text : String) (cause : NumeralError)
  deriving DecidableEq

namespace DestinationError

def message : DestinationError → String
  | .invalid text => s!"Invalid flow destination: {text}"
  | .token text _ => s!"Invalid destination token: {text}"

def causes : DestinationError → List String
  | .invalid _ => []
  | .token _ cause => [cause.message]

end DestinationError

/-- Reads a destination; blanks around it do not count. -/
def Destination.read (text : String) : Except DestinationError Destination :=
  let word := Blank.strip text.toList
  let tokenMark := "token:".toList
  if word = "broadcast".toList then .ok .broadcast
  else if tokenMark.isPrefixOf word then
    match Numeral.read 4294967295 (word.drop tokenMark.length) with
    | .ok value => .ok (.token (UInt32.ofNat value))
    | .error cause => .error (.token (String.ofList word) cause)
  else
    match Ipv4.read word with
    | some host => .ok (.ip host)
    | none => .error (.invalid (String.ofList word))

/-- Packets of one size, sent by a node at a fixed period. -/
structure TrafficFlow where
  source : NodeId
  destination : String
  hint : String
  periodMs : Nat
  size : Nat
  sourcePort : UInt16
  destinationPort : UInt16
  /-- When the first packet is sent; at random within the first second, where it is absent. -/
  startMs : Option Nat
  /-- When the last packet may be sent; the end of the run, where it is absent. -/
  stopMs : Option Nat
  deriving DecidableEq, Inhabited

/-- Why a flow has no endpoints. -/
inductive FlowError where
  | destination (error : DestinationError)
  /-- A flow to an address comes from a node without one. -/
  | noAddress (node : NodeId)
  deriving DecidableEq

namespace FlowError

def message : FlowError → String
  | .destination error => error.message
  | .noAddress node => s!"Node {node.text} has no IP address for an IP flow"

def causes : FlowError → List String
  | .destination error => error.causes
  | .noAddress _ => []

end FlowError

namespace TrafficFlow

/-- The endpoints of a flow's packets, given the address of its source. -/
def endpoints (f : TrafficFlow) (address : Option Ipv4) : Except FlowError Endpoints :=
  let sourceToken := UInt32.ofNat f.source.value.toNat
  match Destination.read f.destination with
  | .error error => .error (.destination error)
  | .ok (.ip host) =>
    match address with
    | some source => .ok (.ip ⟨source, f.sourcePort⟩ ⟨host, f.destinationPort⟩)
    | none => .error (.noAddress f.source)
  | .ok (.token value) => .ok (.token sourceToken value)
  | .ok .broadcast => .ok (.token sourceToken Endpoints.broadcast)

end TrafficFlow
end Sidelink
