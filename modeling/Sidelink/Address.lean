import Sidelink.Decimal.Unsigned
import Sidelink.SortedMap

/-!
Addresses of hosts and the endpoints of packets. A host has an IPv4 address, written as four decimal octets
without leading zeros; a packet runs between two sockets, or between two opaque tokens where the application does
not use IP. A multicast address (224.0.0.0/4) stands for a group of nodes, and so does the broadcast token.
-/
namespace Sidelink

/-- An IPv4 address. -/
structure Ipv4 where
  bits : UInt32
  deriving DecidableEq, Inhabited

namespace Ipv4

def ofOctets (a b c d : Nat) : Ipv4 := ⟨UInt32.ofNat (((a * 256 + b) * 256 + c) * 256 + d)⟩

/-- The four octets, most significant first. -/
def octets (ip : Ipv4) : List Nat :=
  let n := ip.bits.toNat
  [n / 16777216, n / 65536 % 256, n / 256 % 256, n % 256]

def text (ip : Ipv4) : String := ".".intercalate (ip.octets.map toString)

/-- Whether an address lies in 224.0.0.0/4. -/
def isMulticast (ip : Ipv4) : Bool := ip.bits.toNat / 268435456 == 14

/-- The group of a multicast address: its last 28 bits. -/
def group? (ip : Ipv4) : Option Nat := if ip.isMulticast then some (ip.bits.toNat % 268435456) else none

instance : Ranked Ipv4 where
  rank ip := ip.bits.toNat
  rank_inj {a b} h := by
    obtain ⟨a⟩ := a
    obtain ⟨b⟩ := b
    exact congrArg Ipv4.mk (UInt32.toNat_inj.1 h)

/-! ## Reading -/

/-- One octet: one to three digits, no leading zero, at most 255. -/
def readOctet (cs : List Char) : Option Nat :=
  match cs with
  | [] => none
  | '0' :: _ :: _ => none
  | cs => if cs.length ≤ 3 then (Numeral.scan 255 0 cs).toOption else none

/-- The parts of a text between its dots. -/
def parts : List Char → List (List Char)
  | [] => [[]]
  | '.' :: rest => [] :: parts rest
  | c :: rest =>
    match parts rest with
    | [] => [[c]]
    | p :: ps => (c :: p) :: ps

/-- Reads exactly what `text` writes. -/
def read (cs : List Char) : Option Ipv4 :=
  match parts cs with
  | [a, b, c, d] => do return ofOctets (← readOctet a) (← readOctet b) (← readOctet c) (← readOctet d)
  | _ => none

end Ipv4

/-- A port of a host. -/
structure Socket where
  host : Ipv4
  port : UInt16
  deriving DecidableEq, Inhabited

def Socket.text (s : Socket) : String := s!"{s.host.text}:{s.port}"

/-- What a node may be found by. -/
inductive Address where
  | ip (host : Ipv4)
  | token (value : UInt32)
  deriving DecidableEq

/-- Source and destination of a packet. -/
inductive Endpoints where
  | ip (source destination : Socket)
  | token (source destination : UInt32)
  deriving DecidableEq, Inhabited

namespace Endpoints

/-- The destination token that reaches everybody. -/
def broadcast : UInt32 := 0xFFFFFFFF

/-- Whether the destination is a group of nodes. -/
def isGroup : Endpoints → Bool
  | .ip _ destination => destination.host.isMulticast
  | .token _ destination => destination == broadcast

/-- The destination, as what it may be found by. -/
def address : Endpoints → Address
  | .ip _ destination => .ip destination.host
  | .token _ destination => .token destination

/-- The multicast group of the destination, where it has an address of one. -/
def group? : Endpoints → Option Nat
  | .ip _ destination => destination.host.group?
  | .token _ _ => none

end Endpoints
end Sidelink
