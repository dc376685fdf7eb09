import Sidelink.Bytes

/-!
What can go wrong inside a node. A malformed data unit has a cause of its own (`MalformedPdu`), whose description
becomes the detail of the fault; a fault is fatal if it leaves the node unable to carry traffic.
-/
namespace Sidelink

/-- A header that a data unit begins with. -/
inductive HeaderPart where
  | convergence
  | compression
  | segment
  deriving DecidableEq

def HeaderPart.name : HeaderPart → String
  | .convergence => "PDCP header"
  | .compression => "ROHC context"
  | .segment => "RLC segment header"

/-- Why a data unit cannot be read. -/
inductive MalformedPdu where
  /-- A header field does not fit into the octets left. -/
  | truncated (part : HeaderPart) (left : Nat)
  | unknownFlags (flags : UInt8)
  /-- A segment ends beyond the largest offset. -/
  | outOfRange (offset : Nat) (length : Nat)
  deriving DecidableEq

def MalformedPdu.detail : MalformedPdu → String
  | .truncated part left => s!"{part.name}: Error(Error \x7b input: {left}, code: Eof \x7d)"
  | .unknownFlags flags => s!"unknown RLC segment flags 0x{Bytes.hexOctet flags}"
  | .outOfRange offset length => s!"RLC segment at offset {offset} with {length} bytes exceeds the SDU range"

/-- A fault of a node. -/
inductive Fault where
  | malformed (detail : String)
  /-- A flow is to be sent in a delivery mode that does not exist. -/
  | unknownMode (code : UInt8) (hint : String)
  | lcidsExhausted
  | configuration (detail : String)
  | invalidState (detail : String)
  deriving DecidableEq

namespace Fault

def message : Fault → String
  | .malformed detail => s!"Invalid protocol data unit: {detail}"
  | .unknownMode code hint => s!"Unknown delivery mode {code} configured for '{hint}'"
  | .lcidsExhausted => "LCID space exhausted"
  | .configuration detail => s!"Configuration error: {detail}"
  | .invalidState detail => s!"Invalid state: {detail}"

/-- Whether a fault leaves the node unable to carry traffic. -/
def isFatal : Fault → Bool
  | .unknownMode _ _ | .lcidsExhausted | .configuration _ => true
  | .malformed _ | .invalidState _ => false

end Fault
end Sidelink
