import Sidelink.Convergence.Entity
import Sidelink.Decimal.Shortest
import Sidelink.Flow.Profile
import Sidelink.Link.Segment

/-!
The configuration of a node's data plane, its defaults, and the first fault that it may have.
-/
namespace Sidelink

structure PlaneSettings where
  profiles : ProfileTable
  compression : CompressionSettings
  link : LinkSettings
  /-- How far a group reaches, in meters. -/
  radius : Float
  /-- The time between two drain checks, in microseconds. -/
  drainInterval : Nat
  deriving BEq, Inhabited

namespace PlaneSettings

def default : PlaneSettings := ⟨.default, .default, .default, 100, 1000⟩

/-- The first fault of a configuration: compression, radio link, radius and drain checks are looked at in this
order. -/
def fault? (s : PlaneSettings) : Option Fault :=
  s.compression.fault?.or <| s.link.fault?.or <|
    if !(0 < s.radius : Bool) then
      some (.configuration s!"Group-cast cutoff radius must be positive (got {Decimal.text .positional s.radius})")
    else if s.drainInterval = 0 then some (.configuration "Drain check interval must be positive")
    else none

end PlaneSettings
end Sidelink
