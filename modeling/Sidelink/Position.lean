/-!
Positions in space, in meters, and the distance between two of them.
-/
namespace Sidelink

structure Position where
  x : Float
  y : Float
  z : Float
  deriving BEq, Inhabited

namespace Position

def origin : Position := ⟨0, 0, 0⟩

/-- Euclidean distance. -/
def distance (p q : Position) : Float :=
  let dx := p.x - q.x
  let dy := p.y - q.y
  let dz := p.z - q.z
  (dx * dx + dy * dy + dz * dz).sqrt

end Position
end Sidelink
