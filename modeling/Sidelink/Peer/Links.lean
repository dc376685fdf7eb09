import Sidelink.Identity

/-!
Which transmit buffers carry the traffic towards a peer, over whatever path. A link joins a peer and the key of
such a buffer.
-/
namespace Sidelink

/-- Links are listed by peer, and by buffer within a peer. -/
instance : Ranked (NodeId × EntityKey) where
  rank l := rank l.1 * 4294967296 + rank l.2
  rank_inj {a b} h := by
    obtain ⟨peer, key⟩ := pair_inj a.2.rank_lt b.2.rank_lt h
    exact Prod.ext (Ranked.rank_inj peer) (Ranked.rank_inj key)

/-- The buffers of each peer. -/
structure PeerLinks where
  links : SortedSet (NodeId × EntityKey)
  deriving Inhabited

namespace PeerLinks

def empty : PeerLinks := ⟨.empty⟩

def add (l : PeerLinks) (peer : NodeId) (key : EntityKey) : PeerLinks := ⟨l.links.add (peer, key)⟩

/-- The buffers of a peer, in order of their keys. -/
def keys (l : PeerLinks) (peer : NodeId) : List EntityKey :=
  (l.links.keys.filter (fun link => link.1 = peer)).map (·.2)

/-- The peers that have a buffer, in order of their ids. -/
def peers (l : PeerLinks) : List NodeId := (l.links.keys.map (·.1)).eraseDups

/-- Whether a peer has a buffer. -/
def contains (l : PeerLinks) (peer : NodeId) : Bool := l.links.keys.any (fun link => link.1 = peer)

/-- Keeps the links to the buffers that a test accepts. -/
def retain (l : PeerLinks) (keep : EntityKey → Bool) : PeerLinks :=
  ⟨l.links.filter (fun link _ => keep link.2)⟩

end PeerLinks
end Sidelink
