import Sidelink.SortedMap

/-!
The names by which nodes, connections and their queues are known: node ids, logical connection ids, and the
pair of both that keys a queue. Each is ranked, so that collections list them in increasing order.
-/
namespace Sidelink

/-- The id of a node. -/
structure NodeId where
  value : UInt16
  deriving DecidableEq, Inhabited

/-- The id of a connection at the node that opened it. -/
structure Lcid where
  value : UInt16
  deriving DecidableEq, Inhabited

/-- The key of a queue: the node at its other end, and the connection. -/
structure EntityKey where
  node : NodeId
  lcid : Lcid
  deriving DecidableEq, Inhabited

namespace NodeId

def text (n : NodeId) : String := toString n.value

instance : Ranked NodeId where
  rank n := n.value.toNat
  rank_inj {a b} h := by
    obtain ⟨a⟩ := a
    obtain ⟨b⟩ := b
    exact congrArg NodeId.mk (UInt16.toNat_inj.1 h)

theorem rank_lt (n : NodeId) : rank n < 65536 := n.value.toNat_lt

end NodeId

namespace Lcid

/-- Carries control traffic. -/
def control : Lcid := ⟨0⟩

/-- The first id that a flow gets. -/
def first : Lcid := ⟨1⟩

/-- Stands for the connection of a packet that has none. -/
def notFound : Lcid := ⟨0xFFFF⟩

def isControl (l : Lcid) : Bool := l == control

def text (l : Lcid) : String := toString l.value

instance : Ranked Lcid where
  rank l := l.value.toNat
  rank_inj {a b} h := by
    obtain ⟨a⟩ := a
    obtain ⟨b⟩ := b
    exact congrArg Lcid.mk (UInt16.toNat_inj.1 h)

theorem rank_lt (l : Lcid) : rank l < 65536 := l.value.toNat_lt

end Lcid

/-- Pairs of node ids, the first counting most. -/
instance : Ranked (NodeId × NodeId) where
  rank p := rank p.1 * 65536 + rank p.2
  rank_inj {a b} h := by
    obtain ⟨first, second⟩ := pair_inj a.2.rank_lt b.2.rank_lt h
    exact Prod.ext (Ranked.rank_inj first) (Ranked.rank_inj second)

namespace EntityKey

def text (k : EntityKey) : String := s!"node {k.node.text} lcid {k.lcid.text}"

/-- Queues are listed by node, and by connection within a node. -/
instance : Ranked EntityKey where
  rank k := rank k.node * 65536 + rank k.lcid
  rank_inj {a b} h := by
    obtain ⟨an, al⟩ := a
    obtain ⟨bn, bl⟩ := b
    obtain ⟨node, lcid⟩ := pair_inj al.rank_lt bl.rank_lt h
    exact congr (congrArg EntityKey.mk (Ranked.rank_inj node)) (Ranked.rank_inj lcid)

theorem rank_lt (k : EntityKey) : rank k < 4294967296 := by
  have := k.node.rank_lt
  have := k.lcid.rank_lt
  show rank k.node * 65536 + rank k.lcid < 4294967296
  omega

end EntityKey

/-- The handle of a scheduled event. -/
abbrev EventId := Nat

def EventId.text (id : EventId) : String := s!"#{id}"

end Sidelink
