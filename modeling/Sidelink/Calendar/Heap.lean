import Sidelink.Identity
import Sidelink.Time

/-!
Leftist heaps of timed entries. The entry that is due first stands at the root (`Entry.due`: earlier instants
first, and of one instant the entry that was numbered first); merging two heaps only walks their right spines.
-/
namespace Sidelink.Calendar

/-- An event with the instant it is due at and its number. -/
structure Entry (ε : Type) where
  time : SimTime
  id : EventId
  event : ε
  deriving Inhabited

variable {ε : Type}

/-- Whether an entry is due no later than another. -/
def Entry.due (a b : Entry ε) : Bool := a.time < b.time || (a.time == b.time && a.id ≤ b.id)

/-- A heap; each inner node has the length of its right spine. -/
inductive Heap (ε : Type) where
  | leaf
  | node (spine : Nat) (entry : Entry ε) (left right : Heap ε)
  deriving Inhabited

namespace Heap

def spine : Heap ε → Nat
  | leaf => 0
  | node s _ _ _ => s

/-- Joins an entry with two heaps below it, the one with the shorter right spine on the right. -/
def join (entry : Entry ε) (a b : Heap ε) : Heap ε :=
  if b.spine ≤ a.spine then node (b.spine + 1) entry a b else node (a.spine + 1) entry b a

/-- Merges `whole`, which consists of `entry`, `left` and a right heap, into another heap; `mergeRight` merges
that right heap. -/
def mergeInto (entry : Entry ε) (left : Heap ε) (mergeRight : Heap ε → Heap ε) (whole : Heap ε) : Heap ε → Heap ε
  | leaf => whole
  | node s e l r =>
    if entry.due e then join entry left (mergeRight (node s e l r))
    else join e l (mergeInto entry left mergeRight whole r)

def merge : Heap ε → Heap ε → Heap ε
  | leaf => id
  | node s e l r => mergeInto e l (merge r) (node s e l r)

def insert (h : Heap ε) (entry : Entry ε) : Heap ε := merge (node 1 entry leaf leaf) h

/-- The entry that is due first, and the heap without it. -/
def pop? : Heap ε → Option (Entry ε × Heap ε)
  | leaf => none
  | node _ e l r => some (e, merge l r)

/-- All entries, in no particular order. -/
def toList : Heap ε → List (Entry ε)
  | leaf => []
  | node _ e l r => e :: (toList l ++ toList r)

def size : Heap ε → Nat
  | leaf => 0
  | node _ _ l r => size l + size r + 1

end Heap
end Sidelink.Calendar
