import Sidelink.Peer.Switching

/-!
Sorted maps, sets and links as their users see them: by membership. An entry is in the list of a map exactly when
look-up finds it (`get?_eq_some_iff`), a map is what its own entries insert into an empty map (`insertAll_entries`),
and the keys of a peer are the keys that a link joins it with (`PeerLinks.mem_keys_iff`).
-/
namespace Sidelink

namespace SortedMap
variable {κ ν μ : Type} [Ranked κ]

/-! ## Entries and look-up -/

theorem lookup_eq_some_iff {l : List (κ × ν)} (sorted : l.Pairwise (fun a b => rank a.1 < rank b.1)) (k : κ) (v : ν) :
    lookup k l = some v ↔ (k, v) ∈ l := by
  induction l with
  | nil => simp [lookup]
  | cons x rest ih =>
    obtain ⟨a, w⟩ := x
    obtain ⟨below, rest_sorted⟩ := List.pairwise_cons.1 sorted
    simp only [lookup]
    by_cases same : rank a = rank k
    · obtain rfl := Ranked.rank_inj same
      rw [if_pos rfl]
      constructor
      · intro found
        obtain rfl := Option.some.inj found
        exact List.mem_cons_self
      · intro member
        rcases List.mem_cons.1 member with head | later
        · rw [(Prod.mk.inj head).2]
        · exact absurd (below _ later) (Nat.lt_irrefl _)
    · rw [if_neg same, ih rest_sorted]
      constructor
      · exact List.mem_cons_of_mem _
      · intro member
        rcases List.mem_cons.1 member with head | later
        · exact absurd (congrArg rank (Prod.mk.inj head).1.symm) same
        · exact later

theorem get?_eq_some_iff (m : SortedMap κ ν) (k : κ) (v : ν) : m.get? k = some v ↔ (k, v) ∈ m.entries :=
  lookup_eq_some_iff m.sorted k v

theorem contains_eq_true_iff (m : SortedMap κ ν) (k : κ) : m.contains k = true ↔ ∃ v, m.get? k = some v := by
  simp [contains, Option.isSome_iff_exists]

theorem contains_eq_false_iff (m : SortedMap κ ν) (k : κ) : m.contains k = false ↔ m.get? k = none := by
  simp [contains]

theorem mem_keys_iff (m : SortedMap κ ν) (k : κ) : k ∈ m.keys ↔ m.contains k = true := by
  rw [contains_eq_true_iff]
  simp only [get?_eq_some_iff, keys, List.mem_map]
  constructor
  · rintro ⟨⟨a, v⟩, member, rfl⟩
    exact ⟨v, member⟩
  · rintro ⟨v, member⟩
    exact ⟨(k, v), member, rfl⟩

theorem sorted_keys (m : SortedMap κ ν) : m.keys.Pairwise (fun a b => rank a < rank b) :=
  List.pairwise_map.2 m.sorted

theorem nodup_keys (m : SortedMap κ ν) : m.keys.Nodup :=
  m.sorted_keys.imp fun {a b} less same => by
    rw [same] at less
    exact Nat.lt_irrefl _ less

/-- A key above all others comes last. -/
theorem entries_insert_of_greater (m : SortedMap κ ν) {k : κ} (v : ν) (greater : ∀ e ∈ m.entries, rank e.1 < rank k) :
    (m.insert k v).entries = m.entries ++ [(k, v)] := by
  show place k v m.entries = _
  generalize m.entries = l at greater
  induction l with
  | nil => rfl
  | cons x rest ih =>
    have below := greater x List.mem_cons_self
    rw [place, if_neg (by omega), if_neg (by omega), ih fun e member => greater e (List.mem_cons_of_mem _ member),
      List.cons_append]

/-! ## Look-up by equality of keys -/

theorem get?_insert_of_ne (m : SortedMap κ ν) {k a : κ} (other : a ≠ k) (v : ν) :
    (m.insert k v).get? a = m.get? a := by
  rw [get?_insert, if_neg fun same => other (Ranked.rank_inj same).symm]

theorem get?_erase_self (m : SortedMap κ ν) (k : κ) : (m.erase k).get? k = none := by
  rw [get?_erase, if_pos rfl]

theorem get?_erase_of_ne (m : SortedMap κ ν) {k a : κ} (other : a ≠ k) : (m.erase k).get? a = m.get? a := by
  rw [get?_erase, if_neg fun same => other (Ranked.rank_inj same)]

theorem get?_insert_eq_ite [DecidableEq κ] (m : SortedMap κ ν) (k a : κ) (v : ν) :
    (m.insert k v).get? a = if a = k then some v else m.get? a := by
  split
  · rename_i same
    rw [same, get?_insert_self]
  · rename_i other
    exact get?_insert_of_ne m other v

theorem get?_erase_eq_ite [DecidableEq κ] (m : SortedMap κ ν) (k a : κ) :
    (m.erase k).get? a = if a = k then none else m.get? a := by
  split
  · rename_i same
    rw [same, get?_erase_self]
  · rename_i other
    exact get?_erase_of_ne m other

theorem erase_of_get?_eq_none {m : SortedMap κ ν} {k : κ} (missing : m.get? k = none) : m.erase k = m := by
  apply ext_get?
  intro a
  by_cases same : a = k
  · rw [same, get?_erase_self, missing]
  · exact get?_erase_of_ne m same

theorem get?_filter_eq_some_iff (m : SortedMap κ ν) (keep : κ → ν → Bool) (k : κ) (v : ν) :
    (m.filter keep).get? k = some v ↔ m.get? k = some v ∧ keep k v = true := by
  rw [get?_filter]
  cases m.get? k with
  | none => simp
  | some w => simp only [Option.filter_some, Option.ite_none_right_eq_some, Option.some.injEq]; grind

/-- Changing the values of a map with an entry changes the value of the entry. -/
theorem mapEntries_insert (m : SortedMap κ ν) (k : κ) (v : ν) (f : κ → ν → μ) :
    (m.insert k v).mapEntries f = (m.mapEntries f).insert k (f k v) := by
  apply ext_get?
  intro a
  by_cases same : a = k
  · rw [same, get?_insert_self, get?_mapEntries, get?_insert_self]
    rfl
  · rw [get?_insert_of_ne _ same, get?_mapEntries, get?_mapEntries, get?_insert_of_ne _ same]

@[simp] theorem contains_empty (k : κ) : (empty : SortedMap κ ν).contains k = false := rfl

theorem contains_insert (m : SortedMap κ ν) (k a : κ) (v : ν) :
    (m.insert k v).contains a = true ↔ a = k ∨ m.contains a = true := by
  by_cases same : a = k
  · simp [same, contains]
  · simp [contains, get?_insert_of_ne m same, same]

theorem contains_add (s : SortedSet κ) (k a : κ) : (s.add k).contains a = true ↔ a = k ∨ s.contains a = true :=
  contains_insert s k a ()

theorem contains_filter_keys (s : SortedSet κ) (keep : κ → Bool) (k : κ) :
    (s.filter (fun a _ => keep a)).contains k = true ↔ s.contains k = true ∧ keep k = true := by
  simp only [contains_eq_true_iff, get?_filter_eq_some_iff]
  constructor
  · rintro ⟨u, found, kept⟩
    exact ⟨⟨u, found⟩, kept⟩
  · rintro ⟨⟨u, found⟩, kept⟩
    exact ⟨u, found, kept⟩

/-! ## Maps from their entries -/

/-- Inserts entries one after the other. -/
def insertAll (m : SortedMap κ ν) (entries : List (κ × ν)) : SortedMap κ ν :=
  entries.foldl (fun m e => m.insert e.1 e.2) m

theorem get?_insertAll (m : SortedMap κ ν) {l : List (κ × ν)}
    (sorted : l.Pairwise (fun a b => rank a.1 < rank b.1)) (k : κ) :
    (m.insertAll l).get? k = (lookup k l).or (m.get? k) := by
  induction l generalizing m with
  | nil => rfl
  | cons x rest ih =>
    obtain ⟨below, rest_sorted⟩ := List.pairwise_cons.1 sorted
    show ((m.insert x.1 x.2).insertAll rest).get? k = _
    rw [ih (m.insert x.1 x.2) rest_sorted, get?_insert]
    simp only [lookup]
    by_cases same : rank x.1 = rank k
    · rw [if_pos same, if_pos same, lookup_eq_none (same ▸ below)]
      rfl
    · rw [if_neg same, if_neg same]

/-- A map is what its entries make of an empty map. -/
theorem insertAll_entries (m : SortedMap κ ν) : (empty : SortedMap κ ν).insertAll m.entries = m := by
  apply ext_get?
  intro k
  rw [get?_insertAll _ m.sorted, get?_empty, Option.or_none]
  rfl

/-- Steps that insert an entry wherever its key has no value yet make the same of distinct keys as insertion does. -/
theorem foldl_eq_insertAll {step : SortedMap κ ν → κ × ν → SortedMap κ ν} {l : List (κ × ν)}
    (sorted : l.Pairwise (fun a b => rank a.1 < rank b.1)) (m : SortedMap κ ν)
    (apart : ∀ e ∈ l, m.contains e.1 = false)
    (agrees : ∀ e ∈ l, ∀ m, m.contains e.1 = false → step m e = m.insert e.1 e.2) :
    l.foldl step m = m.insertAll l := by
  induction l generalizing m with
  | nil => rfl
  | cons x rest ih =>
    obtain ⟨below, rest_sorted⟩ := List.pairwise_cons.1 sorted
    rw [List.foldl_cons, agrees x List.mem_cons_self m (apart x List.mem_cons_self)]
    refine ih rest_sorted _ ?_ fun e member => agrees e (List.mem_cons_of_mem _ member)
    intro e member
    have later := below e member
    rw [contains_eq_false_iff, get?_insert, if_neg (by omega)]
    exact (contains_eq_false_iff _ _).1 (apart e (List.mem_cons_of_mem _ member))

/-- A set is what its members make of an empty set. -/
theorem foldl_add_keys (s : SortedSet κ) : s.keys.foldl add empty = s := by
  have members : s.keys.foldl add empty = (empty : SortedSet κ).insertAll s.entries := by
    simp only [keys, List.foldl_map, insertAll]
    rfl
  rw [members, insertAll_entries]

end SortedMap

/-! ## Links -/

namespace PeerLinks

/-- Whether a link joins a peer and a buffer. -/
def Joins (l : PeerLinks) (peer : NodeId) (key : EntityKey) : Prop := l.links.contains (peer, key) = true

theorem mem_keys_iff (l : PeerLinks) (peer : NodeId) (key : EntityKey) : key ∈ l.keys peer ↔ l.Joins peer key := by
  simp only [keys, List.mem_map, List.mem_filter, SortedMap.mem_keys_iff, Joins]
  constructor
  · rintro ⟨⟨q, k⟩, ⟨linked, same⟩, rfl⟩
    obtain rfl : q = peer := by simpa using same
    exact linked
  · intro linked
    exact ⟨(peer, key), ⟨linked, by simp⟩, rfl⟩

theorem nodup_keys (l : PeerLinks) (peer : NodeId) : (l.keys peer).Nodup := by
  have sorted := l.links.sorted_keys.filter (fun link : NodeId × EntityKey => link.1 = peer)
  refine List.pairwise_map.2 (sorted.imp_of_mem fun {a b} first second less same => ?_)
  have one : a.1 = peer := of_decide_eq_true (List.mem_filter.1 first).2
  have other : b.1 = peer := of_decide_eq_true (List.mem_filter.1 second).2
  rw [Prod.ext (one.trans other.symm) same] at less
  exact Nat.lt_irrefl _ less

theorem joins_add (l : PeerLinks) (peer q : NodeId) (key k : EntityKey) :
    (l.add peer key).Joins q k ↔ (q = peer ∧ k = key) ∨ l.Joins q k := by
  simp [add, Joins, SortedMap.contains_add]

theorem joins_retain (l : PeerLinks) (keep : EntityKey → Bool) (q : NodeId) (k : EntityKey) :
    (l.retain keep).Joins q k ↔ l.Joins q k ∧ keep k = true := by
  simp only [retain, Joins]
  exact SortedMap.contains_filter_keys l.links (fun link => keep link.2) (q, k)

@[simp] theorem not_joins_empty (q : NodeId) (k : EntityKey) : ¬ empty.Joins q k := by
  simp [empty, Joins]

end PeerLinks

/-! ## Buffers of some keys -/

namespace TransmitBuffers

theorem get?_onKeys (buffers : TransmitBuffers) (keys : List EntityKey) (f : TransmitBuffer → TransmitBuffer)
    (k : EntityKey) :
    (onKeys buffers keys f).get? k = (buffers.get? k).map fun b => if k ∈ keys then f b else b :=
  SortedMap.get?_mapEntries buffers _ k

theorem anyDraining_eq_true_iff (buffers : TransmitBuffers) (keys : List EntityKey) :
    anyDraining buffers keys = true ↔ ∃ k ∈ keys, ∃ b, buffers.get? k = some b ∧ b.isDraining = true := by
  simp [anyDraining, Option.any_eq_true]

end TransmitBuffers
end Sidelink
