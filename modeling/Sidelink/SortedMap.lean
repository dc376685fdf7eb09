/-!
Finite maps kept as a list of entries in increasing order of their keys. A key is ordered by its rank, a
natural number that no two keys share (`Ranked`). Since the list is strictly increasing, equal contents are
equal maps (`ext_get?`), and every operation is described by what it does to look-up (`get?_insert`,
`get?_erase`, `get?_filter`, `get?_mapEntries`).
-/
namespace Sidelink

/-- A type of keys that are told apart, and ordered, by a natural number. -/
class Ranked (κ : Type) where
  rank : κ → Nat
  rank_inj : ∀ {a b : κ}, rank a = rank b → a = b

export Ranked (rank)

instance : Ranked Nat := ⟨id, id⟩

/-- Two numbers below `n` in one: the one that counts most times `n`, plus the other. -/
theorem pair_inj {a b c d n : Nat} (hb : b < n) (hd : d < n) (h : a * n + b = c * n + d) : a = c ∧ b = d := by
  have hn : 0 < n := by omega
  constructor
  · have := congrArg (· / n) h
    simpa [Nat.add_comm _ b, Nat.add_comm _ d, Nat.add_mul_div_right _ _ hn, Nat.div_eq_of_lt hb,
      Nat.div_eq_of_lt hd] using this
  · have := congrArg (· % n) h
    simpa [Nat.add_comm _ b, Nat.add_comm _ d, Nat.add_mul_mod_self_right, Nat.mod_eq_of_lt hb,
      Nat.mod_eq_of_lt hd] using this

/-- A finite map, its entries in strictly increasing order of their keys. -/
structure SortedMap (κ ν : Type) [Ranked κ] where
  entries : List (κ × ν)
  sorted : entries.Pairwise (fun a b => rank a.1 < rank b.1)

/-- A finite set of keys, in increasing order. -/
abbrev SortedSet (κ : Type) [Ranked κ] := SortedMap κ Unit

namespace SortedMap
variable {κ ν μ : Type} [Ranked κ]

/-! ## Entries -/

/-- The value of the first entry of a key. -/
def lookup (k : κ) : List (κ × ν) → Option ν
  | [] => none
  | (a, v) :: rest => if rank a = rank k then some v else lookup k rest

/-- Puts an entry in its place, over an entry of the same key. -/
def place (k : κ) (v : ν) : List (κ × ν) → List (κ × ν)
  | [] => [(k, v)]
  | (a, w) :: rest =>
    if rank k < rank a then (k, v) :: (a, w) :: rest
    else if rank k = rank a then (k, v) :: rest
    else (a, w) :: place k v rest

theorem mem_place {k : κ} {v : ν} {l : List (κ × ν)} {e : κ × ν} (h : e ∈ place k v l) :
    e = (k, v) ∨ e ∈ l := by
  induction l with
  | nil => simpa [place] using h
  | cons x rest ih =>
    simp only [place] at h
    split at h
    · simpa using h
    · split at h
      · rcases List.mem_cons.1 h with h | h
        · exact Or.inl h
        · exact Or.inr (List.mem_cons_of_mem _ h)
      · rcases List.mem_cons.1 h with h | h
        · exact Or.inr (h ▸ List.mem_cons_self)
        · exact (ih h).imp_right (List.mem_cons_of_mem _)

theorem pairwise_place {k : κ} {v : ν} {l : List (κ × ν)}
    (h : l.Pairwise (fun a b => rank a.1 < rank b.1)) :
    (place k v l).Pairwise (fun a b => rank a.1 < rank b.1) := by
  induction l with
  | nil => simp [place]
  | cons x rest ih =>
    obtain ⟨below, rest_sorted⟩ := List.pairwise_cons.1 h
    simp only [place]
    split
    · rename_i lt
      refine List.pairwise_cons.2 ⟨fun e he => ?_, h⟩
      rcases List.mem_cons.1 he with rfl | he
      · exact lt
      · exact Nat.lt_trans lt (below e he)
    · split
      · rename_i eq
        exact List.pairwise_cons.2 ⟨fun e he => by have := below e he; simp only [eq]; exact this, rest_sorted⟩
      · rename_i ge ne
        refine List.pairwise_cons.2 ⟨fun e he => ?_, ih rest_sorted⟩
        rcases mem_place he with rfl | he
        · show rank x.1 < rank k
          omega
        · exact below e he

/-! ## Operations -/

def empty : SortedMap κ ν := ⟨[], List.Pairwise.nil⟩

instance : EmptyCollection (SortedMap κ ν) := ⟨empty⟩
instance : Inhabited (SortedMap κ ν) := ⟨empty⟩

/-- The value of a key. -/
def get? (m : SortedMap κ ν) (k : κ) : Option ν := lookup k m.entries

def contains (m : SortedMap κ ν) (k : κ) : Bool := (m.get? k).isSome

/-- Sets the value of a key. -/
def insert (m : SortedMap κ ν) (k : κ) (v : ν) : SortedMap κ ν :=
  ⟨place k v m.entries, pairwise_place m.sorted⟩

/-- Keeps the entries that a test accepts. -/
def filter (m : SortedMap κ ν) (keep : κ → ν → Bool) : SortedMap κ ν :=
  ⟨m.entries.filter (fun e => keep e.1 e.2), m.sorted.filter _⟩

/-- Removes a key. -/
def erase (m : SortedMap κ ν) (k : κ) : SortedMap κ ν := m.filter (fun a _ => rank a ≠ rank k)

/-- Changes every value, keys unchanged. -/
def mapEntries (m : SortedMap κ ν) (f : κ → ν → μ) : SortedMap κ μ :=
  ⟨m.entries.map (fun e => (e.1, f e.1 e.2)), List.pairwise_map.2 m.sorted⟩

/-- Changes the value of a key, if it has one. -/
def modify (m : SortedMap κ ν) (k : κ) (f : ν → ν) : SortedMap κ ν :=
  m.mapEntries (fun a v => if rank a = rank k then f v else v)

/-- The keys, in increasing order. -/
def keys (m : SortedMap κ ν) : List κ := m.entries.map (·.1)

/-- The values, in the order of their keys. -/
def values (m : SortedMap κ ν) : List ν := m.entries.map (·.2)

def size (m : SortedMap κ ν) : Nat := m.entries.length

def isEmpty (m : SortedMap κ ν) : Bool := m.entries.isEmpty

/-- The map of a list of entries; of two entries of one key the later counts. -/
def ofList (l : List (κ × ν)) : SortedMap κ ν := l.foldl (fun m e => m.insert e.1 e.2) empty

/-- Adds a key to a set. -/
def add (s : SortedSet κ) (k : κ) : SortedSet κ := s.insert k ()

/-! ## Equal look-ups -/

theorem lookup_eq_none {k : κ} {l : List (κ × ν)} (h : ∀ e ∈ l, rank k < rank e.1) : lookup k l = none := by
  induction l with
  | nil => rfl
  | cons x rest ih =>
    have := h x List.mem_cons_self
    simp only [lookup]
    rw [if_neg (by omega), ih fun e he => h e (List.mem_cons_of_mem _ he)]

theorem rank_lt_of_lookup {k : κ} {v : ν} {b : Nat} {l : List (κ × ν)} (h : ∀ e ∈ l, b < rank e.1)
    (found : lookup k l = some v) : b < rank k := by
  induction l with
  | nil => simp [lookup] at found
  | cons x rest ih =>
    simp only [lookup] at found
    split at found
    · rename_i eq
      exact eq ▸ h x List.mem_cons_self
    · exact ih (fun e he => h e (List.mem_cons_of_mem _ he)) found

theorem eq_of_lookup {l l' : List (κ × ν)} (h : l.Pairwise (fun a b => rank a.1 < rank b.1))
    (h' : l'.Pairwise (fun a b => rank a.1 < rank b.1)) (same : ∀ k, lookup k l = lookup k l') : l = l' := by
  induction l generalizing l' with
  | nil =>
    cases l' with
    | nil => rfl
    | cons y _ => simpa [lookup] using same y.1
  | cons x rest ih =>
    cases l' with
    | nil => simpa [lookup] using same x.1
    | cons y rest' =>
      obtain ⟨below, rest_sorted⟩ := List.pairwise_cons.1 h
      obtain ⟨below', rest_sorted'⟩ := List.pairwise_cons.1 h'
      have atX := same x.1
      have atY := same y.1
      have heads : rank x.1 = rank y.1 := by
        apply Decidable.byContradiction
        intro ne
        simp only [lookup, if_true, if_neg ne, if_neg (Ne.symm ne)] at atX atY
        have := rank_lt_of_lookup below atY
        have := rank_lt_of_lookup below' atX.symm
        omega
      simp only [lookup, if_true, heads] at atX
      have keys : x.1 = y.1 := Ranked.rank_inj heads
      have values : x.2 = y.2 := Option.some.inj atX
      have tails : rest = rest' := by
        refine ih rest_sorted rest_sorted' fun k => ?_
        by_cases xk : rank x.1 = rank k
        · obtain rfl := Ranked.rank_inj xk
          rw [lookup_eq_none below, lookup_eq_none (heads ▸ below')]
        · have := same k
          simp only [lookup, if_neg xk, if_neg (heads ▸ xk : ¬ rank y.1 = rank k)] at this
          exact this
      rw [tails, Prod.ext keys values]

theorem ext_get? {m m' : SortedMap κ ν} (same : ∀ k, m.get? k = m'.get? k) : m = m' := by
  obtain ⟨l, h⟩ := m
  obtain ⟨l', h'⟩ := m'
  obtain rfl : l = l' := eq_of_lookup h h' same
  rfl

/-! ## Look-up after each operation -/

theorem lookup_place {k a : κ} {v : ν} {l : List (κ × ν)}
    (h : l.Pairwise (fun a b => rank a.1 < rank b.1)) :
    lookup a (place k v l) = if rank k = rank a then some v else lookup a l := by
  induction l with
  | nil => simp [place, lookup]
  | cons x rest ih =>
    obtain ⟨_, rest_sorted⟩ := List.pairwise_cons.1 h
    simp only [place]
    split
    · simp [lookup]
    · split
      · rename_i eq
        by_cases ka : rank k = rank a
        · simp [lookup, ka]
        · simp [lookup, ka, show ¬ rank x.1 = rank a by omega]
      · rename_i ne
        by_cases xa : rank x.1 = rank a
        · simp [lookup, xa, show ¬ rank k = rank a by omega]
        · simp [lookup, xa, ih rest_sorted]

theorem lookup_filter {k : κ} {keep : κ → ν → Bool} {l : List (κ × ν)}
    (h : l.Pairwise (fun a b => rank a.1 < rank b.1)) :
    lookup k (l.filter (fun e => keep e.1 e.2)) = (lookup k l).filter (keep k) := by
  induction l with
  | nil => rfl
  | cons x rest ih =>
    obtain ⟨below, rest_sorted⟩ := List.pairwise_cons.1 h
    by_cases xk : rank x.1 = rank k
    · obtain rfl := Ranked.rank_inj xk
      by_cases kept : keep x.1 x.2
      · simp [lookup, Option.filter, kept]
      · have gone : lookup x.1 (rest.filter (fun e => keep e.1 e.2)) = none :=
          lookup_eq_none fun e he => below e (List.mem_filter.1 he).1
        simp [lookup, Option.filter, kept, gone]
    · by_cases kept : keep x.1 x.2 <;> simp [lookup, kept, xk, ih rest_sorted]

@[simp] theorem get?_empty (k : κ) : (empty : SortedMap κ ν).get? k = none := rfl

theorem get?_insert (m : SortedMap κ ν) (k a : κ) (v : ν) :
    (m.insert k v).get? a = if rank k = rank a then some v else m.get? a :=
  lookup_place m.sorted

@[simp] theorem get?_insert_self (m : SortedMap κ ν) (k : κ) (v : ν) : (m.insert k v).get? k = some v := by
  simp [get?_insert]

theorem get?_filter (m : SortedMap κ ν) (keep : κ → ν → Bool) (k : κ) :
    (m.filter keep).get? k = (m.get? k).filter (keep k) :=
  lookup_filter m.sorted

theorem get?_erase (m : SortedMap κ ν) (k a : κ) :
    (m.erase k).get? a = if rank a = rank k then none else m.get? a := by
  rw [erase, get?_filter]
  by_cases h : rank a = rank k <;> cases m.get? a <;> simp [h, Option.filter]

theorem get?_mapEntries (m : SortedMap κ ν) (f : κ → ν → μ) (k : κ) :
    (m.mapEntries f).get? k = (m.get? k).map (f k) := by
  obtain ⟨l, _⟩ := m
  simp only [get?, mapEntries]
  induction l with
  | nil => rfl
  | cons x rest ih =>
    simp only [List.map_cons, lookup]
    by_cases xk : rank x.1 = rank k
    · obtain rfl := Ranked.rank_inj xk
      simp
    · simp only [if_neg xk]
      exact ih (List.pairwise_cons.1 ‹_›).2

theorem get?_modify (m : SortedMap κ ν) (k a : κ) (f : ν → ν) :
    (m.modify k f).get? a = if rank a = rank k then (m.get? a).map f else m.get? a := by
  rw [modify, get?_mapEntries]
  by_cases h : rank a = rank k <;> cases m.get? a <;> simp [h]

end SortedMap
end Sidelink
