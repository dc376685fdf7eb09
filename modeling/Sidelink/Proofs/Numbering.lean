import Sidelink.Proofs.Buffers

/-!
Connections and numbers. No two flows share a connection, connection ids are never given twice, and the packets of one
connection are numbered upwards, so that a connection and a number stand for one packet at most (`Accounts`). This
holds across all that can happen at a node, its own departure included.
-/
namespace Sidelink

/-! ## Connection ids -/

namespace FlowTable

/-- Whether the connections of a table are told apart, and were given ids below the next one. -/
structure Valid (t : FlowTable) : Prop where
  next_pos : 0 < t.next
  next_le : t.next ≤ 65535
  given : ∀ {key l}, t.lookup? key = some l → 0 < rank l ∧ rank l < t.next
  apart : ∀ {key key' l}, t.lookup? key = some l → t.lookup? key' = some l → key = key'

variable {t t' : FlowTable} {key : FlowKey} {l : Lcid}

theorem valid_empty : empty.Valid where
  next_pos := Nat.one_pos
  next_le := by decide
  given := fun found => by simp [lookup?, empty] at found
  apart := fun found => by simp [lookup?, empty] at found

theorem lookup?_clear (t : FlowTable) (key : FlowKey) : t.clear.lookup? key = none := by
  simp [lookup?, clear]

/-- Only the ids that were given matter. -/
theorem Valid.congr (valid : t.Valid) (lcids : t'.lcids = t.lcids) (next : t'.next = t.next) : t'.Valid := by
  have lookup (key : FlowKey) : t'.lookup? key = t.lookup? key := by rw [lookup?, lcids, lookup?]
  refine ⟨next ▸ valid.next_pos, next ▸ valid.next_le, fun found => ?_, fun found found' => ?_⟩
  · rw [lookup] at found
    exact next ▸ valid.given found
  · rw [lookup] at found found'
    exact valid.apart found found'

theorem valid_clear (valid : t.Valid) : t.clear.Valid where
  next_pos := valid.next_pos
  next_le := valid.next_le
  given := fun found => by rw [lookup?_clear] at found; cases found
  apart := fun found => by rw [lookup?_clear] at found; cases found

/-- The table with a connection for a new flow. -/
def added (t : FlowTable) (key : FlowKey) : FlowTable :=
  { t with lcids := t.lcids.insert key ⟨UInt16.ofNat t.next⟩, next := t.next + 1 }

theorem create_cases (created : t.create key = some (l, t')) :
    t.lookup? key = some l ∧ t' = t ∨
      t.lookup? key = none ∧ t.next < 65535 ∧ l = ⟨UInt16.ofNat t.next⟩ ∧ t' = t.added key := by
  rw [create, lookupOrCreate] at created
  cases found : t.lookup? key with
  | some known =>
    rw [found] at created
    simp only [Option.map_some, Option.some.injEq, Prod.mk.injEq] at created
    obtain ⟨rfl, rfl⟩ := created
    exact Or.inl ⟨rfl, rfl⟩
  | none =>
    rw [found] at created
    simp only at created
    split at created
    · rename_i room
      simp only [Option.map_some, Option.some.injEq, Prod.mk.injEq] at created
      obtain ⟨rfl, rfl⟩ := created
      exact Or.inr ⟨rfl, room, rfl, rfl⟩
    · cases created

theorem lookup?_added (t : FlowTable) (key key' : FlowKey) :
    (t.added key).lookup? key' = if key = key' then some ⟨UInt16.ofNat t.next⟩ else t.lookup? key' := by
  simp only [lookup?, added, Std.TreeMap.get?_eq_getElem?, Std.TreeMap.getElem?_insert,
    Std.LawfulEqCmp.compare_eq_iff_eq]

theorem rank_fresh (valid : t.Valid) : rank (⟨UInt16.ofNat t.next⟩ : Lcid) = t.next := by
  have := valid.next_le
  show (UInt16.ofNat t.next).toNat = t.next
  rw [UInt16.toNat_ofNat']
  omega

theorem valid_added (valid : t.Valid) (room : t.next < 65535) (key : FlowKey) : (t.added key).Valid where
  next_pos := Nat.succ_pos _
  next_le := room
  given := fun {key' l} found => by
    rw [lookup?_added] at found
    have pos := valid.next_pos
    split at found
    · rw [← Option.some.inj found, rank_fresh valid]
      exact ⟨pos, Nat.lt_succ_self _⟩
    · obtain ⟨positive, below⟩ := valid.given found
      exact ⟨positive, Nat.lt_succ_of_lt below⟩
  apart := fun {k k' l} found found' => by
    rw [lookup?_added] at found found'
    split at found <;> split at found'
    · rename_i one two
      exact one.symm.trans two
    · have below := (valid.given found').2
      rw [← Option.some.inj found, rank_fresh valid] at below
      exact absurd below (Nat.lt_irrefl _)
    · have below := (valid.given found).2
      rw [← Option.some.inj found', rank_fresh valid] at below
      exact absurd below (Nat.lt_irrefl _)
    · exact valid.apart found found'

theorem lookup?_create (created : t.create key = some (l, t')) : t'.lookup? key = some l := by
  rcases create_cases created with ⟨found, rfl⟩ | ⟨-, -, rfl, rfl⟩
  · exact found
  · rw [lookup?_added, if_pos rfl]

theorem lookup?_mono (created : t.create key = some (l, t')) {key' : FlowKey} {l' : Lcid}
    (found : t.lookup? key' = some l') : t'.lookup? key' = some l' := by
  rcases create_cases created with ⟨-, rfl⟩ | ⟨missing, -, -, rfl⟩
  · exact found
  · rw [lookup?_added, if_neg, found]
    rintro rfl
    rw [missing] at found
    cases found

theorem valid_create (valid : t.Valid) (created : t.create key = some (l, t')) : t'.Valid := by
  rcases create_cases created with ⟨-, rfl⟩ | ⟨-, room, -, rfl⟩
  · exact valid
  · exact valid_added valid room key

theorem next_le_create (created : t.create key = some (l, t')) : t.next ≤ t'.next := by
  rcases create_cases created with ⟨-, rfl⟩ | ⟨-, -, -, rfl⟩
  · exact Nat.le_refl _
  · exact Nat.le_succ _

theorem not_control_of_lookup? (valid : t.Valid) (found : t.lookup? key = some l) : l ≠ .control := by
  rintro rfl
  exact absurd (valid.given found).1 (by decide)

end FlowTable

/-! ## Numbers -/

/-- What holds of connections and numbers at every stage of a run. -/
structure Accounts (settings : PlaneSettings) (hs : List Effect) (p : DataPlane) : Prop where
  flows : p.flows.Valid
  opened : ∀ {key l}, p.flows.lookup? key = some l → p.convergence.contains l = true
  entity : ∀ {l e}, p.convergence.get? l = some e →
    e.settings = settings.compression ∧ (l = .control ∨ rank l < p.flows.next)
  issued : ∀ {packet l sn}, (packet, l, sn) ∈ issuedOf hs → l ≠ .control ∧ rank l < p.flows.next ∧
    sn.toNat < lastWord ∧ ∀ e, p.convergence.get? l = some e → sn.toNat < e.issued
  increasing : (issuedOf hs).Pairwise fun x y => x.2.1 = y.2.1 → x.2.2 < y.2.2

theorem next?_eq_some {e e' : ConvergenceEntity} {sn : UInt32} (next : e.next? = some (sn, e')) :
    sn.toNat = e.issued ∧ sn.toNat < lastWord ∧ e' = { e with issued := e.issued + 1 } := by
  rw [ConvergenceEntity.next?] at next
  split at next
  · rename_i room
    simp only [Option.some.injEq, Prod.mk.injEq] at next
    obtain ⟨rfl, rfl⟩ := next
    have number : (UInt32.ofNat e.issued).toNat = e.issued := by
      rw [UInt32.toNat_ofNat']
      omega
    exact ⟨number, by rw [number]; exact room, rfl⟩
  · cases next

namespace Accounts
variable {settings : PlaneSettings} {hs es : List Effect} {p q : DataPlane}

theorem of_new (flows : p.flows = .empty) (none_yet : p.convergence = .empty) : Accounts settings [] p where
  flows := flows ▸ FlowTable.valid_empty
  opened := fun found => by simp [flows, FlowTable.lookup?, FlowTable.empty] at found
  entity := fun found => by simp [none_yet] at found
  issued := fun member => by cases member
  increasing := List.Pairwise.nil

/-- Whatever numbers no packet and leaves the connections as they are changes no account. -/
theorem of_same (accounts : Accounts settings hs p) (lcids : q.flows.lcids = p.flows.lcids)
    (next : q.flows.next = p.flows.next) (convergence : q.convergence = p.convergence) (nothing : issuedOf es = []) :
    Accounts settings (hs ++ es) q := by
  have lookup (key : FlowKey) : q.flows.lookup? key = p.flows.lookup? key := by
    rw [FlowTable.lookup?, lcids, FlowTable.lookup?]
  have history : issuedOf (hs ++ es) = issuedOf hs := by rw [issuedOf_append, nothing, List.append_nil]
  refine ⟨accounts.flows.congr lcids next, ?_, ?_, ?_, ?_⟩
  · intro key l found
    rw [lookup] at found
    rw [convergence]
    exact accounts.opened found
  · intro l e found
    rw [convergence] at found
    rw [next]
    exact accounts.entity found
  · intro packet l sn member
    rw [history] at member
    rw [next, convergence]
    exact accounts.issued member
  · rw [history]
    exact accounts.increasing

/-- A packet's number is above all numbers that its connection gave before. -/
theorem of_issue (accounts : Accounts settings hs p) (same : p.settings = settings) {key : FlowKey} {l : Lcid}
    {flows : FlowTable} {sn : UInt32} {entity : ConvergenceEntity} (packet : Packet)
    (created : p.flows.create key = some (l, flows))
    (numbered : ((p.convergence.get? l).getD (.new l p.settings.compression)).next? = some (sn, entity)) :
    Accounts settings (hs ++ [.issued packet l sn]) { p with flows, convergence := p.convergence.insert l entity } ∧
      ∀ packet' sn', (packet', l, sn') ∈ issuedOf hs → sn' < sn := by
  obtain ⟨number, top, rfl⟩ := next?_eq_some numbered
  have lookup := FlowTable.lookup?_create created
  have valid := FlowTable.valid_create accounts.flows created
  have onward := FlowTable.next_le_create created
  have below := (valid.given lookup).2
  have notControl := FlowTable.not_control_of_lookup? valid lookup
  -- A connection that was known before has given all its numbers below the next; a new one gave none.
  have earlier : ∀ packet' sn', (packet', l, sn') ∈ issuedOf hs → sn' < sn := by
    intro packet' sn' member
    obtain ⟨-, old, -, counted⟩ := accounts.issued member
    rcases FlowTable.create_cases created with ⟨found, rfl⟩ | ⟨-, -, rfl, rfl⟩
    · obtain ⟨e, known⟩ := (SortedMap.contains_eq_true_iff _ _).1 (accounts.opened found)
      rw [known, Option.getD_some] at number
      rw [UInt32.lt_iff_toNat_lt, number]
      exact counted e known
    · rw [FlowTable.rank_fresh accounts.flows] at old
      exact absurd old (Nat.lt_irrefl _)
  refine ⟨⟨valid, ?_, ?_, ?_, ?_⟩, earlier⟩
  · intro k l' found
    rw [SortedMap.contains_insert]
    rcases FlowTable.create_cases created with ⟨-, rfl⟩ | ⟨-, -, rfl, rfl⟩
    · exact Or.inr (accounts.opened found)
    · rw [FlowTable.lookup?_added] at found
      split at found
      · exact Or.inl (Option.some.inj found).symm
      · exact Or.inr (accounts.opened found)
  · intro l' e found
    by_cases this : l' = l
    · rw [this, SortedMap.get?_insert_self] at found
      obtain rfl := Option.some.inj found
      refine ⟨?_, Or.inr (this ▸ below)⟩
      cases known : p.convergence.get? l with
      | none => exact congrArg PlaneSettings.compression same
      | some e => exact (accounts.entity known).1
    · rw [SortedMap.get?_insert_of_ne _ this] at found
      obtain ⟨settingsIs, place⟩ := accounts.entity found
      exact ⟨settingsIs, place.imp_right fun lt => Nat.lt_of_lt_of_le lt onward⟩
  · intro packet' l' sn' member
    rw [issuedOf_append, List.mem_append] at member
    rcases member with old | new
    · obtain ⟨notControl', place, inRange, counted⟩ := accounts.issued old
      refine ⟨notControl', Nat.lt_of_lt_of_le place onward, inRange, ?_⟩
      intro e found
      by_cases this : l' = l
      · subst this
        rw [SortedMap.get?_insert_self] at found
        obtain rfl := Option.some.inj found
        have := UInt32.lt_iff_toNat_lt.1 (earlier packet' sn' old)
        show sn'.toNat < _ + 1
        omega
      · rw [SortedMap.get?_insert_of_ne _ this] at found
        exact counted e found
    · obtain ⟨rfl, rfl, rfl⟩ : packet' = packet ∧ l' = l ∧ sn' = sn := by simpa [Effect.issued?] using new
      refine ⟨notControl, below, top, ?_⟩
      intro e found
      rw [SortedMap.get?_insert_self] at found
      obtain rfl := Option.some.inj found
      show sn'.toNat < _ + 1
      omega
  · rw [issuedOf_append, List.pairwise_append]
    refine ⟨accounts.increasing, List.pairwise_singleton _ _, ?_⟩
    rintro ⟨packet', l', sn'⟩ old y new
    obtain rfl : y = (packet, l, sn) := by simpa [Effect.issued?] using new
    intro this
    obtain rfl : l' = l := this
    exact earlier packet' sn' old

theorem of_control (accounts : Accounts settings hs p) (same : p.settings = settings) {sn : UInt32}
    {entity : ConvergenceEntity}
    (numbered : ((p.convergence.get? .control).getD (.new .control p.settings.compression)).next? =
      some (sn, entity)) :
    Accounts settings hs { p with convergence := p.convergence.insert .control entity } := by
  obtain ⟨-, -, rfl⟩ := next?_eq_some numbered
  refine ⟨accounts.flows, ?_, ?_, ?_, accounts.increasing⟩
  · intro key l found
    exact (SortedMap.contains_insert _ _ _ _).2 (Or.inr (accounts.opened found))
  · intro l e found
    by_cases this : l = .control
    · rw [this, SortedMap.get?_insert_self] at found
      obtain rfl := Option.some.inj found
      refine ⟨?_, Or.inl this⟩
      cases known : p.convergence.get? .control with
      | none => exact congrArg PlaneSettings.compression same
      | some e => exact (accounts.entity known).1
    · rw [SortedMap.get?_insert_of_ne _ this] at found
      exact accounts.entity found
  · intro packet l sn' member
    obtain ⟨notControl, place, inRange, counted⟩ := accounts.issued member
    refine ⟨notControl, place, inRange, fun e found => ?_⟩
    rw [SortedMap.get?_insert_of_ne _ notControl] at found
    exact counted e found

/-- A node that drops all its connections never gives their ids again. -/
theorem of_departed (accounts : Accounts settings hs p) : Accounts settings hs p.departed := by
  refine ⟨FlowTable.valid_clear accounts.flows, ?_, ?_, ?_, accounts.increasing⟩
  · intro key l found
    change p.flows.clear.lookup? key = some l at found
    rw [FlowTable.lookup?_clear] at found
    cases found
  · intro l e found
    cases found
  · intro packet l sn member
    obtain ⟨notControl, place, inRange, -⟩ := accounts.issued member
    exact ⟨notControl, place, inRange, fun e found => by cases found⟩

end Accounts

theorem Change.accounts {settings : PlaneSettings} {hs es : List Effect} {directory : Directory} {a b : Stage}
    (change : Change directory a es b) (same : a.plane.settings = settings)
    (accounts : Accounts settings hs a.plane) : Accounts settings (hs ++ es) b.plane := by
  cases change with
  | quiet alike => exact accounts.of_same alike.lcids alike.next alike.convergence rfl
  | issue mode routed created numbered =>
    obtain ⟨next, rfl⟩ := DataPlane.number_eq_some_iff.1 numbered
    exact (accounts.of_issue same _ created next).1
  | issueControl sdu served numbered =>
    obtain ⟨next, rfl⟩ := DataPlane.number_eq_some_iff.1 numbered
    rw [List.append_nil]
    exact accounts.of_control same next
  | offer leads => exact accounts.of_same rfl rfl rfl (issuedOf_admitted _)
  | clear =>
    exact accounts.of_departed.of_same rfl rfl rfl rfl
  | _ => exact accounts.of_same rfl rfl rfl rfl

end Sidelink
