import Sidelink.Proofs.Numbering

/-!
Units on their way to a buffer. Every unit carries the packet of its number (`Sourced`), units wait for a peer only
while it switches (`Idle`), and a unit that was taken, one that waits and one that is under way are never the same
(`Ordered`). All this holds at every stage of every run (`DataPlane.sound_run`).
-/
namespace Sidelink

/-! ## Units on their way -/

namespace PathSwitches

theorem deferred_congr {s t : PathSwitches} (same : t.peers = s.peers) (peer : NodeId) :
    t.deferred peer = s.deferred peer := by
  simp only [deferred, same]

theorem phase_congr {s t : PathSwitches} (same : t.peers = s.peers) (peer : NodeId) : t.phase peer = s.phase peer := by
  simp only [phase, same]

theorem isSwitching_congr {s t : PathSwitches} (same : t.peers = s.peers) (peer : NodeId) :
    t.isSwitching peer = s.isSwitching peer := by
  simp only [isSwitching, phase_congr same]

/-- The switches with the entry of a peer changed. -/
theorem deferred_insert {s t : PathSwitches} {peer : NodeId} {entry : PeerSwitch}
    (changed : t.peers = s.peers.insert peer entry) (other : NodeId) :
    t.deferred other = if other = peer then entry.deferred else s.deferred other := by
  simp only [deferred, changed]
  by_cases same : other = peer
  · rw [same, SortedMap.get?_insert_self, if_pos rfl]
  · rw [SortedMap.get?_insert_of_ne _ same, if_neg same]

theorem phase_insert {s t : PathSwitches} {peer : NodeId} {entry : PeerSwitch}
    (changed : t.peers = s.peers.insert peer entry) (other : NodeId) :
    t.phase other = if other = peer then entry.phase else s.phase other := by
  simp only [phase, changed]
  by_cases same : other = peer
  · rw [same, SortedMap.get?_insert_self, if_pos rfl]
  · rw [SortedMap.get?_insert_of_ne _ same, if_neg same]

theorem deferred_setPhase (s : PathSwitches) (peer : NodeId) (phase : SwitchPhase) (other : NodeId) :
    (s.setPhase peer phase).deferred other = s.deferred other := by
  rw [deferred_insert (s := s) (t := s.setPhase peer phase) rfl]
  split
  · rename_i same
    rw [same]
  · rfl

/-! One unit more waits for a peer, and its switch goes on. -/

theorem phase_waited {s : PathSwitches} {peer : NodeId} {state : PeerSwitch} (found : s.peers.get? peer = some state)
    (deferred : List DeferredSdu) (other : NodeId) :
    (s.setEntry peer { state with deferred }).phase other = s.phase other := by
  refine (phase_insert (s := s) rfl other).trans ?_
  split
  · rename_i same
    simp only [phase, same, found]
  · rfl

theorem deferred_waited {s : PathSwitches} {peer : NodeId} {state : PeerSwitch}
    (found : s.peers.get? peer = some state) (unit : DeferredSdu) (other : NodeId) :
    (s.setEntry peer { state with deferred := state.deferred ++ [unit] }).deferred other =
      if other = peer then s.deferred peer ++ [unit] else s.deferred other := by
  have waited : s.deferred peer = state.deferred := by simp only [deferred, found]
  rw [waited]
  exact (deferred_insert (s := s) rfl other).trans rfl

theorem isSwitching_insert {s t : PathSwitches} {peer : NodeId} {entry : PeerSwitch}
    (changed : t.peers = s.peers.insert peer entry) {other : NodeId} (different : other ≠ peer) :
    t.isSwitching other = s.isSwitching other := by
  simp only [isSwitching, phase_insert changed, if_neg different]

theorem isSwitching_of_phase {s t : PathSwitches} {peer : NodeId} (same : t.phase peer = s.phase peer) :
    t.isSwitching peer = s.isSwitching peer := by
  rw [isSwitching, same, isSwitching]

theorem isSwitching_setPhase (s : PathSwitches) (peer : NodeId) (target : Path) (check : Option EventId) :
    (s.setPhase peer (.switching target check)).isSwitching peer = true := by
  rw [isSwitching, phase_setPhase]

end PathSwitches

/-- The units that wait for a peer. -/
abbrev Stage.deferred (s : Stage) (peer : NodeId) : List DeferredSdu := s.plane.switches.deferred peer

/-- What a change does to the units that no buffer has taken yet. -/
inductive Moved (a : Stage) (es : List Effect) (b : Stage) : Prop
  | still (tasks : b.tasks = a.tasks) (waiting : ∀ peer, b.deferred peer = a.deferred peer)
      (nothing : admittedOf es = [])
  /-- A unit is made, of a packet with its number or for the control connection. -/
  | made (task : Task) (tasks : b.tasks = a.tasks ++ [task]) (waiting : ∀ peer, b.deferred peer = a.deferred peer)
      (nothing : admittedOf es = [])
      (origin : task.unit.lcid = .control ∨ ∃ packet entity, es = [.issued packet task.unit.lcid task.unit.sn] ∧
        b.plane.convergence.get? task.unit.lcid = some entity ∧
        task.unit.sdu = (entity.compress ⟨task.unit.sn, packet.headers, none, packet.payload⟩).encode)
  /-- The first task is done: a buffer took the unit, or it is lost. -/
  | done (task : Task) (tasks : a.tasks = task :: b.tasks) (waiting : ∀ peer, b.deferred peer = a.deferred peer)
      (taken : admittedOf es = [] ∨
        (∀ peer, task.way = .toPeer peer → a.plane.switches.isSwitching peer = false) ∧
          ∃ x, admittedOf es = [x] ∧ x.key.lcid = task.unit.lcid ∧ x.sn = task.unit.sn ∧ x.sdu = task.unit.sdu)
  | waits (peer : NodeId) (unit : DeferredSdu) (tasks : a.tasks = [⟨.toPeer peer, unit⟩]) (finished : b.tasks = [])
      (waiting : ∀ other, b.deferred other = if other = peer then a.deferred peer ++ [unit] else a.deferred other)
      (nothing : admittedOf es = [])
  | released (peer : NodeId) (tasks : b.tasks = (a.deferred peer).map (fun d => ⟨.toPeer peer, d⟩) ++ a.tasks)
      (waiting : ∀ other, b.deferred other = if other = peer then [] else a.deferred other)
      (nothing : admittedOf es = [])
  | forgotten (tasks : b.tasks = []) (waiting : ∀ peer, b.deferred peer = []) (nothing : admittedOf es = [])

theorem offered_cases (p : DataPlane) (hop : NodeId) (path : Path) (d : DeferredSdu) :
    p.offered hop path d = [] ∨
      ∃ x, p.offered hop path d = [x] ∧ x.key = ⟨hop, d.lcid⟩ ∧ x.sn = d.sn ∧ x.sdu = d.sdu := by
  simp only [DataPlane.offered]
  split
  · exact Or.inr ⟨_, rfl, rfl, rfl, rfl⟩
  · exact Or.inl rfl

theorem Change.moved {directory : Directory} {a b : Stage} {es : List Effect} (change : Change directory a es b) :
    Moved a es b := by
  cases change with
  | quiet alike => exact .still rfl (fun peer => PathSwitches.deferred_congr alike.peers peer) rfl
  | issue mode routed created numbered =>
    obtain ⟨-, rfl⟩ := DataPlane.number_eq_some_iff.1 numbered
    exact .made _ rfl (fun peer => rfl) rfl (Or.inr ⟨_, _, rfl, SortedMap.get?_insert_self _ _ _, rfl⟩)
  | issueControl sdu served numbered =>
    obtain ⟨-, rfl⟩ := DataPlane.number_eq_some_iff.1 numbered
    exact .made _ rfl (fun peer => rfl) rfl (Or.inl rfl)
  | @offer p task tasks hop path leads =>
    refine .done task rfl (fun peer => rfl) ?_
    rw [admittedOf_admitted]
    rcases offered_cases p hop path task.unit with nothing | ⟨x, taken, key, sn, sdu⟩
    · exact Or.inl nothing
    · refine Or.inr ⟨?_, x, taken, by rw [key], sn, sdu⟩
      intro peer way
      rw [way] at leads
      exact leads.1
  | lose => exact .done _ rfl (fun peer => rfl) (Or.inl rfl)
  | @wait p peer unit state switching found =>
    exact .waits peer unit rfl rfl (PathSwitches.deferred_waited found unit) rfl
  | hold peer target => exact .still rfl (fun other => PathSwitches.deferred_setPhase _ _ _ _) rfl
  | recheck switching => exact .still rfl (fun other => PathSwitches.deferred_setPhase _ _ _ _) rfl
  | @complete p tasks peer target check switching drained =>
    exact .released peer rfl (fun other => PathSwitches.deferred_insert (s := p.switches)
      (t := (p.switched peer target).switches) rfl other) rfl
  | clear => exact .forgotten rfl (fun peer => rfl) rfl
  | _ => exact .still rfl (fun peer => rfl) rfl

namespace Moved
variable {a b : Stage} {es : List Effect}

/-- A unit that waits did so before, or was under way to its peer. -/
theorem mem_deferred (moved : Moved a es b) {peer : NodeId} {unit : DeferredSdu} (member : unit ∈ b.deferred peer) :
    unit ∈ a.deferred peer ∨ ⟨.toPeer peer, unit⟩ ∈ a.tasks := by
  cases moved with
  | still tasks waiting nothing => exact Or.inl (waiting peer ▸ member)
  | made task tasks waiting nothing origin => exact Or.inl (waiting peer ▸ member)
  | done task tasks waiting taken => exact Or.inl (waiting peer ▸ member)
  | waits other late only finished waiting nothing =>
    rw [waiting] at member
    split at member
    · rename_i same
      subst same
      refine (List.mem_append.1 member).imp_right fun new => ?_
      rw [only, List.mem_singleton.1 new]
      exact List.mem_cons_self
    · exact Or.inl member
  | released other tasks waiting nothing =>
    rw [waiting] at member
    split at member
    · cases member
    · exact Or.inl member
  | forgotten tasks waiting nothing =>
    rw [waiting] at member
    cases member

/-- A unit that is under way was so before, has waited for its peer, or is made of a packet with its number or for the
control connection. -/
theorem mem_tasks (moved : Moved a es b) {task : Task} (member : task ∈ b.tasks) :
    task ∈ a.tasks ∨ (∃ peer, task.unit ∈ a.deferred peer) ∨ task.unit.lcid = .control ∨
      ∃ packet entity, (packet, task.unit.lcid, task.unit.sn) ∈ issuedOf es ∧
        b.plane.convergence.get? task.unit.lcid = some entity ∧
        task.unit.sdu = (entity.compress ⟨task.unit.sn, packet.headers, none, packet.payload⟩).encode := by
  cases moved with
  | still tasks waiting nothing => exact Or.inl (tasks ▸ member)
  | made new tasks waiting nothing origin =>
    rw [tasks, List.mem_append, List.mem_singleton] at member
    rcases member with old | rfl
    · exact Or.inl old
    · refine Or.inr (Or.inr (origin.imp_right ?_))
      rintro ⟨packet, entity, rfl, known, sdu⟩
      exact ⟨packet, entity, List.mem_cons_self, known, sdu⟩
  | done first tasks waiting taken => exact Or.inl (tasks ▸ List.mem_cons_of_mem _ member)
  | waits other late only finished waiting nothing =>
    rw [finished] at member
    cases member
  | released other tasks waiting nothing =>
    rw [tasks, List.mem_append] at member
    rcases member with new | old
    · obtain ⟨unit, waited, rfl⟩ := List.mem_map.1 new
      exact Or.inr (Or.inl ⟨other, waited⟩)
    · exact Or.inl old
  | forgotten tasks waiting nothing =>
    rw [tasks] at member
    cases member

/-- A unit that a buffer takes was under way. -/
theorem mem_admitted (moved : Moved a es b) {x : Admission} (member : x ∈ admittedOf es) :
    ∃ task ∈ a.tasks, x.key.lcid = task.unit.lcid ∧ x.sn = task.unit.sn ∧ x.sdu = task.unit.sdu := by
  have none_taken (nothing : admittedOf es = []) : x ∉ admittedOf es := nothing ▸ List.not_mem_nil
  cases moved with
  | done task tasks waiting taken =>
    rcases taken with nothing | ⟨-, y, one, lcid, sn, sdu⟩
    · exact absurd member (none_taken nothing)
    · rw [one, List.mem_singleton] at member
      exact ⟨task, tasks ▸ List.mem_cons_self, member ▸ ⟨lcid, sn, sdu⟩⟩
  | still tasks waiting nothing => exact absurd member (none_taken nothing)
  | made task tasks waiting nothing origin => exact absurd member (none_taken nothing)
  | waits other late only finished waiting nothing => exact absurd member (none_taken nothing)
  | released other tasks waiting nothing => exact absurd member (none_taken nothing)
  | forgotten tasks waiting nothing => exact absurd member (none_taken nothing)

end Moved

/-- Whether units wait for peers only while those switch. -/
def Idle (p : DataPlane) : Prop := ∀ peer, p.switches.isSwitching peer = false → p.switches.deferred peer = []

/-- A change to the entry of one peer leaves the others idle. -/
theorem Idle.insert {p q : DataPlane} {peer : NodeId} {entry : PeerSwitch} (idle : Idle p)
    (changed : q.switches.peers = p.switches.peers.insert peer entry)
    (own : q.switches.isSwitching peer = true ∨ q.switches.deferred peer = []) : Idle q := by
  intro other still
  by_cases same : other = peer
  · subst same
    rcases own with busy | nobody
    · exact Bool.noConfusion (busy.symm.trans still)
    · exact nobody
  · rw [PathSwitches.isSwitching_insert changed same] at still
    rw [PathSwitches.deferred_insert changed, if_neg same]
    exact idle other still

theorem Change.idle {directory : Directory} {a b : Stage} {es : List Effect} (change : Change directory a es b)
    (idle : Idle a.plane) : Idle b.plane := by
  cases change with
  | quiet alike =>
    intro peer still
    rw [PathSwitches.isSwitching_congr alike.peers] at still
    rw [PathSwitches.deferred_congr alike.peers]
    exact idle peer still
  | issue mode routed created numbered =>
    obtain ⟨-, rfl⟩ := DataPlane.number_eq_some_iff.1 numbered
    exact idle
  | issueControl sdu served numbered =>
    obtain ⟨-, rfl⟩ := DataPlane.number_eq_some_iff.1 numbered
    exact idle
  | @wait p peer unit state switching found =>
    have same := PathSwitches.isSwitching_of_phase
      (PathSwitches.phase_waited found (state.deferred ++ [unit]) peer)
    exact idle.insert rfl (Or.inl (same.trans switching))
  | @hold p tasks peer target =>
    exact idle.insert rfl (Or.inl (PathSwitches.isSwitching_setPhase p.switches peer target none))
  | @recheck p tasks peer target check check' switching =>
    exact idle.insert rfl (Or.inl (PathSwitches.isSwitching_setPhase p.switches peer target check'))
  | @complete p tasks peer target check switching drained =>
    refine idle.insert rfl (Or.inr ?_)
    exact (PathSwitches.deferred_insert (s := p.switches) (t := (p.switched peer target).switches) rfl _).trans
      (if_pos rfl)
  | clear => exact fun peer still => rfl
  | _ => exact idle

/-! ## Where units come from -/

/-- Whether a unit under a number is that of the packet which was given the number, or control traffic. -/
def Genuine (settings : PlaneSettings) (hs : List Effect) (l : Lcid) (sn : UInt32) (sdu : Bytes) : Prop :=
  l = .control ∨ ∃ packet, (packet, l, sn) ∈ issuedOf hs ∧ sdu = packet.unit settings.compression sn

theorem Genuine.later {settings : PlaneSettings} {hs : List Effect} {l : Lcid} {sn : UInt32} {sdu : Bytes}
    (genuine : Genuine settings hs l sn sdu) (es : List Effect) : Genuine settings (hs ++ es) l sn sdu := by
  rcases genuine with control | ⟨packet, member, same⟩
  · exact Or.inl control
  · rw [Genuine, issuedOf_append]
    exact Or.inr ⟨packet, List.mem_append_left _ member, same⟩

/-- Whether all units that were taken, wait or are under way are genuine. -/
structure Sourced (settings : PlaneSettings) (hs : List Effect) (s : Stage) : Prop where
  tasks : ∀ task ∈ s.tasks, Genuine settings hs task.unit.lcid task.unit.sn task.unit.sdu
  waiting : ∀ peer, ∀ unit ∈ s.deferred peer, Genuine settings hs unit.lcid unit.sn unit.sdu
  admitted : ∀ x ∈ admittedOf hs, Genuine settings hs x.key.lcid x.sn x.sdu

theorem Sourced.change {settings : PlaneSettings} {hs es : List Effect} {directory : Directory} {a b : Stage}
    (change : Change directory a es b) (accounts : Accounts settings (hs ++ es) b.plane)
    (sourced : Sourced settings hs a) : Sourced settings (hs ++ es) b := by
  have moved := change.moved
  refine ⟨fun task member => ?_, fun peer unit member => ?_, fun x member => ?_⟩
  · rcases moved.mem_tasks member with old | ⟨peer, waited⟩ | control | ⟨packet, entity, issued, known, sdu⟩
    · exact (sourced.tasks task old).later es
    · exact (sourced.waiting peer task.unit waited).later es
    · exact Or.inl control
    · refine Or.inr ⟨packet, ?_, ?_⟩
      · rw [issuedOf_append]
        exact List.mem_append_right _ issued
      · have unit := ConvergenceEntity.compress_eq_of_settings (a := entity)
          (b := .new .control settings.compression) (accounts.entity known).1
          ⟨task.unit.sn, packet.headers, none, packet.payload⟩
        rw [sdu, unit, Packet.unit]
  · rcases moved.mem_deferred member with old | task
    · exact (sourced.waiting peer unit old).later es
    · exact (sourced.tasks _ task).later es
  · rw [admittedOf_append, List.mem_append] at member
    rcases member with old | new
    · exact (sourced.admitted x old).later es
    · obtain ⟨task, inHand, lcid, sn, sdu⟩ := moved.mem_admitted new
      rw [lcid, sn, sdu]
      exact (sourced.tasks task inHand).later es

/-! ## One place for every unit -/

/-- What tells units apart: their connection and their number. -/
abbrev Label := Lcid × UInt32

def DeferredSdu.label (unit : DeferredSdu) : Label := (unit.lcid, unit.sn)

def Task.label (task : Task) : Label := task.unit.label

def Admission.label (x : Admission) : Label := (x.key.lcid, x.sn)

/-- Whether a relation holds between every unit and those that come after it: a unit that was taken before those that
are not, one that waits for a peer before those that join it later, and a task before those that wait for other
peers. -/
structure Ordered (r : Label → Label → Prop) (taken : List Label) (s : Stage) : Prop where
  line : ∀ peer, (taken ++ (s.deferred peer).map DeferredSdu.label ++ s.tasks.map Task.label).Pairwise r
  cross : ∀ peer other, peer ≠ other → ∀ x ∈ s.deferred peer, ∀ y ∈ s.deferred other, r x.label y.label
  ahead : ∀ task ∈ s.tasks, ∀ peer, task.way ≠ .toPeer peer → ∀ y ∈ s.deferred peer, r task.label y.label

/-- Whether a new unit on a way can be put behind all others. -/
structure Fits (r : Label → Label → Prop) (taken : List Label) (s : Stage) (task : Task) : Prop where
  behind : ∀ x, x ∈ taken ∨ (∃ peer, ∃ unit ∈ s.deferred peer, unit.label = x) ∨ x ∈ s.tasks.map Task.label →
    r x task.label
  ahead : ∀ peer, task.way ≠ .toPeer peer → ∀ y ∈ s.deferred peer, r task.label y.label

theorem pairwise_three {α : Type} {r : α → α → Prop} {l m n : List α} :
    (l ++ m ++ n).Pairwise r ↔ (l.Pairwise r ∧ m.Pairwise r ∧ n.Pairwise r) ∧ (∀ x ∈ l, ∀ y ∈ m, r x y) ∧
      (∀ x ∈ l, ∀ y ∈ n, r x y) ∧ ∀ x ∈ m, ∀ y ∈ n, r x y := by
  simp only [List.pairwise_append, List.mem_append]
  constructor
  · rintro ⟨⟨pl, pm, lm⟩, pn, lmn⟩
    exact ⟨⟨pl, pm, pn⟩, lm, fun x hx y hy => lmn x (Or.inl hx) y hy, fun x hx y hy => lmn x (Or.inr hx) y hy⟩
  · rintro ⟨⟨pl, pm, pn⟩, lm, ln, mn⟩
    refine ⟨⟨pl, pm, lm⟩, pn, ?_⟩
    rintro x (hx | hx) y hy
    · exact ln x hx y hy
    · exact mn x hx y hy

namespace Ordered
variable {r : Label → Label → Prop} {taken : List Label} {a b : Stage}

theorem of_made {task : Task} (ordered : Ordered r taken a) (fits : Fits r taken a task)
    (tasks : b.tasks = a.tasks ++ [task]) (waiting : ∀ peer, b.deferred peer = a.deferred peer) :
    Ordered r taken b := by
  refine ⟨fun peer => ?_, ?_, ?_⟩
  · rw [tasks, waiting, List.map_append, ← List.append_assoc, List.pairwise_append]
    refine ⟨ordered.line peer, List.pairwise_singleton _ _, ?_⟩
    intro x earlier y new
    obtain rfl := List.mem_singleton.1 new
    apply fits.behind
    rcases List.mem_append.1 earlier with earlier | inHand
    · rcases List.mem_append.1 earlier with done | waits
      · exact Or.inl done
      · obtain ⟨unit, member, same⟩ := List.mem_map.1 waits
        exact Or.inr (Or.inl ⟨peer, unit, member, same⟩)
    · exact Or.inr (Or.inr inHand)
  · intro peer other different x here y there
    rw [waiting] at here there
    exact ordered.cross peer other different x here y there
  · intro task' member peer elsewhere y waits
    rw [waiting] at waits
    rw [tasks, List.mem_append, List.mem_singleton] at member
    rcases member with old | rfl
    · exact ordered.ahead task' old peer elsewhere y waits
    · exact fits.ahead peer elsewhere y waits

/-- A unit that a buffer takes was ahead of all that wait, since its own peer does not switch. -/
theorem of_taken {task : Task} (ordered : Ordered r taken a) (idle : Idle a.plane) (tasks : a.tasks = task :: b.tasks)
    (waiting : ∀ peer, b.deferred peer = a.deferred peer)
    (still : ∀ peer, task.way = .toPeer peer → a.plane.switches.isSwitching peer = false) :
    Ordered r (taken ++ [task.label]) b := by
  have later (task' : Task) (member : task' ∈ b.tasks) : task' ∈ a.tasks := tasks ▸ List.mem_cons_of_mem _ member
  refine ⟨fun peer => ?_, ?_, ?_⟩
  · have line := ordered.line peer
    rw [tasks, List.map_cons, pairwise_three, List.pairwise_cons] at line
    obtain ⟨⟨pt, pd, head, ps⟩, td, ts, ds⟩ := line
    rw [waiting, pairwise_three]
    refine ⟨⟨?_, pd, ps⟩, ?_, ?_, ?_⟩
    · rw [List.pairwise_append]
      refine ⟨pt, List.pairwise_singleton _ _, fun x hx y hy => ?_⟩
      rw [List.mem_singleton.1 hy]
      exact ts x hx _ List.mem_cons_self
    · intro x hx y hy
      rcases List.mem_append.1 hx with old | new
      · exact td x old y hy
      · rw [List.mem_singleton.1 new]
        obtain ⟨unit, member, rfl⟩ := List.mem_map.1 hy
        by_cases way : task.way = .toPeer peer
        · have nobody : a.deferred peer = [] := idle peer (still peer way)
          rw [nobody] at member
          cases member
        · exact ordered.ahead task (tasks ▸ List.mem_cons_self) peer way unit member
    · intro x hx y hy
      rcases List.mem_append.1 hx with old | new
      · exact ts x old y (List.mem_cons_of_mem _ hy)
      · rw [List.mem_singleton.1 new]
        exact head y hy
    · exact fun x hx y hy => ds x hx y (List.mem_cons_of_mem _ hy)
  · intro peer other different x here y there
    rw [waiting] at here there
    exact ordered.cross peer other different x here y there
  · intro task' member peer elsewhere y waits
    rw [waiting] at waits
    exact ordered.ahead task' (later task' member) peer elsewhere y waits

/-- Units that are lost leave the others in order. -/
theorem mono (ordered : Ordered r taken a) (tasks : b.tasks.Sublist a.tasks)
    (waiting : ∀ peer, (b.deferred peer).Sublist (a.deferred peer)) : Ordered r taken b := by
  refine ⟨fun peer => ?_, ?_, ?_⟩
  · exact (ordered.line peer).sublist (((List.Sublist.refl _).append ((waiting peer).map _)).append (tasks.map _))
  · intro peer other different x here y there
    exact ordered.cross peer other different x ((waiting peer).subset here) y ((waiting other).subset there)
  · intro task member peer elsewhere y waits
    exact ordered.ahead task (tasks.subset member) peer elsewhere y ((waiting peer).subset waits)

theorem of_waits {peer : NodeId} {unit : DeferredSdu} (ordered : Ordered r taken a)
    (only : a.tasks = [⟨.toPeer peer, unit⟩]) (finished : b.tasks = [])
    (waiting : ∀ other, b.deferred other = if other = peer then a.deferred peer ++ [unit] else a.deferred other) :
    Ordered r taken b := by
  have here : (⟨.toPeer peer, unit⟩ : Task) ∈ a.tasks := by simp [only]
  have same : b.deferred peer = a.deferred peer ++ [unit] := (waiting peer).trans (if_pos rfl)
  have different {other : NodeId} (h : other ≠ peer) : b.deferred other = a.deferred other :=
    (waiting other).trans (if_neg h)
  refine ⟨fun other => ?_, ?_, by simp [finished]⟩
  · have line := ordered.line other
    rw [only, List.map_singleton] at line
    rw [finished, List.map_nil, List.append_nil]
    by_cases h : other = peer
    · subst h
      rw [same, List.map_append, List.map_singleton, ← List.append_assoc]
      exact line
    · rw [different h]
      exact line.sublist (List.sublist_append_left _ _)
  · -- The unit came after all that waited, and is a task ahead of those that wait for other peers.
    have after {other : NodeId} {x : DeferredSdu} (member : x ∈ a.deferred other) : r x.label unit.label := by
      have line := ordered.line other
      rw [only, pairwise_three] at line
      exact line.2.2.2 x.label (List.mem_map_of_mem member) unit.label (by simp [Task.label])
    intro one two apart x hx y hy
    by_cases h : one = peer
    · subst h
      rw [same, List.mem_append, List.mem_singleton] at hx
      rw [different (Ne.symm apart)] at hy
      rcases hx with old | rfl
      · exact ordered.cross one two apart x old y hy
      · exact ordered.ahead _ here two (fun way => apart (Way.toPeer.inj way)) y hy
    · rw [different h] at hx
      by_cases h' : two = peer
      · subst h'
        rw [same, List.mem_append, List.mem_singleton] at hy
        rcases hy with old | rfl
        · exact ordered.cross one two apart x hx y old
        · exact after hx
      · rw [different h'] at hy
        exact ordered.cross one two apart x hx y hy

theorem of_released {peer : NodeId} (ordered : Ordered r taken a)
    (tasks : b.tasks = (a.deferred peer).map (fun d => ⟨.toPeer peer, d⟩) ++ a.tasks)
    (waiting : ∀ other, b.deferred other = if other = peer then [] else a.deferred other) : Ordered r taken b := by
  have labels : b.tasks.map Task.label = (a.deferred peer).map DeferredSdu.label ++ a.tasks.map Task.label := by
    rw [tasks, List.map_append, List.map_map]
    rfl
  have same : b.deferred peer = [] := (waiting peer).trans (if_pos rfl)
  have different {other : NodeId} (h : other ≠ peer) : b.deferred other = a.deferred other :=
    (waiting other).trans (if_neg h)
  have own := pairwise_three.1 (ordered.line peer)
  refine ⟨fun other => ?_, ?_, ?_⟩
  · rw [labels]
    by_cases h : other = peer
    · rw [h, same, List.map_nil, List.append_nil, ← List.append_assoc]
      exact ordered.line peer
    · rw [different h, pairwise_three]
      obtain ⟨⟨pt, pd, ps⟩, td, ts, ds⟩ := pairwise_three.1 (ordered.line other)
      refine ⟨⟨pt, pd, ?_⟩, td, ?_, ?_⟩
      · rw [List.pairwise_append]
        exact ⟨own.1.2.1, ps, own.2.2.2⟩
      · intro x hx y hy
        rcases List.mem_append.1 hy with released | task
        · exact own.2.1 x hx y released
        · exact ts x hx y task
      · intro x hx y hy
        rcases List.mem_append.1 hy with released | task
        · obtain ⟨u, hu, rfl⟩ := List.mem_map.1 hx
          obtain ⟨v, hv, rfl⟩ := List.mem_map.1 released
          exact ordered.cross other peer h u hu v hv
        · exact ds x hx y task
  · intro one two apart x hx y hy
    rw [waiting] at hx hy
    split at hx
    · cases hx
    · split at hy
      · cases hy
      · exact ordered.cross one two apart x hx y hy
  · intro task member other elsewhere y hy
    rw [waiting] at hy
    split at hy
    · cases hy
    · rename_i h
      rw [tasks, List.mem_append] at member
      rcases member with released | old
      · obtain ⟨unit, waited, rfl⟩ := List.mem_map.1 released
        exact ordered.cross peer other (Ne.symm h) unit waited y hy
      · exact ordered.ahead task old other elsewhere y hy

/-- Every change keeps the order, if new units can be put behind all others. -/
theorem change {es : List Effect} {directory : Directory} (change : Change directory a es b) (idle : Idle a.plane)
    (ordered : Ordered r taken a)
    (fits : ∀ task, b.tasks = a.tasks ++ [task] → task.unit.lcid = .control ∨ issuedOf es ≠ [] →
      Fits r taken a task) :
    Ordered r (taken ++ (admittedOf es).map Admission.label) b := by
  cases change.moved with
  | still tasks waiting nothing =>
    rw [nothing, List.map_nil, List.append_nil]
    exact ordered.mono (tasks ▸ List.Sublist.refl _) fun peer => waiting peer ▸ List.Sublist.refl _
  | made task tasks waiting nothing origin =>
    rw [nothing, List.map_nil, List.append_nil]
    refine ordered.of_made (fits task tasks (origin.imp_right ?_)) tasks waiting
    rintro ⟨packet, entity, rfl, -, -⟩
    exact List.cons_ne_nil _ _
  | done task tasks waiting taken =>
    rcases taken with nothing | ⟨still, x, one, lcid, sn, -⟩
    · rw [nothing, List.map_nil, List.append_nil]
      exact ordered.mono (tasks ▸ List.sublist_cons_self _ _) fun peer => waiting peer ▸ List.Sublist.refl _
    · have label : x.label = task.label := Prod.ext lcid sn
      rw [one, List.map_singleton, label]
      exact ordered.of_taken idle tasks waiting still
  | waits peer unit only finished waiting nothing =>
    rw [nothing, List.map_nil, List.append_nil]
    exact ordered.of_waits only finished waiting
  | released peer tasks waiting nothing =>
    rw [nothing, List.map_nil, List.append_nil]
    exact ordered.of_released tasks waiting
  | forgotten tasks waiting nothing =>
    rw [nothing, List.map_nil, List.append_nil]
    exact ordered.mono (tasks ▸ List.nil_sublist _) fun peer => waiting peer ▸ List.nil_sublist _

end Ordered

/-! ## Runs -/

/-- Whether a unit has a smaller number than another one of its connection. -/
def Before (x y : Label) : Prop := x.1 = .control ∨ (x.1 = y.1 → x.2 < y.2)

/-- Whether two units are told apart. -/
def Apart (x y : Label) : Prop := x.1 = .control ∨ x ≠ y

theorem Before.apart {x y : Label} (before : Before x y) : Apart x y := by
  refine before.imp_right fun less same => ?_
  subst same
  exact absurd (less rfl) (UInt32.lt_irrefl _)

variable {settings : PlaneSettings} {hs es : List Effect} {directory : Directory} {a b : Stage}

theorem Genuine.issued {l : Lcid} {sn : UInt32} {sdu : Bytes} (genuine : Genuine settings hs l sn sdu) :
    l = .control ∨ ∃ packet, (packet, l, sn) ∈ issuedOf hs := by
  refine genuine.imp_right ?_
  rintro ⟨packet, member, -⟩
  exact ⟨packet, member⟩

/-- A new unit has a larger number than all units of its connection before it. -/
theorem before_new (change : Change directory a es b) (same : a.plane.settings = settings)
    (accounts : Accounts settings hs a.plane) (sourced : Sourced settings hs a) {task : Task}
    (tasks : b.tasks = a.tasks ++ [task]) (kind : task.unit.lcid = .control ∨ issuedOf es ≠ []) (x : Label)
    (earlier : x ∈ (admittedOf hs).map Admission.label ∨ (∃ peer, ∃ unit ∈ a.deferred peer, unit.label = x) ∨
      x ∈ a.tasks.map Task.label) : Before x task.label := by
  have source : x.1 = .control ∨ ∃ packet, (packet, x.1, x.2) ∈ issuedOf hs := by
    rcases earlier with taken | ⟨peer, unit, waits, rfl⟩ | inHand
    · obtain ⟨y, member, rfl⟩ := List.mem_map.1 taken
      exact (sourced.admitted y member).issued
    · exact (sourced.waiting peer unit waits).issued
    · obtain ⟨y, member, rfl⟩ := List.mem_map.1 inHand
      exact (sourced.tasks y member).issued
  rcases source with control | ⟨packet, issued⟩
  · exact Or.inl control
  · rcases kind with control | issues
    · exact Or.inr fun same => absurd (same.trans control) (accounts.issued issued).1
    · cases change with
      | issue mode routed created numbered =>
        obtain ⟨next, rfl⟩ := DataPlane.number_eq_some_iff.1 numbered
        obtain rfl := List.singleton_inj.1 (List.append_cancel_left tasks)
        refine Or.inr fun connection => ?_
        rw [connection] at issued
        exact (accounts.of_issue same packet created next).2 packet x.2 issued
      | offer leads => exact absurd (issuedOf_admitted _) issues
      | _ => exact absurd rfl issues

/-- What holds at every stage of every run. -/
structure Sound (node : NodeId) (settings : PlaneSettings) (hs : List Effect) (s : Stage) : Prop where
  served : Served node settings hs s.plane
  accounts : Accounts settings hs s.plane
  sourced : Sourced settings hs s
  idle : Idle s.plane
  ordered : Ordered Apart ((admittedOf hs).map Admission.label) s

theorem sound_change {node : NodeId} (change : Change directory a es b) (sound : Sound node settings hs a) :
    Sound node settings (hs ++ es) b := by
  have same := sound.served.settings_eq
  have accounts := change.accounts same sound.accounts
  refine ⟨served_change change sound.served, accounts, sound.sourced.change change accounts, change.idle sound.idle, ?_⟩
  rw [admittedOf_append, List.map_append]
  refine sound.ordered.change change sound.idle fun task tasks kind => ?_
  have before := before_new change same sound.accounts sound.sourced tasks kind
  refine ⟨fun x earlier => (before x earlier).apart, fun peer _ y waits => ?_⟩
  rcases (before y.label (Or.inr (Or.inl ⟨peer, y, waits, rfl⟩))).apart with control | different
  · by_cases own : task.label.1 = .control
    · exact Or.inl own
    · exact Or.inr fun h => own (h ▸ control)
  · exact Or.inr (Ne.symm different)

namespace DataPlane

theorem link_fault?_of_new {node : NodeId} {role : Role} {p : DataPlane} (made : new node role settings = .ok p) :
    settings.link.fault? = none := by
  obtain ⟨faultless, -⟩ := eq_of_new made
  simp only [PlaneSettings.fault?, Option.or_eq_none_iff] at faultless
  exact faultless.2.1

theorem sound_new {node : NodeId} {role : Role} {p : DataPlane} (made : new node role settings = .ok p) :
    Sound node settings [] ⟨p, []⟩ := by
  obtain ⟨-, rfl⟩ := eq_of_new made
  refine ⟨served_of_empty rfl rfl rfl, .of_new rfl rfl, ⟨by simp, fun peer unit waits => ?_, fun x member => ?_⟩,
    fun peer _ => rfl, ⟨fun peer => List.Pairwise.nil, fun peer other _ x hx => ?_, by simp⟩⟩
  · cases waits
  · cases member
  · cases hx

/-- Packets were numbered as their dispatches say. -/
theorem mem_issued {effects : List Effect} {dispatched : List (Packet × Dispatch)}
    (issued : issuedOf effects = dispatched.filterMap Dispatch.numbered?) {packet : Packet} {l : Lcid} {sn : UInt32} :
    (packet, l, sn) ∈ issuedOf effects ↔ ∃ x ∈ dispatched, x.1 = packet ∧ x.2.lcid = l ∧ x.2.sn = some sn := by
  rw [issued, List.mem_filterMap]
  refine exists_congr fun x => and_congr_right fun _ => ?_
  rw [Dispatch.numbered?, Option.map_eq_some_iff]
  constructor
  · rintro ⟨n, known, same⟩
    simp only [Prod.mk.injEq] at same
    obtain ⟨rfl, rfl, rfl⟩ := same
    exact ⟨rfl, rfl, known⟩
  · rintro ⟨rfl, rfl, known⟩
    exact ⟨sn, known, rfl⟩

/-- Every run of a new node is sound. -/
theorem sound_run {node : NodeId} {role : Role} {p : DataPlane} (made : new node role settings = .ok p)
    (ms : List Moment) :
    ∃ effects, Tells effects ((p.dispatched ms).filterMap Dispatch.numbered?) (p.admitted ms) (p.sent ms) ∧
      Sound node settings effects ⟨p.after ms, []⟩ := by
  obtain ⟨effects, chain, tells, -⟩ := run_chain p ms
  exact ⟨effects, tells, chain.invariant (fun _ change sound => sound_change change sound) (sound_new made)⟩

end DataPlane
end Sidelink
