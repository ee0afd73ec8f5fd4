import MvsXinu.Memory.PortRuns

/-!
# The nodes that the ports share

The semaphores of a port count the room in its own queue, but the nodes of all the queues come
from one list. While the ports in use may hold no more messages together than there are nodes,
a sender that gets through finds a node.
-/

namespace MvsXinu.Ports

open MvsXinu.Kernel MvsXinu.Chains MvsXinu.Shelves

set_option autoImplicit false

def Ports.quota (s : Ports) (portid : Int) : Nat :=
  if (s.ports portid).ptstate = .free then 0 else (s.ports portid).ptmaxcnt.toNat

/-- How many messages the ports in use may hold together. -/
def Ports.capacity (s : Ports) : Nat := (portids.map s.quota).sum

/-- A port is created for no more messages than the other ports leave nodes for. -/
def Provided (s : Ports) : PortCall → Prop
  | .pcreate count _ _ =>
      (∃ portid, ¬ isbadport portid ∧ (s.ports portid).ptstate = .free) →
        s.capacity + count.toNat ≤ maxmsgs
  | _ => True

/-- A call of `psend` that gets through finds a free node, whether it waits before or not. -/
structure NodesSuffice (s : Ports) : Prop where
  running : s.stopped = false
  admitted : ∀ portid, ¬ s.closed portid → ¬ refused s.sems (s.ports portid).ptssem →
    ¬ wouldBlock s.sems (s.ports portid).ptssem → s.ptfree ≠ 0
  granted : ∀ pid ticket msg, s.place pid = .sending ticket msg →
    pid ∉ s.sems.waiting ticket.sem → ¬ s.stale ticket → ¬ s.CameRound ticket → s.ptfree ≠ 0

/-! ## A sender finds a node -/

section Nodes

variable {s : Ports} {portid pid place : Int} {free : List Int} {queue : Int → List Int}

theorem quota_of_alloc (alloc : (s.ports portid).ptstate = .alloc) :
    s.quota portid = (s.ports portid).ptmaxcnt.toNat := by
  unfold Ports.quota
  rw [alloc]
  rfl

theorem Sound.within_quota (sound : Sound s place free queue) (portid : Int) :
    (queue portid).length ≤ s.quota portid := by
  unfold Ports.quota
  split
  · rename_i isFree
    rw [(sound.ports portid).free_queue isFree]
    exact Nat.le_refl 0
  · exact (sound.ports portid).bounded

theorem Sound.node_left (sound : Sound s place free queue) (provided : s.capacity ≤ maxmsgs)
    (alloc : (s.ports portid).ptstate = .alloc)
    (room : (queue portid).length < (s.ports portid).ptmaxcnt.toNat) : s.ptfree ≠ 0 := by
  have enough : (portids.map s.quota).sum ≤ (nodes place).length := by
    rw [nodes_length]
    exact provided
  have some : free ≠ [] := by
    have less : (queue portid).length < s.quota portid := by
      rw [quota_of_alloc alloc]
      exact room
    exact Stocked.some_free sound.stocked (fun portid _ => sound.within_quota portid) enough
      (Ports.mem_portids.mpr (sound.good alloc)) less
  cases free with
  | nil => exact absurd rfl some
  | cons node rest => exact Chain.ne_null sound.freed

/-- The semaphore lets as many senders through as there is room for messages. -/
theorem Sound.send_admits (sound : Sound s place free queue) (running : s.stopped = false)
    (provided : s.capacity ≤ maxmsgs) (alloc : (s.ports portid).ptstate = .alloc)
    (owned : (s.ports portid).ptssem ∈ s.owned portid) :
    Admits s.sems (s.ports portid).ptssem (s.Sends portid)
      ((s.ports portid).ptmaxcnt.toNat - (queue portid).length) := by
  have member : s.quota portid ∈ portids.map s.quota :=
    List.mem_map_of_mem (Ports.mem_portids.mpr (sound.good alloc))
  have part : s.quota portid ≤ s.capacity := List.single_le_sum (fun _ _ => Nat.zero_le _) _ member
  rw [quota_of_alloc alloc] at part
  have value := (s.ports portid).ptmaxcnt.toInt_eq_toNat_cond
  have small : (s.ports portid).ptmaxcnt.toInt = (s.ports portid).ptmaxcnt.toNat := by
    unfold maxmsgs at provided
    split at value <;> omega
  have guarded := (sound.ports portid).guarded running alloc
  have admits := guarded.send (by omega) owned
  rwa [small] at admits

theorem Sound.suffice (sound : Sound s place free queue) (running : s.stopped = false)
    (provided : s.capacity ≤ maxmsgs) : NodesSuffice s where
  running := running
  admitted := by
    intro portid isOpen usable passes
    have alloc := (open_of_not_closed isOpen).2
    have guarded := (sound.ports portid).guarded running alloc
    have owned := guarded.toPaired.ssem.resolve_left (usable_some usable)
    have admits := sound.send_admits running provided alloc owned
    have some := (admits.passed 0 passes).1
    exact sound.node_left provided alloc (by omega)
  granted := by
    intro pid ticket msg stands released fresh unwrapped
    have inv := sound.ports ticket.portid
    have reads : (s.place pid).ticket = some ticket := by rw [stands, Place.ticket]
    obtain ⟨alloc, age⟩ := inv.toStaffed.same_age reads fresh unwrapped
    have sem := inv.sender pid ticket msg stands rfl age
    have own := inv.toStaffed.ticket_eq reads fresh unwrapped
    have guarded := inv.guarded running alloc
    have isSome := (inv.tickets pid ticket reads rfl).2.1
    have owned := guarded.toPaired.ssem.resolve_left (sem ▸ isSome)
    have isSending : s.Sends ticket.portid pid := ⟨msg, by rw [← sem, own, stands]⟩
    have admits := sound.send_admits running provided alloc owned
    have room := (admits.resumed isSending (sem ▸ released) fun _ => Iff.rfl).1
    exact sound.node_left provided alloc (by omega)

end Nodes

/-! ## Calls that create no port -/

/-- The machine goes on, and no port may hold more than before. -/
structure Modest (s later : Ports) : Prop where
  stopped : later.stopped = s.stopped
  quota : ∀ portid, later.quota portid ≤ s.quota portid

section Steps

variable {s middle later : Ports} {portid pid : Int}

theorem Modest.trans (before : Modest s middle) (behind : Modest middle later) :
    Modest s later where
  stopped := behind.stopped.trans before.stopped
  quota := fun portid => (behind.quota portid).trans (before.quota portid)

theorem modest_of_ports (stopped : later.stopped = s.stopped) (ports : later.ports = s.ports) :
    Modest s later where
  stopped := stopped
  quota := by
    intro portid
    unfold Ports.quota
    rw [ports]

theorem modest_of_entry (stopped : later.stopped = s.stopped)
    (others : ∀ other, other ≠ portid → later.ports other = s.ports other)
    (entry : later.quota portid ≤ s.quota portid) : Modest s later where
  stopped := stopped
  quota := by
    intro other
    by_cases same : other = portid
    · rw [same]
      exact entry
    · unfold Ports.quota
      rw [others other same]

theorem SameEntry.quota (same : SameEntry (s.ports portid) (later.ports portid)) :
    later.quota portid ≤ s.quota portid := by
  unfold Ports.quota
  rw [same.ptstate, same.ptmaxcnt]

theorem enqueue_modest (some : s.ptfree ≠ 0) (portid : Int) (age : Nat) (msg : Word) :
    Modest s (s.enqueue portid age msg) := by
  have stopped : (s.enqueue portid age msg).stopped = s.stopped := by
    unfold Ports.enqueue
    rw [if_neg some]
  exact modest_of_entry stopped (enqueue_local some).ports (enqueue_calls some).entry.quota

theorem dequeue_modest (s : Ports) (portid : Int) (age : Nat) :
    Modest s (s.dequeue portid age) :=
  modest_of_entry rfl dequeue_local.ports dequeue_calls.entry.quota

theorem psend_modest (suffice : NodesSuffice s) (pid portid : Int) (msg : Word) :
    Modest s (s.psend pid portid msg) := by
  unfold Ports.psend
  dsimp only
  split_ifs with fails blocks
  · exact modest_of_ports rfl rfl
  · exact modest_of_ports rfl rfl
  · have isOpen := not_or.mp fails
    have waits : Modest s { s with sems := s.sems.wait (s.ports portid).ptssem pid } :=
      modest_of_ports rfl rfl
    apply waits.trans
    apply enqueue_modest
    exact suffice.admitted portid isOpen.1 isOpen.2 blocks

theorem preceive_modest (s : Ports) (pid portid : Int) : Modest s (s.preceive pid portid) := by
  unfold Ports.preceive
  dsimp only
  split_ifs with fails blocks
  · exact modest_of_ports rfl rfl
  · exact modest_of_ports rfl rfl
  · have waits : Modest s { s with sems := s.sems.wait (s.ports portid).ptrsem pid } :=
      modest_of_ports rfl rfl
    exact waits.trans (dequeue_modest _ portid (s.age portid))

theorem disposes_modest (s : Ports) (pid portid : Int) (newstate : Ptstate) (p : Int) :
    Modest s (s.disposes pid portid newstate p) :=
  modest_of_ports rfl rfl

theorem unlink_modest (s : Ports) (pid portid : Int) (newstate : Ptstate) (dispose : Bool) :
    Modest s (s.unlink pid portid newstate dispose) := by
  have spec := unlink_eq s pid portid newstate dispose
  apply modest_of_entry
  · rw [spec]
  · intro other away
    rw [spec]
    dsimp only
    split
    · exact Function.update_of_ne away _ _
    · rfl
  · exact (unlink_entry s pid portid newstate dispose).1.quota

theorem ptclear_modest (alloc : (s.ports portid).ptstate = .alloc) (pid : Int) (newstate : Ptstate)
    (dispose : Bool) : Modest s (s.ptclear pid portid newstate dispose) := by
  have limbo : Modest s (s.intoLimbo portid) := by
    apply modest_of_entry
    · rfl
    · exact (intoLimbo_local s portid).ports
    · unfold Ports.quota
      rw [intoLimbo_entry, alloc]
      exact Nat.le_refl _
  rw [ptclear_eq]
  split
  · exact limbo.trans (disposes_modest _ pid portid newstate _)
  · exact limbo.trans (unlink_modest _ pid portid newstate dispose)

theorem clears_modest (limbo : (s.ports portid).ptstate = .limbo) (pid : Int) (newstate : Ptstate)
    (dispose : Bool) (phase : Clearing) :
    Modest s (s.clears pid portid newstate dispose phase) := by
  cases phase with
  | disposing p =>
      dsimp only [Ports.clears]
      split
      · exact unlink_modest s pid portid newstate dispose
      · exact disposes_modest s pid portid newstate _
  | second =>
      have spec := second_eq s pid portid newstate dispose
      apply modest_of_ports
      · rw [spec]
      · rw [spec]
  | last =>
      apply modest_of_entry
      · rfl
      · intro other away
        exact Function.update_of_ne away _ _
      · unfold Ports.quota
        rw [last_entry, limbo]
        dsimp only
        split
        · exact Nat.zero_le _
        · exact Nat.le_refl _

theorem goes_modest (suffice : NodesSuffice s) (staffed : ∀ portid, Staffed s portid)
    (unwrapped : Unwrapped s (.go pid)) : Modest s (goes s pid) := by
  have same : Modest s s := modest_of_ports rfl rfl
  have idle : Modest s (s.put pid .idle) := modest_of_ports rfl rfl
  unfold goes
  cases stands : s.place pid with
  | idle => exact same
  | sending ticket msg =>
      dsimp only
      split_ifs with waits stale
      · exact same
      · exact idle
      · have reads : (s.place pid).ticket = some ticket := by rw [stands, Place.ticket]
        have alloc := not_not.mp (not_or.mp stale).1
        have current := unwrapped ticket reads waits alloc
        have some : (s.put pid .idle).ptfree ≠ 0 :=
          suffice.granted pid ticket msg stands waits stale current
        exact idle.trans (enqueue_modest some ticket.portid ticket.age msg)
  | receiving ticket =>
      dsimp only
      split_ifs with waits stale
      · exact same
      · exact idle
      · exact idle.trans (dequeue_modest _ ticket.portid ticket.age)
  | clearing portid newstate dispose phase =>
      exact clears_modest ((staffed portid).limbo pid newstate dispose phase stands).1 pid newstate
        dispose phase

theorem Modest.capacity (modest : Modest s later) : later.capacity ≤ s.capacity :=
  List.sum_le_sum fun portid _ => modest.quota portid

end Steps

/-! ## `pcreate` -/

section Create

variable {s : Ports} {portid ssem rsem : Int} {count : Word}

theorem makes_capacity (s : Ports) (portid : Int) (count : Word) (ssem rsem : Int) :
    (s.makes portid count ssem rsem).capacity ≤ s.capacity + count.toNat := by
  apply sum_le_add portids_nodup
  · unfold Ports.quota
    rw [makes_entry]
    dsimp only
    split <;> omega
  · intro other away
    unfold Ports.quota
    rw [(makes_local s portid count ssem rsem).ports other away]

/-- `pcreate` finds a free port or creates none. -/
theorem pcreateLoop_capacity (tries : Nat) : ∀ {s : Ports}, ¬ isbadport s.ptnextp →
    (Ports.pcreateLoop count ssem rsem tries s).stopped = s.stopped ∧
      ((Ports.pcreateLoop count ssem rsem tries s).capacity = s.capacity ∨
        (∃ portid, ¬ isbadport portid ∧ (s.ports portid).ptstate = .free) ∧
          (Ports.pcreateLoop count ssem rsem tries s).capacity ≤ s.capacity + count.toNat) := by
  induction tries with
  | zero => exact fun _ => ⟨rfl, Or.inl rfl⟩
  | succ tries ih =>
      intro s good
      have next : ¬ isbadport (if s.ptnextp ≤ 0 then nports - 1 else s.ptnextp - 1) := by
        unfold isbadport nports at good ⊢
        split <;> omega
      unfold Ports.pcreateLoop
      dsimp only
      split
      · rename_i isFree
        exact ⟨rfl, Or.inr ⟨⟨s.ptnextp, good, isFree⟩, makes_capacity _ _ _ _ _⟩⟩
      · exact ih next

theorem pcreate_provided (good : ¬ isbadport s.ptnextp) (few : s.capacity ≤ maxmsgs)
    (provided : Provided s (.pcreate count ssem rsem)) :
    (s.pcreate count ssem rsem).stopped = s.stopped ∧
      (s.pcreate count ssem rsem).capacity ≤ maxmsgs := by
  obtain ⟨stopped, same | ⟨found, less⟩⟩ :=
    @pcreateLoop_capacity ssem rsem count nports.toNat s good
  · exact ⟨stopped, same.trans_le few⟩
  · exact ⟨stopped, less.trans (provided found)⟩

end Create

/-! ## Runs -/

section Runs

variable {s : Ports} {place : Int} {free : List Int} {queue : Int → List Int}

theorem portStep_provided (sound : Sound s place free queue) (running : s.stopped = false)
    (few : s.capacity ≤ maxmsgs) {call : PortCall} (unwrapped : Unwrapped s call)
    (provided : Provided s call) :
    (portStep s call).stopped = false ∧ (portStep s call).capacity ≤ maxmsgs := by
  have suffice := sound.suffice running few
  have same : Modest s s := modest_of_ports rfl rfl
  have notStopped : ¬ s.stopped = true := by
    rw [running]
    exact Bool.false_ne_true
  have modest : ∀ {later}, Modest s later → later.stopped = false ∧ later.capacity ≤ maxmsgs :=
    fun modest => ⟨modest.stopped.trans running, modest.capacity.trans few⟩
  unfold portStep
  rw [if_neg notStopped]
  cases call with
  | psend pid portid msg => exact modest (psend_modest suffice pid portid msg)
  | preceive pid portid => exact modest (preceive_modest s pid portid)
  | preset pid portid dispose =>
      dsimp only [Ports.preset]
      split
      · exact modest same
      · rename_i notClosed
        exact modest (ptclear_modest (open_of_not_closed notClosed).2 pid .alloc dispose)
  | pdelete pid portid dispose =>
      dsimp only [Ports.pdelete]
      split
      · exact modest same
      · rename_i notClosed
        exact modest (ptclear_modest (open_of_not_closed notClosed).2 pid .free dispose)
  | pcreate count ssem rsem =>
      obtain ⟨stopped, less⟩ := pcreate_provided sound.nextp few provided
      exact ⟨stopped.trans running, less⟩
  | go pid =>
      exact modest (goes_modest suffice (fun portid => (sound.ports portid).toStaffed) unwrapped)
  | elsewhere sems => exact modest (modest_of_ports rfl rfl)

theorem start_capacity (sems : Sems) (place : Int) : (Ports.start sems place).capacity = 0 := by
  apply List.sum_eq_zero
  intro number member
  obtain ⟨portid, _, same⟩ := List.mem_map.mp member
  rw [← same]
  rfl

end Runs

end MvsXinu.Ports
