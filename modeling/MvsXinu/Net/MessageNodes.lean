import MvsXinu.Memory.PortCapacity
import MvsXinu.Net.StackPorts

/-!
# Message nodes in the protocol stack

All the ports take their nodes from one list of `MAXMSGS`. Two UDP ports may hold twice as many
messages as there are nodes, and datagrams that nobody reads stop the machine.
-/

namespace MvsXinu.StackPorts

open MvsXinu.Kernel MvsXinu.Ports MvsXinu.Runs

set_option autoImplicit false

/-- The process is in no call. -/
def Stack.Calls (s : Stack) (pid : Int) : Prop :=
  IsProc pid ∧ s.ports.place pid = .idle ∧ s.behind pid = .nothing

def Stack.Screates (s : Stack) (count : Word) (ssem rsem : Int) : Prop :=
  Screated s.ports.sems ssem ∧ Screated (Ports.created s.ports.sems ssem count) rsem

/-- A process calls when it is in no other call, `screate` does what it says, and the rest of the
system leaves the semaphores of the ports alone. -/
def Allowed (s : Stack) : StackEvent → Prop
  | .tcpinp ssem rsem => s.Screates tcpqlen ssem rsem
  | .tcpout ssem rsem => s.Screates tcpqlen ssem rsem
  | .igmpUpdate ssem rsem => s.Screates hgTsize ssem rsem
  | .upalloc ssem rsem => s.Screates upplen ssem rsem
  | .tcpserver _ ssem rsem => s.Screates s.tcpsLqsize ssem rsem
  | .returns pid ssem rsem => s.ports.place pid = .idle ∧
      ∀ slot, s.behind pid = .tcplq slot → s.Screates (s.tcbtab slot).tcbLqsize ssem rsem
  | .dgclose pid _ => s.Calls pid
  | .tcplq pid _ _ => s.Calls pid
  | .tcbdealloc pid _ => s.Calls pid
  | .udpIn pid _ _ => s.Calls pid
  | .tcpIn pid _ => s.Calls pid
  | .tcpkick pid _ => s.Calls pid
  | .tcptimer pid _ _ _ => s.Calls pid
  | .tcpsynrcvd pid _ _ => s.Calls pid
  | .reads pid _ => s.Calls pid
  | .elsewhere sems => Ports.Allowed s.ports (.elsewhere sems)
  | _ => True

/-- The count of the port that a function creates. -/
def Stack.creates (s : Stack) : StackEvent → Option Word
  | .tcpinp _ _ => some tcpqlen
  | .tcpout _ _ => some tcpqlen
  | .igmpUpdate _ _ => some hgTsize
  | .upalloc _ _ =>
      ((List.range upps).find? fun slot => (s.upqs slot).upValid = false).map fun _ => upplen
  | .tcpserver slot _ _ => if (s.tcbtab slot).server then none else some s.tcpsLqsize
  | .returns pid _ _ =>
      match s.behind pid with
      | .tcplq slot => some (s.tcbtab slot).tcbLqsize
      | _ => none
  | _ => none

/-- A port is created for no more messages than the other ports leave nodes for. -/
def Sized (s : Stack) (event : StackEvent) : Prop :=
  ∀ count, s.creates event = some count →
    (∃ portid, ¬ isbadport portid ∧ (s.ports.ports portid).ptstate = .free) →
      s.ports.capacity + count.toNat ≤ maxmsgs

def Unwrapped (s : Stack) : StackEvent → Prop
  | .go pid => Ports.Unwrapped s.ports (.go pid)
  | _ => True

/-- `pcreate` returns the port that it has made, which was free. -/
theorem pcreateFinds_made {count : Word} {ssem rsem : Int} (tries : Nat) (s : Ports) :
    pcreateFinds tries s = Ports.syserr ∨
      (s.ports (pcreateFinds tries s)).ptstate = .free ∧
        (Ports.pcreateLoop count ssem rsem tries s).ports (pcreateFinds tries s) =
          { ptstate := .alloc, ptssem := ssem, ptrsem := rsem, ptmaxcnt := count
            ptseq := (s.ports (pcreateFinds tries s)).ptseq + 1, pthead := 0, pttail := 0 } := by
  induction tries generalizing s with
  | zero => exact Or.inl rfl
  | succ tries ih =>
      unfold pcreateFinds Ports.pcreateLoop
      dsimp only
      split
      · rename_i isFree
        exact Or.inr ⟨isFree, makes_entry _ _ _ _ _⟩
      · exact ih _

/-! ## The functions of the stack call those of the ports -/

section Calls

variable {s later : Stack}

/-- What the ports are promised. -/
def Promised (s : Ports) (call : PortCall) : Prop :=
  Ports.Allowed s call ∧ Ports.Unwrapped s call ∧ Provided s call

/-- The ports have stayed as they are, or have taken one step. -/
def Through (s later : Stack) : Prop :=
  later.ports = s.ports ∨
    ∃ call, later.ports = portStep s.ports call ∧ Promised s.ports call

theorem through_call {call : PortCall} (promised : Promised s.ports call) :
    Through s (s.call call) :=
  Or.inr ⟨call, rfl, promised⟩

theorem through_psend {pid : Int} (calls : s.Calls pid) (portid : Int) (msg : Word) :
    Through s (s.call (.psend pid portid msg)) :=
  through_call ⟨⟨calls.1, calls.2.1⟩, trivial, trivial⟩

theorem through_pdelete {pid : Int} (calls : s.Calls pid) (portid : Int) (dispose : Bool) :
    Through s (s.call (.pdelete pid portid dispose)) :=
  through_call ⟨calls.2.1, trivial, trivial⟩

theorem through_pcreate {count : Word} {ssem rsem : Int} (screates : s.Screates count ssem rsem)
    (provided : Provided s.ports (.pcreate count ssem rsem)) :
    Through s (s.call (.pcreate count ssem rsem)) :=
  through_call ⟨screates, trivial, provided⟩

theorem stackStep_through {event : StackEvent} (allowed : Allowed s event) (sized : Sized s event)
    (unwrapped : Unwrapped s event) : Through s (stackStep s event) := by
  have rest : Through s s := Or.inl rfl
  cases event with
  | tcpinp ssem rsem => exact through_pcreate allowed (sized tcpqlen rfl)
  | tcpout ssem rsem => exact through_pcreate allowed (sized tcpqlen rfl)
  | igmpUpdate ssem rsem => exact through_pcreate allowed (sized hgTsize rfl)
  | upalloc ssem rsem =>
      have provided := sized upplen
      unfold Stack.creates at provided
      unfold stackStep Stack.upalloc
      dsimp only at provided ⊢
      split
      · exact rest
      · rename_i slot found
        rw [found] at provided
        exact through_pcreate allowed (provided rfl)
  | dgmopen slot lport => exact rest
  | dgclose pid slot =>
      unfold stackStep Stack.dgclose
      dsimp only
      split
      · exact through_pdelete allowed _ true
      · exact rest
  | tcpmcntl lqsize => exact rest
  | tcpserver slot ssem rsem =>
      have provided := sized s.tcpsLqsize
      unfold Stack.creates at provided
      unfold stackStep Stack.tcpserver
      dsimp only at provided ⊢
      split
      · exact rest
      · rename_i notServer
        rw [if_neg notServer] at provided
        exact through_pcreate allowed (provided rfl)
  | tcplq pid slot lqsize =>
      unfold stackStep Stack.tcplq
      dsimp only
      split
      · exact through_pdelete allowed _ false
      · exact rest
  | tcbdealloc pid slot =>
      unfold stackStep Stack.tcbdealloc
      dsimp only
      split
      · exact through_pdelete allowed _ false
      · exact rest
  | returns pid ssem rsem =>
      unfold stackStep Stack.returns
      dsimp only
      split
      · exact rest
      · exact rest
      · rename_i slot isTcplq
        have creates : s.creates (.returns pid ssem rsem) = some (s.tcbtab slot).tcbLqsize := by
          unfold Stack.creates
          dsimp only
          rw [isTcplq]
        exact through_pcreate (allowed.2 slot isTcplq) (sized _ creates)
      · exact rest
  | udpIn pid dst pep =>
      unfold stackStep Stack.udpIn
      dsimp only
      split
      · exact rest
      · split
        · exact rest
        · exact through_psend allowed _ pep
  | tcpIn pid pep =>
      unfold stackStep Stack.tcpIn
      dsimp only
      split
      · exact rest
      · exact through_psend allowed _ pep
  | tcpkick pid tv =>
      unfold stackStep Stack.tcpkick
      dsimp only
      split
      · exact through_psend allowed _ tv
      · exact rest
  | tcptimer pid tqPort tqPortlen tqMsg =>
      unfold stackStep Stack.tcptimer
      dsimp only
      split
      · exact through_psend allowed _ tqMsg
      · exact rest
  | tcpsynrcvd pid slot dvnum =>
      unfold stackStep Stack.tcpsynrcvd
      dsimp only
      split
      · exact rest
      · exact through_psend allowed _ dvnum
  | reads pid reader => exact through_call ⟨⟨allowed.1, allowed.2.1⟩, trivial, trivial⟩
  | go pid => exact through_call ⟨trivial, unwrapped, trivial⟩
  | elsewhere sems => exact through_call ⟨allowed, trivial, trivial⟩

end Calls

/-! ## Runs -/

section Runs

variable {s : Stack} {place : Int}

/-- The ports are sound, and may hold no more messages than there are nodes. -/
def Supplied (place : Int) (s : Ports) : Prop :=
  (∃ free queue, Sound s place free queue) ∧ s.stopped = false ∧ s.capacity ≤ maxmsgs

theorem Supplied.step {s : Ports} (supplied : Supplied place s) {call : PortCall}
    (promised : Promised s call) : Supplied place (portStep s call) := by
  obtain ⟨⟨free, queue, sound⟩, running, few⟩ := supplied
  obtain ⟨allowed, unwrapped, provided⟩ := promised
  obtain ⟨stopped, less⟩ := portStep_provided sound running few unwrapped provided
  exact ⟨portStep_sound sound allowed unwrapped, stopped, less⟩

theorem supplied_along_run {sems : Sems} (above : 0 < place)
    (reached : Reach stackStep (fun s event => Allowed s event ∧ Sized s event ∧ Unwrapped s event)
      (Stack.start sems place) s) : Supplied place s.ports := by
  have initial : Supplied place (Ports.start sems place) :=
    ⟨⟨_, _, start_sound sems above⟩, rfl, (start_capacity sems place).trans_le (Nat.zero_le _)⟩
  apply @Reach.invariant _ _ stackStep _ (Stack.start sems place) s (fun s => Supplied place s.ports)
    reached initial
  rintro before event supplied ⟨allowed, sized, unwrapped⟩
  rcases stackStep_through allowed sized unwrapped with same | ⟨call, isCall, promised⟩
  · rwa [same]
  · rw [isCall]
    exact supplied.step promised

theorem message_nodes_suffice {sems : Sems} (above : 0 < place)
    (reached : Reach stackStep (fun s event => Allowed s event ∧ Sized s event ∧ Unwrapped s event)
      (Stack.start sems place) s) : NodesSuffice s.ports := by
  obtain ⟨⟨free, queue, sound⟩, running, few⟩ := supplied_along_run above reached
  exact sound.suffice running few

end Runs

/-! ## A segment for the TCP input process -/

/-- A server listens, and its segment is received. -/
def segment : List StackEvent :=
  [.tcpinp 199 198, .tcpout 197 196, .tcpserver 0 195 194, .tcpIn 1 7, .reads 2 .tcpinp]

theorem segment_finds_node :
    Permitted stackStep (fun s event => Allowed s event ∧ Sized s event ∧ Unwrapped s event)
        (Stack.start noSems 8) segment ∧
      ((segment.foldl stackStep (Stack.start noSems 8)).ports.book 99 1).received = [⟨1, 7⟩] ∧
      NodesSuffice (segment.foldl stackStep (Stack.start noSems 8)).ports := by
  have permitted : Permitted stackStep
      (fun s event => Allowed s event ∧ Sized s event ∧ Unwrapped s event)
      (Stack.start noSems 8) segment := by
    refine ⟨⟨⟨Or.inr ⟨by decide, rfl, rfl⟩, Or.inr ⟨by decide, by decide, rfl⟩⟩, ?_, trivial⟩,
      ⟨⟨Or.inr ⟨by decide, by decide, rfl⟩, Or.inr ⟨by decide, by decide, rfl⟩⟩, ?_, trivial⟩,
      ⟨⟨Or.inr ⟨by decide, by decide, rfl⟩, Or.inr ⟨by decide, by decide, rfl⟩⟩, ?_, trivial⟩,
      ⟨⟨⟨by decide, by decide⟩, by decide, rfl⟩, ?_, trivial⟩,
      ⟨⟨⟨by decide, by decide⟩, by decide, rfl⟩, ?_, trivial⟩, trivial⟩
    · intro count isCount _
      cases isCount
      decide +kernel
    · intro count isCount _
      cases isCount
      decide +kernel
    · intro count isCount _
      cases isCount
      decide +kernel
    · intro count isCount
      cases isCount
    · intro count isCount
      cases isCount
  refine ⟨permitted, by decide +kernel, ?_⟩
  exact message_nodes_suffice (by decide) (reach_of_permitted segment Reach.start permitted)

/-! ## Datagrams that nobody reads -/

def twoPorts : List StackEvent :=
  [.upalloc 199 198, .dgmopen 0 2051, .upalloc 197 196, .dgmopen 1 2052]

def datagrams : List StackEvent := List.replicate 50 (.udpIn 1 2051 7) ++ [.udpIn 1 2052 8]

theorem twoPorts_allowed : Permitted stackStep Allowed (Stack.start noSems 8) twoPorts :=
  ⟨⟨Or.inr ⟨by decide, rfl, rfl⟩, Or.inr ⟨by decide, by decide, rfl⟩⟩, trivial,
    ⟨Or.inr ⟨by decide, by decide, rfl⟩, Or.inr ⟨by decide, by decide, rfl⟩⟩, trivial, trivial⟩

/-- The process that has the datagrams does not block. -/
def Quiet (s : Stack) (_ : StackEvent) : Prop :=
  s.ports.place 1 = .idle ∧ s.behind 1 = .nothing

instance (s : Stack) (event : StackEvent) : Decidable (Quiet s event) :=
  inferInstanceAs (Decidable (_ ∧ _))

theorem quiet_allowed {s : Stack} (events : List StackEvent)
    (arrivals : ∀ event ∈ events, ∃ dst pep, event = .udpIn 1 dst pep)
    (quiet : Permitted stackStep Quiet s events) : Permitted stackStep Allowed s events := by
  induction events generalizing s with
  | nil => trivial
  | cons event rest ih =>
      obtain ⟨dst, pep, rfl⟩ := arrivals event List.mem_cons_self
      refine ⟨⟨⟨by decide, by decide⟩, quiet.1⟩, ih ?_ quiet.2⟩
      exact fun other member => arrivals other (List.mem_cons_of_mem _ member)

/-- The second port is empty when the nodes are used up. -/
theorem unread_datagrams_stop :
    ¬ ∀ sems place s, 0 < place → Reach stackStep Allowed (Stack.start sems place) s →
      NodesSuffice s.ports := by
  intro always
  have quiet : Permitted stackStep Quiet (twoPorts.foldl stackStep (Stack.start noSems 8))
      datagrams := by decide +kernel
  have arrivals : ∀ event ∈ datagrams, ∃ dst pep, event = .udpIn 1 dst pep := by
    intro event member
    rcases List.mem_append.mp member with first | second
    · exact ⟨2051, 7, List.eq_of_mem_replicate first⟩
    · exact ⟨2052, 8, List.mem_singleton.mp second⟩
  have opened := reach_of_permitted twoPorts Reach.start twoPorts_allowed
  have reached := reach_of_permitted datagrams opened (quiet_allowed datagrams arrivals quiet)
  have running := (always noSems 8 _ (by decide) reached).running
  have stopped : (datagrams.foldl stackStep
      (twoPorts.foldl stackStep (Stack.start noSems 8))).ports.stopped = true := by decide +kernel
  rw [stopped] at running
  cases running

end MvsXinu.StackPorts
