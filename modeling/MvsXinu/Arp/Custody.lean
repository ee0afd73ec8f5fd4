import MvsXinu.Arp.Cache
import MvsXinu.Lib.Stocks

/-!
# Where the packets are

A packet that was given to `netwrite` waits for an entry, is held by a call that is not finished,
or has been disposed of. No interleaving brings it to two of these places or to none.
-/

namespace MvsXinu.Arp

set_option autoImplicit false

def Packet.bufs (peps : List Packet) : List Nat := peps.map Packet.buf

def Claimant.held : Claimant → List Nat
  | .netwrite _ pep => [pep.buf]
  | .arpIn _ _ => []

def Frame.held : Frame → List Nat
  | .arpdq _ claimant => (claimant.map Claimant.held).getD []
  | .enqueue _ pep => [pep.buf]
  | _ => []

def Arpentry.stock (pae : Arpentry) : List Nat := Packet.bufs pae.waiting

def Cache.stock (s : Cache) : List Nat :=
  s.log.map (fun deed => deed.pep.buf) ++
    (List.finRange arpTsize).flatMap fun index => (s.arptable index).stock

def heldBy (frames : List Frame) : List Nat := frames.flatMap Frame.held

/-- Every packet, in every place that it has. -/
def System.stock (s : System) : List Nat := s.cache.stock ++ s.procs.flatMap heldBy

/-- A turn brings `more` into the stock, and takes nothing out of it. -/
def Balanced (s : Cache) (more : List Nat) (turn : Turn) : Prop :=
  ∀ item, turn.1.stock.count item + (heldBy turn.2).count item =
    s.stock.count item + more.count item

section Parts

variable {setting : Setting} {s : Cache} {index : Fin arpTsize} {item : Nat}

theorem done_count (pep : Packet) (fate : Fate) :
    (s.done pep fate).stock.count item = s.stock.count item + [pep.buf].count item := by
  simp only [Cache.done, Cache.stock, List.map_append, List.map_cons, List.map_nil,
    List.count_append]
  omega

theorem setEntry_count (pae : Arpentry) :
    (s.setEntry index pae).stock.count item + (s.arptable index).stock.count item =
      s.stock.count item + pae.stock.count item := by
  have moved := Stocks.count_flatMap_update (List.nodup_finRange arpTsize)
    (List.mem_finRange index) s.arptable pae Arpentry.stock item
  simp only [Cache.setEntry, Cache.stock, List.count_append]
  omega

/-- The queue of the entry stays as it is. -/
theorem setEntry_same {pae : Arpentry} (queue : pae.queue = (s.arptable index).queue) :
    (s.setEntry index pae).stock.count item = s.stock.count item := by
  have same : pae.stock = (s.arptable index).stock := by
    simp only [Arpentry.stock, Arpentry.waiting, queue]
  have moved := @setEntry_count s index item pae
  rw [same] at moved
  omega

theorem forget_count :
    (s.forget index).stock.count item =
      s.stock.count item + (s.arptable index).stock.count item := by
  simp only [Cache.forget, Cache.stock, Arpentry.stock, Packet.bufs, List.map_append,
    List.map_map, List.count_append]
  rw [show ((fun deed : Deed => deed.pep.buf) ∘ fun pep => (⟨pep, .lost⟩ : Deed)) = Packet.buf
    from rfl]
  omega

/-- The packets of an overwritten queue are in the log. -/
theorem overwritten_count {pae : Arpentry} (queue : pae.queue = none) :
    ((s.forget index).setEntry index pae).stock.count item = s.stock.count item := by
  have empty : pae.stock = [] := by
    simp [Arpentry.stock, Arpentry.waiting, queue, Packet.bufs]
  have moved := @setEntry_count (s.forget index) index item pae
  have logged := @forget_count s index item
  have table : (s.forget index).arptable = s.arptable := rfl
  rw [empty, table] at moved
  simp only [List.count_nil] at moved
  omega

theorem setQueue_count (queue : Option (Gpq.Queue Packet)) :
    (s.setQueue index queue).stock.count item + (s.arptable index).stock.count item =
      s.stock.count item + (Packet.bufs ((queue.map Gpq.elements).getD [])).count item :=
  setEntry_count _

theorem deq_stock {pep : Packet} {queue : Gpq.Queue Packet} {pae : Arpentry}
    (taken : pae.queue.bind Gpq.deq = some (pep, queue)) :
    pae.stock = pep.buf :: Packet.bufs (Gpq.elements queue) := by
  obtain ⟨before, queued, front⟩ := Option.bind_eq_some_iff.mp taken
  have elements := Gpq.deq_elements before queue pep front
  simp [Arpentry.stock, Arpentry.waiting, queued, elements, Packet.bufs]

theorem deq_empty {pae : Arpentry} (nothing : pae.queue.bind Gpq.deq = none) :
    pae.stock = [] := by
  cases queued : pae.queue with
  | none => simp [Arpentry.stock, Arpentry.waiting, queued, Packet.bufs]
  | some queue =>
      rw [queued, Option.bind_some, Gpq.deq] at nothing
      split at nothing
      · next empty =>
          simp [Arpentry.stock, Arpentry.waiting, queued, Packet.bufs, Gpq.elements, empty]
      · cases nothing

/-- The first packet of the queue is taken out. -/
theorem dequeued_count {pep : Packet} {queue : Gpq.Queue Packet}
    (taken : (s.arptable index).queue.bind Gpq.deq = some (pep, queue)) :
    (s.setQueue index (some queue)).stock.count item + [pep.buf].count item =
      s.stock.count item := by
  have moved := @setQueue_count s index item (some queue)
  rw [deq_stock taken, List.count_cons] at moved
  simp only [Option.map_some, Option.getD_some] at moved
  rw [List.count_singleton]
  omega

/-- A queue that is empty is given back. -/
theorem freeq_count (nothing : (s.arptable index).queue.bind Gpq.deq = none) :
    (s.setQueue index none).stock.count item = s.stock.count item := by
  have moved := @setQueue_count s index item none
  rw [deq_empty nothing] at moved
  simpa [Packet.bufs] using moved

theorem arpsend_count (pni : Nat) (found : Bool) :
    (s.arpsend setting index pni found).stock = s.stock := by
  unfold Cache.arpsend
  split <;> rfl

theorem answer_count (ifn : Nat) (parp : Arp) :
    (s.answer setting ifn parp).stock = s.stock := by
  unfold Cache.answer
  split <;> rfl

/-! ## Turns -/

theorem grant_balanced (claimant : Claimant) :
    Balanced s claimant.held (s.grant setting index claimant) := by
  intro item
  cases claimant with
  | netwrite ifn pep =>
      simp only [Cache.grant, Cache.pend, heldBy, List.flatMap_cons, List.flatMap_nil,
        Frame.held, Claimant.held, List.nil_append, List.append_nil]
      rw [overwritten_count rfl]
  | arpIn ifn parp =>
      simp only [Cache.grant, answer_count, Cache.arpadd, heldBy, List.flatMap_nil,
        Claimant.held]
      rw [overwritten_count rfl]

theorem arpdq_balanced (claimant : Option Claimant) :
    Balanced s ((claimant.map Claimant.held).getD []) (s.arpdq setting index claimant) := by
  intro item
  unfold Cache.arpdq
  dsimp only
  split
  · next pep queue taken =>
      have out := @dequeued_count s index item pep queue taken
      simp only [done_count, heldBy, List.flatMap_cons, List.flatMap_nil, List.append_nil,
        Frame.held]
      omega
  · next nothing =>
      have back := @freeq_count s index item nothing
      cases claimant with
      | none => simpa [heldBy] using back
      | some claimant =>
          have given := @grant_balanced setting (s.setQueue index none) index claimant item
          simp only [Option.map_some, Option.getD_some]
          omega

theorem arpalloc_balanced (claimant : Claimant) :
    Balanced s claimant.held (s.arpalloc setting claimant) := by
  unfold Cache.arpalloc
  dsimp only
  split
  · exact arpdq_balanced (some claimant)
  · exact grant_balanced claimant

theorem enqueue_count (pep : Packet) (found : Bool) :
    (s.enqueue index pep found).stock.count item =
      s.stock.count item + [pep.buf].count item := by
  unfold Cache.enqueue
  split
  · exact done_count pep .freed
  · next queue made =>
      have start : (s.arptable index).stock = Packet.bufs (Gpq.elements queue) := by
        cases queued : (s.arptable index).queue with
        | some before =>
            rw [queued] at made
            have same : before = queue := Option.some.inj made
            simp [Arpentry.stock, Arpentry.waiting, queued, same]
        | none =>
            rw [queued, Option.none_or] at made
            split at made
            · rw [← Option.some.inj made]
              simp [Arpentry.stock, Arpentry.waiting, queued, Gpq.elements, Gpq.newq]
            · cases made
      split
      · have moved := @setQueue_count s index item (some queue)
        rw [start] at moved
        simp only [Option.map_some, Option.getD_some] at moved
        rw [done_count]
        omega
      · next left after joined =>
          have moved := @setQueue_count s index item (some after)
          have permuted := ((Gpq.enq_perm joined).map Packet.buf).count_eq item
          rw [start] at moved
          simp only [Option.map_some, Option.getD_some, Packet.bufs] at moved
          rw [List.map_cons, List.count_cons] at permuted
          rw [List.count_singleton]
          omega

theorem done_balanced (pep : Packet) (fate : Fate) : Balanced s [pep.buf] (s.done pep fate, []) :=
  fun _ => done_count pep fate

theorem netwrite_balanced (ifn : Nat) (pep : Packet) (found : Bool) :
    Balanced s [pep.buf] (s.netwrite setting ifn pep found) := by
  unfold Cache.netwrite
  split
  · exact done_balanced pep _
  · split
    · exact done_balanced pep _
    · split
      · exact done_balanced _ _
      · split
        · dsimp only
          split
          · exact done_balanced _ _
          · split
            · exact done_balanced pep _
            · exact fun _ => enqueue_count pep found
        · split
          · exact done_balanced pep _
          · exact arpalloc_balanced (.netwrite ifn pep)

theorem arpqsend_balanced (pni ifn : Nat) (parp : Arp) (found : Bool) :
    Balanced s [] (s.arpqsend setting index pni ifn parp found) := by
  intro item
  unfold Cache.arpqsend
  split
  · next pep queue taken =>
      have out := @dequeued_count s index item pep queue taken
      have written := @netwrite_balanced setting (s.setQueue index (some queue)) pni pep found item
      simp only [heldBy, List.flatMap_append, List.flatMap_cons, List.flatMap_nil, Frame.held,
        List.append_nil, List.count_nil] at written ⊢
      omega
  · next nothing =>
      simp only [answer_count, freeq_count nothing, heldBy, List.flatMap_nil]

theorem refresh_count (parp : Arp) :
    (s.refresh index parp).stock.count item = s.stock.count item :=
  setEntry_same rfl

theorem resolve_count : (s.resolve index).stock.count item = s.stock.count item := by
  have entry : (s.resolve index).stock.count item = (s.take index).stock.count item :=
    setEntry_same rfl
  exact entry

theorem arpIn_balanced (ifn : Nat) (parp : Arp) (found : Bool) :
    Balanced s [] (s.arpIn setting ifn parp found) := by
  intro item
  unfold Cache.arpIn
  split
  · rfl
  · split
    · split
      · exact arpalloc_balanced (.arpIn ifn parp) item
      · rfl
    · next index _ =>
        dsimp only
        split
        · split
          · have sent := @arpqsend_balanced setting ((s.refresh index parp).resolve index) index
              ((s.refresh index parp).arptable index).pni ifn parp found item
            rw [sent, resolve_count, refresh_count]
          · simp only [answer_count, refresh_count, heldBy, List.flatMap_nil]
        · simp only [refresh_count, heldBy, List.flatMap_nil]

theorem arptimer_balanced (place : Nat) (gran : Int) :
    Balanced s [] (s.arptimer setting place gran) := by
  intro item
  unfold Cache.arptimer
  split
  · next inside =>
      set index : Fin arpTsize := ⟨place, inside⟩
      have kept : ∀ pae : Arpentry, pae.queue = (s.arptable index).queue →
          ((s.take index).setEntry index pae).stock.count item = s.stock.count item := by
        intro pae queue
        have entry := @setEntry_same (s.take index) index item pae queue
        exact entry
      dsimp only
      split
      · rfl
      · split
        · exact setEntry_same rfl
        · split
          · exact kept _ rfl
          · split
            · set gone : Arpentry := { s.arptable index with
                ttl := (s.arptable index).ttl - gran
                state := .free
                attempts := (s.arptable index).attempts + 1 } with goneEq
              have same := kept gone rfl
              have dropped := @arpdq_balanced setting ((s.take index).setEntry index gone) index
                none item
              simp only [heldBy, List.flatMap_append, List.flatMap_cons, List.flatMap_nil,
                Frame.held, List.append_nil, Option.map_none, Option.getD_none,
                List.count_nil] at dropped ⊢
              omega
            · exact setEntry_same rfl
  · rfl

theorem turn_balanced (found : Bool) (frame : Frame) :
    Balanced s frame.held (s.turn setting found frame) := by
  cases frame with
  | arpdq index claimant => exact arpdq_balanced claimant
  | arpsend index pni =>
      intro item
      simp only [Cache.turn, arpsend_count, heldBy, List.flatMap_nil, Frame.held]
  | enqueue index pep => exact fun _ => enqueue_count pep found
  | arpqsend index pni ifn parp => exact arpqsend_balanced pni ifn parp found
  | arptimer place gran => exact arptimer_balanced place gran

end Parts

/-! ## Runs -/

section Systems

variable {setting : Setting} {s : System} {item : Nat}

theorem spawn_count {start : Cache} {more : List Nat} {turn : Turn}
    (balanced : Balanced start more turn) (same : start.stock = s.cache.stock) :
    (s.spawn turn).stock.count item = s.stock.count item + more.count item := by
  have turned := balanced item
  rw [same] at turned
  simp only [System.spawn, System.stock, List.flatMap_append, List.flatMap_cons,
    List.flatMap_nil, List.append_nil, List.count_append]
  omega

theorem resume_count (proc : Nat) (found : Bool) :
    (step setting s (.resume proc found)).stock.count item = s.stock.count item := by
  simp only [step]
  split
  · next frame rest located =>
      have turned := @turn_balanced setting s.cache found frame item
      have moved := Stocks.count_flatMap_set ((s.cache.turn setting found frame).2 ++ rest) heldBy
        located item
      simp only [heldBy, List.flatMap_append, List.flatMap_cons, List.count_append] at turned moved
      simp only [System.stock, List.count_append, heldBy]
      omega
  · rfl

theorem resume_issued (proc : Nat) (found : Bool) :
    (step setting s (.resume proc found)).issued = s.issued := by
  simp only [step]
  split <;> rfl

theorem step_settled (event : Event) (settled : Stocks.Settled s.issued s.stock) :
    Stocks.Settled (step setting s event).issued (step setting s event).stock := by
  cases event with
  | netwrite ifn nexthop type len found =>
      set pep : Packet := ⟨s.issued, ifn, nexthop, type, len, zeros⟩ with pepEq
      have written := @netwrite_balanced setting s.cache ifn pep found
      have next : Stocks.Settled (s.issued + 1) (s.issued :: s.stock) := settled.issue
      refine next.of_count ?_
      intro item
      have counted := @spawn_count { s with issued := s.issued + 1 } item s.cache [pep.buf] _
        written rfl
      have same : ({ s with issued := s.issued + 1 } : System).stock = s.stock := rfl
      rw [same] at counted
      rw [List.count_cons]
      rw [List.count_singleton] at counted
      exact counted
  | arpIn ifn parp found =>
      refine settled.of_count ?_
      intro item
      set told : Cache := { s.cache with heard := s.cache.heard ++ [(ifn, parp)] } with toldEq
      exact spawn_count (@arpIn_balanced setting told ifn parp found) rfl
  | arptimer gran =>
      refine settled.of_count ?_
      intro item
      have started : Balanced s.cache [] (s.cache, [.arptimer 0 gran]) := fun _ => rfl
      exact spawn_count started rfl
  | resume proc found =>
      rw [resume_issued]
      exact settled.of_count fun _ => resume_count proc found
  | interface ifn up => exact settled

end Systems

end MvsXinu.Arp
