import MvsXinu.Kernel.Messages

/-!
# The law of messages along every run

`sendf` does not wake a process that waits in `recvtim`, and its counter of messages wraps
around after 256; the run has to keep clear of both.
-/

namespace MvsXinu.Kernel

open MvsXinu.Runs MvsXinu.Mailboxes

set_option autoImplicit false

def Receiving.state : Receiving → Pstate
  | .receive => .recv
  | .recvtim => .trecv

/-- What a turn can do to the messages. -/
inductive Moved (m : Mail) (event : Call × Scene) : Mail → Prop
  | idle {later : Xinu} (settled : ∃ lists, Settled later lists)
      (unmailed : ∀ pid, Unmailed (m.kernel.proctab pid) (later.proctab pid)) :
      Moved m event { m with kernel := later }
  | takes (receives : m.receives event m.kernel.currpid) : Moved m event m.take
  | waits {later : Xinu} (settled : ∃ lists, Settled later lists) (how : Receiving)
      (nothing : (m.kernel.proctab m.kernel.currpid).phasmsg = 0)
      (table : ∀ pid, Roused (Function.update m.kernel.proctab m.kernel.currpid
        { m.kernel.proctab m.kernel.currpid with pstate := how.state } pid)
        (later.proctab pid)) :
      Moved m event
        { m with
          kernel := later
          inside := Function.update m.inside m.kernel.currpid (some how) }
  | posts {later : Xinu} (settled : ∃ lists, Settled later lists) (pid : Int) (msg : BitVec 32)
      (count : BitVec 8) (pending : count ≠ 0)
      (replaces : m.replaces event pid ∨ (m.kernel.proctab pid).phasmsg = 0)
      (table : ∀ other, Roused (Function.update m.kernel.proctab pid
        { m.kernel.proctab pid with
          pmsg := msg, phasmsg := count
          pstate := (m.kernel.proctab pid).pstate.notified false } other)
        (later.proctab other)) :
      Moved m event { m with kernel := later, boxes := m.boxes.post pid msg }
  | starts {later : Xinu} (settled : ∃ lists, Settled later lists) (pid : Int)
      (priority : BitVec 32) (replaces : m.replaces event pid)
      (table : ∀ other, Roused (Function.update m.kernel.proctab pid
        { pstate := .susp, pprio := priority, psem := 0, phasmsg := 0, pmsg := 0 } other)
        (later.proctab other)) :
      Moved m event
        { kernel := later
          inside := Function.update m.inside pid none
          boxes := m.boxes.clear pid }

structure Mail.Sound (m : Mail) (lists : Int → List Int) : Prop where
  settled : Settled m.kernel lists
  slots : ∀ pid, (m.kernel.proctab pid).phasmsg = 0 ↔ m.boxes.slot pid = none
  contents : ∀ pid letter, m.boxes.slot pid = some letter →
    (m.kernel.proctab pid).pmsg = letter.msg
  waiting : ∀ pid, (m.kernel.proctab pid).pstate = .recv ∨
    (m.kernel.proctab pid).pstate = .trecv → (m.kernel.proctab pid).phasmsg = 0
  served : ∀ pid, m.inside pid = some .receive → (m.kernel.proctab pid).pstate = .recv ∨
    (m.kernel.proctab pid).pstate = .free ∨ (m.kernel.proctab pid).phasmsg ≠ 0
  once : m.boxes.Once

theorem noMail_sound : noMail.Sound (fun _ => []) where
  settled := booted_settled
  slots := fun pid => ⟨fun _ => rfl, fun _ => rfl⟩
  contents := fun pid letter found => by cases found
  waiting := fun pid _ => rfl
  served := fun pid inside => by cases inside
  once := emptyBoxes_once

section Moves

variable {m later : Mail} {lists after : Int → List Int} {event : Call × Scene}

/-- Who waits for a message has been left alone. -/
theorem Roused.waits_state {before after : Pentry} (roused : Roused before after)
    (waits : after.pstate = .recv ∨ after.pstate = .trecv) :
    before.pstate = .recv ∨ before.pstate = .trecv := by
  rw [roused.unmailed.waits waits] at waits
  exact waits

theorem Pstate.notified_awake (state : Pstate) :
    state.notified false ≠ .recv ∧ state.notified false ≠ .trecv := by
  cases state with
  | _ => exact ⟨by decide, by decide⟩

theorem Mail.Sound.serves (sound : m.Sound lists) {pid : Int}
    (inside : m.inside pid = some .receive) {entry : Pentry}
    (unmailed : Unmailed (m.kernel.proctab pid) entry) :
    entry.pstate = .recv ∨ entry.pstate = .free ∨ entry.phasmsg ≠ 0 := by
  rw [unmailed.phasmsg]
  rcases sound.served pid inside with receives | isFree | pending
  · rcases unmailed.receives receives with still | killed
    · exact Or.inl still
    · exact Or.inr (Or.inl killed)
  · exact Or.inr (Or.inl (unmailed.isFree isFree))
  · exact Or.inr (Or.inr pending)

theorem Mail.Sound.idle (sound : m.Sound lists) {later : Xinu} (settled : Settled later after)
    (unmailed : ∀ pid, Unmailed (m.kernel.proctab pid) (later.proctab pid)) :
    Mail.Sound { m with kernel := later } after where
  settled := settled
  slots := by
    intro pid
    rw [(unmailed pid).phasmsg]
    exact sound.slots pid
  contents := by
    intro pid letter found
    rw [(unmailed pid).pmsg]
    exact sound.contents pid letter found
  waiting := by
    intro pid waits
    rw [(unmailed pid).phasmsg]
    rw [(unmailed pid).waits waits] at waits
    exact sound.waiting pid waits
  served := fun pid inside => sound.serves inside (unmailed pid)
  once := sound.once

theorem Mail.Sound.take (sound : m.Sound lists) : ∃ after, m.take.Sound after := by
  rcases received_becomes sound.settled with ⟨after, settled, rest⟩
  have self : (m.take.kernel.proctab m.kernel.currpid) =
      { m.kernel.proctab m.kernel.currpid with phasmsg := 0 } := Function.update_self _ _ _
  have other : ∀ pid, pid ≠ m.kernel.currpid →
      m.take.kernel.proctab pid = m.kernel.proctab pid := by
    intro pid away
    exact Function.update_of_ne away _ _
  refine ⟨after, settled, ?_, ?_, ?_, ?_, sound.once.take _⟩
  · intro pid
    by_cases same : pid = m.kernel.currpid
    · rw [same, self]
      exact ⟨fun _ => Boxes.take_slot_self _, fun _ => rfl⟩
    · rw [other pid same]
      show _ ↔ (m.boxes.take m.kernel.currpid).slot pid = none
      rw [Boxes.take_slot_other same]
      exact sound.slots pid
  · intro pid letter found
    by_cases same : pid = m.kernel.currpid
    · rw [same] at found
      have none : m.take.boxes.slot m.kernel.currpid = none := Boxes.take_slot_self _
      rw [none] at found
      cases found
    · rw [other pid same]
      have found : (m.boxes.take m.kernel.currpid).slot pid = some letter := found
      rw [Boxes.take_slot_other same] at found
      exact sound.contents pid letter found
  · intro pid waits
    by_cases same : pid = m.kernel.currpid
    · rw [same, self]
    · rw [other pid same] at waits ⊢
      exact sound.waiting pid waits
  · intro pid inside
    by_cases same : pid = m.kernel.currpid
    · have outside : m.take.inside pid = none := by
        rw [same]
        exact Function.update_self _ _ _
      rw [outside] at inside
      cases inside
    · have kept : m.take.inside pid = m.inside pid := Function.update_of_ne same _ _
      rw [kept] at inside
      rw [other pid same]
      exact sound.served pid inside

theorem Mail.Sound.waits (sound : m.Sound lists) {later : Xinu} (settled : Settled later after)
    (how : Receiving) (nothing : (m.kernel.proctab m.kernel.currpid).phasmsg = 0)
    (table : ∀ pid, Roused (Function.update m.kernel.proctab m.kernel.currpid
      { m.kernel.proctab m.kernel.currpid with pstate := how.state } pid) (later.proctab pid)) :
    Mail.Sound { m with
      kernel := later
      inside := Function.update m.inside m.kernel.currpid (some how) } after := by
  have self := table m.kernel.currpid
  rw [Function.update_self] at self
  have other : ∀ pid, pid ≠ m.kernel.currpid →
      Roused (m.kernel.proctab pid) (later.proctab pid) := by
    intro pid away
    have roused := table pid
    rw [Function.update_of_ne away] at roused
    exact roused
  have counts : ∀ pid, (later.proctab pid).phasmsg = (m.kernel.proctab pid).phasmsg := by
    intro pid
    by_cases same : pid = m.kernel.currpid
    · rw [same, self.phasmsg]
    · exact (other pid same).phasmsg
  refine ⟨settled, ?_, ?_, ?_, ?_, sound.once⟩
  · intro pid
    rw [counts pid]
    exact sound.slots pid
  · intro pid letter found
    by_cases same : pid = m.kernel.currpid
    · rw [same] at found
      have none := (sound.slots m.kernel.currpid).mp nothing
      rw [none] at found
      cases found
    · rw [(other pid same).pmsg]
      exact sound.contents pid letter found
  · intro pid waits
    rw [counts pid]
    by_cases same : pid = m.kernel.currpid
    · rw [same]
      exact nothing
    · exact sound.waiting pid ((other pid same).waits_state waits)
  · intro pid inside
    by_cases same : pid = m.kernel.currpid
    · have entered : Function.update m.inside m.kernel.currpid (some how) m.kernel.currpid =
          some .receive := same ▸ inside
      rw [Function.update_self] at entered
      cases entered
      left
      rw [same]
      exact self.deaf_state (Or.inl rfl)
    · have before : Function.update m.inside m.kernel.currpid (some how) pid =
          some .receive := inside
      rw [Function.update_of_ne same] at before
      exact sound.serves before (other pid same).unmailed

theorem Mail.Sound.posts (sound : m.Sound lists) {later : Xinu} (settled : Settled later after)
    (pid : Int) (msg : BitVec 32) {count : BitVec 8} (pending : count ≠ 0)
    (table : ∀ other, Roused (Function.update m.kernel.proctab pid
      { m.kernel.proctab pid with
        pmsg := msg, phasmsg := count
        pstate := (m.kernel.proctab pid).pstate.notified false } other) (later.proctab other)) :
    Mail.Sound { m with kernel := later, boxes := m.boxes.post pid msg } after := by
  have self := table pid
  rw [Function.update_self] at self
  have others : ∀ other, other ≠ pid →
      Unmailed (m.kernel.proctab other) (later.proctab other) := by
    intro other away
    have roused := table other
    rw [Function.update_of_ne away] at roused
    exact roused.unmailed
  refine ⟨settled, ?_, ?_, ?_, ?_, sound.once.post pid msg⟩
  · intro other
    by_cases same : other = pid
    · rw [same, self.phasmsg, Boxes.post_slot_self]
      constructor
      · intro nothing
        exact absurd nothing pending
      · intro found
        cases found
    · rw [(others other same).phasmsg, Boxes.post_slot_other same]
      exact sound.slots other
  · intro other letter found
    by_cases same : other = pid
    · rw [same, Boxes.post_slot_self] at found
      rw [same, self.pmsg, ← Option.some.inj found]
    · rw [Boxes.post_slot_other same] at found
      rw [(others other same).pmsg]
      exact sound.contents other letter found
  · intro other waits
    by_cases same : other = pid
    · rw [same] at waits
      have awake := Pstate.notified_awake (m.kernel.proctab pid).pstate
      rcases self.waits_state waits with receives | times
      · exact absurd receives awake.1
      · exact absurd times awake.2
    · rw [(others other same).phasmsg]
      rw [(others other same).waits waits] at waits
      exact sound.waiting other waits
  · intro other inside
    by_cases same : other = pid
    · right
      right
      rw [same, self.phasmsg]
      exact pending
    · exact sound.serves inside (others other same)

theorem Mail.Sound.starts (sound : m.Sound lists) {later : Xinu} (settled : Settled later after)
    (pid : Int) (priority : BitVec 32)
    (table : ∀ other, Roused (Function.update m.kernel.proctab pid
      { pstate := .susp, pprio := priority, psem := 0, phasmsg := 0, pmsg := 0 } other)
      (later.proctab other)) :
    Mail.Sound { kernel := later
                 inside := Function.update m.inside pid none
                 boxes := m.boxes.clear pid } after := by
  have self := table pid
  rw [Function.update_self] at self
  have others : ∀ other, other ≠ pid →
      Unmailed (m.kernel.proctab other) (later.proctab other) := by
    intro other away
    have roused := table other
    rw [Function.update_of_ne away] at roused
    exact roused.unmailed
  refine ⟨settled, ?_, ?_, ?_, ?_, sound.once.clear pid⟩
  · intro other
    by_cases same : other = pid
    · rw [same, self.phasmsg, Boxes.clear_slot_self]
      exact ⟨fun _ => rfl, fun _ => rfl⟩
    · rw [(others other same).phasmsg, Boxes.clear_slot_other same]
      exact sound.slots other
  · intro other letter found
    rcases Boxes.clear_slot found with ⟨away, before⟩
    rw [(others other away).pmsg]
    exact sound.contents other letter before
  · intro other waits
    by_cases same : other = pid
    · rw [same, self.phasmsg]
    · rw [(others other same).phasmsg]
      rw [(others other same).waits waits] at waits
      exact sound.waiting other waits
  · intro other inside
    by_cases same : other = pid
    · have outside : Function.update m.inside pid none pid = some .receive := same ▸ inside
      rw [Function.update_self] at outside
      cases outside
    · have before : Function.update m.inside pid none other = some .receive := inside
      rw [Function.update_of_ne same] at before
      exact sound.serves before (others other same)

theorem Moved.sound (moved : Moved m event later) (sound : m.Sound lists) :
    ∃ after, later.Sound after := by
  cases moved with
  | idle settled unmailed =>
      rcases settled with ⟨after, settled⟩
      exact ⟨after, sound.idle settled unmailed⟩
  | takes receives => exact sound.take
  | waits settled how nothing table =>
      rcases settled with ⟨after, settled⟩
      exact ⟨after, sound.waits settled how nothing table⟩
  | posts settled pid msg count pending replaces table =>
      rcases settled with ⟨after, settled⟩
      exact ⟨after, sound.posts settled pid msg pending table⟩
  | starts settled pid priority replaces table =>
      rcases settled with ⟨after, settled⟩
      exact ⟨after, sound.starts settled pid priority table⟩

/-! ## Which of these a turn does -/

section Turns

theorem xsend_ok {k : Xinu} {scene : Scene} {pid : Int} {msg : BitVec 32} :
    (xsend k scene pid msg).1 = ok ↔
      ¬ (isbadpid pid ∨ (k.proctab pid).pstate = .free ∨ (k.proctab pid).phasmsg ≠ 0) := by
  simp only [xsend]
  split
  · rename_i refused
    simp only [refused, not_true_eq_false, iff_false]
    decide
  · rename_i accepted
    simp only [accepted, not_false_eq_true]

theorem sendf_ok {k : Xinu} {scene : Scene} {pid : Int} {msg : BitVec 32} :
    (sendf k scene pid msg).1 = ok ↔ ¬ (isbadpid pid ∨ (k.proctab pid).pstate = .free) := by
  simp only [sendf]
  split
  · rename_i refused
    simp only [refused, not_true_eq_false, iff_false]
    decide
  · rename_i accepted
    split
    · simp only [accepted, not_false_eq_true]
    · simp only [accepted, not_false_eq_true]

theorem count_up {count : BitVec 8} (room : count ≠ 255) : count + 1 ≠ 0 := by
  intro zero
  apply room
  bv_omega

theorem Pstate.notified_forced {state : Pstate} (untimed : state ≠ .trecv) :
    state.notified true = state.notified false := by
  cases state with
  | trecv => exact absurd rfl untimed
  | _ => rfl

theorem calls_moved (settled : Settled m.kernel lists) (delivering : Delivering m event)
    (outside : m.inside m.kernel.currpid = none) : Moved m event (m.calls event) := by
  rcases event with ⟨call, scene⟩
  rcases delivering with ⟨orderly, deliverable⟩
  have table := step_table settled orderly
  have settles : ∃ after, Settled (turn m.kernel (call, scene)) after := by
    rcases step_becomes settled orderly with ⟨after, settled, rest⟩
    exact ⟨after, settled⟩
  have idle : call.wordless = true →
      Moved m (call, scene) { m with kernel := turn m.kernel (call, scene) } := by
    intro wordless
    apply Moved.idle settles
    intro pid
    exact (edited_unmailed settled wordless deliverable pid).trans (table pid).unmailed
  have unedited : edited m.kernel call = m.kernel.proctab →
      Moved m (call, scene) { m with kernel := turn m.kernel (call, scene) } := by
    intro same
    apply Moved.idle settles
    intro pid
    have roused := table pid
    rw [same] at roused
    exact roused.unmailed
  cases call with
  | create stack priority =>
      simp only [Mail.calls]
      split
      · rename_i none
        exact unedited (if_pos none)
      · rename_i created
        simp only [edited, if_neg created] at table
        exact Moved.starts settles _ priority (Or.inr ⟨outside, stack, priority, rfl, rfl⟩) table
  | receive =>
      simp only [Mail.calls]
      split
      · rename_i pending
        apply Moved.takes
        exact ⟨rfl, by simp only [Mail.receipt, outside, if_pos pending, Option.isSome_some]⟩
      · rename_i nothing
        simp only [Xinu.pending, not_not] at nothing
        simp only [edited, if_pos nothing] at table
        exact Moved.waits settles .receive nothing table
  | recvtim maxwait =>
      simp only [Mail.calls]
      split
      · rename_i refused
        exact unedited (if_pos (Or.inl refused))
      · rename_i valid
        split
        · rename_i pending
          apply Moved.takes
          refine ⟨rfl, ?_⟩
          simp only [Mail.receipt, outside, if_pos (And.intro valid pending), Option.isSome_some]
        · rename_i nothing
          simp only [Xinu.pending, not_not] at nothing
          have blocks : ¬ ((maxwait.slt 0 ∨ m.kernel.clkruns = false) ∨
              (m.kernel.proctab m.kernel.currpid).phasmsg ≠ 0) :=
            not_or.mpr ⟨valid, not_not.mpr nothing⟩
          simp only [edited, if_neg blocks] at table
          exact Moved.waits settles .recvtim nothing table
  | received =>
      apply Moved.takes
      exact ⟨rfl, by simp only [Mail.receipt, outside, Option.isSome_some]⟩
  | xsend pid msg =>
      simp only [Mail.calls]
      split
      · rename_i accepted
        have valid := xsend_ok.mp accepted
        simp only [edited, if_neg valid] at table
        have nothing : (m.kernel.proctab pid).phasmsg = 0 := by
          simp only [not_or, not_not] at valid
          exact valid.2.2
        exact Moved.posts settles pid msg 1 (by decide) (Or.inr nothing) table
      · rename_i refused
        exact unedited (if_pos (not_not.mp (fun valid => refused (xsend_ok.mpr valid))))
  | sendf pid msg =>
      simp only [Mail.calls]
      split
      · rename_i accepted
        have valid := sendf_ok.mp accepted
        simp only [edited, if_neg valid] at table
        simp only [not_or] at valid
        rcases (deliverable.resolve_left valid.1).resolve_left valid.2 with ⟨untimed, room⟩
        rw [Pstate.notified_forced untimed] at table
        have replaces : m.replaces (.sendf pid msg, scene) pid :=
          Or.inl ⟨msg, rfl, outside, Or.inr ⟨rfl, accepted⟩⟩
        exact Moved.posts settles pid msg _ (count_up room) (Or.inl replaces) table
      · rename_i refused
        exact unedited (if_pos (not_not.mp (fun valid => refused (sendf_ok.mpr valid))))
  | _ => exact idle rfl

theorem mailTurn_timer (m : Mail) (scene : Scene) :
    mailTurn m (.timerPop, scene) = { m with kernel := turn m.kernel (.timerPop, scene) } := rfl

theorem mailTurn_inside {how : Receiving} (inside : m.inside m.kernel.currpid = some how)
    (notTimer : event.1 ≠ .timerPop) : mailTurn m event = m.take := by
  rcases event with ⟨call, scene⟩
  cases call with
  | timerPop => exact absurd rfl notTimer
  | _ => simp only [mailTurn, inside]

theorem mailTurn_outside (outside : m.inside m.kernel.currpid = none) :
    mailTurn m event = m.calls event := by
  rcases event with ⟨call, scene⟩
  cases call with
  | _ => simp only [mailTurn, outside, Mail.calls]

theorem receipt_inside {how : Receiving} (inside : m.inside m.kernel.currpid = some how)
    (notTimer : event.1 ≠ .timerPop) : (m.receipt event).isSome := by
  rcases event with ⟨call, scene⟩
  cases call with
  | timerPop => exact absurd rfl notTimer
  | _ =>
      cases how with
      | _ => simp only [Mail.receipt, inside, Option.isSome_some]

/-- Every turn is one of these moves, and the kernel is settled after it. -/
theorem Mail.Sound.moved (sound : m.Sound lists) (delivering : Delivering m event) :
    Moved m event (mailTurn m event) ∧ ∃ after, (mailTurn m event).Sound after := by
  have moved : Moved m event (mailTurn m event) := by
    by_cases timer : event.1 = .timerPop
    · rcases event with ⟨call, scene⟩
      cases timer
      rw [mailTurn_timer]
      rcases step_becomes sound.settled delivering.1 with ⟨after, settled, rest⟩
      apply Moved.idle ⟨after, settled⟩
      intro pid
      exact (edited_unmailed sound.settled rfl delivering.2 pid).trans
        (step_table sound.settled delivering.1 pid).unmailed
    · cases inside : m.inside m.kernel.currpid with
      | none =>
          rw [mailTurn_outside inside]
          exact calls_moved sound.settled delivering inside
      | some how =>
          rw [mailTurn_inside inside timer]
          exact Moved.takes ⟨rfl, receipt_inside inside timer⟩
  exact ⟨moved, moved.sound sound⟩

/-! ## The law -/

theorem accepts_posts {pid : Int} {msg : BitVec 32} (accepts : m.accepts event pid msg) :
    (mailTurn m event).boxes.slot pid = some { serial := m.boxes.posted, msg := msg } := by
  rcases event with ⟨call, scene⟩
  rcases accepts with ⟨outside, which⟩
  rw [mailTurn_outside outside]
  rcases which with sends | forces
  · rcases sends with ⟨isCall, accepted⟩
    cases isCall
    simp only [Mail.calls, if_pos accepted, Boxes.post_slot_self]
  · rcases forces with ⟨isCall, accepted⟩
    cases isCall
    simp only [Mail.calls, if_pos accepted, Boxes.post_slot_self]

/-- Where a turn returns a message or says that there is none, it has looked for one. -/
theorem Mail.Sound.receipt_takes (sound : m.Sound lists) {receipt : Receipt}
    (returns : m.receipt event = some receipt) :
    mailTurn m event = m.take ∧
      (receipt = .message (m.kernel.proctab m.kernel.currpid).pmsg ∧ m.kernel.pending ∨
        (∃ value, receipt = .nothing value) ∧ ¬ m.kernel.pending) := by
  have running := sound.settled.running
  unfold Xinu.Running at running
  have looks : ∀ otherwise, m.kernel.receipt otherwise = receipt →
      (receipt = .message (m.kernel.proctab m.kernel.currpid).pmsg ∧ m.kernel.pending ∨
        (∃ value, receipt = .nothing value) ∧ ¬ m.kernel.pending) := by
    intro otherwise same
    rw [← same]
    simp only [Xinu.receipt]
    split
    · rename_i pending
      exact Or.inl ⟨rfl, pending⟩
    · rename_i nothing
      exact Or.inr ⟨⟨otherwise, rfl⟩, nothing⟩
  rcases event with ⟨call, scene⟩
  have notTimer : (call, scene).1 ≠ .timerPop := by
    intro timer
    cases timer
    cases returns
  cases inside : m.inside m.kernel.currpid with
  | some how =>
      refine ⟨mailTurn_inside inside notTimer, ?_⟩
      cases how with
      | receive =>
          have pending : m.kernel.pending := by
            rcases sound.served _ inside with receives | isFree | pending
            · rw [running] at receives
              cases receives
            · rw [running] at isFree
              cases isFree
            · exact pending
          have message : receipt = .message (m.kernel.proctab m.kernel.currpid).pmsg := by
            cases call with
            | timerPop => exact absurd rfl notTimer
            | _ =>
                simp only [Mail.receipt, inside] at returns
                exact (Option.some.inj returns).symm
          exact Or.inl ⟨message, pending⟩
      | recvtim =>
          apply looks timeout
          cases call with
          | timerPop => exact absurd rfl notTimer
          | _ =>
              simp only [Mail.receipt, inside] at returns
              exact Option.some.inj returns
  | none =>
      rw [mailTurn_outside inside]
      cases call with
      | receive =>
          simp only [Mail.receipt, inside] at returns
          split at returns
          · rename_i pending
            refine ⟨?_, looks timeout (Option.some.inj returns)⟩
            simp only [Mail.calls, if_pos pending]
          · cases returns
      | recvtim maxwait =>
          simp only [Mail.receipt, inside] at returns
          split at returns
          · rename_i takes
            refine ⟨?_, looks timeout (Option.some.inj returns)⟩
            simp only [Mail.calls, if_neg takes.1, if_pos takes.2]
          · cases returns
      | received =>
          simp only [Mail.receipt, inside] at returns
          exact ⟨rfl, looks 1 (Option.some.inj returns)⟩
      | _ =>
          simp only [Mail.receipt, inside] at returns
          cases returns

theorem Mail.Sound.slot_of_pending (sound : m.Sound lists) (pending : m.kernel.pending) :
    ∃ letter, m.boxes.slot m.kernel.currpid = some letter ∧
      letter.msg = (m.kernel.proctab m.kernel.currpid).pmsg := by
  cases found : m.boxes.slot m.kernel.currpid with
  | none => exact absurd ((sound.slots _).mpr found) pending
  | some letter => exact ⟨letter, rfl, (sound.contents _ letter found).symm⟩

theorem Moved.keeps {pid : Int} {letter : Letter (BitVec 32)} (sound : m.Sound lists)
    (moved : Moved m event later) (found : m.boxes.slot pid = some letter) :
    later.boxes.slot pid = some letter ∨ m.replaces event pid ∨ m.receives event pid := by
  cases moved with
  | idle settled unmailed => exact Or.inl found
  | takes receives =>
      by_cases same : pid = m.kernel.currpid
      · rw [same]
        exact Or.inr (Or.inr receives)
      · left
        show (m.boxes.take m.kernel.currpid).slot pid = some letter
        rw [Boxes.take_slot_other same]
        exact found
  | waits settled how nothing table => exact Or.inl found
  | posts settled target msg count pending replaces table =>
      by_cases same : pid = target
      · rcases replaces with forced | nothing
        · rw [same]
          exact Or.inr (Or.inl forced)
        · have none := (sound.slots target).mp nothing
          rw [same, none] at found
          cases found
      · left
        show (m.boxes.post target msg).slot pid = some letter
        rw [Boxes.post_slot_other same]
        exact found
  | starts settled target priority replaces table =>
      by_cases same : pid = target
      · rw [same]
        exact Or.inr (Or.inl replaces)
      · left
        show (m.boxes.clear target).slot pid = some letter
        rw [Boxes.clear_slot_other same]
        exact found

theorem Mail.Sound.law (sound : m.Sound lists) (delivering : Delivering m event) :
    MessageLaw m event := by
  rcases sound.moved delivering with ⟨moved, after, soundAfter⟩
  constructor
  · intro pid msg accepts
    have slot := accepts_posts accepts
    refine ⟨?_, soundAfter.contents pid _ slot, slot⟩
    intro nothing
    have none := (soundAfter.slots pid).mp nothing
    rw [slot] at none
    cases none
  · intro msg returns
    rcases sound.receipt_takes returns with ⟨takes, message | nothing⟩
    · rcases message with ⟨isMessage, pending⟩
      cases isMessage
      rcases sound.slot_of_pending pending with ⟨letter, found, same⟩
      refine ⟨letter, found, same, ?_, ?_⟩
      · rw [takes]
        exact Boxes.take_slot_self _
      · rw [takes, Mail.take, Boxes.take_some found]
    · rcases nothing with ⟨⟨value, isNothing⟩, empty⟩
      cases isNothing
  · intro value returns
    rcases sound.receipt_takes returns with ⟨takes, message | nothing⟩
    · cases message.1
    · have empty := not_not.mp nothing.2
      exact (sound.slots _).mp empty
  · intro pid letter found
    exact moved.keeps sound found
  · exact soundAfter.once.nodup
  · intro pid waits
    have nothing := soundAfter.waiting pid waits
    exact ⟨nothing, (soundAfter.slots pid).mp nothing⟩

end Turns

end Moves

/-! ## Runs -/

/-- Nobody takes or replaces the message of a process. -/
def Untouched (pid : Int) : Mail → List (Call × Scene) → Prop
  | _, [] => True
  | m, event :: rest =>
      ¬ m.replaces event pid ∧ ¬ m.receives event pid ∧ Untouched pid (mailTurn m event) rest

theorem sound_of_reach {m : Mail} (reached : Reach mailTurn Delivering noMail m) :
    ∃ lists, m.Sound lists := by
  induction reached with
  | start => exact ⟨_, noMail_sound⟩
  | step event _ delivering ih =>
      rcases ih with ⟨lists, sound⟩
      exact (sound.moved delivering).2

/-- A message stays until it is taken or replaced. -/
theorem slot_stays {pid : Int} {letter : Letter (BitVec 32)} (events : List (Call × Scene)) :
    ∀ {m : Mail}, Reach mailTurn Delivering noMail m → m.boxes.slot pid = some letter →
      Permitted mailTurn Delivering m events → Untouched pid m events →
      (events.foldl mailTurn m).boxes.slot pid = some letter := by
  induction events with
  | nil =>
      intro m _ found _ _
      exact found
  | cons event rest ih =>
      intro m reached found permitted untouched
      rcases sound_of_reach reached with ⟨lists, sound⟩
      rcases untouched with ⟨notReplaced, notReceived, untouched⟩
      have kept := (sound.law permitted.1).kept pid letter found
      have still := (kept.resolve_right (not_or.mpr ⟨notReplaced, notReceived⟩))
      exact ih (Reach.step event reached permitted.1) still permitted.2 untouched

/-- Every turn keeps the law, and what a process receives next is what was sent to it. -/
theorem message_law_along_run {m : Mail} (reached : Reach mailTurn Delivering noMail m)
    {event : Call × Scene} (delivering : Delivering m event) :
    MessageLaw m event ∧
      ∀ pid msg, m.accepts event pid msg → ∀ between last receipt,
        Permitted mailTurn Delivering (mailTurn m event) between →
        Untouched pid (mailTurn m event) between →
        (between.foldl mailTurn (mailTurn m event)).kernel.currpid = pid →
        (between.foldl mailTurn (mailTurn m event)).receipt last = some receipt →
        receipt = .message msg := by
  rcases sound_of_reach reached with ⟨lists, sound⟩
  have law := sound.law delivering
  refine ⟨law, ?_⟩
  intro pid msg accepts between last receipt permitted untouched current returns
  have next := Reach.step event reached delivering
  have slot := slot_stays between next (law.pending pid msg accepts).2.2 permitted untouched
  rcases sound_of_reach (reach_of_permitted between next permitted) with ⟨after, soundLater⟩
  rw [← current] at slot
  rcases (soundLater.receipt_takes returns).2 with message | nothing
  · rw [message.1, soundLater.contents _ _ slot]
  · have none := (soundLater.slots _).mp (not_not.mp nothing.2)
    rw [slot] at none
    cases none

/-- Process 49 runs and waits for a message. -/
def waitsFor (call : Call) : List (Call × Scene) :=
  [(.create true 20, calm), (.resume 49, calm), (call, calm)]

theorem noMail_eq : noMail =
    { kernel := { booted with q := freshq 202 }
      inside := fun _ => none
      boxes := emptyBoxes } := by
  rw [noMail, booted_eq]

theorem sent_message_wakes :
    Permitted mailTurn Delivering noMail (waitsFor .receive) ∧
      MessageLaw ((waitsFor .receive).foldl mailTurn noMail) (.xsend 49 7, calm) := by
  have permitted : Permitted mailTurn Delivering noMail (waitsFor .receive) := by
    rw [noMail_eq]
    simp only [waitsFor, Permitted]
    decide +kernel
  have delivering : Delivering ((waitsFor .receive).foldl mailTurn noMail) (.xsend 49 7, calm) := by
    rw [noMail_eq]
    decide +kernel
  exact ⟨permitted, (message_law_along_run
    (reach_of_permitted _ Reach.start permitted) delivering).1⟩

/-- A message forced on process 49 leaves it asleep in `recvtim`. -/
theorem forced_message_sleeps :
    ¬ ∀ m event, Reach mailTurn (fun m event => Orderly m.kernel event) noMail m →
      Orderly m.kernel event → MessageLaw m event := by
  intro always
  have permitted : Permitted mailTurn (fun m event => Orderly m.kernel event) noMail
      (waitsFor (.recvtim 100)) := by
    rw [noMail_eq]
    simp only [waitsFor, Permitted]
    decide +kernel
  have orderly : Orderly ((waitsFor (.recvtim 100)).foldl mailTurn noMail).kernel
      (.sendf 49 7, calm) := by
    rw [noMail_eq]
    decide +kernel
  have law := always _ _ (reach_of_permitted _ Reach.start permitted) orderly
  have asleep : ((mailTurn ((waitsFor (.recvtim 100)).foldl mailTurn noMail)
      (.sendf 49 7, calm)).kernel.proctab 49).pstate = .trecv := by
    rw [noMail_eq]
    decide +kernel
  have pending : ((mailTurn ((waitsFor (.recvtim 100)).foldl mailTurn noMail)
      (.sendf 49 7, calm)).kernel.proctab 49).phasmsg ≠ 0 := by
    rw [noMail_eq]
    decide +kernel
  exact pending (law.awake 49 (Or.inr asleep)).1

end MvsXinu.Kernel
