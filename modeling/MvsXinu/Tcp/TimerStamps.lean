import MvsXinu.Tcp.Machine

/-!
# When the timers were set

A step of a connection leaves timers that were there before, under the same key and set at the
same time, and timers that are set in the step. No timer is ever set in the future, as long as
the clock does not go back.
-/

namespace MvsXinu.Tcp

open MvsXinu.SeqSpace

set_option autoImplicit false

/-- An entry comes from another list or is set now. -/
def Stamps (ctr100 : Int) (before after : List Tqent) : Prop :=
  ∀ entry ∈ after, entry.time = ctr100 ∨
    ∃ old ∈ before, old.key = entry.key ∧ old.time = entry.time

section Lists

variable {ctr100 : Int}

theorem Stamps.refl (timers : List Tqent) : Stamps ctr100 timers timers :=
  fun entry member => Or.inr ⟨entry, member, rfl, rfl⟩

theorem Stamps.trans {before middle after : List Tqent} (first : Stamps ctr100 before middle)
    (second : Stamps ctr100 middle after) : Stamps ctr100 before after := by
  intro entry member
  rcases second entry member with now | ⟨old, present, key, time⟩
  · exact Or.inl now
  · rcases first old present with now | ⟨older, found, sameKey, sameTime⟩
    · left
      rw [← time, now]
    · exact Or.inr ⟨older, found, sameKey.trans key, sameTime.trans time⟩

/-- A list of entries that were there is stamped, whatever time they have left. -/
theorem Stamps.cons {before after : List Tqent} {entry : Tqent}
    (head : entry.time = ctr100 ∨ ∃ old ∈ before, old.key = entry.key ∧ old.time = entry.time)
    (tail : Stamps ctr100 before after) : Stamps ctr100 before (entry :: after) := by
  intro other member
  rcases List.mem_cons.mp member with rfl | later
  · exact head
  · exact tail other later

theorem Stamps.wider {before after : List Tqent} (entry : Tqent)
    (stamps : Stamps ctr100 before after) : Stamps ctr100 (entry :: before) after := by
  intro other member
  rcases stamps other member with now | ⟨old, present, same⟩
  · exact Or.inl now
  · exact Or.inr ⟨old, List.mem_cons_of_mem _ present, same⟩

theorem tmabsorb_stamps (extra : Int) (timers : List Tqent) :
    Stamps ctr100 timers (tmabsorb extra timers) := by
  cases timers with
  | nil => exact Stamps.refl []
  | cons next later =>
      apply Stamps.cons
      · exact Or.inr ⟨next, List.mem_cons_self, rfl, rfl⟩
      · exact (Stamps.refl later).wider next

theorem tmclear_stamps (key : TimerKey) (timers : List Tqent) :
    Stamps ctr100 timers (tmclear ctr100 key timers).2 := by
  induction timers with
  | nil => exact Stamps.refl []
  | cons entry rest ih =>
      rw [tmclear]
      split
      · exact (tmabsorb_stamps entry.timeleft rest).wider entry
      · apply Stamps.cons
        · exact Or.inr ⟨entry, List.mem_cons_self, rfl, rfl⟩
        · exact ih.wider entry

theorem tminsert_stamps (new : Tqent) (timers : List Tqent) (now : new.time = ctr100) :
    Stamps ctr100 timers (tminsert new timers) := by
  induction timers generalizing new with
  | nil => exact Stamps.cons (Or.inl now) (Stamps.refl [])
  | cons entry rest ih =>
      rw [tminsert]
      split
      · apply Stamps.cons (Or.inl now)
        apply Stamps.cons
        · exact Or.inr ⟨entry, List.mem_cons_self, rfl, rfl⟩
        · exact (Stamps.refl rest).wider entry
      · apply Stamps.cons
        · exact Or.inr ⟨entry, List.mem_cons_self, rfl, rfl⟩
        · have later := ih { new with timeleft := new.timeleft - entry.timeleft } now
          exact later.wider entry

theorem tmset_stamps (key : TimerKey) (time : Int) (timers : List Tqent) :
    Stamps ctr100 timers (tmset ctr100 key time timers) :=
  (tmclear_stamps key timers).trans (tminsert_stamps _ _ rfl)

theorem tcptimer_stamps (delta : Int) (timers : List Tqent) :
    Stamps ctr100 timers (tcptimer delta timers).2 := by
  induction timers generalizing delta with
  | nil => exact Stamps.refl []
  | cons entry rest ih =>
      rw [tcptimer]
      split
      · exact (ih _).wider entry
      · apply Stamps.cons
        · exact Or.inr ⟨entry, List.mem_cons_self, rfl, rfl⟩
        · exact (Stamps.refl rest).wider entry

end Lists

/-- What a call does to the timers. -/
structure Stamped (before after : Conn) : Prop where
  tcbnum : after.tcbnum = before.tcbnum
  ctr100 : after.ctr100 = before.ctr100
  entries : Stamps before.ctr100 before.timers after.timers

theorem Stamped.refl (conn : Conn) : Stamped conn conn := ⟨rfl, rfl, Stamps.refl conn.timers⟩

theorem Stamped.trans {before middle after : Conn} (first : Stamped before middle)
    (second : Stamped middle after) : Stamped before after := by
  refine ⟨second.tcbnum.trans first.tcbnum, second.ctr100.trans first.ctr100, ?_⟩
  have later := second.entries
  rw [first.ctr100] at later
  exact first.entries.trans later

/-- A call that leaves the timers alone. -/
theorem Stamped.of_same {before after : Conn} (tcbnum : after.tcbnum = before.tcbnum)
    (ctr100 : after.ctr100 = before.ctr100) (timers : after.timers = before.timers) :
    Stamped before after := by
  refine ⟨tcbnum, ctr100, ?_⟩
  rw [timers]
  exact Stamps.refl before.timers

/-- The call was made on another connection with the same timers. -/
theorem Stamped.moved {before same after : Conn} (stamped : Stamped same after)
    (tcbnum : same.tcbnum = before.tcbnum) (ctr100 : same.ctr100 = before.ctr100)
    (timers : same.timers = before.timers) : Stamped before after :=
  (Stamped.of_same tcbnum ctr100 timers).trans stamped

section Calls

variable (conn : Conn)

theorem setTimer_stamped (event : OutEvent) (time : Int) :
    Stamped conn (conn.setTimer event time) :=
  ⟨rfl, rfl, tmset_stamps _ time conn.timers⟩

theorem clearTimer_stamped (event : OutEvent) : Stamped conn (conn.clearTimer event) :=
  ⟨rfl, rfl, tmclear_stamps _ conn.timers⟩

theorem startTimer_stamped : Stamped conn conn.startTimer := by
  simp only [Conn.startTimer]
  split
  · exact setTimer_stamped conn .retransmit conn.tcb.rexmt
  · exact Stamped.refl conn

theorem tcpkick_stamped : Stamped conn (tcpkick conn) := by
  simp only [tcpkick]
  split
  · exact setTimer_stamped conn .send tcpAckdelay
  · exact Stamped.of_same rfl rfl rfl

theorem tcpkilltimers_stamped : Stamped conn (tcpkilltimers conn) :=
  ((clearTimer_stamped conn .send).trans (clearTimer_stamped _ .retransmit)).trans
    (clearTimer_stamped _ .persist)

theorem tcpwait_stamped : Stamped conn (tcpwait conn) :=
  ((tcpkilltimers_stamped conn).trans (setTimer_stamped _ .delete tcpTwomsl)).trans
    (Stamped.of_same rfl rfl rfl)

theorem tcpabort_stamped (error : TcpError) : Stamped conn (tcpabort conn error) :=
  (tcpkilltimers_stamped conn).trans (Stamped.of_same rfl rfl rfl)

theorem tcbdealloc_stamped : Stamped conn (tcbdealloc conn) := by
  simp only [tcbdealloc]
  split
  · exact Stamped.refl conn
  · exact (tcpkilltimers_stamped conn).trans (Stamped.of_same rfl rfl rfl)

theorem tcpreset_stamped (segment : Segment) : Stamped conn (tcpreset conn segment) := by
  simp only [tcpreset]
  split
  · exact Stamped.refl conn
  · exact Stamped.of_same rfl rfl rfl

theorem tcpackit_stamped (segment : Segment) : Stamped conn (tcpackit conn segment) := by
  simp only [tcpackit]
  split_ifs
  · exact Stamped.refl conn
  · exact Stamped.refl conn
  · exact Stamped.of_same rfl rfl rfl

theorem tcprtt_stamped : Stamped conn (tcprtt conn) :=
  ⟨rfl, rfl, tmclear_stamps _ conn.timers⟩

theorem tcpostate_stamped (acked : Int) : Stamped conn (tcpostate conn acked) := by
  have kick : ∀ tcb : Tcb, Stamped conn (tcpkick { conn with tcb := tcb }) := by
    intro tcb
    exact (tcpkick_stamped { conn with tcb := tcb }).moved rfl rfl rfl
  simp only [tcpostate]
  split
  · exact Stamped.refl conn
  · split
    · split
      · exact Stamped.of_same rfl rfl rfl
      · exact kick _
    · split
      · exact Stamped.of_same rfl rfl rfl
      · exact tcpkick_stamped conn

theorem tcpacked_stamped (segment : Segment) : Stamped conn (tcpacked conn segment).2 := by
  have looked : Stamped conn { conn with trace := { conn.trace with
      acks := conn.trace.acks ++ [(conn.tcb, segment)] } } := Stamped.of_same rfl rfl rfl
  simp only [tcpacked]
  split
  · exact Stamped.refl conn
  · split
    · exact looked
    · split
      · simp only
        split
        · exact looked.trans (tcpreset_stamped _ segment)
        · exact looked.trans (tcpackit_stamped _ segment)
      · have timed := looked.trans (tcprtt_stamped _)
        exact timed.trans ((tcpostate_stamped _ _).moved rfl rfl rfl)

theorem tcpswindow_stamped (segment : Segment) : Stamped conn (tcpswindow conn segment) := by
  have cleared : ∀ tcb : Tcb,
      Stamped conn (({ conn with tcb := tcb } : Conn).clearTimer .persist) := by
    intro tcb
    exact (clearTimer_stamped { conn with tcb := tcb } .persist).moved rfl rfl rfl
  simp only [tcpswindow]
  split_ifs
  · exact Stamped.refl conn
  · exact Stamped.refl conn
  · exact Stamped.of_same rfl rfl rfl
  · exact (cleared _).trans ((tcpkick_stamped _).moved rfl rfl rfl)
  · exact (tcpkick_stamped _).moved rfl rfl rfl

theorem tcpdeliver_stamped (inbound : Inbound) : Stamped conn (tcpdeliver conn inbound) := by
  simp only [tcpdeliver]
  split
  · exact (tcpkick_stamped _).moved rfl rfl rfl
  · exact Stamped.of_same rfl rfl rfl

theorem tcpread_stamped (len : Word) : Stamped conn (tcpread conn len) := by
  simp only [tcpread]
  split
  · exact (tcpkick_stamped _).moved rfl rfl rfl
  · exact Stamped.of_same rfl rfl rfl

/-! ## The handlers -/

theorem aborts_stamped (segment : Segment) (rest : Conn) (stamped : Stamped conn rest) :
    Stamped conn ((tcpaborts conn segment).getD rest) := by
  simp only [tcpaborts]
  split
  · exact tcpabort_stamped conn .reset
  · split
    · exact (tcpreset_stamped conn segment).trans (tcpabort_stamped _ .reset)
    · exact stamped

theorem frees_stamped (segment : Segment) (rest : Conn) (stamped : Stamped conn rest) :
    Stamped conn ((tcpfrees conn segment).getD rest) := by
  simp only [tcpfrees]
  split
  · exact tcbdealloc_stamped conn
  · split
    · exact (tcpreset_stamped conn segment).trans (tcbdealloc_stamped _)
    · exact stamped

variable (inbound : Inbound)

theorem handled_stamped : Stamped conn (tcpswindow
    (tcpdeliver (tcpacked conn inbound.segment).2 inbound) inbound.segment) :=
  ((tcpacked_stamped conn inbound.segment).trans (tcpdeliver_stamped _ inbound)).trans
    (tcpswindow_stamped _ inbound.segment)

theorem enter_stamped (state : TcpState) : Stamped conn (conn.enter state) :=
  Stamped.of_same rfl rfl rfl

theorem tcpsynsent_stamped : Stamped conn (tcpsynsent conn inbound) := by
  simp only [tcpsynsent]
  split_ifs
  · exact tcpreset_stamped conn inbound.segment
  · exact (tcpkilltimers_stamped _).moved rfl rfl rfl
  · exact Stamped.refl conn
  all_goals
    exact (((tcpacked_stamped _ inbound.segment).trans (tcpdeliver_stamped _ inbound)).trans
      (enter_stamped _ _)).moved rfl rfl rfl

theorem tcpsynopened_stamped : Stamped conn (tcpsynopened conn inbound) := by
  have delivered := (enter_stamped conn .established).trans (tcpdeliver_stamped _ inbound)
  simp only [tcpsynopened]
  split
  · exact delivered.trans (enter_stamped _ .closewait)
  · exact delivered

theorem tcpsynrcvd_stamped : Stamped conn (tcpsynrcvd conn inbound) := by
  have acked := tcpacked_stamped conn inbound.segment
  simp only [tcpsynrcvd]
  split_ifs
  · exact tcbdealloc_stamped conn
  · exact tcpabort_stamped conn .refused
  · exact (tcpreset_stamped conn inbound.segment).trans (tcpabort_stamped _ .reset)
  · exact acked
  · exact (acked.trans (tcpreset_stamped _ inbound.segment)).trans (tcbdealloc_stamped _)
  · exact acked.trans (tcpsynopened_stamped _ inbound)

theorem tcpestablished_stamped : Stamped conn (tcpestablished conn inbound) := by
  have handled := handled_stamped conn inbound
  apply aborts_stamped
  simp only
  split_ifs
  · exact tcpacked_stamped conn inbound.segment
  · exact handled.trans (enter_stamped _ .closewait)
  · exact handled

theorem tcpfin1_stamped : Stamped conn (tcpfin1 conn inbound) := by
  have handled := handled_stamped conn inbound
  apply aborts_stamped
  simp only
  split_ifs
  · exact tcpacked_stamped conn inbound.segment
  · exact handled.trans (enter_stamped _ .closing)
  · exact (handled.trans (enter_stamped _ .timewait)).trans (tcpwait_stamped _)
  · exact handled
  · exact handled.trans (enter_stamped _ .finwait2)

theorem tcpfin2_stamped : Stamped conn (tcpfin2 conn inbound) := by
  have delivered := (tcpacked_stamped conn inbound.segment).trans (tcpdeliver_stamped _ inbound)
  apply aborts_stamped
  simp only
  split_ifs
  · exact tcpacked_stamped conn inbound.segment
  · exact (delivered.trans (enter_stamped _ .timewait)).trans (tcpwait_stamped _)
  · exact delivered

theorem tcpclosewait_stamped : Stamped conn (tcpclosewait conn inbound) := by
  apply aborts_stamped
  exact (tcpacked_stamped conn inbound.segment).trans (tcpswindow_stamped _ inbound.segment)

theorem tcpclosing_stamped : Stamped conn (tcpclosing conn inbound) := by
  have acked := tcpacked_stamped conn inbound.segment
  apply frees_stamped
  simp only
  split
  · exact acked
  · exact (acked.trans (enter_stamped _ .timewait)).trans (tcpwait_stamped _)

theorem tcplastack_stamped : Stamped conn (tcplastack conn inbound) :=
  aborts_stamped conn inbound.segment _ (tcpacked_stamped conn inbound.segment)

theorem tcptimewait_stamped : Stamped conn (tcptimewait conn inbound) :=
  frees_stamped conn inbound.segment _
    (((tcpacked_stamped conn inbound.segment).trans (tcpdeliver_stamped _ inbound)).trans
      (tcpwait_stamped _))

theorem tcpswitch_stamped : Stamped conn (tcpswitch conn inbound) := by
  simp only [tcpswitch]
  split
  · exact Stamped.refl conn
  · exact tcpreset_stamped conn inbound.segment
  · exact Stamped.refl conn
  · exact tcpsynsent_stamped conn inbound
  · exact tcpsynrcvd_stamped conn inbound
  · exact tcpestablished_stamped conn inbound
  · exact tcpfin1_stamped conn inbound
  · exact tcpfin2_stamped conn inbound
  · exact tcpclosewait_stamped conn inbound
  · exact tcplastack_stamped conn inbound
  · exact tcpclosing_stamped conn inbound
  · exact tcptimewait_stamped conn inbound

theorem segment_stamped : Stamped conn (connStep conn (.segment inbound)) := by
  simp only [connStep, tcpinp]
  split
  · exact Stamped.refl conn
  · split
    · cases tcpopts conn.tcb { inbound with
        segment := (tcpok conn.tcb inbound.segment).2 } with
      | none => exact Stamped.refl conn
      | some read => exact (tcpswitch_stamped _ read.2).moved rfl rfl rfl
    · exact tcpackit_stamped conn _

/-! ## The output process -/

theorem tcpsend_stamped (rexmt : Bool) : Stamped conn (tcpsend conn rexmt) := by
  simp only [tcpsend]
  split
  · exact (tcpwait_stamped _).moved rfl rfl rfl
  · exact Stamped.of_same rfl rfl rfl

theorem tcprexmt_stamped (event : OutEvent) : Stamped conn (tcprexmt conn event) := by
  simp only [tcprexmt]
  split_ifs
  · exact Stamped.refl conn
  · exact (tcpabort_stamped _ .timedout).moved rfl rfl rfl
  · have sent : Stamped conn (tcpsend { conn with tcb := { conn.tcb with
        rexmtcount := conn.tcb.rexmtcount + 1 } } true) :=
      (tcpsend_stamped _ true).moved rfl rfl rfl
    exact (sent.trans (setTimer_stamped _ .retransmit _)).trans (Stamped.of_same rfl rfl rfl)

theorem tcpxmitloop_stamped (window : Int) (fuel : Nat) (after : Conn)
    (ended : tcpxmitloop window fuel conn = some after) : Stamped conn after := by
  induction fuel generalizing conn with
  | zero => cases ended
  | succ fuel ih =>
      rw [tcpxmitloop] at ended
      split at ended
      · exact (tcpsend_stamped conn false).trans (ih _ ended)
      · cases ended
        exact Stamped.refl after

theorem tcpxmitidle_stamped : Stamped conn (tcpxmitidle conn) := by
  have sent : Stamped conn (if conn.tcb.flags.needout then tcpsend conn false else conn) := by
    split
    · exact tcpsend_stamped conn false
    · exact Stamped.refl conn
  simp only [tcpxmitidle]
  generalize (if conn.tcb.flags.needout then tcpsend conn false else conn) = next at sent ⊢
  split
  · exact sent
  · exact sent.trans (startTimer_stamped next)

theorem tcpxmitshut_stamped : Stamped conn (tcpxmitshut conn) := by
  have sent : Stamped conn (tcpsend { conn with tcb := { conn.tcb with
      ostate := .persist, persist := conn.tcb.rexmt } } false) :=
    (tcpsend_stamped _ false).moved rfl rfl rfl
  exact sent.trans (setTimer_stamped _ .persist _)

theorem tcpxmit_stamped (fuel : Nat) (event : OutEvent) (after : Conn)
    (ended : tcpxmit fuel conn event = some after) : Stamped conn after := by
  simp only [tcpxmit] at ended
  split_ifs at ended
  · cases ended
    exact ((clearTimer_stamped conn .send).trans (tcprexmt_stamped _ event)).trans
      (Stamped.of_same rfl rfl rfl)
  · cases ended
    exact tcpxmitidle_stamped conn
  · cases ended
    exact tcpxmitshut_stamped conn
  · rw [Option.map_eq_some_iff] at ended
    rcases ended with ⟨last, loop, rfl⟩
    exact ((tcpxmitloop_stamped _ _ fuel last loop).trans (startTimer_stamped last)).moved
      rfl rfl rfl

theorem tcppersist_stamped (event : OutEvent) : Stamped conn (tcppersist conn event) := by
  simp only [tcppersist]
  split
  · exact Stamped.refl conn
  · exact (tcpsend_stamped conn true).trans ((setTimer_stamped _ .persist _).moved rfl rfl rfl)

theorem tcposwitch_stamped (fuel : Nat) (event : OutEvent) (after : Conn)
    (ended : tcposwitch fuel conn event = some after) : Stamped conn after := by
  simp only [tcposwitch, tcpidle] at ended
  split at ended
  · split at ended
    · exact tcpxmit_stamped conn fuel event after ended
    · cases ended
      exact Stamped.refl conn
  · cases ended
    exact tcppersist_stamped conn event
  · exact tcpxmit_stamped conn fuel event after ended
  · cases ended
    exact tcprexmt_stamped conn event

theorem output_stamped (fuel : Nat) : Stamped conn (connStep conn (.output fuel)) := by
  simp only [connStep, tcpout]
  split
  · exact Stamped.refl conn
  · rename_i event tcbnum rest _
    split_ifs
    · exact Stamped.of_same rfl rfl rfl
    · exact Stamped.of_same rfl rfl rfl
    · exact (tcbdealloc_stamped { conn with oport := rest }).moved rfl rfl rfl
    · cases ended : tcposwitch fuel { conn with oport := rest } event with
      | none => exact Stamped.refl conn
      | some after => exact (tcposwitch_stamped _ fuel event after ended).moved rfl rfl rfl

/-! ## The users' calls -/

theorem tcpgetspace_stamped (index : Nat) : Stamped conn (tcpgetspace conn index) := by
  simp only [tcpgetspace]
  split
  · exact Stamped.refl conn
  · split_ifs
    · exact Stamped.of_same rfl rfl rfl
    · simp only [tcpwr]
      split_ifs
      · exact Stamped.of_same rfl rfl rfl
      · exact (tcpkick_stamped _).moved rfl rfl rfl
      · exact Stamped.of_same rfl rfl rfl
    · exact Stamped.refl conn

theorem tcpclose_stamped : Stamped conn (tcpclose conn) := by
  simp only [tcpclose]
  split_ifs
  · exact Stamped.refl conn
  · exact tcbdealloc_stamped conn
  · exact (tcpkick_stamped _).moved rfl rfl rfl

/-- The clock apart, every event stamps. -/
theorem step_stamped (event : Event) (other : ∀ ctr100, event ≠ .clock ctr100) :
    Stamped conn (connStep conn event) := by
  cases event with
  | segment inbound => exact segment_stamped conn inbound
  | output fuel => exact output_stamped conn fuel
  | tick delta => exact ⟨rfl, rfl, tcptimer_stamps delta conn.timers⟩
  | clock ctr100 => exact absurd rfl (other ctr100)
  | write octets isurg =>
      simp only [connStep, tcpwrcall]
      split_ifs
      · exact Stamped.refl conn
      · exact Stamped.refl conn
      · exact Stamped.of_same rfl rfl rfl
  | resume index => exact tcpgetspace_stamped conn index
  | close => exact tcpclose_stamped conn
  | closeEnd =>
      simp only [connStep, tcpcloseend]
      split
      · exact tcbdealloc_stamped conn
      · exact Stamped.refl conn
  | read len => exact tcpread_stamped conn len
  | option set delack buffer => exact Stamped.of_same rfl rfl rfl
  | otherKick event tcbnum =>
      simp only [connStep]
      split
      · exact Stamped.of_same rfl rfl rfl
      · exact Stamped.refl conn
  | otherSet key time =>
      simp only [connStep]
      split
      · exact Stamped.refl conn
      · exact ⟨rfl, rfl, tmset_stamps key time conn.timers⟩
  | otherClear key =>
      simp only [connStep]
      split
      · exact Stamped.refl conn
      · exact ⟨rfl, rfl, tmclear_stamps key conn.timers⟩

end Calls

/-- No timer of the connection was set in the future. -/
def NoneAhead (conn : Conn) : Prop :=
  ∀ entry ∈ conn.timers, ∀ event, entry.key = conn.key event → entry.time ≤ conn.ctr100

/-- The clock does not go back. -/
def Forward (conn : Conn) : Event → Prop
  | .clock ctr100 => conn.ctr100 ≤ ctr100
  | _ => True

theorem stamped_none_ahead {before after : Conn} (stamped : Stamped before after)
    (ahead : NoneAhead before) : NoneAhead after := by
  intro entry member event key
  rw [stamped.ctr100]
  rcases stamped.entries entry member with now | ⟨old, present, sameKey, sameTime⟩
  · exact le_of_eq now
  · rw [← sameTime]
    apply ahead old present event
    rw [sameKey, key, Conn.key, Conn.key, stamped.tcbnum]

theorem step_none_ahead (conn : Conn) (event : Event) (ahead : NoneAhead conn)
    (forward : Forward conn event) : NoneAhead (connStep conn event) := by
  by_cases clock : ∃ ctr100, event = .clock ctr100
  · rcases clock with ⟨ctr100, rfl⟩
    intro entry member other key
    exact le_trans (ahead entry member other key) forward
  · have stamped : Stamped conn (connStep conn event) := by
      apply step_stamped conn event
      intro ctr100 same
      exact clock ⟨ctr100, same⟩
    exact stamped_none_ahead stamped ahead

theorem opened_none_ahead {start : Conn} (opened : Opened start) : NoneAhead start := by
  have none : ∀ (tcbnum : Nat) (timers : List Tqent),
      (∀ event, ¬ Running (.oport event tcbnum) timers) →
      ∀ entry ∈ timers, ∀ event, entry.key ≠ .oport event tcbnum := by
    intro tcbnum timers others entry member event key
    apply others event
    rw [Running, ← key]
    exact List.mem_map_of_mem member
  cases opened with
  | active iss mss lip rip lport rport tcbnum timers oport ctr100 others foreign =>
      apply stamped_none_ahead (tcpkick_stamped _)
      intro entry member event key
      exact absurd key (none tcbnum timers others entry member event)
  | passive iss mss parentSmss inbound tcbnum timers oport ctr100 syn others foreign =>
      apply stamped_none_ahead (tcpdeliver_stamped _ inbound)
      intro entry member event key
      exact absurd key (none tcbnum timers others entry member event)

/-- The time that a timer has run is not negative. -/
theorem time_run_nonneg {conn : Conn} (ahead : NoneAhead conn) (event : OutEvent) (time : Int)
    (run : (tmclear conn.ctr100 (conn.key event) conn.timers).1 = some time) : 0 ≤ time := by
  have found : ∀ timers : List Tqent, (tmclear conn.ctr100 (conn.key event) timers).1 = some time →
      ∃ entry ∈ timers, entry.key = conn.key event ∧ time = conn.ctr100 - entry.time := by
    intro timers
    induction timers with
    | nil =>
        intro cleared
        cases cleared
    | cons entry rest ih =>
        intro cleared
        rw [tmclear] at cleared
        split at cleared
        · rename_i same
          exact ⟨entry, List.mem_cons_self, same, (Option.some.inj cleared).symm⟩
        · rcases ih cleared with ⟨other, present, key⟩
          exact ⟨other, List.mem_cons_of_mem _ present, key⟩
  rcases found conn.timers run with ⟨entry, present, key, rfl⟩
  have before := ahead entry present event key
  omega

end MvsXinu.Tcp
