import MvsXinu.Tcp.ControlFlags
import MvsXinu.Tcp.SendAccounting
import MvsXinu.Tcp.PeerView

/-!
# The segments of a stream

What a connection sends and what it replies with, as pieces of the octets written so far. A
piece keeps its place while more is written, and a FIN is behind the last octet that ever will
be.
-/

namespace MvsXinu.Tcp

open MvsXinu.SeqSpace

set_option autoImplicit false

/-- The segment carries the octets of the stream from `index` on. A FIN comes behind the last of
them and not before the connection is closed. -/
structure Slice (base : Tcpseq) (main : Main) (segment : Segment) (index : Nat) : Prop where
  seq : segment.seq = seqAt base index
  data : segment.tcpData <+: (written main.writes).drop index
  reaches : index + segment.tcpData.length ≤ (written main.writes).length + 1
  short : segment.tcpData.length ≤ tcpsbs
  syn : segment.code.syn = false
  bare : segment.offset = tcphoffset
  fin : segment.code.fin = true →
    index + segment.tcpData.length = (written main.writes).length ∧ ¬ Unclosed main.core.state

section Steps

variable {base : Tcpseq} {main after : Main} {acked count : Nat}

/-- The buffer holds what is not acknowledged, so that the stream ends close to `acked`. -/
theorem Ledger.near (ledger : Ledger base main acked count) :
    acked ≤ (written main.writes).length + 1 ∧
      (written main.writes).length ≤ acked + main.core.sbcount.toNat ∧
      main.core.sbcount.toNat ≤ tcpsbs := by
  have stored := ledger.stored
  refine ⟨?_, by omega, ledger.flight.sbcount⟩
  rcases ledger.within with inside | ⟨past, _⟩ <;> omega

theorem segment_data {tcb : Tcb} (opened : tcb.code.syn = false) (rexmt : Bool) :
    (tcpsegment tcb rexmt).tcpData = tcpsenddata tcb rexmt ∧
      (tcpsegment tcb rexmt).offset = tcphoffset ∧
      (tcpsegment tcb rexmt).tcpData.length = (tcpsndlen tcb rexmt).2.toNat := by
  have clear : (tcpsendcode tcb (tcpsendseq tcb rexmt) (tcpsndlen tcb rexmt).2).syn = false :=
    (sendcode_syn tcb _ _).trans opened
  have data : (tcpsegment tcb rexmt).tcpData = tcpsenddata tcb rexmt := by
    simp [tcpsegment, clear]
  refine ⟨data, by simp [tcpsegment, clear], ?_⟩
  rw [data]
  exact Ring.load_length _ _ _ _

/-- The segment of a send, once the octets written are those at that time. -/
theorem slice_of_sent (ledger : Ledger base main acked count) (tcb : Tcb)
    (found : tcb.core = main.core) (rexmt : Bool)
    (inside : rexmt = false → tcb.pending.toNat ≤ tcb.sbcount.toNat)
    (whole : rexmt = true → tcb.code.fin = true →
      tcb.sbcount.toNat ≤ tcb.swindow.toNat ∧ tcb.sbcount.toNat ≤ tcb.smss.toNat) :
    Slice base main (tcpsegment tcb rexmt) (acked + sendOffset rexmt count) := by
  have flight := ledger.flight
  rw [← found] at flight
  have opened : tcb.code.syn = false := flight.syn
  obtain ⟨octets, bare, length⟩ := segment_data opened rexmt
  have fits := (sndlen_eq flight rexmt inside).2
  have small : tcb.sbcount.toNat ≤ tcpsbs := flight.sbcount
  have stored : tcb.sbcount.toNat = (written main.writes).length - acked :=
    (congrArg (fun core => core.sbcount.toNat) found).trans ledger.stored
  have suna : tcb.suna = seqAt base acked := (congrArg Core.suna found).trans ledger.suna
  have ring : Ring.load tcpsbs tcb.sndbuf tcb.sbstart.toNat tcb.sbcount.toNat =
      (written main.writes).drop acked :=
    (congrArg (fun core => Ring.load tcpsbs core.sndbuf core.sbstart.toNat core.sbcount.toNat)
      found).trans ledger.ring
  constructor
  case seq =>
    change tcpsendseq tcb rexmt = _
    rw [sendseq_eq flight, suna, seq_at_seq_at]
  case data =>
    have data := senddata_prefix_of flight rexmt inside
    rw [ring, List.drop_drop] at data
    rw [octets]
    exact data
  case reaches =>
    have near := ledger.near.1
    rw [length]
    omega
  case short =>
    rw [length]
    omega
  case syn =>
    rw [segment_syn]
    exact opened
  case bare => exact bare
  case fin =>
    intro sent
    obtain ⟨all, sndfin⟩ := fin_ends_buffer flight rexmt inside whole sent
    have asked : main.core.sndfin = true := (congrArg Core.sndfin found).symm.trans sndfin
    constructor
    · rw [length]
      rcases ledger.within with covered | ⟨_, gone, _⟩
      · omega
      · exact absurd (asked.symm.trans gone) (by decide)
    · intro unclosed
      exact absurd (asked.symm.trans (ledger.flight.unclosed unclosed)) (by decide)

/-- The answer of `tcpackit` carries nothing. -/
theorem slice_of_plain (ledger : Ledger base main acked count) {tcb : Tcb}
    (found : tcb.core = main.core) {reply : Segment} (plain : Plain tcb reply) :
    Slice base main reply (acked + count) := by
  have flight := ledger.flight
  have seq : tcb.snext = seqAt base (acked + count : Nat) := by
    have snext : tcb.snext = main.core.snext := congrArg Core.snext found
    rw [snext, flight.snext, ledger.suna, seq_at_seq_at]
  have reaches : acked + count ≤ (written main.writes).length + 1 := by
    have stored := ledger.stored
    rcases ledger.within with covered | ⟨past, gone, _⟩
    · rcases flight.within with some | ⟨_, all⟩ <;> omega
    · rcases flight.within with some | ⟨fin, _⟩
      · omega
      · exact absurd (gone.symm.trans (flight.asked fin)) (by decide)
  constructor
  · rw [plain.seq, seq]
  · rw [plain.data]
    exact List.nil_prefix
  · rw [plain.data]
    exact reaches
  · rw [plain.data]
    exact Nat.zero_le _
  · rw [plain.code]
  · exact plain.offset
  · rw [plain.code]
    intro fin
    cases fin

/-- A connection that is closed stays closed, and nothing more is written. -/
theorem closed_micro (step : Micro main after) (careful : after.Careful)
    (closed : ¬ Unclosed main.core.state) :
    ¬ Unclosed after.core.state ∧ after.writes = main.writes := by
  have same : ∀ tcb : Tcb, tcb.core = main.core → ¬ Unclosed tcb.state := by
    intro tcb found
    have state : tcb.state = main.core.state := congrArg Core.state found
    rw [state]
    exact closed
  cases step with
  | sent tcb found rexmt =>
      refine ⟨?_, rfl⟩
      rw [tcpsent_core]
      exact same tcb found
  | looked tcb found segment flag => exact ⟨closed, rfl⟩
  | accepted tcb found segment logged new known => exact ⟨same tcb found, rfl⟩
  | wrote tcb found octets isurg nonempty space =>
      have open_ := careful.writes (tcb, octets) (by simp)
      exact absurd (Or.inr (Or.inr open_)) (same tcb found)
  | closed tcb found opened => exact absurd (Or.inr (Or.inr opened)) (same tcb found)
  | entered state enters =>
      refine ⟨?_, rfl⟩
      intro unclosed
      exact closed (unclosed_before enters unclosed)

/-- Behind the handshake a block is free or synchronised. -/
def Level (state : TcpState) : Prop :=
  state = .free ∨ TcpState.established.number ≤ state.number

theorem level_micro (step : Micro main after) (level : Level main.core.state) :
    Level after.core.state := by
  have same : ∀ tcb : Tcb, tcb.core = main.core → Level tcb.state := by
    intro tcb found
    have state : tcb.state = main.core.state := congrArg Core.state found
    rw [state]
    exact level
  cases step with
  | sent tcb found rexmt =>
      rw [tcpsent_core]
      exact same tcb found
  | looked tcb found segment flag => exact level
  | accepted tcb found segment logged new known => exact same tcb found
  | wrote tcb found octets isurg nonempty space => exact same tcb found
  | closed tcb found opened =>
      change Level (if tcb.state = .established then .finwait1 else .lastack)
      split <;> exact Or.inr (by decide)
  | entered state enters =>
      have below : main.core.state ≠ .synsent := by
        intro opening
        rw [opening] at level
        rcases level with free | high
        · cases free
        · exact absurd high (by decide)
      change Level state
      cases state with
      | free => exact Or.inl rfl
      | closed => exact absurd enters below
      | synrcvd => exact absurd enters.1 below
      | listen => exact absurd enters id
      | synsent => exact absurd enters id
      | _ => exact Or.inr (by decide)

theorem free_micro (step : Micro main after) (free : main.core.state = .free) :
    after.core.state = .free := by
  have same : ∀ tcb : Tcb, tcb.core = main.core → tcb.state = .free := by
    intro tcb found
    exact (congrArg Core.state found).trans free
  cases step with
  | sent tcb found rexmt =>
      rw [tcpsent_core]
      exact same tcb found
  | looked tcb found segment flag => exact free
  | accepted tcb found segment logged new known => exact same tcb found
  | wrote tcb found octets isurg nonempty space => exact same tcb found
  | closed tcb found opened =>
      rw [same tcb found] at opened
      rcases opened with state | state <;> cases state
  | entered state enters =>
      cases state <;> simp [Enters, free] at enters ⊢

theorem level_chain (chain : Chain main after) (level : Level main.core.state) :
    Level after.core.state := by
  induction chain with
  | refl => exact level
  | tail _ step ih => exact level_micro step ih

theorem free_chain (chain : Chain main after) (free : main.core.state = .free) :
    after.core.state = .free := by
  induction chain with
  | refl => exact free
  | tail _ step ih => exact free_micro step ih

theorem writes_grow (chain : Chain main after) :
    (written main.writes) <+: (written after.writes) := by
  induction chain with
  | refl => exact List.prefix_rfl
  | tail _ step ih =>
      obtain ⟨_, _, more, grown⟩ := micro_grows step
      refine ih.trans ?_
      rw [grown]
      simp [written]

theorem sends_grow (chain : Chain main after) : ∃ more, after.sends = main.sends ++ more := by
  induction chain with
  | refl => exact ⟨[], (List.append_nil _).symm⟩
  | tail _ step ih =>
      obtain ⟨more, grown⟩ := ih
      obtain ⟨⟨last, sends⟩, _⟩ := micro_grows step
      exact ⟨more ++ last, by rw [sends, grown, List.append_assoc]⟩

theorem careful_before_chain (chain : Chain main after) (careful : after.Careful) :
    main.Careful := by
  induction chain with
  | refl => exact careful
  | tail _ step ih => exact ih (careful_before step careful)

theorem closed_chain (chain : Chain main after) (careful : after.Careful)
    (closed : ¬ Unclosed main.core.state) :
    ¬ Unclosed after.core.state ∧ after.writes = main.writes := by
  induction chain with
  | refl => exact ⟨closed, rfl⟩
  | tail _ step ih =>
      obtain ⟨still, writes⟩ := ih (careful_before step careful)
      obtain ⟨last, same⟩ := closed_micro step careful still
      exact ⟨last, same.trans writes⟩

theorem Slice.chain {segment : Segment} {index : Nat} (slice : Slice base main segment index)
    (steps : Chain main after) (careful : after.Careful) : Slice base after segment index := by
  obtain ⟨more, grown⟩ := writes_grow steps
  constructor
  · exact slice.seq
  · rw [← grown, List.drop_append]
    exact slice.data.trans (List.prefix_append _ _)
  · have reaches := slice.reaches
    rw [← grown, List.length_append]
    omega
  · exact slice.short
  · exact slice.syn
  · exact slice.bare
  · intro sent
    obtain ⟨ends, closed⟩ := slice.fin sent
    obtain ⟨still, writes⟩ := closed_chain steps careful closed
    rw [writes]
    exact ⟨ends, still⟩

end Steps

/-! ## What an end does by itself -/

section Own

variable {base : Tcpseq} {main after : Main} {acked count : Nat}

/-- A send may be followed by others, an acknowledgement is not taken in between. -/
theorem emits_ledger (emits : Emits main after) (ledger : Ledger base main acked count)
    (sends : NewdataInside after.sends) : ∃ later, Ledger base after acked later := by
  induction emits with
  | refl => exact ⟨count, ledger⟩
  | tail _ emit ih =>
      cases emit with
      | sent tcb found rexmt =>
          obtain ⟨later, ledger⟩ := ih fun send member => sends send (by simp [member])
          exact ledger_sent ledger tcb found rexmt (sends (tcb, rexmt) (by simp))
      | freed =>
          obtain ⟨later, ledger⟩ := ih sends
          exact ⟨later, ledger_entered ledger .free trivial⟩

theorem emit_micro (emit : Emit main after) : Micro main after := by
  cases emit with
  | sent tcb found rexmt => exact Micro.sent tcb found rexmt
  | freed => exact Micro.entered .free trivial

theorem emits_writes (emits : Emits main after) : after.writes = main.writes := by
  induction emits with
  | refl => rfl
  | tail _ emit ih =>
      refine Eq.trans ?_ ih
      cases emit <;> rfl

theorem emits_sends (emits : Emits main after) (ledger : Ledger base main acked count)
    (careful : after.Careful) (whole : RexmtWhole after.sends) :
    ∃ more, after.sends = main.sends ++ more ∧ ∀ send ∈ more, ∃ index,
      Slice base after (tcpsegment send.1 send.2) index ∧
        (written main.writes).length ≤ index + tcpsbs := by
  induction emits with
  | refl => exact ⟨[], (List.append_nil _).symm, by simp⟩
  | tail before emit ih =>
      have step := emit_micro emit
      have early := careful_before step careful
      have kept : ∀ segment index, Slice base _ segment index → Slice base _ segment index :=
        fun segment index slice => slice.chain (Relation.ReflTransGen.single step) careful
      cases emit with
      | sent tcb found rexmt =>
          obtain ⟨more, grown, known⟩ := ih early fun send member => whole send (by simp [member])
          obtain ⟨later, middle⟩ := emits_ledger before ledger early.sends
          have near := middle.near
          rw [emits_writes before] at near
          refine ⟨more ++ [(tcb, rexmt)], by simp [grown], ?_⟩
          intro send member
          rcases List.mem_append.mp member with old | new
          · obtain ⟨index, slice, low⟩ := known send old
            exact ⟨index, kept _ _ slice, low⟩
          · rw [List.mem_singleton.mp new]
            have slice := slice_of_sent middle tcb found rexmt
              (careful.sends (tcb, rexmt) (by simp)) (whole (tcb, rexmt) (by simp))
            exact ⟨_, kept _ _ slice, by omega⟩
      | freed =>
          obtain ⟨more, grown, known⟩ := ih early whole
          refine ⟨more, grown, ?_⟩
          intro send member
          obtain ⟨index, slice, low⟩ := known send member
          exact ⟨index, kept _ _ slice, low⟩

end Own

/-- What a step leaves of the ledger: the same octets are acknowledged. -/
structure Outflow (base : Tcpseq) (conn after : Conn) (acked : Nat) : Prop where
  ledger : ∃ later, Ledger base after.main acked later
  sends : ∃ more, after.trace.sends = conn.trace.sends ++ more ∧ ∀ send ∈ more, ∃ index,
    Slice base after.main (tcpsegment send.1 send.2) index ∧
      (written conn.trace.writes).length ≤ index + tcpsbs

section Inner

variable {base : Tcpseq} {conn after : Conn} {acked count : Nat}

theorem outflow_of_main (ledger : Ledger base conn.main acked count)
    (same : after.main = conn.main) : Outflow base conn after acked := by
  have sends : after.trace.sends = conn.trace.sends := congrArg Main.sends same
  refine ⟨⟨count, ?_⟩, [], sends.trans (List.append_nil _).symm, by simp⟩
  rw [same]
  exact ledger

theorem outflow_of_ledger (ledger : Ledger base after.main acked count)
    (sends : after.trace.sends = conn.trace.sends) : Outflow base conn after acked :=
  ⟨⟨count, ledger⟩, [], sends.trans (List.append_nil _).symm, by simp⟩

theorem dealloc_ledger (ledger : Ledger base conn.main acked count) :
    Ledger base (tcbdealloc conn).main acked count := by
  unfold tcbdealloc
  split
  · exact ledger
  · exact ledger_entered ledger .free trivial

theorem resume_outflow (ledger : Ledger base conn.main acked count) (index : Nat)
    (careful : (tcpgetspace conn index).main.Careful) :
    Outflow base conn (tcpgetspace conn index) acked := by
  revert careful
  unfold tcpgetspace
  split
  · exact fun _ => outflow_of_main ledger rfl
  · rename_i octets isurg _
    simp only
    split_ifs with gone space
    · exact fun _ => outflow_of_main ledger rfl
    · unfold tcpwr
      simp only
      split_ifs with empty kick
      · exact fun _ => outflow_of_main ledger rfl
      · rw [tcpkick_main]
        intro careful
        have state := careful.writes (conn.tcb, octets) (by simp [Conn.main])
        have stored := ledger_wrote ledger conn.tcb rfl octets isurg space state
        refine @outflow_of_ledger _ _ _ _ count ?_ ?_
        · rw [tcpkick_main]
          exact stored
        · unfold tcpkick
          split <;> rfl
      · intro careful
        have state := careful.writes (conn.tcb, octets) (by simp [Conn.main])
        exact outflow_of_ledger (ledger_wrote ledger conn.tcb rfl octets isurg space state) rfl
    · exact fun _ => outflow_of_main ledger rfl

theorem close_outflow (ledger : Ledger base conn.main acked count) :
    Outflow base conn (tcpclose conn) acked := by
  unfold tcpclose
  split_ifs with other error
  · exact outflow_of_main ledger rfl
  · refine outflow_of_ledger (dealloc_ledger ledger) ?_
    unfold tcbdealloc
    split <;> rfl
  · have closed := ledger_closed ledger conn.tcb rfl (by tauto)
    refine @outflow_of_ledger _ _ _ _ count ?_ ?_
    · rw [tcpkick_main]
      exact closed
    · unfold tcpkick
      split <;> rfl

theorem inner_outflow (ledger : Ledger base conn.main acked count) (event : Event)
    (inner : event.inner = true) (careful : (connStep conn event).main.Careful)
    (whole : RexmtWhole (connStep conn event).trace.sends) :
    Outflow base conn (connStep conn event) acked := by
  cases event with
  | segment inbound => cases inner
  | read len => cases inner
  | output fuel =>
      rw [connStep] at careful whole ⊢
      cases ended : tcpout fuel conn with
      | none => exact outflow_of_main ledger rfl
      | some after =>
          rw [ended] at careful whole
          have emits := tcpout_emits conn fuel after ended
          exact ⟨emits_ledger emits ledger careful.sends, emits_sends emits ledger careful whole⟩
  | tick delta => exact outflow_of_main ledger rfl
  | clock ctr100 => exact outflow_of_main ledger rfl
  | write octets isurg => exact outflow_of_main ledger (tcpwrcall_main conn octets isurg)
  | resume index => exact resume_outflow ledger index careful
  | close => exact close_outflow ledger
  | closeEnd =>
      rw [connStep, tcpcloseend]
      split
      · refine outflow_of_ledger (dealloc_ledger ledger) ?_
        unfold tcbdealloc
        split <;> rfl
      · exact outflow_of_main ledger rfl
  | option set delack buffer => exact outflow_of_main ledger rfl
  | otherKick event tcbnum =>
      apply outflow_of_main ledger
      rw [connStep]
      split <;> rfl
  | otherSet key time =>
      apply outflow_of_main ledger
      rw [connStep]
      split <;> rfl
  | otherClear key =>
      apply outflow_of_main ledger
      rw [connStep]
      split <;> rfl

end Inner

/-! ## An acknowledgement -/

section Segments

variable {base : Tcpseq} {conn : Conn} {inbound : Inbound} {acked count : Nat}

theorem chain_ledger {main after : Main} (chain : Chain main after) (careful : after.Careful)
    (ledger : Ledger base main acked count) : ∃ later left, Ledger base after later left := by
  have kept : after.Careful → ∃ later left, Ledger base after later left := by
    clear careful
    induction chain with
    | refl => exact fun _ => ⟨acked, count, ledger⟩
    | tail _ step ih => exact ledger_micro base _ _ ih step
  exact kept careful

/-- A segment moves the ledger to its acknowledgement, if at all. -/
theorem segment_outflow (ledger : Ledger base conn.main acked count)
    (synchronised : TcpState.established.number ≤ conn.tcb.state.number)
    (bare : inbound.segment.offset = tcphoffset)
    (careful : (connStep conn (.segment inbound)).main.Careful) :
    ∃ later left, Ledger base (connStep conn (.segment inbound)).main later left ∧
      (written conn.trace.writes).length ≤ later + tcpsbs ∧
      later ≤ (written conn.trace.writes).length + 1 ∧
      (later = acked ∨ inbound.segment.code.rst = false ∧
        inbound.segment.code.ack = true ∧ inbound.segment.ack = seqAt base later) := by
  have served := (segment_served synchronised bare).1
  obtain ⟨later, left, after⟩ := chain_ledger (step_chain conn (.segment inbound)) careful ledger
  have before := ledger.near
  have behind := after.near
  have writes : (connStep conn (.segment inbound)).main.writes = conn.trace.writes :=
    served.writes
  rw [writes] at behind
  have near : acked ≤ (written conn.trace.writes).length + 1 ∧
      (written conn.trace.writes).length ≤ acked + 4096 := by
    change acked ≤ (written conn.trace.writes).length + 1 ∧
      (written conn.trace.writes).length ≤ acked + _ ∧ _ ≤ 4096 at before
    omega
  have close : later ≤ (written conn.trace.writes).length + 1 ∧
      (written conn.trace.writes).length ≤ later + 4096 := by
    simp only [tcpsbs] at behind
    omega
  refine ⟨later, left, after, close.2, close.1, ?_⟩
  have place : (connStep conn (.segment inbound)).tcb.suna = seqAt base later := after.suna
  have old : conn.tcb.suna = seqAt base acked := ledger.suna
  rcases served.suna with same | ⟨reset, flag, taken⟩
  · left
    have equal := seq_at_injective base later acked (by omega) (by omega)
      (place.symm.trans (same.trans old))
    omega
  · right
    have header := tcpok_header conn.tcb inbound.segment
    refine ⟨?_, ?_, ?_⟩
    · rw [← header.2]
      exact reset
    · rw [← header.2]
      exact flag
    · rw [← header.1]
      exact taken.symm.trans place

end Segments

end MvsXinu.Tcp
