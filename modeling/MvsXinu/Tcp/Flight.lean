import MvsXinu.Tcp.SendSide

/-!
# Sequence numbers in flight

Once its SYN is acknowledged a connection has a number of sequence numbers in flight:
octets of the send buffer, and behind them the FIN. `Flight core count` says how `snext`,
`slast`, the FIN bit and `SNDFIN` agree with that. A send keeps it if a segment of new data
starts inside of the buffer, an acknowledgement keeps it if a FIN it covers was counted.
-/

namespace MvsXinu.Tcp

open MvsXinu.SeqSpace

set_option autoImplicit false

/-- The states that a user has not closed the connection in. -/
def Unclosed (state : TcpState) : Prop :=
  state = .synsent ∨ state = .synrcvd ∨ state = .established ∨ state = .closewait

/-- The states behind `tcpclose`. -/
def Shut (state : TcpState) : Prop :=
  state = .finwait1 ∨ state = .finwait2 ∨ state = .lastack ∨ state = .closing ∨ state = .timewait

theorem unclosed_before {main : Main} {state : TcpState} (enters : Enters main state)
    (unclosed : Unclosed state) : Unclosed main.core.state := by
  rcases unclosed with rfl | rfl | rfl | rfl
  · exact absurd enters id
  · exact Or.inl enters.1
  · rcases enters with ⟨found, _⟩ | ⟨found, _⟩
    · exact Or.inl found
    · exact Or.inr (Or.inl found)
  · exact Or.inr (Or.inr (Or.inl enters))

theorem shut_before {main : Main} {state : TcpState} (enters : Enters main state)
    (shut : Shut state) : Shut main.core.state := by
  rcases shut with rfl | rfl | rfl | rfl | rfl
  · exact absurd enters id
  · exact Or.inl enters.1
  · exact absurd enters id
  · exact Or.inl enters.1
  · rcases enters with ⟨found | found, _⟩ | found <;> simp [Shut, found]

structure Flight (core : Core) (count : Nat) : Prop where
  syn : core.code.syn = false
  snext : core.snext = seqAt core.suna count
  sbsize : core.sbsize = BitVec.ofNat 32 tcpsbs
  sbstart : core.sbstart.toNat < tcpsbs
  sbcount : core.sbcount.toNat ≤ tcpsbs
  within : count ≤ core.sbcount.toNat ∨ core.code.fin = true ∧ count = core.sbcount.toNat + 1
  asked : core.code.fin = true → core.sndfin = true
  behind : core.code.fin = true → core.sbcount.toNat ≤ count
  slast : core.sndfin = true → core.slast = core.suna + core.sbcount
  unclosed : Unclosed core.state → core.sndfin = false
  shut : Shut core.state → core.sndfin = false → core.sbcount.toNat = 0

theorem sbsize_nat {core : Core} (sbsize : core.sbsize = BitVec.ofNat 32 tcpsbs) :
    core.sbsize.toNat = 4096 := by
  rw [sbsize]
  rfl

theorem word_min_to_nat (left right : Word) :
    (wordMin left right).toNat = min left.toNat right.toNat := by
  unfold wordMin
  split <;> omega

/-- A segment is as long as the data left, the window and the segment size allow. -/
theorem sndlen_to_nat (tcb : Tcb) (rexmt : Bool) : (tcpsndlen tcb rexmt).2.toNat =
    min (min (tcb.sbcount - (tcpsndlen tcb rexmt).1).toNat tcb.swindow.toNat) tcb.smss.toNat := by
  rw [tcpsndlen, word_min_to_nat, word_min_to_nat]

section Send

variable {tcb : Tcb} {count : Nat}

theorem flight_count (flight : Flight tcb.core count) : count ≤ 4097 := by
  have bound := flight.sbcount
  have within := flight.within
  simp only [tcpsbs] at bound
  omega

theorem pending_eq (flight : Flight tcb.core count) : tcb.pending = BitVec.ofNat 32 count := by
  have snext : tcb.snext = seqAt tcb.suna count := flight.snext
  rw [Tcb.pending, snext, seqAt, BitVec.ofInt_natCast]
  ring

theorem pending_nat (flight : Flight tcb.core count) : tcb.pending.toNat = count := by
  have bound := flight_count flight
  rw [pending_eq flight, BitVec.toNat_ofNat]
  omega

theorem slast_eq (flight : Flight tcb.core count) (sndfin : tcb.flags.sndfin = true) :
    tcb.slast = seqAt tcb.suna tcb.sbcount.toNat := by
  have slast : tcb.slast = tcb.suna + tcb.sbcount := flight.slast sndfin
  have add := seq_at_add_word tcb.suna 0 tcb.sbcount
  rw [slast]
  simpa using add

/-- A segment of new data starts behind what is in flight. -/
theorem newdata_offset (flight : Flight tcb.core count) :
    (tcpsndlen tcb false).1 = BitVec.ofNat 32 count := by
  have syn : tcb.code.syn = false := flight.syn
  simp [tcpsndlen, syn, pending_eq flight]

theorem rexmt_offset (tcb : Tcb) : (tcpsndlen tcb true).1 = 0 := rfl

theorem newdata_len (flight : Flight tcb.core count)
    (inside : tcb.pending.toNat ≤ tcb.sbcount.toNat) :
    count + (tcpsndlen tcb false).2.toNat ≤ tcb.sbcount.toNat := by
  rw [sndlen_to_nat, newdata_offset flight, ← pending_eq flight, word_sub_to_nat _ _ inside]
  rw [pending_nat flight] at inside ⊢
  omega

theorem rexmt_len (tcb : Tcb) : (tcpsndlen tcb true).2.toNat ≤ tcb.sbcount.toNat := by
  rw [sndlen_to_nat, rexmt_offset, sub_zero]
  omega

/-- The FIN goes with the segment that empties the buffer. -/
theorem sendcode_fin (flight : Flight tcb.core count) (seq : Tcpseq) (offset : Nat) (len : Word)
    (place : seq = seqAt tcb.suna offset) (inside : offset + len.toNat ≤ tcb.sbcount.toNat) :
    (tcpsendcode tcb seq len).fin = true ↔
      tcb.code.fin = true ∨ tcb.flags.sndfin = true ∧ offset + len.toNat = tcb.sbcount.toNat := by
  have bound : tcb.sbcount.toNat ≤ tcpsbs := flight.sbcount
  unfold tcpsendcode
  by_cases sndfin : tcb.flags.sndfin = true
  · have distance : seqcmp (seq + len) tcb.slast =
        (offset + len.toNat : Nat) - (tcb.sbcount.toNat : Int) := by
      rw [slast_eq flight sndfin, place, seq_at_add_word, seqcmp]
      simp only [tcpsbs] at bound
      rw [signed_dist_seq_at _ _ _ (by omega) (by omega)]
      simp
    rw [distance]
    simp only [sndfin, true_and]
    split
    · rename_i reached
      simp only [true_iff]
      right
      omega
    · rename_i short
      constructor
      · intro fin
        exact Or.inl fin
      · rintro (fin | reached)
        · exact fin
        · omega
  · simp [sndfin]

/-- A send changes `tcb_code` and `snext` only. -/
theorem flight_moved {core : Core} (flight : Flight core count) (code : Code) (snext : Tcpseq)
    (after : Nat) (syn : code.syn = core.code.syn) (moved : snext = seqAt core.suna after)
    (asked : code.fin = true → core.code.fin = true ∨ core.sndfin = true)
    (within : after ≤ core.sbcount.toNat ∨ code.fin = true ∧ after = core.sbcount.toNat + 1)
    (behind : code.fin = true → core.sbcount.toNat ≤ after) :
    Flight { core with code := code, snext := snext } after where
  syn := syn.trans flight.syn
  snext := moved
  sbsize := flight.sbsize
  sbstart := flight.sbstart
  sbcount := flight.sbcount
  within := within
  asked := fun fin => (asked fin).elim flight.asked id
  behind := behind
  slast := flight.slast
  unclosed := flight.unclosed
  shut := flight.shut

/-- Sequence numbers in flight after a segment of new data. -/
def newdataCount (tcb : Tcb) (count : Nat) : Nat :=
  count + (tcpsndlen tcb false).2.toNat +
    (if (tcpsendcode tcb tcb.snext (tcpsndlen tcb false).2).fin then 1 else 0)

theorem newdata_moved (flight : Flight tcb.core count) :
    tcb.snext + tcpnewdata tcb false = seqAt tcb.suna (newdataCount tcb count) := by
  have syn : tcb.code.syn = false := flight.syn
  have snext : tcb.snext = seqAt tcb.suna count := flight.snext
  unfold tcpnewdata newdataCount
  simp only [Bool.false_eq_true, if_false, tcpsendseq, sendcode_syn, syn, add_zero]
  rw [snext]
  split
  · rw [← add_assoc, seq_at_add_word, seq_at_add_word]
    rfl
  · rw [add_zero, seq_at_add_word]
    rfl

theorem newdata_sent (flight : Flight tcb.core count)
    (inside : tcb.pending.toNat ≤ tcb.sbcount.toNat) :
    Flight (tcpsent tcb false).core (newdataCount tcb count) := by
  have len := newdata_len flight inside
  have fin := sendcode_fin flight tcb.snext count (tcpsndlen tcb false).2 flight.snext len
  have behind : tcb.code.fin = true → tcb.sbcount.toNat ≤ count := flight.behind
  have last : (tcpsendcode tcb tcb.snext (tcpsndlen tcb false).2).fin = true →
      count + (tcpsndlen tcb false).2.toNat = tcb.sbcount.toNat := by
    intro sent
    rcases fin.mp sent with before | ⟨_, last⟩
    · have outstanding := behind before
      omega
    · exact last
  rw [tcpsent_core]
  apply flight_moved flight
  case syn => exact sendcode_syn tcb _ _
  case moved => exact newdata_moved flight
  case asked =>
    intro sent
    exact (fin.mp sent).imp id And.left
  case within =>
    unfold newdataCount
    by_cases sent : (tcpsendcode tcb tcb.snext (tcpsndlen tcb false).2).fin = true
    · rw [if_pos sent, last sent]
      exact Or.inr ⟨sent, rfl⟩
    · rw [if_neg sent]
      exact Or.inl len
  case behind =>
    intro sent
    have all := last sent
    unfold newdataCount
    change tcb.sbcount.toNat ≤ _
    omega

/-- The number of sequence numbers in flight after a retransmission: octets that were not
sent before are counted, a FIN is not. -/
def rexmtCount (tcb : Tcb) (count : Nat) : Nat := max count (tcpsndlen tcb true).2.toNat

theorem rexmt_moved (flight : Flight tcb.core count) :
    tcb.snext + tcpnewdata tcb true = seqAt tcb.suna (rexmtCount tcb count) := by
  have len := rexmt_len tcb
  have snext : tcb.snext = seqAt tcb.suna count := flight.snext
  have bound : tcb.sbcount.toNat ≤ 4096 := flight.sbcount
  have few := flight_count flight
  have place : tcb.suna + (tcpsndlen tcb true).2 =
      seqAt tcb.suna (tcpsndlen tcb true).2.toNat := by
    have add := seq_at_add_word tcb.suna 0 (tcpsndlen tcb true).2
    simpa using add
  unfold tcpnewdata rexmtCount
  simp only [if_true]
  rw [place, snext, seq_at_sub, to_int_of_range _ (by omega) (by omega)]
  split
  · rw [add_zero, Nat.max_eq_left (by omega)]
  · rw [seq_at_add, Nat.max_eq_right (by omega)]
    congr 1
    omega

theorem rexmt_sent (flight : Flight tcb.core count) :
    Flight (tcpsent tcb true).core (rexmtCount tcb count) := by
  have len := rexmt_len tcb
  have fin := sendcode_fin flight tcb.suna 0 (tcpsndlen tcb true).2 (by simp) (by omega)
  have behind : tcb.code.fin = true → tcb.sbcount.toNat ≤ count := flight.behind
  have within : count ≤ tcb.sbcount.toNat ∨
    tcb.code.fin = true ∧ count = tcb.sbcount.toNat + 1 := flight.within
  rw [tcpsent_core]
  apply flight_moved flight
  case syn => exact sendcode_syn tcb _ _
  case moved => exact rexmt_moved flight
  case asked =>
    intro sent
    exact (fin.mp sent).imp id And.left
  case within =>
    rcases within with some | ⟨before, all⟩
    · exact Or.inl (Nat.max_le.mpr ⟨some, len⟩)
    · refine Or.inr ⟨fin.mpr (Or.inl before), ?_⟩
      rw [rexmtCount, Nat.max_eq_left (by omega), all]
      rfl
  case behind =>
    intro sent
    change tcb.sbcount.toNat ≤ max _ _
    rcases fin.mp sent with before | ⟨_, last⟩
    · have outstanding := behind before
      omega
    · omega

end Send

/-- Offset of a segment into the send buffer. -/
def sendOffset (rexmt : Bool) (count : Nat) : Nat := if rexmt then 0 else count

section Place

variable {tcb : Tcb} {count : Nat}

theorem sndlen_eq (flight : Flight tcb.core count) (rexmt : Bool)
    (inside : rexmt = false → tcb.pending.toNat ≤ tcb.sbcount.toNat) :
    (tcpsndlen tcb rexmt).1 = BitVec.ofNat 32 (sendOffset rexmt count) ∧
      sendOffset rexmt count + (tcpsndlen tcb rexmt).2.toNat ≤ tcb.sbcount.toNat := by
  cases rexmt with
  | false => exact ⟨newdata_offset flight, newdata_len flight (inside rfl)⟩
  | true =>
      refine ⟨rexmt_offset tcb, ?_⟩
      rw [sendOffset, if_pos rfl, Nat.zero_add]
      exact rexmt_len tcb

theorem sendseq_eq (flight : Flight tcb.core count) (rexmt : Bool) :
    tcpsendseq tcb rexmt = seqAt tcb.suna (sendOffset rexmt count) := by
  cases rexmt with
  | false => exact flight.snext
  | true => simp [tcpsendseq, sendOffset]

theorem sent_flight (flight : Flight tcb.core count) (rexmt : Bool)
    (inside : rexmt = false → tcb.pending.toNat ≤ tcb.sbcount.toNat) :
    ∃ after, Flight (tcpsent tcb rexmt).core after := by
  cases rexmt with
  | false => exact ⟨_, newdata_sent flight (inside rfl)⟩
  | true => exact ⟨_, rexmt_sent flight⟩

end Place

/-- An acceptable acknowledgement of `acked` sequence numbers, of which `octets` are data:
either it covers no FIN, or it covers the FIN and everything before it. -/
structure Covers (tcb : Tcb) (count : Nat) (ack : Tcpseq) (acked octets : Nat) : Prop where
  positive : 0 < acked
  sent : acked ≤ count
  place : ack = seqAt tcb.suna acked
  stored : octets ≤ tcb.sbcount.toNat
  len : tcpackedlen tcb ack = octets
  cover : acked = octets ∧ tcpackedfin tcb ack = false ∨
    acked = octets + 1 ∧ octets = tcb.sbcount.toNat ∧ acked = count ∧ tcpackedfin tcb ack = true

section Acknowledge

variable {tcb : Tcb} {count : Nat} {ack : Tcpseq}

theorem ack_place (flight : Flight tcb.core count) (new : 0 < seqcmp ack tcb.suna)
    (known : seqcmp ack tcb.snext ≤ 0) : ∃ acked : Nat, 0 < acked ∧ acked ≤ count ∧
      ack = seqAt tcb.suna acked ∧ seqcmp ack tcb.suna = acked ∧
      seqcmp ack tcb.snext = acked - count := by
  have few := flight_count flight
  have snext : tcb.snext = seqAt tcb.suna count := flight.snext
  have place := seq_at_signed_dist tcb.suna ack
  have bounds := signed_dist_bounds ack tcb.suna
  obtain ⟨acked, distance⟩ := Int.eq_ofNat_of_zero_le (show 0 ≤ signedDist ack tcb.suna from new.le)
  rw [distance] at place bounds
  have beyond : seqcmp ack tcb.snext = acked - count := by
    rw [seqcmp, snext, ← place, signed_dist_seq_at _ _ _ (by omega) (by omega)]
  rw [seqcmp, distance] at new
  exact ⟨acked, by omega, by omega, place.symm, distance, beyond⟩

/-- A FIN that was not counted in `snext` is the one trap. -/
theorem covers_of_counted (flight : Flight tcb.core count) (new : 0 < seqcmp ack tcb.suna)
    (known : seqcmp ack tcb.snext ≤ 0)
    (counted : tcb.code.fin = true → ack = tcb.snext → tcb.snext ≠ tcb.slast) :
    ∃ acked octets, Covers tcb count ack acked octets := by
  obtain ⟨acked, positive, sent, place, distance, beyond⟩ := ack_place flight new known
  have syn : tcb.code.syn = false := flight.syn
  have within : count ≤ tcb.sbcount.toNat ∨
    tcb.code.fin = true ∧ count = tcb.sbcount.toNat + 1 := flight.within
  have behind : tcb.code.fin = true → tcb.sbcount.toNat ≤ count := flight.behind
  by_cases covered : tcb.code.fin = true ∧ acked = count
  · obtain ⟨fin, all⟩ := covered
    have slast := slast_eq flight (flight.asked fin)
    have snext : tcb.snext = seqAt tcb.suna count := flight.snext
    have apart := counted fin (by rw [place, snext, all])
    rw [snext, slast] at apart
    have more : count = tcb.sbcount.toNat + 1 := by
      rcases within with some | ⟨_, more⟩
      · exact absurd (by rw [Nat.le_antisymm some (behind fin)]) apart
      · exact more
    have packed : tcpackedfin tcb ack = true := by simp [tcpackedfin, fin, beyond, all]
    refine ⟨acked, tcb.sbcount.toNat, positive, sent, place, le_rfl, ?_, Or.inr ?_⟩
    · simp only [tcpackedlen, tcpackedsyn, syn, packed, distance]
      simp
      omega
    · exact ⟨by omega, rfl, all, packed⟩
  · have packed : tcpackedfin tcb ack = false := by
      simp only [tcpackedfin, beyond, Bool.and_eq_false_iff, decide_eq_false_iff_not]
      rcases Decidable.not_and_iff_not_or_not.mp covered with fin | some
      · exact Or.inl (eq_false_of_ne_true fin)
      · exact Or.inr (by omega)
    have stored : acked ≤ tcb.sbcount.toNat := by
      rcases within with some | ⟨fin, more⟩
      · omega
      · have short : acked ≠ count := fun all => covered ⟨fin, all⟩
        omega
    refine ⟨acked, acked, positive, sent, place, stored, ?_, Or.inl ⟨rfl, packed⟩⟩
    simp [tcpackedlen, tcpackedsyn, syn, packed, distance]

variable {acked octets : Nat}

theorem accepted_sbcount (covers : Covers tcb count ack acked octets) :
    (tcpaccepted tcb ack).sbcount.toNat = tcb.sbcount.toNat - octets := by
  have stored := covers.stored
  have bound := tcb.sbcount.isLt
  have small : (BitVec.ofNat 32 octets).toNat = octets := by
    rw [BitVec.toNat_ofNat]
    omega
  change (tcb.sbcount - BitVec.ofInt 32 (tcpackedlen tcb ack)).toNat = _
  rw [covers.len, BitVec.ofInt_natCast, word_sub_to_nat _ _ (by omega), small]

theorem accepted_sbstart (flight : Flight tcb.core count)
    (covers : Covers tcb count ack acked octets) :
    (tcpaccepted tcb ack).sbstart.toNat = (tcb.sbstart.toNat + octets) % tcpsbs := by
  have stored := covers.stored
  have bound : tcb.sbcount.toNat ≤ 4096 := flight.sbcount
  have start : tcb.sbstart.toNat < 4096 := flight.sbstart
  have size : tcb.sbsize.toNat = 4096 := sbsize_nat flight.sbsize
  have small : (BitVec.ofNat 32 octets).toNat = octets := by
    rw [BitVec.toNat_ofNat]
    omega
  change (BitVec.ofNat 32 ((tcb.sbstart + BitVec.ofInt 32 (tcpackedlen tcb ack)).toNat %
    tcb.sbsize.toNat)).toNat = _
  rw [covers.len, BitVec.ofInt_natCast, word_add_to_nat _ _ (by omega), small, size, tcpsbs,
    BitVec.toNat_ofNat]
  omega

theorem accepted_fin (tcb : Tcb) (ack : Tcpseq) (packed : tcpackedfin tcb ack = true) :
    (tcpaccepted tcb ack).code.fin = false ∧ (tcpaccepted tcb ack).flags.sndfin = false := by
  simp [tcpaccepted, packed]

theorem accepted_nofin (tcb : Tcb) (ack : Tcpseq) (packed : tcpackedfin tcb ack = false) :
    (tcpaccepted tcb ack).code.fin = tcb.code.fin ∧
      (tcpaccepted tcb ack).flags.sndfin = tcb.flags.sndfin := by
  simp [tcpaccepted, packed]

theorem accepted_flight (flight : Flight tcb.core count)
    (covers : Covers tcb count ack acked octets) :
    Flight (tcpaccepted tcb ack).core (count - acked) := by
  have stored := covers.stored
  have sent := covers.sent
  have place := covers.place
  have snext : tcb.snext = seqAt tcb.suna count := flight.snext
  have within : count ≤ tcb.sbcount.toNat ∨
    tcb.code.fin = true ∧ count = tcb.sbcount.toNat + 1 := flight.within
  have behind : tcb.code.fin = true → tcb.sbcount.toNat ≤ count := flight.behind
  have bound : tcb.sbcount.toNat ≤ tcpsbs := flight.sbcount
  have sbcount := accepted_sbcount covers
  constructor
  case syn => rfl
  case snext =>
    change tcb.snext = seqAt ack (count - acked : Nat)
    rw [snext, place, seqAt, seqAt, seqAt, BitVec.add_assoc, ← BitVec.ofInt_add]
    congr 2
    omega
  case sbsize => exact flight.sbsize
  case sbstart =>
    change (tcpaccepted tcb ack).sbstart.toNat < tcpsbs
    rw [accepted_sbstart flight covers]
    exact Nat.mod_lt _ (by decide)
  case sbcount =>
    change (tcpaccepted tcb ack).sbcount.toNat ≤ tcpsbs
    omega
  case shut =>
    intro state sndfin
    change (tcpaccepted tcb ack).sbcount.toNat = 0
    rcases covers.cover with ⟨_, packed⟩ | ⟨_, all, _, _⟩
    · have before : tcb.flags.sndfin = false := (accepted_nofin tcb ack packed).2.symm.trans sndfin
      have empty : tcb.sbcount.toNat = 0 := flight.shut state before
      omega
    · omega
  case within =>
    change _ ≤ (tcpaccepted tcb ack).sbcount.toNat ∨ (tcpaccepted tcb ack).code.fin = true ∧
      _ = (tcpaccepted tcb ack).sbcount.toNat + 1
    rcases covers.cover with ⟨data, packed⟩ | ⟨_, _, all, _⟩
    · rw [(accepted_nofin tcb ack packed).1, sbcount]
      rcases within with some | ⟨fin, more⟩
      · exact Or.inl (by omega)
      · exact Or.inr ⟨fin, by omega⟩
    · exact Or.inl (by omega)
  case asked =>
    rcases covers.cover with ⟨_, packed⟩ | ⟨_, _, _, packed⟩
    · have kept := accepted_nofin tcb ack packed
      intro fin
      exact kept.2.trans (flight.asked (kept.1.symm.trans fin))
    · intro fin
      exact absurd ((accepted_fin tcb ack packed).1.symm.trans fin) (by decide)
  case behind =>
    rcases covers.cover with ⟨data, packed⟩ | ⟨_, _, _, packed⟩
    · have kept := accepted_nofin tcb ack packed
      intro fin
      have outstanding := behind (kept.1.symm.trans fin)
      change (tcpaccepted tcb ack).sbcount.toNat ≤ _
      omega
    · intro fin
      exact absurd ((accepted_fin tcb ack packed).1.symm.trans fin) (by decide)
  case slast =>
    rcases covers.cover with ⟨data, packed⟩ | ⟨_, _, _, packed⟩
    · have kept := accepted_nofin tcb ack packed
      intro sndfin
      have slast : tcb.slast = tcb.suna + tcb.sbcount :=
        flight.slast (kept.2.symm.trans sndfin)
      change tcb.slast = ack + (tcb.sbcount - BitVec.ofInt 32 (tcpackedlen tcb ack))
      rw [slast, covers.len, place, seqAt, data]
      ring
    · intro sndfin
      exact absurd ((accepted_fin tcb ack packed).2.symm.trans sndfin) (by decide)
  case unclosed =>
    intro state
    have before : tcb.flags.sndfin = false := flight.unclosed state
    change (tcb.flags.sndfin && _) = false
    rw [before, Bool.false_and]

end Acknowledge

section Calls

variable {tcb : Tcb} {count : Nat}

theorem stored_sbcount (flight : Flight tcb.core count) (octets : List Octet) (isurg : Bool)
    (space : octets.length ≤ (tcb.sbsize - tcb.sbcount).toNat) :
    (tcpstored tcb octets isurg).sbcount.toNat = tcb.sbcount.toNat + octets.length ∧
      tcb.sbcount.toNat + octets.length ≤ tcpsbs := by
  have bound : tcb.sbcount.toNat ≤ 4096 := flight.sbcount
  have size : tcb.sbsize.toNat = 4096 := sbsize_nat flight.sbsize
  rw [word_sub_to_nat _ _ (by omega), size] at space
  have small : (BitVec.ofNat 32 octets.length).toNat = octets.length := by
    rw [BitVec.toNat_ofNat]
    omega
  constructor
  · change (tcb.sbcount + BitVec.ofNat 32 octets.length).toNat = _
    rw [word_add_to_nat _ _ (by omega), small]
  · simp only [tcpsbs]
    omega

theorem stored_flight (flight : Flight tcb.core count) (octets : List Octet) (isurg : Bool)
    (space : octets.length ≤ (tcb.sbsize - tcb.sbcount).toNat)
    (state : tcb.state = .established ∨ tcb.state = .closewait) :
    Flight (tcpstored tcb octets isurg).core count := by
  obtain ⟨sbcount, fits⟩ := stored_sbcount flight octets isurg space
  have sndfin : tcb.flags.sndfin = false := flight.unclosed (Or.inr (Or.inr state))
  have fin : tcb.code.fin ≠ true := by
    intro fin
    exact absurd (sndfin.symm.trans (flight.asked fin)) (by decide)
  have within : count ≤ tcb.sbcount.toNat ∨
    tcb.code.fin = true ∧ count = tcb.sbcount.toNat + 1 := flight.within
  constructor
  case syn => exact flight.syn
  case snext => exact flight.snext
  case sbsize => exact flight.sbsize
  case sbstart => exact flight.sbstart
  case sbcount => exact sbcount.trans_le fits
  case within =>
    rcases within with some | ⟨sent, _⟩
    · left
      change _ ≤ (tcpstored tcb octets isurg).sbcount.toNat
      omega
    · exact absurd sent fin
  case asked => exact flight.asked
  case behind =>
    intro sent
    exact absurd sent fin
  case slast =>
    intro asked
    exact absurd (sndfin.symm.trans asked) (by decide)
  case unclosed => exact flight.unclosed
  case shut =>
    intro shut
    change Shut tcb.state at shut
    rcases state with state | state <;> simp [Shut, state] at shut

theorem closed_flight (flight : Flight tcb.core count) :
    Flight (tcpclosedtcb tcb).core count := by
  have moved : (tcpclosedtcb tcb).state = .finwait1 ∨ (tcpclosedtcb tcb).state = .lastack := by
    unfold tcpclosedtcb
    simp only
    split
    · exact Or.inl rfl
    · exact Or.inr rfl
  constructor
  case syn => exact flight.syn
  case snext => exact flight.snext
  case sbsize => exact flight.sbsize
  case sbstart => exact flight.sbstart
  case sbcount => exact flight.sbcount
  case within => exact flight.within
  case asked => exact fun _ => rfl
  case behind => exact flight.behind
  case slast => exact fun _ => rfl
  case unclosed =>
    change Unclosed (tcpclosedtcb tcb).state → _
    rcases moved with moved | moved <;> simp [Unclosed, moved]
  case shut =>
    intro _ clear
    cases clear

theorem entered_flight {main : Main} (flight : Flight main.core count) (state : TcpState)
    (enters : Enters main state) : Flight { main.core with state := state } count := by
  constructor
  case syn => exact flight.syn
  case snext => exact flight.snext
  case sbsize => exact flight.sbsize
  case sbstart => exact flight.sbstart
  case sbcount => exact flight.sbcount
  case within => exact flight.within
  case asked => exact flight.asked
  case behind => exact flight.behind
  case slast => exact flight.slast
  case unclosed =>
    intro entered
    exact flight.unclosed (unclosed_before enters entered)
  case shut =>
    intro entered
    exact flight.shut (shut_before enters entered)

end Calls

/-- Every segment of new data started inside of the send buffer. -/
def NewdataInside (sends : List (Tcb × Bool)) : Prop :=
  ∀ send ∈ sends, send.2 = false → send.1.pending.toNat ≤ send.1.sbcount.toNat

/-- No acknowledgement of everything sent met a FIN that `snext` does not count. -/
def FinCounted (acks : List (Tcb × Segment)) : Prop :=
  ∀ look ∈ acks, look.1.code.fin = true → look.2.ack = look.1.snext → look.1.snext ≠ look.1.slast

/-- No write was completed after the connection was closed. -/
def WritesOpen (writes : List (Tcb × List Octet)) : Prop :=
  ∀ write ∈ writes, write.1.state = .established ∨ write.1.state = .closewait

instance (sends : List (Tcb × Bool)) : Decidable (NewdataInside sends) :=
  inferInstanceAs (Decidable (∀ send ∈ sends, _ → _))

instance (acks : List (Tcb × Segment)) : Decidable (FinCounted acks) :=
  inferInstanceAs (Decidable (∀ look ∈ acks, _ → _ → _))

instance (writes : List (Tcb × List Octet)) : Decidable (WritesOpen writes) :=
  inferInstanceAs (Decidable (∀ write ∈ writes, _ ∨ _))

theorem micro_grows {main after : Main} (step : Micro main after) :
    (∃ sends, after.sends = main.sends ++ sends) ∧ (∃ acks, after.acks = main.acks ++ acks) ∧
      (∃ writes, after.writes = main.writes ++ writes) := by
  cases step with
  | sent tcb found rexmt => exact ⟨⟨_, rfl⟩, ⟨[], by simp⟩, ⟨[], by simp⟩⟩
  | looked tcb found segment flag => exact ⟨⟨[], by simp⟩, ⟨_, rfl⟩, ⟨[], by simp⟩⟩
  | accepted tcb found segment logged new known =>
      exact ⟨⟨[], by simp⟩, ⟨[], by simp⟩, ⟨[], by simp⟩⟩
  | wrote tcb found octets isurg nonempty space => exact ⟨⟨[], by simp⟩, ⟨[], by simp⟩, ⟨_, rfl⟩⟩
  | closed tcb found opened => exact ⟨⟨[], by simp⟩, ⟨[], by simp⟩, ⟨[], by simp⟩⟩
  | entered state enters => exact ⟨⟨[], by simp⟩, ⟨[], by simp⟩, ⟨[], by simp⟩⟩

/-- The three conditions on what was done so far. -/
structure Main.Careful (main : Main) : Prop where
  sends : NewdataInside main.sends
  acks : FinCounted main.acks
  writes : WritesOpen main.writes

theorem careful_before {main after : Main} (step : Micro main after) (careful : after.Careful) :
    main.Careful := by
  obtain ⟨⟨sends, grownSends⟩, ⟨acks, grownAcks⟩, ⟨writes, grownWrites⟩⟩ := micro_grows step
  constructor
  · intro send member
    exact careful.sends send (by simp [grownSends, member])
  · intro look member
    exact careful.acks look (by simp [grownAcks, member])
  · intro write member
    exact careful.writes write (by simp [grownWrites, member])

end MvsXinu.Tcp
