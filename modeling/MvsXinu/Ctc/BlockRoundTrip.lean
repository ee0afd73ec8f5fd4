import MvsXinu.Ctc.Block

/-!
# Writing a block and reading it back

`ctci_write` lays the segments of a block end to end. `ctci_read` returns the first of
them and then steps to a place that is six times as far away as the second one, so
that only a block of one frame comes back as it was written.
-/

namespace MvsXinu.Ctc

open MvsXinu.Octets

set_option autoImplicit false

theorem IpFrame.ipLen_eq (frame : IpFrame) : frame.ipLen = frame.octets.length := frame.counted

/-- The octets of the segments of `frames`. -/
def segmentsLength (frames : List IpFrame) : Nat :=
  (frames.map fun frame => frame.octets.length + ctcseghdrSize).sum

def blockLength (frames : List IpFrame) : Nat :=
  ctcihdrSize + segmentsLength frames + ctcihdrSize

def ReadOutcome.octets : ReadOutcome → Option (List Octet)
  | .frame dl ep => some (ep.epData.take dl)
  | _ => none

/-- The buffer of `before` is given back and the next slot is looked at. -/
def Freed (before after : Ctreadstat) : Prop :=
  after.avail = nextIndex before.avail ∧ after.buf before.avail = none ∧
    after.freebufs = before.freebufs + 1

def Held (before after : Ctreadstat) : Prop :=
  after.avail = before.avail ∧ after.buf = before.buf ∧ after.freebufs = before.freebufs

/-- Successive calls return `frames`, one in each call, and free the buffer with the
last of them. -/
def Returned (room : Nat) : Ctreadstat → List IpFrame → Prop
  | _, [] => True
  | stat, frame :: rest =>
      (ctciRead stat room).1.octets = some frame.octets ∧
        (if rest = [] then Freed stat (ctciRead stat room).2
          else Held stat (ctciRead stat room).2) ∧
        Returned room (ctciRead stat room).2 rest

/-! ## The write side -/

/-- A block under construction: `used` octets of segments, and zeros behind them. -/
structure Built (storage : Storage) (used : Nat) : Prop where
  offset : halfword storage 0 = ctcihdrSize + used
  clear : ∀ place : Int, ctcihdrSize + used ≤ place → place < ctcBuflen → storage place = 0

theorem ctwfresh_built (storage : Storage) : Built (ctwfresh storage) 0 := by
  constructor
  · exact halfword_putHalfword _ 0 ctcihdrSize (by decide)
  · intro place low high
    have behind : (2 : Int) ≤ place := by simpa [ctcihdrSize] using low
    rw [ctwfresh, putHalfword_outside _ 0 place _ (by omega)]
    exact memset_inside storage 0 place 0 ctcBuflen (by omega) (by omega)

/-- What a segment's octets are, and where they end. -/
structure Segment (storage : Storage) (pseg : Int) (octets : List Octet) : Prop where
  seglen : halfword storage pseg = octets.length + ctcseghdrSize
  frame : fetch storage (pseg + ctcseghdrSize) octets.length = octets

theorem putSegment_outside (pcih : Storage) (pseg place : Int) (frame : IpFrame)
    (header : 2 ≤ place)
    (outside : place < pseg ∨ pseg + ctcseghdrSize + frame.octets.length ≤ place) :
    putSegment pcih pseg frame place = pcih place := by
  simp only [ctcseghdrSize] at outside
  simp only [putSegment, ctcseghdrSize, frame.ipLen_eq, List.take_length]
  rw [putHalfword_outside _ _ _ _ (by omega), memcpy_outside _ _ _ _ (by omega),
    putHalfword_outside _ _ _ _ (by omega), putHalfword_outside _ _ _ _ (by omega),
    putHalfword_outside _ _ _ _ (by omega)]

theorem putSegment_segment (pcih : Storage) (pseg : Int) (frame : IpFrame)
    (header : 2 ≤ pseg) (small : frame.octets.length + ctcseghdrSize < 65536) :
    Segment (putSegment pcih pseg frame) pseg frame.octets := by
  simp only [ctcseghdrSize] at small
  constructor
  · simp only [putSegment, ctcseghdrSize, frame.ipLen_eq, List.take_length]
    rw [halfword_put_apart _ _ _ _ (by omega)]
    rw [halfword_congr _ (putHalfword pcih pseg (frame.octets.length + 6)) pseg]
    · exact halfword_putHalfword pcih pseg _ small
    · rw [memcpy_outside _ _ _ _ (by omega), putHalfword_outside _ _ _ _ (by omega),
        putHalfword_outside _ _ _ _ (by omega)]
    · rw [memcpy_outside _ _ _ _ (by omega), putHalfword_outside _ _ _ _ (by omega),
        putHalfword_outside _ _ _ _ (by omega)]
  · simp only [putSegment, ctcseghdrSize, frame.ipLen_eq, List.take_length]
    have copied := fetch_memcpy
      (putHalfword (putHalfword (putHalfword pcih pseg (frame.octets.length + 6)) (pseg + 2)
        ctciShFramtyp) (pseg + 4) ctciShResv) (pseg + (6 : Nat)) frame.octets
    refine Eq.trans (fetch_congr _ _ _ _ ?_) copied
    intro position bound
    exact putHalfword_outside _ _ _ _ (by omega)

theorem putSegment_built (pcih : Storage) (used : Nat) (frame : IpFrame)
    (built : Built pcih used)
    (room : ctcihdrSize + used + ctcseghdrSize + frame.octets.length + ctcihdrSize ≤ ctcBuflen) :
    Built (putSegment pcih (ctcihdrSize + used : Nat) frame)
      (used + (frame.octets.length + ctcseghdrSize)) := by
  simp only [ctcihdrSize, ctcseghdrSize, ctcBuflen] at room
  constructor
  · simp only [putSegment, ctcseghdrSize, ctcihdrSize, frame.ipLen_eq]
    rw [halfword_putHalfword _ 0 _ (by omega)]
    omega
  · intro place low high
    simp only [ctcihdrSize, ctcseghdrSize] at low
    rw [putSegment_outside pcih _ place frame (by omega)
      (by simp only [ctcihdrSize, ctcseghdrSize]; omega)]
    exact built.clear place (by simp only [ctcihdrSize]; omega) high

/-- With room in the block, a call only adds a segment to it. -/
theorem ctciWrite_fits (getbuf : Nat → Storage) (stat : Ctwritestat Storage) (frame : IpFrame)
    (used : Nat) (built : Built (stat.fillbuf.getD (ctwfresh (getbuf 0))) used)
    (room : ctcihdrSize + used + ctcseghdrSize + frame.octets.length + ctcihdrSize ≤ ctcBuflen) :
    ctciWrite getbuf stat frame =
      (true, { stat with
        fillbuf := some (putSegment (stat.fillbuf.getD (ctwfresh (getbuf 0)))
          (ctcihdrSize + used : Nat) frame) }) := by
  have enough : ¬ ((ctcBuflen : Int) - halfword (stat.fillbuf.getD (ctwfresh (getbuf 0))) 0 -
      ctcseghdrSize - ctcihdrSize < frame.ipLen) := by
    rw [built.offset, frame.ipLen_eq]
    omega
  simp only [ctciWrite]
  rw [if_neg enough, built.offset]

theorem segmentsLength_cons (frame : IpFrame) (rest : List IpFrame) :
    segmentsLength (frame :: rest) =
      frame.octets.length + ctcseghdrSize + segmentsLength rest := by
  simp [segmentsLength]

theorem segmentsLength_append (front back : List IpFrame) :
    segmentsLength (front ++ back) = segmentsLength front + segmentsLength back := by
  simp [segmentsLength]

theorem writeAll_fits (getbuf : Nat → Storage) (stat : Ctwritestat Storage)
    (frames : List IpFrame) (used : Nat)
    (built : Built (stat.fillbuf.getD (ctwfresh (getbuf 0))) used)
    (room : ctcihdrSize + used + segmentsLength frames + ctcihdrSize ≤ ctcBuflen) :
    (writeAll getbuf stat frames).filled = stat.filled ∧
      Built ((writeAll getbuf stat frames).fillbuf.getD (ctwfresh (getbuf 0)))
        (used + segmentsLength frames) := by
  induction frames generalizing stat used with
  | nil => exact ⟨rfl, built⟩
  | cons frame rest ih =>
      rw [segmentsLength_cons] at room
      have here : ctcihdrSize + used + ctcseghdrSize + frame.octets.length + ctcihdrSize ≤
          ctcBuflen := by omega
      have written := ctciWrite_fits getbuf stat frame used built here
      have grown := putSegment_built _ used frame built here
      have result := ih (ctciWrite getbuf stat frame).2
        (used + (frame.octets.length + ctcseghdrSize)) (by rw [written]; exact grown) (by omega)
      rw [segmentsLength_cons, ← Nat.add_assoc]
      refine ⟨result.1.trans ?_, result.2⟩
      rw [written]

/-- The block of a non-empty list of frames ends with the segment of the last one. -/
theorem writeAll_last (getbuf : Nat → Storage) (stat : Ctwritestat Storage)
    (front : List IpFrame) (last : IpFrame) (empty : stat.fillbuf = none)
    (room : blockLength (front ++ [last]) ≤ ctcBuflen) :
    ∃ block, writeAll getbuf stat (front ++ [last]) = { stat with fillbuf := some block } ∧
      Built block (segmentsLength (front ++ [last])) ∧
      Segment block (ctcihdrSize + segmentsLength front : Nat) last.octets := by
  have room' := room
  simp only [blockLength, segmentsLength_append, segmentsLength_cons, ctcseghdrSize, ctcihdrSize,
    ctcBuflen] at room'
  have fresh : Built (stat.fillbuf.getD (ctwfresh (getbuf 0))) 0 := by
    rw [empty]
    exact ctwfresh_built (getbuf 0)
  obtain ⟨filled, built⟩ := writeAll_fits getbuf stat front 0 fresh
    (by simp only [ctcihdrSize, ctcBuflen]; omega)
  rw [Nat.zero_add] at built
  have here : ctcihdrSize + segmentsLength front + ctcseghdrSize + last.octets.length +
      ctcihdrSize ≤ ctcBuflen := by
    simp only [ctcihdrSize, ctcBuflen, ctcseghdrSize]
    omega
  have written := ctciWrite_fits getbuf (writeAll getbuf stat front) last _ built here
  refine ⟨putSegment ((writeAll getbuf stat front).fillbuf.getD (ctwfresh (getbuf 0)))
    (ctcihdrSize + segmentsLength front : Nat) last, ?_, ?_, ?_⟩
  · rw [writeAll, List.foldl_append, List.foldl_cons, List.foldl_nil]
    exact (congrArg Prod.snd written).trans (by rw [filled])
  · have grown := putSegment_built _ _ last built here
    simpa [segmentsLength_append, segmentsLength] using grown
  · apply putSegment_segment
    · simp only [ctcihdrSize]
      omega
    · simp only [ctcseghdrSize]
      omega

/-! ## The read side -/

theorem received_block (around block : Storage) (place : Int) (low : 0 ≤ place)
    (high : place < halfword block 0 + ctcihdrSize) :
    received around block place = block place := by
  apply memcpy_fetch _ block 0 place _ low
  rw [Nat.cast_add]
  omega

theorem received_behind (around block : Storage) (place : Int)
    (low : halfword block 0 + ctcihdrSize ≤ place) (high : place < ctcBuflen) :
    received around block place = 0xcc := by
  rw [received, memcpy_outside _ _ _ _ (by rw [fetch_length]; omega)]
  exact memset_inside around 0 place _ ctcBuflen (by omega) (by omega)

theorem received_around (around block : Storage) (place : Int)
    (low : halfword block 0 + ctcihdrSize ≤ place) (high : ctcBuflen ≤ place) :
    received around block place = around place := by
  rw [received, memcpy_outside _ _ _ _ (by rw [fetch_length]; omega)]
  exact memset_outside around 0 place _ ctcBuflen (by omega)

/-- A call that returns `octets` found them behind a header with their length. -/
theorem ctciRead_found (stat : Ctreadstat) (room : Nat) (pbuf : Storage) (octets : List Octet)
    (hung : stat.buf stat.avail = some pbuf) (bound : octets.length < 65536)
    (found : (ctciRead stat room).1.octets = some octets) :
    signedHalfword pbuf (stat.pseg.getD ctcihdrSize) = octets.length + ctcseghdrSize ∧
      fetch pbuf (stat.pseg.getD ctcihdrSize + ctcseghdrSize) octets.length = octets ∧
      octets.length ≤ (room + 2 ^ 32 - epHlen) % 2 ^ 32 ∧
      (ctciRead stat room).2 = afterFrame stat pbuf (stat.pseg.getD ctcihdrSize)
        (octets.length + ctcseghdrSize) := by
  have range : -32768 ≤ signedHalfword pbuf (stat.pseg.getD ctcihdrSize) ∧
      signedHalfword pbuf (stat.pseg.getD ctcihdrSize) < 32768 := by
    have limit := halfword_lt pbuf (stat.pseg.getD ctcihdrSize)
    unfold signedHalfword
    split <;> omega
  simp only [ctciRead, hung] at found ⊢
  split at found
  · cases found
  split at found
  · cases found
  split at found
  · cases found
  rename_i positive awake enough
  rw [if_neg positive, if_neg awake, if_neg enough]
  simp only [ReadOutcome.octets, Option.some.injEq] at found
  rw [List.take_append_of_le_length (by simp), List.take_of_length_le (by simp)] at found
  have length := congrArg List.length found
  rw [fetch_length] at length
  rw [length] at found enough
  have seglen : signedHalfword pbuf (stat.pseg.getD ctcihdrSize) =
      octets.length + ctcseghdrSize := by
    simp only [ctcseghdrSize] at length ⊢
    omega
  refine ⟨seglen, found, by omega, ?_⟩
  rw [seglen]

theorem IpFrame.length_lt (frame : IpFrame) : frame.octets.length < 65536 := by
  have counted := frame.counted
  have high := (frame.octets.getD 2 0).isLt
  have low := (frame.octets.getD 3 0).isLt
  omega

theorem afterFrame_held (stat : Ctreadstat) (pbuf : Storage) (pseg seglen : Int)
    (held : Held stat (afterFrame stat pbuf pseg seglen)) :
    nextSegment pseg seglen < halfword pbuf 0 ∧
      afterFrame stat pbuf pseg seglen = { stat with pseg := some (nextSegment pseg seglen) } := by
  by_cases exhausted : (halfword pbuf 0 : Int) ≤ nextSegment pseg seglen
  · have freed := held.2.2
    simp only [afterFrame, if_pos exhausted] at freed
    omega
  · exact ⟨by omega, by simp only [afterFrame, if_neg exhausted]⟩

/-- Where the last of several frames has to be found when all of them come back: six
octets further on for each octet of the segments before it. -/
theorem returned_last (room : Nat) (stat : Ctreadstat) (front : List IpFrame) (last : IpFrame)
    (pbuf : Storage) (hung : stat.buf stat.avail = some pbuf)
    (returned : Returned room stat (front ++ [last])) :
    signedHalfword pbuf (stat.pseg.getD ctcihdrSize + ctcseghdrSize * segmentsLength front) =
        last.octets.length + ctcseghdrSize ∧
      fetch pbuf (stat.pseg.getD ctcihdrSize + ctcseghdrSize * segmentsLength front +
        ctcseghdrSize) last.octets.length = last.octets ∧
      (front ≠ [] → stat.pseg.getD ctcihdrSize + ctcseghdrSize * segmentsLength front <
        halfword pbuf 0) := by
  induction front generalizing stat with
  | nil =>
      obtain ⟨seglen, octets, -⟩ :=
        ctciRead_found stat room pbuf last.octets hung last.length_lt returned.1
      simp only [segmentsLength, List.map_nil, List.sum_nil, Nat.cast_zero, mul_zero, add_zero]
      exact ⟨seglen, octets, fun nonempty => absurd rfl nonempty⟩
  | cons frame rest ih =>
      obtain ⟨found, held, others⟩ := returned
      obtain ⟨-, -, -, after⟩ :=
        ctciRead_found stat room pbuf frame.octets hung frame.length_lt found
      have more : rest ++ [last] ≠ [] := by simp
      have held' : Held stat (ctciRead stat room).2 := by
        simpa only [List.append_eq, if_neg more] using held
      rw [after] at held' others
      obtain ⟨inside, stepped⟩ := afterFrame_held stat pbuf _ _ held'
      rw [stepped] at others
      have position : nextSegment (stat.pseg.getD ctcihdrSize)
          (frame.octets.length + ctcseghdrSize) + ctcseghdrSize * segmentsLength rest =
          stat.pseg.getD ctcihdrSize + ctcseghdrSize * segmentsLength (frame :: rest) := by
        simp only [nextSegment, segmentsLength_cons, ctcseghdrSize]
        omega
      have tail := ih { stat with pseg := some _ } hung others
      simp only [Option.getD_some, position] at tail
      refine ⟨tail.1, tail.2.1, fun _ => ?_⟩
      by_cases single : rest = []
      · rw [← position, single]
        simpa [segmentsLength] using inside
      · exact tail.2.2 single

/-- A frame that comes round every `period` octets does so up to its end. -/
theorem repeats_to_end {Value : Type*} (cells : Nat → Value) (length period start : Nat)
    (positive : 6 ≤ period) (inside : start < length + period)
    (low : 6 ≤ start)
    (repeats : ∀ place, 6 ≤ place → place < length → cells (place + period) = cells place) :
    ∃ rounds, length ≤ start + rounds * period ∧ start + rounds * period < length + period ∧
      cells (start + rounds * period) = cells start := by
  by_cases behind : length ≤ start
  · exact ⟨0, by simpa using behind, by simpa using inside, by simp⟩
  · obtain ⟨rounds, reached, bounded, same⟩ := repeats_to_end cells length period (start + period)
      positive (by omega) (by omega) repeats
    have total : start + (rounds + 1) * period = start + period + rounds * period := by
      rw [Nat.add_mul, Nat.one_mul]
      omega
    refine ⟨rounds + 1, by omega, by omega, ?_⟩
    rw [total, same, repeats start low (by omega)]
termination_by length - start

/-- The octets behind a segment cannot repeat it: followed round by round to the last
`ctcihdr` and the filling, its length comes out as one that it cannot have. -/
theorem segment_not_repeated (cells : Nat → Octet) (length period : Nat)
    (wide : 130 ≤ period) (short : period < length) (bound : length < 52224)
    (seglen : (cells 0).toNat * 256 + (cells 1).toNat = length)
    (high : cells period = cells 0) (low : cells (period + 1) = cells 1)
    (repeats : ∀ place, 6 ≤ place → place < length → cells (place + period) = cells place)
    (last : ∀ place, length ≤ place → place < length + 2 → cells place = 0)
    (filling : ∀ place, length + 2 ≤ place → place < length + period → cells place = 0xcc) :
    False := by
  obtain ⟨rounds, reached, bounded, same⟩ :=
    repeats_to_end cells length period period (by omega) (by omega) (by omega) repeats
  obtain ⟨others, reached', bounded', same'⟩ :=
    repeats_to_end cells length period (period + 1) (by omega) (by omega) (by omega) repeats
  rw [high] at same
  rw [low] at same'
  have highZero : period + rounds * period < length + 2 := by
    by_contra far
    have filled := filling _ (by omega) bounded
    rw [← same, filled] at seglen
    have value : (0xcc : Octet).toNat = 204 := rfl
    omega
  have zero := last _ reached highZero
  rw [← same, zero] at seglen
  have zeroValue : (0 : Octet).toNat = 0 := rfl
  have together : others * period = rounds * period := by
    rcases Nat.lt_trichotomy others rounds with less | equal | more
    · have gap := Nat.mul_le_mul_right period less
      rw [Nat.succ_mul] at gap
      omega
    · rw [equal]
    · have gap := Nat.mul_le_mul_right period more
      rw [Nat.succ_mul] at gap
      omega
  by_cases lowZero : period + 1 + others * period < length + 2
  · have zero' := last _ reached' lowZero
    rw [← same', zero'] at seglen
    omega
  · have filled := filling _ (by omega) bounded'
    rw [← same', filled] at seglen
    have value : (0xcc : Octet).toNat = 204 := rfl
    -- now `length` is 204 and the first octet is found one place behind the segment
    have twice : 1 ≤ rounds := by
      by_contra none
      have zeroRounds : rounds = 0 := by omega
      rw [zeroRounds] at highZero together reached
      omega
    have double := Nat.mul_le_mul_right period twice
    omega

theorem halfword_octets (storage other : Storage) (address place : Int)
    (same : halfword storage address = halfword other place) :
    storage address = other place ∧ storage (address + 1) = other (place + 1) := by
  have low := (storage (address + 1)).isLt
  have low' := (other (place + 1)).isLt
  simp only [halfword] at same
  constructor
  · apply BitVec.eq_of_toNat_eq
    omega
  · apply BitVec.eq_of_toNat_eq
    omega

theorem fetch_octet (storage other : Storage) (address place : Int) (count position : Nat)
    (same : fetch storage address count = fetch other place count) (bound : position < count) :
    storage (address + position) = other (place + position) := by
  have left := fetch_at storage address count position (by simpa using bound)
  have right := fetch_at other place count position (by simpa using bound)
  rw [← left, ← right]
  simp only [same]

theorem halfword_of_signed (storage : Storage) (address : Int) (value : Nat)
    (same : signedHalfword storage address = value) : halfword storage address = value := by
  have limit := halfword_lt storage address
  unfold signedHalfword at same
  split at same <;> omega

/-- A segment that reaches behind the buffer depends on what is there. -/
theorem segment_not_around (block : Storage) (place : Nat) (octets : List Octet)
    (behind : halfword block 0 + ctcihdrSize < place + ctcseghdrSize + octets.length)
    (outside : ctcBuflen < place + ctcseghdrSize + octets.length) (some : 0 < octets.length) :
    ¬ ∀ around, Segment (received around block) place octets := by
  intro everywhere
  have constant : ∀ value : Octet, value = octets[octets.length - 1] := by
    intro value
    have fetched := (everywhere fun _ => value).frame
    have ended := fetch_at (received (fun _ => value) block) (place + ctcseghdrSize)
      octets.length (octets.length - 1) (by rw [fetch_length]; omega)
    have arrived := received_around (fun _ => value) block
      (place + ctcseghdrSize + (octets.length - 1 : Nat)) (by omega) (by omega)
    rw [arrived] at ended
    rw [← ended]
    simp only [fetched]
  have different : (0 : Octet) = 1 := (constant 0).trans (constant 1).symm
  exact absurd different (by decide)

/-- Nor does the last segment occur a second time within the buffer. -/
theorem segment_not_inside (around block : Storage) (before : Nat) (octets : List Octet)
    (far : 26 ≤ before)
    (built : Built block (before + (octets.length + ctcseghdrSize)))
    (segment : Segment block (ctcihdrSize + before : Nat) octets)
    (inside : ctcihdrSize + ctcseghdrSize * before + ctcseghdrSize + octets.length ≤ ctcBuflen)
    (reached : ctcihdrSize + ctcseghdrSize * before < halfword block 0) :
    ¬ Segment (received around block) (ctcihdrSize + ctcseghdrSize * before : Nat) octets := by
  intro again
  have offset := built.offset
  simp only [ctcihdrSize, ctcseghdrSize, ctcBuflen] at offset inside reached
  have arrived : ∀ place : Nat, place < octets.length + 8 →
      received around block ((2 + before : Nat) + place) = block ((2 + before : Nat) + place) := by
    intro place bound
    exact received_block around block _ (by omega) (by simp only [ctcihdrSize]; omega)
  have written : halfword (received around block) (2 + before : Nat) = octets.length + 6 := by
    have high := arrived 0 (by omega)
    have low := arrived 1 (by omega)
    rw [Nat.cast_zero, add_zero] at high
    rw [Nat.cast_one] at low
    exact (halfword_congr _ block _ high low).trans segment.seglen
  have frame : fetch (received around block) ((2 + before : Nat) + 6) octets.length = octets := by
    refine Eq.trans (fetch_congr _ block _ _ ?_) segment.frame
    intro position bound
    have here := arrived (6 + position) (by omega)
    rw [Nat.cast_add 6 position, ← add_assoc] at here
    exact here
  have lengths := halfword_octets _ _ _ _ (again.seglen.trans written.symm)
  apply segment_not_repeated
    (fun place => received around block ((2 + before : Nat) + place))
    (octets.length + 6) (5 * before)
  · omega
  · omega
  · omega
  · simpa only [halfword, Nat.cast_zero, add_zero, Nat.cast_one] using written
  · have high := lengths.1
    simp only [ctcihdrSize, ctcseghdrSize] at high
    simp only [Nat.cast_zero, add_zero]
    rw [← high]
    congr 1
    push_cast
    omega
  · have low := lengths.2
    simp only [ctcihdrSize, ctcseghdrSize] at low
    simp only [Nat.cast_one]
    rw [← low]
    congr 1
    push_cast
    omega
  · intro place low high
    have same := fetch_octet _ _ _ _ _ (place - 6) (again.frame.trans frame.symm) (by omega)
    have left : ((2 + before : Nat) : Int) + (place + 5 * before : Nat) =
        (ctcihdrSize + ctcseghdrSize * before : Nat) + ctcseghdrSize + (place - 6 : Nat) := by
      simp only [ctcihdrSize, ctcseghdrSize]
      omega
    have right : ((2 + before : Nat) : Int) + place =
        (2 + before : Nat) + 6 + (place - 6 : Nat) := by omega
    rw [left, right, same]
  · intro place low high
    rw [arrived place (by omega)]
    exact built.clear _ (by simp only [ctcihdrSize, ctcseghdrSize]; omega)
      (by simp only [ctcBuflen]; omega)
  · intro place low high
    exact received_behind around block _ (by simp only [ctcihdrSize]; omega)
      (by simp only [ctcBuflen]; omega)

/-- The last of several frames would have to be found behind the place where it was
written, by five octets for each octet in front of it. -/
theorem several_not_returned (room : Nat) (stat : Ctreadstat) (block : Storage)
    (front : List IpFrame) (last : IpFrame) (nonempty : front ≠ [])
    (built : Built block (segmentsLength (front ++ [last])))
    (segment : Segment block (ctcihdrSize + segmentsLength front : Nat) last.octets) :
    ¬ ∀ around, Returned room (hangUp stat around block) (front ++ [last]) := by
  intro returned
  have header : 20 ≤ last.octets.length := last.header
  have before : 26 ≤ segmentsLength front := by
    obtain ⟨frame, rest, same⟩ := List.exists_cons_of_ne_nil nonempty
    have long := frame.header
    rw [same, segmentsLength_cons, ctcseghdrSize]
    omega
  have total : segmentsLength (front ++ [last]) =
      segmentsLength front + (last.octets.length + ctcseghdrSize) := by
    simp [segmentsLength]
  rw [total] at built
  have found : ∀ around,
      Segment (received around block) (ctcihdrSize + ctcseghdrSize * segmentsLength front : Nat)
          last.octets ∧
        ctcihdrSize + ctcseghdrSize * segmentsLength front < halfword block 0 := by
    intro around
    have hung : (hangUp stat around block).buf (hangUp stat around block).avail =
        some (received around block) := Function.update_self _ _ _
    obtain ⟨seglen, octets, inside⟩ :=
      returned_last room (hangUp stat around block) front last _ hung (returned around)
    have start : (hangUp stat around block).pseg.getD ctcihdrSize +
        ctcseghdrSize * segmentsLength front =
        ((ctcihdrSize + ctcseghdrSize * segmentsLength front : Nat) : Int) := by
      push_cast
      rfl
    rw [start] at seglen octets inside
    refine ⟨⟨halfword_of_signed _ _ _ (by exact_mod_cast seglen), octets⟩, ?_⟩
    have kept : halfword (received around block) 0 = halfword block 0 := by
      apply halfword_congr
      · exact received_block around block 0 (by omega) (by simp only [ctcihdrSize]; omega)
      · exact received_block around block 1 (by omega) (by simp only [ctcihdrSize]; omega)
    rw [kept] at inside
    exact_mod_cast inside nonempty
  by_cases inside : ctcihdrSize + ctcseghdrSize * segmentsLength front + ctcseghdrSize +
      last.octets.length ≤ ctcBuflen
  · exact segment_not_inside 0 block _ last.octets before built segment inside
      (found 0).2 (found 0).1
  · apply segment_not_around block _ last.octets _ (by omega) (by omega)
      (fun around => (found around).1)
    rw [built.offset]
    simp only [ctcihdrSize, ctcseghdrSize]
    omega

theorem ctciRead_returns (stat : Ctreadstat) (room : Nat) (pbuf : Storage) (octets : List Octet)
    (hung : stat.buf stat.avail = some pbuf) (filled : stat.len stat.avail ≠ 0)
    (enough : epHlen < room) (machine : room < 2 ^ 32) (bound : octets.length + 6 < 32768)
    (segment : Segment pbuf (stat.pseg.getD ctcihdrSize) octets) :
    ctciRead stat room =
      if room < octets.length + epHlen then (.syserr, stat)
      else
        (.frame octets.length
          { epIfn := ctcifn
            epLen := Int.bmod ((octets.length : Int) + epHlen) (2 ^ 16)
            epOrder := ctcorder
            epType := ctceptype
            epData := octets ++ List.replicate (room - epHlen - octets.length) 0x00 },
          afterFrame stat pbuf (stat.pseg.getD ctcihdrSize)
            (octets.length + ctcseghdrSize)) := by
  have len : (room + 2 ^ 32 - epHlen) % 2 ^ 32 = room - epHlen := by
    simp only [epHlen] at enough ⊢
    omega
  have seglen := signedHalfword_of_small pbuf _ _ segment.seglen
    (by simp only [ctcseghdrSize]; omega)
  have dl : (((octets.length + ctcseghdrSize : Nat) - ctcseghdrSize : Int) % 2 ^ 32).toNat =
      octets.length := by
    simp only [ctcseghdrSize]
    omega
  simp only [ctciRead, hung, len, seglen, dl, segment.frame]
  rw [if_neg (by omega), if_neg (by simp [filled])]
  by_cases small : room < octets.length + epHlen
  · rw [if_pos small, if_pos (by omega)]
  · rw [if_neg small, if_neg (by omega), Nat.cast_add]

/-- A block of a single frame comes back whenever the caller's buffer takes it. -/
theorem single_returned_iff (room : Nat) (stat : Ctreadstat) (around block : Storage)
    (frame : IpFrame) (enough : epHlen < room) (machine : room < 2 ^ 32)
    (fits : blockLength [frame] ≤ ctcBuflen) (built : Built block (segmentsLength [frame]))
    (segment : Segment block (ctcihdrSize + segmentsLength [] : Nat) frame.octets) :
    Returned room (hangUp stat around block) [frame] ↔ frame.octets.length + epHlen ≤ room := by
  have offset := built.offset
  simp only [blockLength, segmentsLength, List.map_cons, List.map_nil, List.sum_cons,
    List.sum_nil, ctcihdrSize, ctcseghdrSize, ctcBuflen] at fits offset
  have arrived : ∀ place : Int, 0 ≤ place → place < frame.octets.length + 8 →
      received around block place = block place := by
    intro place low high
    exact received_block around block place low (by simp only [ctcihdrSize]; omega)
  have segment' : Segment (received around block) (ctcihdrSize : Int) frame.octets := by
    constructor
    · exact (halfword_congr _ block _ (arrived _ (by decide) (by simp only [ctcihdrSize]; omega))
        (arrived _ (by decide) (by simp only [ctcihdrSize]; omega))).trans segment.seglen
    · refine Eq.trans (fetch_congr _ block _ _ ?_) segment.frame
      intro position bound
      exact arrived _ (by omega) (by simp only [ctcihdrSize, ctcseghdrSize]; omega)
  have kept : halfword (received around block) 0 = halfword block 0 :=
    halfword_congr _ block 0 (arrived 0 (by omega) (by omega)) (arrived 1 (by omega) (by omega))
  have result := ctciRead_returns (hangUp stat around block) room (received around block)
    frame.octets (Function.update_self _ _ _)
    (by simp only [hangUp, Function.update_self, ctcihdrSize]; omega) enough machine (by omega)
    segment'
  simp only [Returned, result, and_true, if_true]
  by_cases small : room < frame.octets.length + epHlen
  · rw [if_pos small]
    simp only [ReadOutcome.octets, reduceCtorEq, false_and, false_iff]
    omega
  · rw [if_neg small]
    have exhausted : (halfword (received around block) 0 : Int) ≤
        nextSegment ((hangUp stat around block).pseg.getD ctcihdrSize)
          (frame.octets.length + ctcseghdrSize) := by
      rw [kept, offset]
      simp only [nextSegment, hangUp, Option.getD_none, ctcihdrSize, ctcseghdrSize]
      omega
    simp only [afterFrame, if_pos exhausted, ReadOutcome.octets, List.take_left, true_and]
    exact ⟨fun _ => by omega, fun _ => ⟨rfl, Function.update_self _ _ _, rfl⟩⟩

/-- The frames of a block come back, whatever lies around the read buffer, exactly if
there is one of them and it fits the caller's buffer. -/
theorem block_round_trip_iff (frames : List IpFrame) (nonempty : frames ≠ [])
    (fits : blockLength frames ≤ ctcBuflen) (getbuf : Nat → Storage)
    (written : Ctwritestat Storage) (empty : written.fillbuf = none) (stat : Ctreadstat)
    (room : Nat) (enough : epHlen < room) (machine : room < 2 ^ 32) :
    ∃ block, writeAll getbuf written frames = { written with fillbuf := some block } ∧
      ((∀ around, Returned room (hangUp stat around block) frames) ↔
        ∃ frame, frames = [frame] ∧ frame.octets.length + epHlen ≤ room) := by
  obtain ⟨front, last, rfl⟩ : ∃ front last, frames = front ++ [last] :=
    ⟨_, _, (List.dropLast_append_getLast nonempty).symm⟩
  obtain ⟨block, result, built, segment⟩ := writeAll_last getbuf written front last empty fits
  refine ⟨block, result, ?_⟩
  by_cases single : front = []
  · subst single
    have returned := fun around =>
      single_returned_iff room stat around block last enough machine fits built segment
    constructor
    · intro everywhere
      exact ⟨last, rfl, (returned 0).mp (everywhere 0)⟩
    · rintro ⟨frame, same, small⟩ around
      rw [List.nil_append, List.cons.injEq] at same
      rw [← same.1] at small
      exact (returned around).mpr small
  · constructor
    · intro everywhere
      exact absurd everywhere (several_not_returned room stat block front last single built segment)
    · rintro ⟨frame, same, -⟩
      have count := congrArg List.length same
      rw [List.length_append, List.length_singleton, List.length_singleton] at count
      exact absurd (List.length_eq_zero_iff.mp (by omega)) single

/-- A frame of a bare IP header. -/
def headerFrame (fill : Octet) : IpFrame where
  octets := [0x45, 0, 0, 20] ++ List.replicate 16 fill
  header := by simp
  counted := by simp

theorem readbufs_positive : 0 < ctcReadbufs := by decide

def quietStat : Ctreadstat where
  avail := ⟨0, readbufs_positive⟩
  pseg := none
  buf := fun _ => none
  len := fun _ => 0
  freebufs := 2

theorem single_header_returned :
    ∃ block, writeAll (fun _ => 0) { fillbuf := none, filled := [] } [headerFrame 1] =
        { fillbuf := some block, filled := [] } ∧
      ∀ around, Returned 1524 (hangUp quietStat around block) [headerFrame 1] := by
  obtain ⟨block, written, exactly⟩ := block_round_trip_iff [headerFrame 1] (by simp) (by decide)
    (fun _ => 0) { fillbuf := none, filled := [] } rfl quietStat 1524 (by decide) (by decide)
  exact ⟨block, written, exactly.mpr ⟨headerFrame 1, rfl, by decide⟩⟩

/-- The first call steps over both segments and frees the buffer with the second frame. -/
theorem second_header_lost :
    blockLength [headerFrame 1, headerFrame 2] ≤ ctcBuflen ∧
      ∃ block, writeAll (fun _ => 0) { fillbuf := none, filled := [] }
          [headerFrame 1, headerFrame 2] = { fillbuf := some block, filled := [] } ∧
        (ctciRead (hangUp quietStat 0 block) 1524).1.octets = some (headerFrame 1).octets ∧
        (ctciRead (hangUp quietStat 0 block) 1524).2.freebufs = quietStat.freebufs + 1 ∧
        ¬ Returned 1524 (hangUp quietStat 0 block) [headerFrame 1, headerFrame 2] := by
  have freed : (ctciRead (hangUp quietStat 0
      ((writeAll (fun _ => 0) { fillbuf := none, filled := [] }
        [headerFrame 1, headerFrame 2]).fillbuf.getD 0)) 1524).2.freebufs =
      quietStat.freebufs + 1 := by
    decide +kernel
  refine ⟨by decide, (writeAll (fun _ => 0) { fillbuf := none, filled := [] }
    [headerFrame 1, headerFrame 2]).fillbuf.getD 0, by rfl, by decide +kernel, freed, ?_⟩
  rintro ⟨-, held, -⟩
  simp only [reduceCtorEq, if_false] at held
  have kept := held.2.2
  rw [freed] at kept
  exact absurd kept (by decide)

end MvsXinu.Ctc
