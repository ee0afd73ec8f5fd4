import MvsXinu.Ip.FragmentSlices

/-!
# Copying the header of a fragment (`ipfhcopy.c`)

The option loop takes its step from the option itself: one octet for the two one-octet
options, else the length octet, which it reads whatever the option is. It is followed here
with the places it reads, and without a result where it does not come to an end.
-/

namespace MvsXinu.Ip

open MvsXinu.Octets

set_option autoImplicit false

structure Copied where
  pep : Packet
  hlen : Int
  reads : List Int

def places (place : Int) (count : Nat) : List Int :=
  (List.range count).map fun position : Nat => place + position

def Copied.reading (front : List Int) (copied : Copied) : Copied :=
  { copied with reads := front ++ copied.reads }

/-- Behind the fixed part and the options. -/
def Copied.padded (copied : Copied) : Copied where
  pep := memcpy copied.pep copied.hlen (List.replicate (padding copied.hlen) ipoNop)
  hlen := copied.hlen + padding copied.hlen
  reads := places 0 20 ++ copied.reads

/-- `optionLoop` with the places of `pepfrom` that are read, `none` when the fuel runs out. -/
def optionTrace (pepfrom : Packet → Packet) (maxhlen : Int) :
    Nat → Packet → Int → Int → Option Copied
  | 0, _, _, _ => none
  | fuel + 1, pepto, hlen, i =>
      if i < maxhlen then
        let otype := pepfrom pepto i
        let olen := (pepfrom pepto (i + 1)).toNat
        if ipoCopy otype then
          (optionTrace pepfrom maxhlen fuel (memcpy pepto hlen (fetch (pepfrom pepto) i olen))
            (hlen + olen) (i + olen)).map (Copied.reading ([i, i + 1] ++ places i olen))
        else if otype = ipoEoop then some ⟨memcpy pepto hlen [otype], hlen + 1, [i, i + 1]⟩
        else if otype = ipoNop then
          (optionTrace pepfrom maxhlen fuel (memcpy pepto hlen [otype]) (hlen + 1) (i + 1)).map
            (Copied.reading [i, i + 1])
        else
          (optionTrace pepfrom maxhlen fuel pepto hlen (i + olen)).map
            (Copied.reading [i, i + 1])
      else some ⟨pepto, hlen, []⟩

def ipfhcopyTrace (fuel : Nat) (pepto pepfrom : Packet) (shared : Bool) (offindg : Int) :
    Option Copied :=
  if offindg = 0 then
    some ⟨memcpy pepto 0 (fetch pepfrom 0 (ipHlen pepfrom).toNat), ipHlen pepfrom,
      places 0 (ipHlen pepfrom).toNat⟩
  else
    let reads : Packet → Packet := if shared then id else fun _ => pepfrom
    (optionTrace reads (ipHlen pepfrom) fuel (memcpy pepto 0 (fetch pepfrom 0 20)) 20 20).map
      Copied.padded

/-- What the loop returns is what it returns with less fuel to spare. -/
theorem optionLoop_of_trace (pepfrom : Packet → Packet) (maxhlen : Int) (fuel : Nat)
    (pepto : Packet) (hlen i : Int) (copied : Copied)
    (returns : optionTrace pepfrom maxhlen fuel pepto hlen i = some copied) :
    optionLoop pepfrom maxhlen fuel pepto hlen i = (copied.pep, copied.hlen) := by
  induction fuel generalizing pepto hlen i copied with
  | zero => cases returns
  | succ fuel ih =>
      rw [optionTrace] at returns
      rw [optionLoop]
      dsimp only at returns ⊢
      split_ifs at returns ⊢ with inside copies ends steps
      · obtain ⟨later, found, rfl⟩ := Option.map_eq_some_iff.mp returns
        exact ih _ _ _ later found
      · cases returns
        rfl
      · obtain ⟨later, found, rfl⟩ := Option.map_eq_some_iff.mp returns
        exact ih _ _ _ later found
      · obtain ⟨later, found, rfl⟩ := Option.map_eq_some_iff.mp returns
        exact ih _ _ _ later found
      · cases returns
        rfl

theorem ipfhcopy_of_trace (pepto pepfrom : Packet) (shared : Bool) (offindg : Int)
    (copied : Copied)
    (returns : ipfhcopyTrace optionFuel pepto pepfrom shared offindg = some copied) :
    ipfhcopy pepto pepfrom shared offindg = (copied.pep, copied.hlen) := by
  rw [ipfhcopyTrace] at returns
  rw [ipfhcopy]
  by_cases first : offindg = 0
  · rw [if_pos first] at returns ⊢
    cases returns
    rfl
  · rw [if_neg first] at returns ⊢
    obtain ⟨looped, found, rfl⟩ := Option.map_eq_some_iff.mp returns
    have loop := optionLoop_of_trace _ _ _ _ _ _ looped found
    dsimp only
    rw [loop]
    rfl

/-! ## The options that can be walked -/

/-- The loop gets through these octets of options, and copies the second list. -/
inductive Walk : List Octet → List Octet → Prop where
  | done : Walk [] []
  | eoop (olen : Octet) (rest : List Octet) : Walk (ipoEoop :: olen :: rest) [ipoEoop]
  | nop (olen : Octet) (rest carried : List Octet) (walk : Walk (olen :: rest) carried) :
      Walk (ipoNop :: olen :: rest) (ipoNop :: carried)
  | copied (otype olen : Octet) (rest carried : List Octet) (flagged : ipoCopy otype = true)
      (some : 0 < olen.toNat) (fits : olen.toNat ≤ rest.length + 2)
      (walk : Walk ((otype :: olen :: rest).drop olen.toNat) carried) :
      Walk (otype :: olen :: rest) ((otype :: olen :: rest).take olen.toNat ++ carried)
  | left (otype olen : Octet) (rest carried : List Octet) (unflagged : ipoCopy otype = false)
      (notEoop : otype ≠ ipoEoop) (notNop : otype ≠ ipoNop) (some : 0 < olen.toNat)
      (walk : Walk ((otype :: olen :: rest).drop olen.toNat) carried) :
      Walk (otype :: olen :: rest) carried

/-- No option but the two one-octet ones has the length 0, none begins in the last octet, and
none that is copied is longer than what is left. -/
def Readable (octets : List Octet) : Prop := ∃ carried, Walk octets carried

theorem Walk.length_le {octets carried : List Octet} (walk : Walk octets carried) :
    carried.length ≤ octets.length := by
  induction walk with
  | done => exact Nat.le_refl 0
  | eoop olen rest => simp
  | nop olen rest carried walk ih =>
      simp only [List.length_cons] at ih ⊢
      omega
  | copied otype olen rest carried flagged some fits walk ih =>
      simp only [List.length_append, List.length_take, List.length_drop, List.length_cons] at ih ⊢
      omega
  | left otype olen rest carried unflagged notEoop notNop some walk ih =>
      simp only [List.length_drop, List.length_cons] at ih ⊢
      omega

/-! ## The loop on options that can be walked -/

theorem mem_places {place read : Int} {count : Nat} :
    read ∈ places place count ↔ place ≤ read ∧ read < place + count := by
  simp only [places, List.mem_map, List.mem_range]
  constructor
  · rintro ⟨position, bound, rfl⟩
    omega
  · rintro ⟨low, high⟩
    exact ⟨(read - place).toNat, by omega, by omega⟩

theorem Holds.append {storage : Packet} {place : Int} {front back : List Octet}
    (first : Holds storage place front) (second : Holds storage (place + front.length) back) :
    Holds storage place (front ++ back) := by
  induction front generalizing place with
  | nil => simpa using second
  | cons octet front ih =>
      obtain ⟨head, tail⟩ := first.head
      have same : place + ((octet :: front).length : Int) = place + 1 + front.length := by
        rw [List.length_cons, Nat.cast_succ]
        omega
      rw [same] at second
      have rest := ih tail second
      unfold Holds at rest ⊢
      rw [List.cons_append, List.length_cons, fetch_cons, rest, head]

theorem Holds.drop {storage : Packet} {place : Int} {octets : List Octet}
    (holds : Holds storage place octets) {count : Nat} (fits : count ≤ octets.length) :
    Holds storage (place + count) (octets.drop count) := by
  have split : octets.take count ++ octets.drop count = octets := List.take_append_drop _ _
  rw [← split] at holds
  have behind := holds.behind
  rwa [List.length_take, min_eq_left fits] at behind

theorem Holds.fetch_take {storage : Packet} {place : Int} {octets : List Octet}
    (holds : Holds storage place octets) {count : Nat} (fits : count ≤ octets.length) :
    fetch storage place count = octets.take count := by
  unfold Holds at holds
  rw [← holds, fetch, fetch, ← List.map_take, List.take_range, min_eq_left fits]

/-- What the loop has done when it returns. -/
structure Loops (pepto : Packet) (hlen low maxhlen : Int) (carried : List Octet)
    (copied : Copied) : Prop where
  length : copied.hlen = hlen + carried.length
  written : Holds copied.pep hlen carried
  frame : ∀ place, place < hlen ∨ hlen + carried.length ≤ place → copied.pep place = pepto place
  inside : ∀ read ∈ copied.reads, low ≤ read ∧ read < maxhlen

theorem Loops.reading {pepto : Packet} {hlen low later maxhlen : Int} {carried : List Octet}
    {copied : Copied} (loops : Loops pepto hlen later maxhlen carried copied) (front : List Int)
    (ahead : low ≤ later) (inside : ∀ read ∈ front, low ≤ read ∧ read < maxhlen) :
    Loops pepto hlen low maxhlen carried (copied.reading front) := by
  refine ⟨loops.length, loops.written, loops.frame, ?_⟩
  intro read member
  rcases List.mem_append.mp member with first | rest
  · exact inside read first
  · have bounds := loops.inside read rest
    omega

/-- The octets that were written before belong to what was copied. -/
theorem Loops.join {pepto : Packet} {hlen low maxhlen : Int} (head : List Octet)
    {carried : List Octet} {copied : Copied}
    (loops : Loops (memcpy pepto hlen head) (hlen + head.length) low maxhlen carried copied) :
    Loops pepto hlen low maxhlen (head ++ carried) copied := by
  have kept : Holds copied.pep hlen head := by
    have same : fetch copied.pep hlen head.length = fetch (memcpy pepto hlen head) hlen head.length :=
      fetch_congr _ _ _ _ fun position bound => loops.frame _ (by omega)
    exact same.trans (fetch_memcpy pepto hlen head)
  constructor
  · rw [loops.length, List.length_append]
    push_cast
    omega
  · exact kept.append loops.written
  · intro place outside
    rw [List.length_append] at outside
    push_cast at outside
    rw [loops.frame place (by omega), memcpy_outside pepto hlen place head (by omega)]
  · exact loops.inside

theorem walk_loops (pepfrom : Packet → Packet) (reads : Local pepfrom) (maxhlen : Int)
    {octets carried : List Octet} (walk : Walk octets carried) (fuel : Nat)
    (enough : octets.length < fuel) (pepto : Packet) (hlen i : Int) (behind : hlen ≤ i)
    (ends : octets.length = (maxhlen - i).toNat) (holds : Holds (pepfrom pepto) i octets) :
    ∃ copied, optionTrace pepfrom maxhlen fuel pepto hlen i = some copied ∧
      Loops pepto hlen i maxhlen carried copied := by
  induction walk generalizing fuel pepto hlen i with
  | done =>
      obtain ⟨fuel, rfl⟩ := Nat.exists_eq_succ_of_ne_zero (n := fuel) (by omega)
      have atEnd : ¬ i < maxhlen := by
        rw [List.length_nil] at ends
        omega
      refine ⟨⟨pepto, hlen, []⟩, ?_, ?_⟩
      · rw [optionTrace, if_neg atEnd]
      · exact ⟨by simp, rfl, fun _ _ => rfl, by simp⟩
  | eoop olen rest =>
      obtain ⟨fuel, rfl⟩ := Nat.exists_eq_succ_of_ne_zero (n := fuel) (by omega)
      simp only [List.length_cons] at ends
      have inside : i < maxhlen := by omega
      have otype := holds.head.1
      have uncopied : ¬ ipoCopy ipoEoop = true := by decide
      refine ⟨⟨memcpy pepto hlen [ipoEoop], hlen + 1, [i, i + 1]⟩, ?_, ?_⟩
      · rw [optionTrace, if_pos inside]
        dsimp only
        rw [otype, if_neg uncopied, if_pos rfl]
      · constructor
        · rfl
        · exact fetch_memcpy pepto hlen [ipoEoop]
        · intro place outside
          exact memcpy_outside pepto hlen place [ipoEoop] outside
        · intro read member
          simp only [List.mem_cons, List.not_mem_nil, or_false] at member
          rcases member with rfl | rfl <;> omega
  | nop olen rest carried walk ih =>
      obtain ⟨fuel, rfl⟩ := Nat.exists_eq_succ_of_ne_zero (n := fuel) (by omega)
      rw [List.length_cons] at ends enough
      have inside : i + 1 < maxhlen := by
        rw [List.length_cons] at ends
        omega
      obtain ⟨otype, tail⟩ := holds.head
      have uncopied : ¬ ipoCopy ipoNop = true := by decide
      have further : ¬ ipoNop = ipoEoop := by decide
      obtain ⟨copied, returns, loops⟩ := ih fuel (by omega) (memcpy pepto hlen [ipoNop])
        (hlen + 1) (i + 1) (by omega) (by omega) (tail.congr fun place ahead =>
          reads pepto _ place (memcpy_outside pepto hlen place [ipoNop] (by
            rw [List.length_singleton]
            omega)))
      refine ⟨copied.reading [i, i + 1], ?_, ?_⟩
      · rw [optionTrace, if_pos (by omega)]
        dsimp only
        rw [otype, if_neg uncopied, if_neg further, if_pos rfl, returns]
        rfl
      · have joined := Loops.join [ipoNop] loops
        apply joined.reading [i, i + 1] (by omega)
        intro read member
        simp only [List.mem_cons, List.not_mem_nil, or_false] at member
        rcases member with rfl | rfl <;> omega
  | copied otype olen rest carried flagged some fits walk ih =>
      obtain ⟨fuel, rfl⟩ := Nat.exists_eq_succ_of_ne_zero (n := fuel) (by omega)
      have fitsAll : olen.toNat ≤ (otype :: olen :: rest).length := by
        simpa using fits
      have shorter := List.length_drop (i := olen.toNat) (l := otype :: olen :: rest)
      have two : (otype :: olen :: rest).length = rest.length + 2 := rfl
      have inside : i + 1 < maxhlen := by omega
      obtain ⟨first, tail⟩ := holds.head
      have second := tail.head.1
      have taken := holds.fetch_take fitsAll
      have takenLength : ((otype :: olen :: rest).take olen.toNat).length = olen.toNat := by
        rw [List.length_take, min_eq_left fitsAll]
      obtain ⟨copied, returns, loops⟩ := ih fuel (by omega)
        (memcpy pepto hlen ((otype :: olen :: rest).take olen.toNat)) (hlen + olen.toNat)
        (i + olen.toNat) (by omega) (by omega) ((holds.drop fitsAll).congr fun place ahead =>
          reads pepto _ place (memcpy_outside pepto hlen place _ (by
            rw [takenLength]
            omega)))
      refine ⟨copied.reading ([i, i + 1] ++ places i olen.toNat), ?_, ?_⟩
      · rw [optionTrace, if_pos (by omega)]
        dsimp only
        rw [first, second, if_pos flagged, taken, returns]
        rfl
      · have joined := Loops.join ((otype :: olen :: rest).take olen.toNat) (by
          rw [takenLength]
          exact loops)
        apply joined.reading _ (by omega)
        intro read member
        rw [List.mem_append, mem_places] at member
        simp only [List.mem_cons, List.not_mem_nil, or_false] at member
        rcases member with (rfl | rfl) | ⟨low, high⟩ <;> omega
  | left otype olen rest carried unflagged notEoop notNop some walk ih =>
      obtain ⟨fuel, rfl⟩ := Nat.exists_eq_succ_of_ne_zero (n := fuel) (by omega)
      have two : (otype :: olen :: rest).length = rest.length + 2 := rfl
      have inside : i + 1 < maxhlen := by omega
      obtain ⟨first, tail⟩ := holds.head
      have second := tail.head.1
      have shorter := List.length_drop (i := olen.toNat) (l := otype :: olen :: rest)
      have uncopied : ¬ ipoCopy otype = true := by
        rw [unflagged]
        exact Bool.false_ne_true
      have behindHolds : Holds (pepfrom pepto) (i + olen.toNat)
          ((otype :: olen :: rest).drop olen.toNat) := by
        by_cases fits : olen.toNat ≤ (otype :: olen :: rest).length
        · exact holds.drop fits
        · rw [List.drop_eq_nil_of_le (by omega)]
          rfl
      obtain ⟨copied, returns, loops⟩ := ih fuel (by omega) pepto hlen (i + olen.toNat)
        (by omega) (by omega) behindHolds
      refine ⟨copied.reading [i, i + 1], ?_, ?_⟩
      · rw [optionTrace, if_pos (by omega)]
        dsimp only
        rw [first, second, if_neg uncopied, if_neg notEoop, if_neg notNop, returns]
        rfl
      · apply loops.reading _ (by omega)
        intro read member
        simp only [List.mem_cons, List.not_mem_nil, or_false] at member
        rcases member with rfl | rfl <;> omega

/-! ## The loop on other options -/

/-- An option without an octet is looked at again and again. -/
theorem zero_option_loops (pepfrom : Packet → Packet) (maxhlen : Int) (fuel : Nat)
    (pepto : Packet) (hlen i : Int) (inside : i < maxhlen)
    (notEoop : pepfrom pepto i ≠ ipoEoop) (notNop : pepfrom pepto i ≠ ipoNop)
    (zero : (pepfrom pepto (i + 1)).toNat = 0) :
    optionTrace pepfrom maxhlen fuel pepto hlen i = none := by
  induction fuel with
  | zero => rfl
  | succ fuel ih =>
      have stays : memcpy pepto hlen (fetch (pepfrom pepto) i 0) = pepto := by
        funext place
        exact memcpy_outside pepto hlen place _ (by simp; omega)
      rw [optionTrace, if_pos inside]
      dsimp only
      rw [zero, if_neg notEoop, if_neg notNop, stays, Nat.cast_zero, add_zero, add_zero, ih]
      simp

/-- Where the loop returns and has read inside the header only, the options can be walked. -/
theorem readable_of_trace (pepfrom : Packet → Packet) (reads : Local pepfrom) (maxhlen : Int)
    (fuel : Nat) (pepto : Packet) (hlen i : Int) (behind : hlen ≤ i) (copied : Copied)
    (returns : optionTrace pepfrom maxhlen fuel pepto hlen i = some copied)
    (inside : ∀ read ∈ copied.reads, read < maxhlen) :
    Readable (fetch (pepfrom pepto) i (maxhlen - i).toNat) := by
  induction fuel generalizing pepto hlen i copied with
  | zero => cases returns
  | succ fuel ih =>
      by_cases further : i < maxhlen
      · rw [optionTrace, if_pos further] at returns
        dsimp only at returns
        have second : i + 1 < maxhlen := by
          split_ifs at returns
          · obtain ⟨later, _, rfl⟩ := Option.map_eq_some_iff.mp returns
            exact inside (i + 1) (by simp [Copied.reading])
          · cases returns
            exact inside (i + 1) (by simp)
          · obtain ⟨later, _, rfl⟩ := Option.map_eq_some_iff.mp returns
            exact inside (i + 1) (by simp [Copied.reading])
          · obtain ⟨later, _, rfl⟩ := Option.map_eq_some_iff.mp returns
            exact inside (i + 1) (by simp [Copied.reading])
        obtain ⟨left, total⟩ : ∃ left, (maxhlen - i).toNat = left + 1 + 1 :=
          ⟨(maxhlen - i).toNat - 2, by omega⟩
        have octets : fetch (pepfrom pepto) i (maxhlen - i).toNat =
            pepfrom pepto i :: pepfrom pepto (i + 1) :: fetch (pepfrom pepto) (i + 1 + 1) left := by
          rw [total, fetch_cons, fetch_cons]
        -- What is left of the octets behind a step, whatever the loop has written meanwhile.
        have behindStep : ∀ (written : Packet) (count : Nat),
            (∀ place, i + count ≤ place → written place = pepto place) →
            (fetch (pepfrom pepto) i (maxhlen - i).toNat).drop count =
              fetch (pepfrom written) (i + count) (maxhlen - (i + count)).toNat := by
          intro written count unwritten
          have length : (maxhlen - i).toNat - count = (maxhlen - (i + count)).toNat := by omega
          rw [drop_fetch, length]
          apply fetch_congr
          intro position _
          exact (reads pepto written _ (unwritten _ (by omega))).symm
        by_cases ends : pepfrom pepto i = ipoEoop
        · rw [octets, ends]
          exact ⟨_, Walk.eoop _ _⟩
        · by_cases steps : pepfrom pepto i = ipoNop
          · have uncopied : ¬ ipoCopy (pepfrom pepto i) = true := by
              rw [steps]
              decide
            rw [if_neg uncopied, if_neg ends, if_pos steps] at returns
            obtain ⟨later, found, rfl⟩ := Option.map_eq_some_iff.mp returns
            have readable := ih _ _ _ (by omega) later found
              (fun read member => inside read (List.mem_append_right _ member))
            have rest := behindStep (memcpy pepto hlen [pepfrom pepto i]) 1 (fun place ahead =>
              memcpy_outside pepto hlen place _ (by
                rw [List.length_singleton]
                omega))
            rw [Nat.cast_one] at rest
            rw [← rest, octets] at readable
            obtain ⟨carried, walk⟩ := readable
            rw [octets, steps]
            exact ⟨_, Walk.nop _ _ carried walk⟩
          · have some : 0 < (pepfrom pepto (i + 1)).toNat := by
              by_contra none
              have loops := zero_option_loops pepfrom maxhlen (fuel + 1) pepto hlen i further ends
                steps (by omega)
              rw [optionTrace, if_pos further] at loops
              dsimp only at loops
              rw [loops] at returns
              cases returns
            by_cases flagged : ipoCopy (pepfrom pepto i) = true
            · rw [if_pos flagged] at returns
              obtain ⟨later, found, rfl⟩ := Option.map_eq_some_iff.mp returns
              have last := inside (i + (pepfrom pepto (i + 1)).toNat - 1)
                (List.mem_append_left _ (List.mem_append_right _ (mem_places.mpr (by omega))))
              have readable := ih _ _ _ (by omega) later found
                (fun read member => inside read (List.mem_append_right _ member))
              rw [← behindStep _ _ (fun place ahead =>
                memcpy_unmoved pepto _ hlen i place _ (by omega)), octets] at readable
              obtain ⟨carried, walk⟩ := readable
              rw [octets]
              refine ⟨_, Walk.copied _ _ _ carried flagged some ?_ walk⟩
              rw [fetch_length]
              omega
            · rw [if_neg flagged, if_neg ends, if_neg steps] at returns
              obtain ⟨later, found, rfl⟩ := Option.map_eq_some_iff.mp returns
              have readable := ih _ _ _ (by omega) later found
                (fun read member => inside read (List.mem_append_right _ member))
              rw [← behindStep pepto _ (fun _ _ => rfl), octets] at readable
              obtain ⟨carried, walk⟩ := readable
              rw [octets]
              exact ⟨carried, Walk.left _ _ _ carried (by simpa using flagged) ends steps some walk⟩
      · have none : (maxhlen - i).toNat = 0 := by omega
        rw [none]
        exact ⟨[], Walk.done⟩

/-! ## What is carried into a later fragment -/

/-- The options with the copy flag and the one-octet options, in order. -/
def Options.carried : Options → List Octet
  | done => []
  | eoop _ => [ipoEoop]
  | nop rest => ipoNop :: rest.carried
  | option otype body rest =>
      (if ipoCopy otype then otype :: BitVec.ofNat 8 (optionLength body) :: body else []) ++
        rest.carried

theorem Options.carried_of_walk (opts : Options) (wellFormed : opts.WellFormed)
    {carried : List Octet} (walk : Walk opts.octets carried) : carried = opts.carried := by
  induction opts generalizing carried with
  | done =>
      cases walk
      rfl
  | eoop behind =>
      simp only [octets] at walk
      cases walk with
      | eoop olen rest => rfl
      | copied _ olen rest carried flagged _ _ _ => exact absurd flagged (by decide)
      | left _ olen rest _ _ notEoop _ _ _ => exact absurd rfl notEoop
  | nop rest ih =>
      simp only [octets] at walk
      generalize shape : rest.octets = octets at walk
      cases walk with
      | nop olen behind carried walk =>
          rw [← shape] at walk
          rw [ih wellFormed walk, Options.carried]
      | copied _ olen behind carried flagged _ _ _ => exact absurd flagged (by decide)
      | left _ olen behind _ _ _ notNop _ _ => exact absurd rfl notNop
  | option otype body rest ih =>
      obtain ⟨notEoop, notNop, short, restWell⟩ := wellFormed
      have olen : (BitVec.ofNat 8 (optionLength body)).toNat = optionLength body := by
        rw [BitVec.toNat_ofNat, Nat.mod_eq_of_lt short]
      have front : (otype :: BitVec.ofNat 8 (optionLength body) :: body).length =
          optionLength body := by
        simp only [List.length_cons, optionLength]
        omega
      have whole : otype :: BitVec.ofNat 8 (optionLength body) :: (body ++ rest.octets) =
          (otype :: BitVec.ofNat 8 (optionLength body) :: body) ++ rest.octets := rfl
      simp only [octets] at walk
      generalize shape : body ++ rest.octets = behind at walk
      cases walk with
      | eoop => exact absurd rfl notEoop
      | nop => exact absurd rfl notNop
      | copied _ _ _ carried flagged _ _ walk =>
          rw [olen, ← shape, whole, List.drop_left' front] at walk
          rw [olen, ← shape, whole, List.take_left' front, ih restWell walk, Options.carried,
            if_pos flagged]
      | left _ _ _ _ unflagged _ _ _ walk =>
          rw [olen, ← shape, whole, List.drop_left' front] at walk
          rw [ih restWell walk, Options.carried, unflagged]
          rfl

/-- Everything that is asked of the header of a fragment: the copy ends, reads the header and
nothing else, and has a proper length; a later fragment carries the options that it should,
padded. -/
structure CopiesHeader (pepto pepfrom : Packet) (shared : Bool) (offindg : Int)
    (copied : Copied) : Prop where
  returns : ∃ fuel, ipfhcopyTrace fuel pepto pepfrom shared offindg = some copied
  inside : ∀ read ∈ copied.reads, 0 ≤ read ∧ read < ipHlen pepfrom
  aligned : copied.hlen % 4 = 0
  least : 20 ≤ copied.hlen
  most : copied.hlen ≤ ipHlen pepfrom
  options : offindg ≠ 0 → ∀ opts : Options, opts.WellFormed → Holds pepfrom 20 opts.octets →
    20 + (opts.octets.length : Int) = ipHlen pepfrom →
    fetch copied.pep 20 (copied.hlen - 20).toNat =
      opts.carried ++ List.replicate (padding (20 + opts.carried.length)) ipoNop

section Header

variable {pepto pepfrom : Packet} {shared : Bool} {offindg : Int}

theorem first_header_copied (header : 20 ≤ ipHlen pepfrom) :
    ∃ copied, CopiesHeader pepto pepfrom shared 0 copied := by
  refine ⟨_, ⟨0, if_pos rfl⟩, ?_, ?_, header, Int.le_refl _, fun later => absurd rfl later⟩
  · intro read member
    have bounds := mem_places.mp member
    omega
  · dsimp only
    unfold ipHlen
    omega

theorem holds_started (same : shared = true → pepto = pepfrom) (octets : List Octet)
    (holds : Holds pepfrom 20 octets) :
    Holds ((if shared then id else fun _ => pepfrom) (memcpy pepto 0 (fetch pepfrom 0 20))) 20
      octets := by
  cases shared with
  | false => exact holds
  | true =>
      apply holds.congr
      intro place ahead
      rw [same rfl]
      exact memcpy_unmoved pepfrom pepfrom 0 0 place 20 (by omega)

theorem later_header_copied (header : 20 ≤ ipHlen pepfrom) (same : shared = true → pepto = pepfrom)
    (later : offindg ≠ 0)
    (readable : Readable (fetch pepfrom 20 (ipHlen pepfrom - 20).toNat)) :
    ∃ copied, CopiesHeader pepto pepfrom shared offindg copied := by
  obtain ⟨carried, walk⟩ := readable
  have shorter := walk.length_le
  rw [fetch_length] at shorter
  have whole : Holds pepfrom 20 (fetch pepfrom 20 (ipHlen pepfrom - 20).toNat) := by
    unfold Holds
    rw [fetch_length]
  obtain ⟨copied, returns, loops⟩ := walk_loops _ (local_of_shared shared pepfrom)
    (ipHlen pepfrom) walk _ (Nat.lt_succ_self _) (memcpy pepto 0 (fetch pepfrom 0 20)) 20 20
    (Int.le_refl 20) (fetch_length _ _ _) (holds_started same _ whole)
  have length := loops.length
  have words : ipHlen pepfrom % 4 = 0 := by
    unfold ipHlen
    omega
  refine ⟨copied.padded, ⟨(fetch pepfrom 20 (ipHlen pepfrom - 20).toNat).length + 1, ?_⟩, ?_, ?_,
    ?_, ?_, ?_⟩
  · rw [ipfhcopyTrace, if_neg later]
    exact congrArg (Option.map Copied.padded) returns
  · intro read member
    rcases List.mem_append.mp member with fixed | option
    · have bounds := mem_places.mp fixed
      omega
    · have bounds := loops.inside read option
      omega
  · simp only [Copied.padded, padding]
    omega
  · simp only [Copied.padded]
    omega
  · simp only [Copied.padded, padding]
    omega
  · intro _ opts wellFormed holds ends
    have octets : fetch pepfrom 20 (ipHlen pepfrom - 20).toNat = opts.octets := by
      have same : (ipHlen pepfrom - 20).toNat = opts.octets.length := by omega
      rw [same]
      exact holds
    rw [octets] at walk
    rw [← opts.carried_of_walk wellFormed walk]
    have front : Holds (memcpy copied.pep copied.hlen
        (List.replicate (padding copied.hlen) ipoNop)) 20 carried := by
      have unwritten : fetch (memcpy copied.pep copied.hlen
          (List.replicate (padding copied.hlen) ipoNop)) 20 carried.length =
            fetch copied.pep 20 carried.length :=
        fetch_congr _ _ _ _ fun position bound => memcpy_outside _ _ _ _ (by omega)
      exact unwritten.trans loops.written
    have back : Holds (memcpy copied.pep copied.hlen
        (List.replicate (padding copied.hlen) ipoNop)) (20 + carried.length)
          (List.replicate (padding copied.hlen) ipoNop) := by
      rw [← length]
      exact fetch_memcpy copied.pep copied.hlen (List.replicate (padding copied.hlen) ipoNop)
    have both := front.append back
    have total : (copied.hlen + padding copied.hlen - 20).toNat =
        (carried ++ List.replicate (padding copied.hlen) ipoNop).length := by
      rw [List.length_append, List.length_replicate]
      omega
    simp only [Copied.padded]
    rw [total, ← length]
    exact both

theorem header_copied_iff (header : 20 ≤ ipHlen pepfrom)
    (same : shared = true → pepto = pepfrom) :
    (∃ copied, CopiesHeader pepto pepfrom shared offindg copied) ↔
      offindg = 0 ∨ Readable (fetch pepfrom 20 (ipHlen pepfrom - 20).toNat) := by
  constructor
  · rintro ⟨copied, copies⟩
    by_cases first : offindg = 0
    · exact Or.inl first
    · right
      obtain ⟨fuel, returns⟩ := copies.returns
      rw [ipfhcopyTrace, if_neg first] at returns
      obtain ⟨looped, found, rfl⟩ := Option.map_eq_some_iff.mp returns
      have readable := readable_of_trace _ (local_of_shared shared pepfrom) _ _ _ _ _
        (Int.le_refl 20) looped found
        (fun read member => (copies.inside read (List.mem_append_right _ member)).2)
      have whole : Holds pepfrom 20 (fetch pepfrom 20 (ipHlen pepfrom - 20).toNat) := by
        unfold Holds
        rw [fetch_length]
      have held := holds_started same _ whole
      unfold Holds at held
      rw [fetch_length] at held
      rwa [held] at readable
  · rintro (first | readable)
    · rw [first]
      exact first_header_copied header
    · by_cases first : offindg = 0
      · rw [first]
        exact first_header_copied header
      · exact later_header_copied header same first readable

end Header

/-- A header of 24 octets with these four octets of options. -/
def headerWith (options : List Octet) : Packet :=
  memcpy (fun _ => 0) 0
    ([0x46, 0, 0, 120, 0, 7, 0x20, 0, 64, 17, 0, 0, 10, 0, 0, 1, 10, 0, 0, 2] ++ options)

theorem security_option_copied :
    ∃ copied, CopiesHeader (fun _ => 0) (headerWith [0x82, 4, 9, 9]) false 64 copied := by
  apply (header_copied_iff (by decide) (fun impossible => absurd impossible (by decide))).mpr
  right
  exact ⟨_, Walk.copied 0x82 4 [9, 9] [] (by decide) (by decide) (by decide) Walk.done⟩

/-- A record route option of length 0. -/
theorem empty_option_never_passed :
    ¬ ∃ copied, CopiesHeader (fun _ => 0) (headerWith [0x07, 0, 0, 0]) false 64 copied := by
  rintro ⟨copied, copies⟩
  obtain ⟨fuel, returns⟩ := copies.returns
  obtain ⟨looped, found, _⟩ := Option.map_eq_some_iff.mp returns
  have loops := zero_option_loops (fun _ => headerWith [0x07, 0, 0, 0])
    (ipHlen (headerWith [0x07, 0, 0, 0])) fuel
    (memcpy (fun _ => 0) 0 (fetch (headerWith [0x07, 0, 0, 0]) 0 20)) 20 20 (by decide) (by decide)
    (by decide) (by decide)
  exact Option.some_ne_none looped (found.symm.trans loops)

end MvsXinu.Ip
