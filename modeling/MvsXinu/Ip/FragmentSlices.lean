import MvsXinu.Ip.Fragment

/-!
# What the fragments carry

Every fragment after the first has a header of its own length, which depends on the
options that are copied into it, while `ip_verlen` stays the one of the datagram.
-/

namespace MvsXinu.Ip

open MvsXinu.Octets

set_option autoImplicit false

/-- A well-formed list of options. -/
inductive Options where
  | done
  | eoop (behind : List Octet)
  | nop (rest : Options)
  | option (otype : Octet) (body : List Octet) (rest : Options)

def optionLength (body : List Octet) : Nat := 2 + body.length

def Options.octets : Options → List Octet
  | done => []
  | eoop behind => ipoEoop :: behind
  | nop rest => ipoNop :: rest.octets
  | option otype body rest =>
      otype :: BitVec.ofNat 8 (optionLength body) :: (body ++ rest.octets)

def Options.WellFormed : Options → Prop
  | done => True
  | eoop _ => True
  | nop rest => rest.WellFormed
  | option otype body rest =>
      otype ≠ ipoEoop ∧ otype ≠ ipoNop ∧ optionLength body < 256 ∧ rest.WellFormed

/-- The octets of the options that do not go into later fragments: the options without the
copy flag, and what stands behind the end of the list. -/
def Options.dropped : Options → Nat
  | done => 0
  | eoop behind => behind.length
  | nop rest => rest.dropped
  | option otype body rest =>
      (if ipoCopy otype then 0 else optionLength body) + rest.dropped

theorem Options.dropped_le (opts : Options) : opts.dropped ≤ opts.octets.length := by
  induction opts with
  | done => exact Nat.le_refl 0
  | eoop behind =>
      simp only [dropped, octets, List.length_cons]
      omega
  | nop rest ih =>
      simp only [dropped, octets, List.length_cons]
      omega
  | option otype body rest ih =>
      simp only [dropped, octets, List.length_cons, List.length_append, optionLength]
      split_ifs <;> omega

/-! ## The option loop -/

/-- What stands in storage from a place on. -/
def Holds (storage : Packet) (place : Int) (octets : List Octet) : Prop :=
  fetch storage place octets.length = octets

theorem fetch_cons (storage : Packet) (place : Int) (count : Nat) :
    fetch storage place (count + 1) = storage place :: fetch storage (place + 1) count := by
  simp only [fetch, List.range_succ_eq_map, List.map_cons, List.map_map, Nat.cast_zero, add_zero]
  congr 1
  apply List.map_congr_left
  intro position _
  simp only [Function.comp_apply, Nat.cast_succ]
  congr 1
  omega

theorem Holds.head {storage : Packet} {place : Int} {octet : Octet} {rest : List Octet}
    (holds : Holds storage place (octet :: rest)) :
    storage place = octet ∧ Holds storage (place + 1) rest := by
  unfold Holds at holds
  rw [List.length_cons, fetch_cons, List.cons.injEq] at holds
  exact holds

theorem Holds.behind {storage : Packet} {place : Int} {front rest : List Octet}
    (holds : Holds storage place (front ++ rest)) : Holds storage (place + front.length) rest := by
  induction front generalizing place with
  | nil => simpa using holds
  | cons octet front ih =>
      have tail := ih holds.head.2
      rw [List.length_cons, Nat.cast_succ]
      have same : place + ((front.length : Int) + 1) = place + 1 + front.length := by omega
      rw [same]
      exact tail

theorem Holds.congr {storage other : Packet} {place : Int} {octets : List Octet}
    (holds : Holds storage place octets) (agree : ∀ spot, place ≤ spot → other spot = storage spot) :
    Holds other place octets := by
  unfold Holds at holds ⊢
  rw [← holds, fetch_length]
  apply fetch_congr
  intro position _
  exact agree _ (by omega)

/-- Reading sees a write only where it happened. -/
def Local (pepfrom : Packet → Packet) : Prop :=
  ∀ pepto written place, written place = pepto place → pepfrom written place = pepfrom pepto place

/-- The loop reads ahead of what it writes, so that it may write into the packet it
reads. -/
theorem optionLoop_spec (pepfrom : Packet → Packet) (reads : Local pepfrom) (maxhlen : Int)
    (opts : Options) (wellFormed : opts.WellFormed) (fuel : Nat)
    (enough : opts.octets.length ≤ fuel) (pepto : Packet) (hlen i : Int) (behind : hlen ≤ i)
    (ends : i + opts.octets.length = maxhlen) (holds : Holds (pepfrom pepto) i opts.octets) :
    (optionLoop pepfrom maxhlen fuel pepto hlen i).2 =
        hlen + (opts.octets.length - opts.dropped : Nat) ∧
      ∀ place, place < hlen ∨
          hlen + (opts.octets.length - opts.dropped : Nat) ≤ place →
        (optionLoop pepfrom maxhlen fuel pepto hlen i).1 place = pepto place := by
  induction opts generalizing fuel pepto hlen i with
  | done =>
      have atEnd : ¬ i < maxhlen := by
        simp only [Options.octets, List.length_nil] at ends
        omega
      cases fuel with
      | zero => simp [optionLoop, Options.octets, Options.dropped]
      | succ fuel => simp [optionLoop, atEnd, Options.octets, Options.dropped]
  | eoop rest =>
      obtain ⟨fuel, rfl⟩ := Nat.exists_eq_succ_of_ne_zero (n := fuel) (by
        simp only [Options.octets, List.length_cons] at enough
        omega)
      have inside : i < maxhlen := by
        simp only [Options.octets, List.length_cons] at ends
        omega
      have otype := holds.head.1
      have kept : (Options.eoop rest).octets.length - (Options.eoop rest).dropped = 1 := by
        simp [Options.octets, Options.dropped]
      rw [kept]
      have uncopied : ipoCopy ipoEoop = false := by decide
      simp only [optionLoop, inside, otype, uncopied, if_true, Bool.false_eq_true, if_false]
      refine ⟨rfl, ?_⟩
      intro place outside
      exact memcpy_outside pepto hlen place [ipoEoop] outside
  | nop rest ih =>
      obtain ⟨fuel, rfl⟩ := Nat.exists_eq_succ_of_ne_zero (n := fuel) (by
        simp only [Options.octets, List.length_cons] at enough
        omega)
      simp only [Options.octets, List.length_cons] at ends enough
      have inside : i < maxhlen := by omega
      obtain ⟨otype, tail⟩ := holds.head
      have less := rest.dropped_le
      have kept : (Options.nop rest).octets.length - (Options.nop rest).dropped =
          1 + (rest.octets.length - rest.dropped) := by
        simp only [Options.octets, Options.dropped, List.length_cons]
        omega
      have uncopied : ipoCopy ipoNop = false := by decide
      have further : ipoNop ≠ ipoEoop := by decide
      have unwritten : ∀ place, place < hlen ∨ hlen + 1 ≤ place →
          memcpy pepto hlen [ipoNop] place = pepto place := by
        intro place outside
        exact memcpy_outside pepto hlen place [ipoNop] outside
      have next := ih wellFormed fuel (by omega) (memcpy pepto hlen [ipoNop]) (hlen + 1) (i + 1)
        (by omega) (by omega) (tail.congr fun place ahead =>
          reads pepto _ place (unwritten place (by omega)))
      simp only [optionLoop, inside, otype, uncopied, further, if_true, Bool.false_eq_true,
        if_false, kept]
      refine ⟨?_, ?_⟩
      · rw [next.1]
        push_cast
        omega
      · intro place outside
        rw [next.2 place (by omega), unwritten place (by omega)]
  | option otype body rest ih =>
      obtain ⟨notEoop, notNop, short, restWell⟩ := wellFormed
      obtain ⟨fuel, rfl⟩ := Nat.exists_eq_succ_of_ne_zero (n := fuel) (by
        simp only [Options.octets, List.length_cons] at enough
        omega)
      simp only [Options.octets, List.length_cons, List.length_append] at ends enough
      have inside : i < maxhlen := by omega
      obtain ⟨first, second⟩ := holds.head
      obtain ⟨length, bodyHeld⟩ := second.head
      have tail := bodyHeld.behind
      have place : i + 1 + 1 + (body.length : Int) = i + (optionLength body : Nat) := by
        simp only [optionLength]
        push_cast
        omega
      rw [place] at tail
      have olen : (pepfrom pepto (i + 1)).toNat = optionLength body := by
        rw [length, BitVec.toNat_ofNat, Nat.mod_eq_of_lt short]
      have less := rest.dropped_le
      have whole : (Options.option otype body rest).octets.length =
          optionLength body + rest.octets.length := by
        simp only [Options.octets, List.length_cons, List.length_append, optionLength]
        omega
      by_cases copied : ipoCopy otype = true
      · have kept : (Options.option otype body rest).octets.length -
            (Options.option otype body rest).dropped =
              optionLength body + (rest.octets.length - rest.dropped) := by
          rw [whole]
          simp only [Options.dropped, copied, if_true]
          omega
        have unwritten : ∀ place, place < hlen ∨ hlen + optionLength body ≤ place →
            memcpy pepto hlen (fetch (pepfrom pepto) i (optionLength body)) place =
              pepto place := by
          intro place outside
          exact memcpy_unmoved pepto _ hlen i place _ outside
        have next := ih restWell fuel (by omega)
          (memcpy pepto hlen (fetch (pepfrom pepto) i (optionLength body)))
          (hlen + optionLength body) (i + optionLength body) (by omega)
          (by simp only [optionLength]; push_cast; omega)
          (tail.congr fun place ahead => reads pepto _ place (unwritten place (by omega)))
        simp only [optionLoop, inside, first, olen, copied, if_true, kept]
        refine ⟨?_, ?_⟩
        · rw [next.1]
          push_cast
          omega
        · intro place outside
          rw [next.2 place (by omega), unwritten place (by omega)]
      · have kept : (Options.option otype body rest).octets.length -
            (Options.option otype body rest).dropped = rest.octets.length - rest.dropped := by
          rw [whole]
          simp only [Options.dropped, copied, Bool.false_eq_true, if_false]
          omega
        have next := ih restWell fuel (by omega) pepto hlen (i + optionLength body) (by omega)
          (by simp only [optionLength]; push_cast; omega) tail
        simp only [optionLoop, inside, first, olen, copied, notEoop, notNop, if_true,
          Bool.false_eq_true, if_false, kept]
        exact next

/-! ## The header of a later fragment -/

/-- A datagram that is whole, may be fragmented and has well-formed options. -/
structure Datagram (pep : Packet) (opts : Options) : Prop where
  header : 20 ≤ ipHlen pep
  whole : isFragment pep = false
  free : dontFragment pep = false
  lengths : ipHlen pep ≤ ipLen pep
  options : Holds pep 20 opts.octets
  ends : 20 + (opts.octets.length : Int) = ipHlen pep
  wellFormed : opts.WellFormed

def laterHlen (opts : Options) : Int :=
  20 + (opts.octets.length - opts.dropped : Nat) +
    padding (20 + (opts.octets.length - opts.dropped : Nat))

def fragHlen (pep : Packet) (opts : Options) (offindg : Int) : Int :=
  if offindg = 0 then ipHlen pep else laterHlen opts

theorem ipHlen_le (pep : Packet) : ipHlen pep ≤ 60 := by
  unfold ipHlen
  omega

theorem laterHlen_le {pep : Packet} {opts : Options} (datagram : Datagram pep opts) :
    20 ≤ laterHlen opts ∧ laterHlen opts ≤ ipHlen pep := by
  have ends := datagram.ends
  unfold ipHlen at ends ⊢
  unfold laterHlen padding
  omega

theorem laterHlen_eq_iff {pep : Packet} {opts : Options} (datagram : Datagram pep opts) :
    laterHlen opts = ipHlen pep ↔ opts.dropped < 4 := by
  have ends := datagram.ends
  have less := opts.dropped_le
  unfold ipHlen at ends ⊢
  unfold laterHlen padding
  omega

theorem local_of_shared (shared : Bool) (pepfrom : Packet) :
    Local (if shared then id else fun _ => pepfrom) := by
  intro pepto written place same
  cases shared
  · rfl
  · exact same

theorem ipfhcopy_later {pep : Packet} {opts : Options} (datagram : Datagram pep opts)
    (pepto : Packet) (shared : Bool) (same : shared = true → pepto = pep) (offindg : Int)
    (later : offindg ≠ 0) :
    (ipfhcopy pepto pep shared offindg).2 = laterHlen opts ∧
      (∀ place, 0 ≤ place → place < 20 → (ipfhcopy pepto pep shared offindg).1 place = pep place) ∧
      ∀ place, ipHlen pep ≤ place → (ipfhcopy pepto pep shared offindg).1 place = pepto place := by
  have ends := datagram.ends
  have most := ipHlen_le pep
  have bound := laterHlen_le datagram
  let reads : Packet → Packet := if shared then id else fun _ => pep
  let started := memcpy pepto 0 (fetch pep 0 20)
  have unstarted : ∀ place, 20 ≤ place → started place = pepto place := by
    intro place high
    exact memcpy_unmoved pepto pep 0 0 place 20 (Or.inr (by simpa using high))
  have startedHeader : ∀ place, 0 ≤ place → place < 20 → started place = pep place := by
    intro place low high
    exact memcpy_fetch pepto pep 0 place 20 low (by simpa using high)
  have holds : Holds (reads started) 20 opts.octets := by
    cases shared with
    | false => exact datagram.options
    | true =>
        apply datagram.options.congr
        intro place high
        change started place = pep place
        rw [unstarted place high, same rfl]
  have loop := optionLoop_spec reads (local_of_shared shared pep) (ipHlen pep) opts
    datagram.wellFormed optionFuel (by unfold optionFuel; omega) started 20 20 le_rfl ends holds
  have copied : ipfhcopy pepto pep shared offindg =
      (memcpy (optionLoop reads (ipHlen pep) optionFuel started 20 20).1
          (optionLoop reads (ipHlen pep) optionFuel started 20 20).2
          (List.replicate (padding (optionLoop reads (ipHlen pep) optionFuel started 20 20).2)
            ipoNop),
        (optionLoop reads (ipHlen pep) optionFuel started 20 20).2 +
          padding (optionLoop reads (ipHlen pep) optionFuel started 20 20).2) := by
    simp only [ipfhcopy, later, if_false]
    rfl
  rw [copied, loop.1]
  have unwritten : ∀ place, place < 20 ∨ laterHlen opts ≤ place →
      memcpy (optionLoop reads (ipHlen pep) optionFuel started 20 20).1
          (20 + (opts.octets.length - opts.dropped : Nat))
          (List.replicate (padding (20 + (opts.octets.length - opts.dropped : Nat))) ipoNop)
          place = started place := by
    intro place outside
    unfold laterHlen at outside
    rw [memcpy_outside, loop.2 place (by omega)]
    rw [List.length_replicate]
    omega
  refine ⟨rfl, ?_, ?_⟩
  · intro place low high
    exact (unwritten place (Or.inl high)).trans (startedHeader place low high)
  · intro place high
    exact (unwritten place (Or.inr (by omega))).trans (unstarted place (by omega))

theorem ipfhcopy_first (pepto pep : Packet) (shared : Bool) :
    (ipfhcopy pepto pep shared 0).2 = ipHlen pep ∧
      ∀ place, 0 ≤ place → place < ipHlen pep →
        (ipfhcopy pepto pep shared 0).1 place = pep place := by
  unfold ipfhcopy
  rw [if_pos rfl]
  refine ⟨rfl, ?_⟩
  intro place low high
  exact memcpy_fetch pepto pep 0 place _ low (by omega)

/-- Whichever fragment it is, the fixed part of the header is that of the datagram. -/
theorem ipfhcopy_header {pep : Packet} {opts : Options} (datagram : Datagram pep opts)
    (pepto : Packet) (offindg : Int) :
    (ipfhcopy pepto pep false offindg).2 = fragHlen pep opts offindg ∧
      ∀ place, 0 ≤ place → place < 20 →
        (ipfhcopy pepto pep false offindg).1 place = pep place := by
  have least := datagram.header
  unfold fragHlen
  split_ifs with first
  · rw [first]
    obtain ⟨length, same⟩ := ipfhcopy_first pepto pep false
    exact ⟨length, fun place low high => same place low (by omega)⟩
  · obtain ⟨length, same, _⟩ := ipfhcopy_later datagram pepto false
      (fun impossible => absurd impossible Bool.false_ne_true) offindg first
    exact ⟨length, same⟩

/-! ## A fragment as a slice -/

/-- The octets of the header that tell the datagram, and its length in words. -/
def Kept (place : Int) : Prop :=
  place = 0 ∨ place = 4 ∨ place = 5 ∨ place = 9 ∨ (12 ≤ place ∧ place < 20)

/-- A fragment with the data of `pep` from `start` on, behind a header of `hlen` octets. -/
structure Slice (pep : Packet) (hlen start count : Int) (more : Bool) (frag : Packet) :
    Prop where
  kept : ∀ place, Kept place → frag place = pep place
  length : ipLen frag = count + hlen
  offset : packoff frag = start
  closing : moreFragments frag = more
  data : ∀ place, 0 ≤ place → place < count →
    frag (hlen + place) = pep (ipHlen pep + start + place)

theorem putFields_outside (pip : Packet) (fragoff : Nat) (len place : Int)
    (outside : place < 2 ∨ place = 4 ∨ place = 5 ∨ place = 8 ∨ place = 9 ∨ 12 ≤ place) :
    putFields pip fragoff len place = pip place := by
  unfold putFields
  rw [putHalfword_outside _ _ _ _ (by omega), putHalfword_outside _ _ _ _ (by omega),
    putHalfword_outside _ _ _ _ (by omega)]

theorem putFields_len (pip : Packet) (fragoff : Nat) (len : Int) (low : 0 ≤ len)
    (high : len < 65536) (cksum : Nat) :
    halfword (putHalfword (putFields pip fragoff len) 10 cksum) 2 = len.toNat := by
  rw [halfword_put_apart _ _ _ _ (by omega), putFields, halfword_put_apart _ _ _ _ (by omega),
    halfword_putHalfword _ _ _ (by omega)]

theorem putFields_fragoff (pip : Packet) (fragoff : Nat) (len : Int) (small : fragoff < 65536)
    (cksum : Nat) :
    halfword (putHalfword (putFields pip fragoff len) 10 cksum) 6 = fragoff := by
  rw [halfword_put_apart _ _ _ _ (by omega), putFields, halfword_put_apart _ _ _ _ (by omega),
    halfword_put_apart _ _ _ _ (by omega), halfword_putHalfword _ _ _ small]

theorem fragHlen_bounds {pep : Packet} {opts : Options} (datagram : Datagram pep opts)
    (offindg : Int) : 20 ≤ fragHlen pep opts offindg ∧ fragHlen pep opts offindg ≤ ipHlen pep := by
  have least := datagram.header
  unfold fragHlen
  split_ifs
  · omega
  · exact laterHlen_le datagram

theorem ipfsend_slice {pep : Packet} {opts : Options} (datagram : Datagram pep opts)
    (buffer : Packet) (start maxdlen : Int) (low : 0 ≤ start) (aligned : start % 8 = 0)
    (positive : 0 ≤ maxdlen) (inside : start + maxdlen ≤ ipLen pep - ipHlen pep) :
    Slice pep (fragHlen pep opts start) start maxdlen true
      (ipfsend buffer pep start maxdlen start) := by
  obtain ⟨hlen, header⟩ := ipfhcopy_header datagram buffer start
  obtain ⟨least, most⟩ := fragHlen_bounds datagram start
  have total : ipLen pep < 65536 := by
    have bound := halfword_lt pep 2
    unfold ipLen
    omega
  have behind : ∀ place, place < 20 →
      ipfsend buffer pep start maxdlen start place =
        putHalfword (putFields (ipfhcopy buffer pep false start).1 (8192 + (start / 8).toNat)
          (maxdlen + fragHlen pep opts start)) 10
          (stevensCksum (putFields (ipfhcopy buffer pep false start).1 (8192 + (start / 8).toNat)
            (maxdlen + fragHlen pep opts start)) (fragHlen pep opts start).toNat) place := by
    intro place below
    simp only [ipfsend, hlen]
    exact memcpy_unmoved _ _ _ _ _ _ (by omega)
  have fragoff : halfword (ipfsend buffer pep start maxdlen start) 6 =
      8192 + (start / 8).toNat := by
    rw [halfword_congr _ _ 6 (behind 6 (by omega)) (behind 7 (by omega)),
      putFields_fragoff _ _ _ (by omega)]
  refine ⟨?_, ?_, ?_, ?_, ?_⟩
  · intro place fixed
    unfold Kept at fixed
    rw [behind place (by omega), putHalfword_outside _ _ _ _ (by omega),
      putFields_outside _ _ _ _ (by omega), header place (by omega) (by omega)]
  · unfold ipLen
    rw [halfword_congr _ _ 2 (behind 2 (by omega)) (behind 3 (by omega)),
      putFields_len _ _ _ (by omega) (by omega)]
    omega
  · unfold packoff fragOffset ipFragoff
    rw [fragoff]
    omega
  · unfold moreFragments ipFragoff
    rw [fragoff, decide_eq_true_eq]
    omega
  · intro place first last
    simp only [ipfsend, hlen]
    rw [memcpy_moved _ _ _ _ _ _ (by omega) (by omega)]
    congr 1
    omega

theorem lastFragment_slice {pep : Packet} {opts : Options} (datagram : Datagram pep opts)
    (start tosend : Int) (later : 0 < start) (aligned : start % 8 = 0)
    (positive : 0 ≤ tosend) (inside : start + tosend ≤ ipLen pep - ipHlen pep) :
    Slice pep (fragHlen pep opts start) start tosend false
      (lastFragment pep start tosend start) := by
  obtain ⟨hlen, header, rest⟩ := ipfhcopy_later datagram pep true (fun _ => rfl) start (by omega)
  obtain ⟨least, most⟩ := laterHlen_le datagram
  have shorter : fragHlen pep opts start = laterHlen opts := if_neg (by omega)
  rw [shorter]
  have total : ipLen pep < 65536 := by
    have bound := halfword_lt pep 2
    unfold ipLen
    omega
  set copied := (ipfhcopy pep pep true start).1 with copiedEq
  have headerLength : ipHlen copied = ipHlen pep := by
    unfold ipHlen ipVerlen
    rw [header 0 (by omega) (by omega)]
  set slid := memcpy copied (laterHlen opts)
    (fetch copied (ipHlen copied + start) tosend.toNat) with slidEq
  have unslid : ∀ place, place < 20 → slid place = copied place := by
    intro place below
    exact memcpy_unmoved _ _ _ _ _ _ (by omega)
  have closed : moreFragments slid = false := by
    have whole := datagram.whole
    rw [isFragment, Bool.or_eq_false_iff] at whole
    unfold moreFragments ipFragoff at whole ⊢
    rw [halfword_congr slid pep 6 ((unslid 6 (by omega)).trans (header 6 (by omega) (by omega)))
      ((unslid 7 (by omega)).trans (header 7 (by omega) (by omega)))]
    exact whole.2
  have fragment : lastFragment pep start tosend start =
      putHalfword (putFields slid (start / 8).toNat (tosend + laterHlen opts)) 10
        (ipcksum (putFields slid (start / 8).toNat (tosend + laterHlen opts))) := by
    simp only [lastFragment, hlen, ← copiedEq, ← slidEq, closed, Bool.false_eq_true, if_false,
      Nat.zero_add]
  rw [fragment]
  refine ⟨?_, ?_, ?_, ?_, ?_⟩
  · intro place fixed
    unfold Kept at fixed
    rw [putHalfword_outside _ _ _ _ (by omega), putFields_outside _ _ _ _ (by omega),
      unslid place (by omega), header place (by omega) (by omega)]
  · unfold ipLen
    rw [putFields_len _ _ _ (by omega) (by omega)]
    omega
  · unfold packoff fragOffset ipFragoff
    rw [putFields_fragoff _ _ _ (by omega)]
    omega
  · unfold moreFragments ipFragoff
    rw [putFields_fragoff _ _ _ (by omega), decide_eq_false_iff_not]
    omega
  · intro place first last
    rw [putHalfword_outside _ _ _ _ (by omega), putFields_outside _ _ _ _ (by omega), slidEq,
      memcpy_moved _ _ _ _ _ _ (by omega) (by omega), headerLength, rest _ (by omega)]
    congr 1
    omega

/-! ## All fragments of a datagram -/

/-- The fragment with the data from `start` on: `maxdlen` octets, or what is left. -/
def SliceAt (pep : Packet) (opts : Options) (maxdlen start : Int) (frag : Packet) : Prop :=
  Slice pep (fragHlen pep opts start) start
    (min maxdlen (ipLen pep - ipHlen pep - start))
    (decide (maxdlen < ipLen pep - ipHlen pep - start)) frag

/-- `frags` carry the data from `start` on, `maxdlen` octets each. -/
inductive Sliced (pep : Packet) (opts : Options) (maxdlen : Int) : Int → List Packet → Prop where
  | last (start : Int) (frag : Packet) (slice : SliceAt pep opts maxdlen start frag)
      (left : 0 < ipLen pep - ipHlen pep - start)
      (fits : ipLen pep - ipHlen pep - start ≤ maxdlen) :
      Sliced pep opts maxdlen start [frag]
  | more (start : Int) (frag : Packet) (rest : List Packet)
      (slice : SliceAt pep opts maxdlen start frag)
      (left : maxdlen < ipLen pep - ipHlen pep - start)
      (others : Sliced pep opts maxdlen (start + maxdlen) rest) :
      Sliced pep opts maxdlen start (frag :: rest)

theorem fragmentLoop_sliced {pep : Packet} {opts : Options} (datagram : Datagram pep opts)
    (buffers : Nat → Packet) (maxdlen : Int) (positive : 0 < maxdlen) (aligned : maxdlen % 8 = 0)
    (fuel : Nat) (start : Int) (startAligned : start % 8 = 0) (low : 0 ≤ start)
    (left : 0 < ipLen pep - ipHlen pep - start)
    (split : start = 0 → maxdlen < ipLen pep - ipHlen pep)
    (enough : ipLen pep - ipHlen pep - start < fuel) :
    Sliced pep opts maxdlen start
      (fragmentLoop buffers pep maxdlen fuel (ipLen pep - ipHlen pep - start) start start) := by
  induction fuel generalizing start with
  | zero => omega
  | succ fuel ih =>
      by_cases further : maxdlen < ipLen pep - ipHlen pep - start
      · have slice := ipfsend_slice datagram (buffers fuel) start maxdlen low startAligned
          positive.le (by omega)
        have next := ih (start + maxdlen) (by omega) (by omega) (by omega) (by omega) (by omega)
        have remains : ipLen pep - ipHlen pep - (start + maxdlen) =
            ipLen pep - ipHlen pep - start - maxdlen := by omega
        rw [remains] at next
        rw [fragmentLoop, if_pos further]
        apply Sliced.more _ _ _ _ further next
        unfold SliceAt
        rw [min_eq_left further.le, decide_eq_true further]
        exact slice
      · have moved : 0 < start := by
          rcases low.eq_or_lt with zero | later
          · have first := split zero.symm
            omega
          · exact later
        have slice := lastFragment_slice datagram start (ipLen pep - ipHlen pep - start) moved
          startAligned left.le (by omega)
        rw [fragmentLoop, if_neg further]
        apply Sliced.last _ _ _ left (by omega)
        unfold SliceAt
        rw [min_eq_right (by omega), decide_eq_false further]
        exact slice

def fragmentRoom (niMtu : Nat) (pep : Packet) : Int :=
  ((niMtu : Int) - ipHlen pep) - ((niMtu : Int) - ipHlen pep) % 8

theorem ipputp_sliced {pep : Packet} {opts : Options} (datagram : Datagram pep opts)
    (buffers : Nat → Packet) (niMtu : Nat) (mtu : 68 ≤ niMtu) (large : niMtu < ipLen pep) :
    Sliced pep opts (fragmentRoom niMtu pep) 0 (ipputp niMtu buffers pep) := by
  have most := ipHlen_le pep
  have origin : packoff pep = 0 := by
    have whole := datagram.whole
    rw [isFragment, Bool.or_eq_false_iff, decide_eq_false_iff_not, not_not] at whole
    rw [packoff, whole.1]
    rfl
  have loop := fragmentLoop_sliced datagram buffers (fragmentRoom niMtu pep)
    (by unfold fragmentRoom; omega) (by unfold fragmentRoom; omega)
    ((ipLen pep - ipHlen pep).toNat + 1) 0 rfl le_rfl (by omega)
    (fun _ => by unfold fragmentRoom; omega) (by push_cast; omega)
  rw [sub_zero] at loop
  unfold ipputp
  rw [if_neg (by omega), datagram.free, if_neg Bool.false_ne_true]
  simp only [origin]
  exact loop

end MvsXinu.Ip
