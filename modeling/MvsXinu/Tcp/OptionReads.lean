import MvsXinu.Tcp.Input

/-!
# Reading and writing options

`tcpopts` reads the octets behind the fixed header through a pointer. Every read is recorded
here beside the loop, as an index into `tcp_data`; the octets at the indices that are recorded
decide everything that the loop does. `tcprmss` writes the one option that is ever sent.
-/

namespace MvsXinu.Tcp

open MvsXinu.SeqSpace

set_option autoImplicit false

/-! ## What the loop reads -/

/-- The length octet, and the value that a SYN's option has. -/
def tcpsmssreads (inbound : Inbound) (popt : Nat) : List Nat :=
  let len := (inbound.option (popt + 1)).toNat
  (popt + 1) ::
    if !inbound.segment.code.syn then []
    else if len = 3 then [popt + 2]
    else if len = 4 then [popt + 2, popt + 3]
    else if len = 6 then [popt + 2, popt + 3, popt + 4, popt + 5]
    else []

def tcpoptionreads (inbound : Inbound) (popt : Nat) : List Nat :=
  let kind := inbound.option popt
  popt ::
    if kind = 1 then []
    else if kind = 0 then []
    else if kind = 2 then tcpsmssreads inbound popt
    else [popt + 1]

/-- The loop of `tcpopts`, which reads the kind of the next option before it compares the place
with the end. -/
def tcpoptsread (inbound : Inbound) (popend : Nat) : Nat → Nat → Tcb → Option (List Nat × Tcb)
  | 0, _, _ => none
  | fuel + 1, popt, tcb =>
      let next := tcpoption tcb inbound popend popt
      let reads := tcpoptionreads inbound popt ++ [next.1]
      if inbound.option next.1 ≠ 0 ∧ next.1 < popend then
        (tcpoptsread inbound popend fuel next.1 next.2).map fun later =>
          (reads ++ later.1, later.2)
      else some (reads, next.2)

/-- Without options `tcpopts` returns at once. -/
def tcpoptsreads (tcb : Tcb) (inbound : Inbound) (fuel : Nat) : Option (List Nat) :=
  if inbound.segment.hlen = tcpmhlen then some []
  else (tcpoptsread inbound (inbound.segment.hlen - tcpmhlen) fuel 0 tcb).map Prod.fst

/-- The loop ends, all that it has read lies before the end of the header, and the length of
the data that are moved is not negative. -/
structure OptionsInBounds (tcb : Tcb) (inbound : Inbound) : Prop where
  inside : ∃ fuel reads, tcpoptsreads tcb inbound fuel = some reads ∧
    ∀ index ∈ reads, tcpmhlen + index < inbound.segment.hlen
  remaining : 0 ≤ inbound.segment.datalen

section Reads

variable {tcb : Tcb} {inbound other : Inbound} {popend popt : Nat}

theorem tcpoptsread_tcb (fuel popt : Nat) (tcb : Tcb) :
    (tcpoptsread inbound popend fuel popt tcb).map Prod.snd =
      tcpoptsloop inbound popend fuel popt tcb := by
  induction fuel generalizing popt tcb with
  | zero => rfl
  | succ fuel ih =>
      rw [tcpoptsread, tcpoptsloop]
      split
      · rw [Option.map_map, ← ih]
        rfl
      · rfl

theorem tcpsmss_congr (tcb : Tcb) (syn : inbound.segment.code.syn = other.segment.code.syn)
    (same : ∀ index ∈ tcpsmssreads inbound popt, inbound.option index = other.option index) :
    tcpsmssreads inbound popt = tcpsmssreads other popt ∧
      tcpsmss tcb inbound popt = tcpsmss tcb other popt := by
  have length : inbound.option (popt + 1) = other.option (popt + 1) := by
    apply same
    exact List.mem_cons_self
  constructor
  · simp only [tcpsmssreads, length, syn]
  · cases isSyn : inbound.segment.code.syn with
    | false =>
        simp only [tcpsmss, ← syn, isSyn, length, Bool.not_false, if_true]
    | true =>
        simp only [tcpsmssreads, isSyn, Bool.not_true, Bool.false_eq_true, if_false] at same
        simp only [tcpsmss, ← syn, isSyn, ← length, Bool.not_true, Bool.false_eq_true, if_false]
        by_cases three : (inbound.option (popt + 1)).toNat = 3
        · have value : inbound.option (popt + 2) = other.option (popt + 2) := by
            apply same
            simp [three]
          simp only [three, if_true, Nat.add_zero, value]
        · by_cases four : (inbound.option (popt + 1)).toNat = 4
          · have first : inbound.option (popt + 2) = other.option (popt + 2) := by
              apply same
              simp [four]
            have second : inbound.option (popt + 3) = other.option (popt + 3) := by
              apply same
              simp [four]
            simp only [four, Nat.reduceEqDiff, if_false, if_true, Nat.add_zero, first, second]
          · by_cases six : (inbound.option (popt + 1)).toNat = 6
            · have octets : ∀ index < 4,
                  inbound.option (popt + 2 + index) = other.option (popt + 2 + index) := by
                intro index small
                apply same
                simp only [six, Nat.reduceEqDiff, if_false, if_true, List.mem_cons,
                  List.not_mem_nil, or_false]
                omega
              simp only [six, Nat.reduceEqDiff, if_false, if_true, octets 0 (by omega),
                octets 1 (by omega), octets 2 (by omega), octets 3 (by omega)]
            · simp only [three, four, six, if_false]

theorem tcpoption_congr (tcb : Tcb) (popend : Nat)
    (syn : inbound.segment.code.syn = other.segment.code.syn)
    (same : ∀ index ∈ tcpoptionreads inbound popt, inbound.option index = other.option index) :
    tcpoptionreads inbound popt = tcpoptionreads other popt ∧
      tcpoption tcb inbound popend popt = tcpoption tcb other popend popt := by
  have kind : inbound.option popt = other.option popt := by
    apply same
    exact List.mem_cons_self
  simp only [tcpoptionreads, tcpoption, ← kind]
  by_cases noop : inbound.option popt = 1
  · simp only [if_pos noop, and_self]
  · by_cases eool : inbound.option popt = 0
    · simp only [if_neg noop, if_pos eool, and_self]
    · by_cases mss : inbound.option popt = 2
      · have value : ∀ index ∈ tcpsmssreads inbound popt,
            inbound.option index = other.option index := by
          intro index member
          apply same
          simp only [tcpoptionreads, mss]
          exact List.mem_cons_of_mem _ member
        rcases tcpsmss_congr tcb syn value with ⟨reads, taken⟩
        simp only [if_neg noop, if_neg eool, if_pos mss, reads, taken, and_self]
      · have length : inbound.option (popt + 1) = other.option (popt + 1) := by
          apply same
          simp only [tcpoptionreads, if_neg noop, if_neg eool, if_neg mss]
          exact List.mem_cons_of_mem _ (List.mem_singleton_self _)
        simp only [if_neg noop, if_neg eool, if_neg mss, length, and_self]

/-- The octets that are read decide what the loop does. -/
theorem tcpoptsread_congr (syn : inbound.segment.code.syn = other.segment.code.syn)
    (fuel popt : Nat) (tcb : Tcb) (result : List Nat × Tcb)
    (ends : tcpoptsread inbound popend fuel popt tcb = some result)
    (same : ∀ index ∈ result.1, inbound.option index = other.option index) :
    tcpoptsread other popend fuel popt tcb = some result := by
  induction fuel generalizing popt tcb result with
  | zero => cases ends
  | succ fuel ih =>
      rw [tcpoptsread] at ends ⊢
      have known : ∀ later : List Nat, result.1 =
          tcpoptionreads inbound popt ++ [(tcpoption tcb inbound popend popt).1] ++ later →
          tcpoptionreads inbound popt = tcpoptionreads other popt ∧
            tcpoption tcb inbound popend popt = tcpoption tcb other popend popt ∧
            inbound.option (tcpoption tcb inbound popend popt).1 =
              other.option (tcpoption tcb inbound popend popt).1 := by
        intro later shape
        rw [shape] at same
        have here : ∀ index ∈ tcpoptionreads inbound popt,
            inbound.option index = other.option index := by
          intro index member
          apply same
          simp [member]
        rcases tcpoption_congr tcb popend syn here with ⟨reads, taken⟩
        refine ⟨reads, taken, ?_⟩
        apply same
        simp
      split at ends
      · rename_i goesOn
        cases later : tcpoptsread inbound popend fuel (tcpoption tcb inbound popend popt).1
            (tcpoption tcb inbound popend popt).2 with
        | none =>
            rw [later] at ends
            cases ends
        | some rest =>
            rw [later, Option.map_some, Option.some.injEq] at ends
            rcases known rest.1 (by rw [← ends]) with ⟨reads, taken, next⟩
            have tail := ih _ _ rest later (by
              intro index member
              apply same
              rw [← ends]
              exact List.mem_append_right _ member)
            rw [← taken, ← next, if_pos goesOn, tail, Option.map_some, ← reads, ends]
      · rename_i stops
        rw [Option.some.injEq] at ends
        rcases known [] (by rw [← ends, List.append_nil]) with ⟨reads, taken, next⟩
        rw [← taken, ← next, if_neg stops, ← reads, ends]

/-- The loop stops behind one option, or goes on at the next. -/
theorem tcpoptsread_cases {fuel : Nat} {result : List Nat × Tcb}
    (ends : tcpoptsread inbound popend (fuel + 1) popt tcb = some result) :
    ∃ later : List Nat,
      result.1 = tcpoptionreads inbound popt ++ [(tcpoption tcb inbound popend popt).1] ++ later ∧
        ((inbound.option (tcpoption tcb inbound popend popt).1 = 0 ∨
            popend ≤ (tcpoption tcb inbound popend popt).1) ∨
          ∃ read, tcpoptsread inbound popend fuel (tcpoption tcb inbound popend popt).1
            (tcpoption tcb inbound popend popt).2 = some read ∧ read.1 = later) := by
  rw [tcpoptsread] at ends
  split at ends
  · cases rest : tcpoptsread inbound popend fuel (tcpoption tcb inbound popend popt).1
        (tcpoption tcb inbound popend popt).2 with
    | none =>
        rw [rest] at ends
        cases ends
    | some read =>
        rw [rest, Option.map_some, Option.some.injEq] at ends
        exact ⟨read.1, by rw [← ends], Or.inr ⟨read, rfl, rfl⟩⟩
  · rename_i stops
    rw [Option.some.injEq] at ends
    refine ⟨[], by rw [← ends, List.append_nil], Or.inl ?_⟩
    by_cases isEool : inbound.option (tcpoption tcb inbound popend popt).1 = 0
    · exact Or.inl isEool
    · right
      by_contra before
      exact stops ⟨isEool, by omega⟩

theorem place_of_noop (noop : inbound.option popt = 1) :
    (tcpoption tcb inbound popend popt).1 = popt + 1 := by
  simp only [tcpoption, if_pos noop]

theorem place_of_mss (mss : inbound.option popt = 2) :
    (tcpoption tcb inbound popend popt).1 = popt + (inbound.option (popt + 1)).toNat := by
  have noop : ¬ (2 : Octet) = 1 := by decide
  have eool : ¬ (2 : Octet) = 0 := by decide
  simp only [tcpoption, mss, if_neg noop, if_neg eool, if_true, tcpsmss]
  split <;> rfl

theorem place_of_other (noop : inbound.option popt ≠ 1) (eool : inbound.option popt ≠ 0)
    (mss : inbound.option popt ≠ 2) :
    (tcpoption tcb inbound popend popt).1 =
      if 0 < (inbound.option (popt + 1)).toNat ∧
          ((inbound.option (popt + 1)).toNat : Int) ≤ (popend : Int) - (popt + 1) - 1 then
        popt + (inbound.option (popt + 1)).toNat
      else popend := by
  simp only [tcpoption, if_neg noop, if_neg eool, if_neg mss]

/-- The length octet is read, except of the options of one octet. -/
theorem reads_length (noop : inbound.option popt ≠ 1) (eool : inbound.option popt ≠ 0) :
    popt + 1 ∈ tcpoptionreads inbound popt := by
  simp only [tcpoptionreads, if_neg noop, if_neg eool]
  split
  · exact List.mem_cons_of_mem _ List.mem_cons_self
  · exact List.mem_cons_of_mem _ (List.mem_singleton_self _)

end Reads

/-! ## Options that end inside of the header -/

/-- The option octets of the header. -/
def Segment.options (segment : Segment) : List Octet :=
  segment.tcpData.take (segment.hlen - tcpmhlen)

/-- Options up to an end-of-list octet. Behind an option of unknown kind there are two octets
or more, and no length is 0. -/
inductive OptionList : List Octet → Prop where
  | eool (rest : List Octet) : OptionList (0 :: rest)
  | noop {rest : List Octet} (later : OptionList rest) : OptionList (1 :: rest)
  | mss {len : Octet} {rest : List Octet} (positive : 0 < len.toNat)
      (later : OptionList ((2 :: len :: rest).drop len.toNat)) : OptionList (2 :: len :: rest)
  | other {kind len : Octet} {rest : List Octet} (unknown : kind ≠ 0 ∧ kind ≠ 1 ∧ kind ≠ 2)
      (positive : 0 < len.toNat) (room : len.toNat ≤ rest.length)
      (later : OptionList ((kind :: len :: rest).drop len.toNat)) :
      OptionList (kind :: len :: rest)

/-- No options, or a header that lies within the packet and has an end-of-list octet where an
option is expected. -/
def OptionsEnd (segment : Segment) : Prop :=
  segment.hlen = tcpmhlen ∨
    segment.hlen ≤ tcpmhlen + segment.tcpData.length ∧ OptionList segment.options

section Bounds

variable {tcb : Tcb} {inbound : Inbound} {popt : Nat}

theorem option_of_drop {kind : Octet} {rest : List Octet}
    (shape : inbound.segment.options.drop popt = kind :: rest) :
    popt < inbound.segment.hlen - tcpmhlen ∧ inbound.option popt = kind ∧
      inbound.segment.options.drop (popt + 1) = rest := by
  have isThere : popt < inbound.segment.options.length := by
    have nonempty : (inbound.segment.options.drop popt).length ≠ 0 := by
      rw [shape]
      exact Nat.succ_ne_zero _
    rw [List.length_drop] at nonempty
    omega
  rw [List.drop_eq_getElem_cons isThere, List.cons.injEq] at shape
  have size : inbound.segment.options.length =
      min (inbound.segment.hlen - tcpmhlen) inbound.segment.tcpData.length := List.length_take
  refine ⟨by omega, ?_, shape.2⟩
  rw [← shape.1, Inbound.option, List.getD_eq_getElem?_getD,
    List.getElem?_eq_getElem (by omega), Option.getD_some]
  exact List.getElem_take.symm

theorem drop_of_option (within : inbound.segment.hlen ≤ tcpmhlen + inbound.segment.tcpData.length)
    (isThere : popt < inbound.segment.hlen - tcpmhlen) :
    inbound.segment.options.drop popt =
      inbound.option popt :: inbound.segment.options.drop (popt + 1) := by
  have size : inbound.segment.options.length =
      min (inbound.segment.hlen - tcpmhlen) inbound.segment.tcpData.length := List.length_take
  have inPacket : popt < inbound.segment.tcpData.length := by omega
  rw [List.drop_eq_getElem_cons (by omega), Inbound.option, List.getD_eq_getElem?_getD,
    List.getElem?_eq_getElem inPacket, Option.getD_some]
  congr 1
  exact List.getElem_take

theorem options_length (within : inbound.segment.hlen ≤ tcpmhlen + inbound.segment.tcpData.length) :
    inbound.segment.options.length = inbound.segment.hlen - tcpmhlen := by
  rw [Segment.options, List.length_take]
  omega

/-- One option in front of a list, at the place from which the loop goes on to it. -/
theorem list_of_option (within : inbound.segment.hlen ≤ tcpmhlen + inbound.segment.tcpData.length)
    {next : Nat}
    (place : (tcpoption tcb inbound (inbound.segment.hlen - tcpmhlen) popt).1 = next)
    (reads : ∀ index ∈ tcpoptionreads inbound popt, index < inbound.segment.hlen - tcpmhlen)
    (before : next < inbound.segment.hlen - tcpmhlen)
    (list : OptionList (inbound.segment.options.drop next)) :
    OptionList (inbound.segment.options.drop popt) := by
  have here := reads popt List.mem_cons_self
  by_cases noop : inbound.option popt = 1
  · rw [place_of_noop noop] at place
    rw [drop_of_option within here, noop, place]
    exact OptionList.noop list
  · by_cases eool : inbound.option popt = 0
    · rw [drop_of_option within here, eool]
      exact OptionList.eool _
    · have length := reads (popt + 1) (reads_length noop eool)
      by_cases mss : inbound.option popt = 2
      · rw [place_of_mss mss] at place
        by_cases positive : 0 < (inbound.option (popt + 1)).toNat
        · rw [← place, ← List.drop_drop, drop_of_option within here,
            drop_of_option within length, mss] at list
          rw [drop_of_option within here, drop_of_option within length, mss]
          exact OptionList.mss positive list
        · rw [← place, Nat.eq_zero_of_not_pos positive] at list
          exact list
      · rw [place_of_other noop eool mss] at place
        split at place
        · rename_i fits
          rw [← place, ← List.drop_drop, drop_of_option within here,
            drop_of_option within length] at list
          rw [drop_of_option within here, drop_of_option within length]
          apply OptionList.other ⟨eool, noop, mss⟩ fits.1 _ list
          rw [List.length_drop, options_length within]
          omega
        · omega

/-- A run of the loop that stays before the end has met an option list. -/
theorem list_of_inside (within : inbound.segment.hlen ≤ tcpmhlen + inbound.segment.tcpData.length)
    (fuel popt : Nat) (tcb : Tcb) (result : List Nat × Tcb)
    (ends : tcpoptsread inbound (inbound.segment.hlen - tcpmhlen) fuel popt tcb = some result)
    (inside : ∀ index ∈ result.1, index < inbound.segment.hlen - tcpmhlen) :
    OptionList (inbound.segment.options.drop popt) := by
  induction fuel generalizing popt tcb result with
  | zero => cases ends
  | succ fuel ih =>
      rcases tcpoptsread_cases ends with ⟨later, shape, stops⟩
      rw [shape] at inside
      have reads : ∀ index ∈ tcpoptionreads inbound popt,
          index < inbound.segment.hlen - tcpmhlen := by
        intro index member
        apply inside
        simp [member]
      have before : (tcpoption tcb inbound (inbound.segment.hlen - tcpmhlen) popt).1 <
          inbound.segment.hlen - tcpmhlen := by
        apply inside
        simp
      apply list_of_option within rfl reads before
      rcases stops with (isEool | behind) | ⟨read, rest, same⟩
      · rw [drop_of_option within before, isEool]
        exact OptionList.eool _
      · omega
      · apply ih _ _ read rest
        intro index member
        apply inside
        rw [same] at member
        exact List.mem_append_right _ member

/-- The loop ends, and has read nothing at or beyond the end of the header. -/
def EndsInside (inbound : Inbound) (popt : Nat) (tcb : Tcb) : Prop :=
  ∃ fuel result, tcpoptsread inbound (inbound.segment.hlen - tcpmhlen) fuel popt tcb = some result ∧
    ∀ index ∈ result.1, index < inbound.segment.hlen - tcpmhlen

theorem ends_of_next {next : Nat}
    (place : (tcpoption tcb inbound (inbound.segment.hlen - tcpmhlen) popt).1 = next)
    (reads : ∀ index ∈ tcpoptionreads inbound popt, index < inbound.segment.hlen - tcpmhlen)
    (before : next < inbound.segment.hlen - tcpmhlen)
    (later : ∀ tcb, EndsInside inbound next tcb) : EndsInside inbound popt tcb := by
  have known : ∀ index ∈ tcpoptionreads inbound popt ++ [next],
      index < inbound.segment.hlen - tcpmhlen := by
    intro index member
    rcases List.mem_append.mp member with here | last
    · exact reads index here
    · rw [List.mem_singleton.mp last]
      exact before
  by_cases isEool : inbound.option next = 0
  · refine ⟨1, (tcpoptionreads inbound popt ++ [next],
      (tcpoption tcb inbound (inbound.segment.hlen - tcpmhlen) popt).2), ?_, known⟩
    rw [tcpoptsread, place]
    apply if_neg
    intro goesOn
    exact goesOn.1 isEool
  · rcases later (tcpoption tcb inbound (inbound.segment.hlen - tcpmhlen) popt).2 with
      ⟨fuel, rest, ends, inside⟩
    refine ⟨fuel + 1, (tcpoptionreads inbound popt ++ [next] ++ rest.1, rest.2), ?_, ?_⟩
    · rw [tcpoptsread, place, if_pos ⟨isEool, before⟩, ends, Option.map_some]
    · intro index member
      rcases List.mem_append.mp member with here | behind
      · exact known index here
      · exact inside index behind

theorem OptionList.ne_nil {octets : List Octet} (list : OptionList octets) : octets ≠ [] := by
  intro empty
  cases list <;> cases empty

theorem before_of_list {place : Nat} (list : OptionList (inbound.segment.options.drop place)) :
    place < inbound.segment.hlen - tcpmhlen := by
  cases shape : inbound.segment.options.drop place with
  | nil => exact absurd shape list.ne_nil
  | cons kind rest => exact (option_of_drop shape).1

/-- An option list is read to its end. -/
theorem ends_of_list {octets : List Octet} (list : OptionList octets) (popt : Nat)
    (shape : inbound.segment.options.drop popt = octets) (tcb : Tcb) :
    EndsInside inbound popt tcb := by
  induction list generalizing popt tcb with
  | eool rest =>
      rcases option_of_drop shape with ⟨here, isEool, _⟩
      have noop : ¬ (0 : Octet) = 1 := by decide
      refine ⟨1, ([popt, popt], tcb), ?_, ?_⟩
      · simp only [tcpoptsread, tcpoption, tcpoptionreads, isEool, if_neg noop, if_true, ne_eq,
          not_true_eq_false, false_and, if_false, List.cons_append, List.nil_append]
      · intro index member
        simp only [List.mem_cons, List.not_mem_nil, or_false, or_self] at member
        omega
  | noop later ih =>
      rcases option_of_drop shape with ⟨here, isNoop, behind⟩
      have before : popt + 1 < inbound.segment.hlen - tcpmhlen := by
        apply before_of_list
        rw [behind]
        exact later
      apply ends_of_next (place_of_noop isNoop) _ before (ih (popt + 1) behind)
      intro index member
      simp only [tcpoptionreads, isNoop, if_true, List.mem_singleton] at member
      omega
  | @mss len rest positive later ih =>
      rcases option_of_drop shape with ⟨here, isMss, behind⟩
      rcases option_of_drop behind with ⟨_, isLen, _⟩
      have next : inbound.segment.options.drop (popt + len.toNat) =
          ((2 :: len :: rest).drop len.toNat) := by
        rw [← List.drop_drop, shape]
      have before : popt + len.toNat < inbound.segment.hlen - tcpmhlen := by
        apply before_of_list
        rw [next]
        exact later
      have place : (tcpoption tcb inbound (inbound.segment.hlen - tcpmhlen) popt).1 =
          popt + len.toNat := by
        rw [place_of_mss isMss, isLen]
      apply ends_of_next place _ before (ih (popt + len.toNat) next)
      intro index member
      have noop : ¬ (2 : Octet) = 1 := by decide
      have eool : ¬ (2 : Octet) = 0 := by decide
      simp only [tcpoptionreads, tcpsmssreads, isMss, isLen, if_neg noop, if_neg eool, if_true,
        List.mem_cons] at member
      rcases member with isHere | isLength | isValue
      · omega
      · omega
      · split_ifs at isValue <;> simp only [List.mem_cons, List.not_mem_nil, or_false] at isValue
        · omega
        · omega
        · omega
  | @other kind len rest unknown positive room later ih =>
      rcases option_of_drop shape with ⟨here, isKind, behind⟩
      rcases option_of_drop behind with ⟨inside, isLen, _⟩
      have next : inbound.segment.options.drop (popt + len.toNat) =
          ((kind :: len :: rest).drop len.toNat) := by
        rw [← List.drop_drop, shape]
      have before : popt + len.toNat < inbound.segment.hlen - tcpmhlen := by
        apply before_of_list
        rw [next]
        exact later
      have size : (inbound.segment.options.drop popt).length = rest.length + 2 := by
        rw [shape]
        rfl
      have bound : inbound.segment.options.length ≤ inbound.segment.hlen - tcpmhlen :=
        List.length_take_le _ _
      rw [List.length_drop] at size
      have place : (tcpoption tcb inbound (inbound.segment.hlen - tcpmhlen) popt).1 =
          popt + len.toNat := by
        rw [place_of_other (isKind ▸ unknown.2.1) (isKind ▸ unknown.1) (isKind ▸ unknown.2.2),
          isLen, if_pos ⟨positive, by omega⟩]
      apply ends_of_next place _ before (ih (popt + len.toNat) next)
      intro index member
      simp only [tcpoptionreads, isKind, if_neg unknown.1, if_neg unknown.2.1, if_neg unknown.2.2,
        List.mem_cons, List.not_mem_nil, or_false] at member
      omega

theorem option_reads_in_bounds_iff (tcb : Tcb) (inbound : Inbound) :
    OptionsInBounds tcb inbound ↔ OptionsEnd inbound.segment := by
  constructor
  · intro safe
    by_cases bare : inbound.segment.hlen = tcpmhlen
    · exact Or.inl bare
    · rcases safe.inside with ⟨fuel, reads, ran, inside⟩
      simp only [tcpoptsreads, if_neg bare] at ran
      cases ends : tcpoptsread inbound (inbound.segment.hlen - tcpmhlen) fuel 0 tcb with
      | none =>
          rw [ends] at ran
          cases ran
      | some result =>
          rw [ends, Option.map_some, Option.some.injEq] at ran
          have within : inbound.segment.hlen ≤ tcpmhlen + inbound.segment.tcpData.length := by
            have remaining := safe.remaining
            rw [Segment.datalen] at remaining
            omega
          refine Or.inr ⟨within, ?_⟩
          apply list_of_inside within fuel 0 tcb result ends
          intro index member
          rw [ran] at member
          have before := inside index member
          omega
  · intro condition
    constructor
    · by_cases bare : inbound.segment.hlen = tcpmhlen
      · refine ⟨0, [], if_pos bare, ?_⟩
        intro index member
        cases member
      · rcases condition with isBare | ⟨_, list⟩
        · exact absurd isBare bare
        · rcases ends_of_list list 0 rfl tcb with ⟨fuel, result, ends, inside⟩
          refine ⟨fuel, result.1, ?_, ?_⟩
          · rw [tcpoptsreads, if_neg bare, ends, Option.map_some]
          · intro index member
            have before := inside index member
            omega
    · rw [Segment.datalen]
      rcases condition with isBare | ⟨within, _⟩
      · omega
      · omega

end Bounds

/-- A SYN with an MSS option of length 0. -/
def emptyMss : Inbound :=
  { segment := { seq := 0, offset := 0x60, code := { syn := true }, tcpData := [2, 0, 0, 0] } }

/-- The loop looks at the same option for ever. -/
theorem empty_mss_loops (popend fuel : Nat) (later : 0 < popend) (tcb : Tcb) :
    tcpoptsread emptyMss popend fuel 0 tcb = none := by
  induction fuel generalizing tcb with
  | zero => rfl
  | succ fuel ih =>
      have isMss : emptyMss.option 0 = 2 := by decide
      have isLen : emptyMss.option 1 = 0 := by decide
      have place : (tcpoption tcb emptyMss popend 0).1 = 0 := by
        rw [place_of_mss isMss, isLen]
        rfl
      have notEool : (2 : Octet) ≠ 0 := by decide
      rw [tcpoptsread, place, isMss, if_pos ⟨notEool, later⟩, ih, Option.map_none]

theorem empty_mss_not_in_bounds :
    ¬ ∀ (tcb : Tcb) (inbound : Inbound), OptionsInBounds tcb inbound := by
  intro claimed
  rcases (claimed { state := .listen } emptyMss).inside with ⟨fuel, reads, ran, _⟩
  have header : emptyMss.segment.hlen = 24 := by decide
  have notBare : ¬ emptyMss.segment.hlen = tcpmhlen := by decide
  rw [tcpoptsreads, if_neg notBare, empty_mss_loops _ fuel (by rw [header]; decide)] at ran
  cases ran

/-! ## The option that is sent -/

/-- `tcp_offset` behind `tcprmss`. The 3 rounds the length up to words. -/
def tcprmssoffset (offset : BitVec 8) : BitVec 8 :=
  let hlen := ((offset &&& 0xf0) >>> 2).toNat + (2 + 2) + 3
  (BitVec.ofNat 8 (hlen <<< 2) &&& 0xf0) ||| (offset &&& 0xf)

/-- A segment with the fixed header only, behind `tcprmss`. -/
def Segment.withMss (segment : Segment) (tcb : Tcb) : Segment :=
  { segment with
    offset := tcprmssoffset segment.offset
    tcpData := tcprmss tcb ++ segment.tcpData }

/-- The peer's segment size is the one that was sent, the header ends with the option, and the
data are what they were. -/
structure MssRoundTrip (sender peer : Tcb) (inbound : Inbound) : Prop where
  header : (inbound.segment.withMss sender).hlen = tcpmhlen + (tcprmss sender).length
  taken : ∃ read,
    tcpopts peer { inbound with segment := inbound.segment.withMss sender } = some read ∧
    read.1.smss = sender.rmss ∧ read.2.segment.data = inbound.segment.tcpData

section RoundTrip

variable {sender peer : Tcb} {inbound : Inbound}

theorem mss_octets (small : sender.rmss.toNat ≤ 65535) :
    (((sender.rmss >>> 8).setWidth 8 ++ sender.rmss.setWidth 8 : BitVec 16).setWidth 32) =
      sender.rmss := by
  apply BitVec.eq_of_toNat_eq
  rw [BitVec.toNat_setWidth, BitVec.toNat_append, ← Nat.shiftLeft_add_eq_or_of_lt (BitVec.isLt _)]
  simp only [BitVec.toNat_setWidth, BitVec.toNat_ushiftRight, Nat.shiftRight_eq_div_pow,
    Nat.shiftLeft_eq]
  omega

example : tcprmssoffset tcphoffset = 0x60 := by decide

/-- The header ends with the option. -/
theorem with_mss_hlen (fixed : inbound.segment.offset = tcphoffset) :
    (inbound.segment.withMss sender).hlen = 24 := by
  simp only [Segment.hlen, Segment.withMss, fixed]
  decide

theorem with_mss_option {index : Nat} (small : index < 4) :
    ({ inbound with segment := inbound.segment.withMss sender } : Inbound).option index =
      (tcprmss sender).getD index 0 := by
  have size : (tcprmss sender).length = 4 := rfl
  rw [Inbound.option, Segment.withMss, List.getD_eq_getElem?_getD, List.getD_eq_getElem?_getD,
    List.getElem?_append_left (by omega), List.getElem?_eq_getElem (by omega), Option.getD_some,
    Option.getD_some]

/-- What the peer makes of the option: 20 octets less, or its own size if that is not more. -/
theorem with_mss_read (sender : Tcb) (syn : inbound.segment.code.syn = true)
    (fixed : inbound.segment.offset = tcphoffset) (small : sender.rmss.toNat ≤ 65535)
    (positive : peer.smss ≠ 0) :
    tcpopts peer { inbound with segment := inbound.segment.withMss sender } =
      some ({ peer with smss := wordMin (sender.rmss - BitVec.ofNat 32 tcpmhlen) peer.smss },
        { inbound with segment := (inbound.segment.withMss sender).bare }) := by
  set sent : Inbound := { inbound with segment := inbound.segment.withMss sender } with isSent
  have header : sent.segment.hlen = 24 := with_mss_hlen fixed
  have isMss : sent.option 0 = 2 := with_mss_option (by decide)
  have isLen : sent.option 1 = 4 := with_mss_option (by decide)
  have first : sent.option 2 = (sender.rmss >>> 8).setWidth 8 := with_mss_option (by decide)
  have second : sent.option 3 = sender.rmss.setWidth 8 := with_mss_option (by decide)
  have isSyn : sent.segment.code.syn = true := syn
  have value : tcpsmss peer sent 0 =
      (4, { peer with smss := wordMin (sender.rmss - BitVec.ofNat 32 tcpmhlen) peer.smss }) := by
    have octets := mss_octets small
    simp only [tcpsmss, isLen, isSyn, Nat.zero_add, Nat.add_zero, first, second, octets,
      if_neg positive]
    rfl
  have option : tcpoption peer sent 4 0 = (0 + 4, (tcpsmss peer sent 0).2) := by
    have noop : ¬ (2 : Octet) = 1 := by decide
    have eool : ¬ (2 : Octet) = 0 := by decide
    simp only [tcpoption, isMss, if_neg noop, if_neg eool, if_true, value]
  have notBare : ¬ sent.segment.hlen = tcpmhlen := by
    rw [header]
    decide
  have popend : sent.segment.hlen - tcpmhlen = 4 := by
    rw [header]
    rfl
  have stops : ¬ (sent.option (0 + 4) ≠ 0 ∧ 0 + 4 < 4) := by omega
  simp only [tcpopts, if_neg notBare, popend]
  rw [tcpoptsloop.eq_def]
  simp only [option, if_neg stops, Option.map_some, value]
  rfl

theorem mss_round_trip_iff (sender peer : Tcb) (inbound : Inbound)
    (syn : inbound.segment.code.syn = true) (fixed : inbound.segment.offset = tcphoffset)
    (positive : 1 ≤ sender.rmss.toNat) (small : sender.rmss.toNat ≤ 65535)
    (default : sender.rmss.toNat ≤ peer.smss.toNat) :
    MssRoundTrip sender peer inbound ↔ sender.rmss.toNat < tcpmhlen ∧ peer.smss = sender.rmss := by
  have nonzero : peer.smss ≠ 0 := by
    intro zero
    rw [zero] at default
    have none : (0 : Word).toNat = 0 := rfl
    omega
  have read := with_mss_read sender syn fixed small nonzero
  have header : BitVec.ofNat 32 tcpmhlen = (20 : Word) := rfl
  have minimum : (wordMin (sender.rmss - 20) peer.smss = sender.rmss) ↔
      sender.rmss.toNat < 20 ∧ peer.smss = sender.rmss := by
    rw [wordMin]
    constructor
    · intro same
      split at same
      · rename_i less
        bv_omega
      · rename_i notLess
        rw [same] at notLess
        refine ⟨?_, same⟩
        bv_omega
    · intro condition
      rcases condition with ⟨tiny, same⟩
      rw [same]
      apply if_neg
      bv_omega
  constructor
  · intro trip
    rcases trip.taken with ⟨result, ran, taken, _⟩
    rw [read, Option.some.injEq] at ran
    rw [← ran, header] at taken
    exact minimum.mp taken
  · intro condition
    constructor
    · exact with_mss_hlen fixed
    · refine ⟨_, read, ?_, ?_⟩
      · rw [header]
        exact minimum.mpr condition
      · have twentyFour : (inbound.segment.withMss sender).hlen = 24 := with_mss_hlen fixed
        have bare : (inbound.segment.withMss sender).bare.hlen = tcpmhlen := by
          show ((tcphoffset &&& 0xf0) >>> 2).toNat = tcpmhlen
          decide
        rw [Segment.data, bare, Nat.sub_self, List.drop_zero]
        show (inbound.segment.withMss sender).data = _
        rw [Segment.data, twentyFour]
        rfl

theorem tiny_mss_round_trip :
    MssRoundTrip { state := .synsent, rmss := 10 } { state := .synsent, smss := 10 }
      { segment := { seq := 0, code := { syn := true }, tcpData := [7] } } :=
  (mss_round_trip_iff _ _ _ rfl rfl (by decide) (by decide) (by decide)).mpr ⟨by decide, rfl⟩

theorem common_mss_not_round_trip :
    ¬ ∀ (sender peer : Tcb) (inbound : Inbound), inbound.segment.code.syn = true →
      inbound.segment.offset = tcphoffset → 1 ≤ sender.rmss.toNat → sender.rmss.toNat ≤ 65535 →
      sender.rmss.toNat ≤ peer.smss.toNat → MssRoundTrip sender peer inbound := by
  intro claimed
  have trip := claimed { state := .synsent, rmss := 536 } { state := .synsent, smss := 536 }
    { segment := { seq := 0, code := { syn := true } } } rfl rfl (by decide) (by decide) (by decide)
  rcases trip.taken with ⟨read, ran, taken, _⟩
  have nonzero : (536 : Word) ≠ 0 := by decide
  rw [with_mss_read _ rfl rfl (by decide) nonzero, Option.some.injEq] at ran
  rw [← ran] at taken
  revert taken
  decide

end RoundTrip

end MvsXinu.Tcp
