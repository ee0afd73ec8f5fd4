import Mathlib.Data.List.TakeWhile
import MvsXinu.Route.Table

/-!
# Addresses as text (`dot2ip.c`, `ip2dot.c`, `dnparse.c`)

A string is the list of its characters in front of the NUL. `dot2ip` takes whatever `atoi` makes
of the text in front of it and behind each of the next three dots, and `dnparse` looks only at
what is behind the first colon. `atoi` is that of the library; of a number that is no `int` the
library leaves the value open, and here it is cut to the octet like any other.
-/

namespace MvsXinu.AddressText

open MvsXinu.Routing

set_option autoImplicit false

def ipAlen : Nat := 4

def isspace (ch : Char) : Bool :=
  ch == ' ' || ch == '\t' || ch == '\n' || ch == '\r' || ch == '\x0b' || ch == '\x0c'

/-- The value of decimal digits. -/
def number (digits : List Char) : Nat := Nat.ofDigitChars 10 digits 0

def atoi (text : List Char) : Int :=
  match text.dropWhile isspace with
  | '-' :: rest => -(number (rest.takeWhile Char.isDigit) : Int)
  | '+' :: rest => number (rest.takeWhile Char.isDigit)
  | rest => number (rest.takeWhile Char.isDigit)

/-- From the first such character on; `none` is the null pointer. -/
def index (text : List Char) (ch : Char) : Option (List Char) :=
  match text.dropWhile fun other => other != ch with
  | [] => none
  | found => some found

/-- The octets that the loop of `dot2ip` stores in at most so many turns. -/
def dotOctets : Nat → List Char → List (BitVec 8)
  | 0, _ => []
  | _ + 1, [] => []
  | turns + 1, pdot =>
      BitVec.ofInt 8 (atoi pdot) ::
        match index pdot '.' with
        | none => []
        | some found => dotOctets turns found.tail

def dot2ip (pdot : List Char) : IPaddr :=
  let octets := dotOctets ipAlen pdot
  let octet := fun position => octets.getD position 0
  octet 0 ++ octet 1 ++ octet 2 ++ octet 3

/-- `%u` of an octet. -/
def decimal (octet : BitVec 8) : List Char := Nat.toDigits 10 octet.toNat

def ip2dot (ip : IPaddr) : List Char :=
  decimal (octetAt ip 0) ++ ((List.range (ipAlen - 1)).map fun position =>
    '.' :: decimal (octetAt ip (position + 1))).flatten

/-- The loop over the digits of the port: the accumulator, and what is left of the text. -/
def portLoop (i : BitVec 32) : List Char → BitVec 32 × List Char
  | [] => (i, [])
  | ch :: fspec =>
      if ch.isDigit then portLoop (10 * i + BitVec.ofNat 32 (ch.toNat - '0'.toNat)) fspec
      else (i, ch :: fspec)

/-- `none` is `ANYFPORT`. With what the call leaves in the address and the port; `false` is
`SYSERR`. -/
def dnparse (fspec : Option (List Char)) (paddr : IPaddr) (pport : BitVec 16) :
    Bool × IPaddr × BitVec 16 :=
  match fspec with
  | none => (true, paddr, 0)
  | some fspec =>
      let paddr := dot2ip fspec
      match index fspec ':' with
      | none => (false, paddr, pport)
      | some found =>
          let (i, rest) := portLoop 0 found.tail
          if i = 0 ∨ rest ≠ [] then (false, paddr, pport) else (true, paddr, i.setWidth 16)

/-! ## What a string is to mean -/

def Numeral (text : List Char) : Prop := text ≠ [] ∧ ∀ ch ∈ text, ch.isDigit = true

instance (text : List Char) : Decidable (Numeral text) :=
  inferInstanceAs (Decidable (_ ∧ ∀ ch ∈ _, _))

/-- The text is a numeral for the octet. -/
def Reads (text : List Char) (octet : BitVec 8) : Prop :=
  Numeral text ∧ number text = octet.toNat

/-- The string is `a.b.c.d:p` for this address and this port. -/
def Endpoint (fspec : List Char) (address : IPaddr) (port : BitVec 16) : Prop :=
  ∃ a b c d p, fspec = a ++ '.' :: (b ++ '.' :: (c ++ '.' :: (d ++ ':' :: p))) ∧
    Reads a (octetAt address 0) ∧ Reads b (octetAt address 1) ∧ Reads c (octetAt address 2) ∧
    Reads d (octetAt address 3) ∧ Numeral p ∧ number p = port.toNat ∧ port ≠ 0

def WellFormed (fspec : List Char) : Prop := ∃ address port, Endpoint fspec address port

/-- A well-formed string is accepted with its address and port, and no other one is accepted. -/
structure ParsedRight (fspec : List Char) : Prop where
  accepted : ∀ address port, Endpoint fspec address port →
    ∀ paddr pport, dnparse (some fspec) paddr pport = (true, address, port)
  refused : ¬ WellFormed fspec → ∀ paddr pport, (dnparse (some fspec) paddr pport).1 = false

/-- There is no colon, or what is behind the first one is no numeral or one for a multiple of
2^32. -/
def NoPort (fspec : List Char) : Prop :=
  ∀ found ∈ index fspec ':', ¬ Numeral found.tail ∨ number found.tail % 2 ^ 32 = 0

instance (fspec : List Char) : Decidable (NoPort fspec) :=
  inferInstanceAs (Decidable (∀ found ∈ _, _ ∨ _))

/-! ## Numerals -/

theorem Numeral.digits {text : List Char} (numeral : Numeral text) :
    ∀ ch ∈ text, ch.isDigit = true := numeral.2

theorem digit_apart {ch : Char} (digit : ch.isDigit = true) :
    isspace ch = false ∧ ch ≠ '-' ∧ ch ≠ '+' ∧ ch ≠ '.' ∧ ch ≠ ':' := by
  refine ⟨?_, ?_, ?_, ?_, ?_⟩
  · unfold isspace
    simp only [Bool.or_eq_false_iff, beq_eq_false_iff_ne]
    refine ⟨⟨⟨⟨⟨?_, ?_⟩, ?_⟩, ?_⟩, ?_⟩, ?_⟩
    all_goals
      rintro rfl
      revert digit
      decide
  all_goals
    rintro rfl
    revert digit
    decide

/-- What stands behind a numeral is no digit. -/
def Ends (behind : List Char) : Prop := ∀ ch ∈ behind.head?, ch.isDigit = false

theorem takeWhile_numeral {text behind : List Char} (digits : ∀ ch ∈ text, ch.isDigit = true)
    (ends : Ends behind) : (text ++ behind).takeWhile Char.isDigit = text := by
  induction text with
  | nil =>
      cases behind with
      | nil => rfl
      | cons ch rest =>
          have stop := ends ch rfl
          simp [stop]
  | cons ch text ih =>
      have digit := digits ch List.mem_cons_self
      rw [List.cons_append, List.takeWhile_cons, if_pos digit,
        ih fun other member => digits other (List.mem_cons_of_mem _ member)]

theorem atoi_numeral {text behind : List Char} (numeral : Numeral text) (ends : Ends behind) :
    atoi (text ++ behind) = number text := by
  obtain ⟨ch, rest, rfl⟩ := List.exists_cons_of_ne_nil numeral.1
  have digits := takeWhile_numeral numeral.digits ends
  obtain ⟨notSpace, notMinus, notPlus, _⟩ := digit_apart (numeral.digits ch List.mem_cons_self)
  have start : ((ch :: rest) ++ behind).dropWhile isspace = (ch :: rest) ++ behind := by
    rw [List.cons_append, List.dropWhile_cons]
    simp [notSpace]
  unfold atoi
  rw [start, List.cons_append] at *
  split
  · rename_i same
    exact absurd (List.cons.inj same).1 notMinus
  · rename_i same
    exact absurd (List.cons.inj same).1 notPlus
  · rw [digits]

theorem index_first {text behind : List Char} {ch : Char} (absent : ch ∉ text) :
    index (text ++ ch :: behind) ch = some (ch :: behind) := by
  have passed : (text ++ ch :: behind).dropWhile (fun other => other != ch) = ch :: behind := by
    induction text with
    | nil => simp
    | cons other text ih =>
        have apart : other ≠ ch := fun same => absent (same ▸ List.mem_cons_self)
        rw [List.cons_append, List.dropWhile_cons, if_pos (by simpa using apart)]
        exact ih fun member => absent (List.mem_cons_of_mem _ member)
  rw [index, passed]

theorem Numeral.absent {text : List Char} (numeral : Numeral text) {ch : Char}
    (mark : ch.isDigit = false) : ch ∉ text := by
  intro member
  rw [numeral.digits ch member] at mark
  cases mark

theorem ofInt_number {text : List Char} {octet : BitVec 8} (reads : Reads text octet) :
    BitVec.ofInt 8 (number text : Int) = octet := by
  rw [reads.2]
  apply BitVec.eq_of_toNat_eq
  simp

/-! ## Addresses -/

theorem octets_joined (ip : IPaddr) :
    octetAt ip 0 ++ octetAt ip 1 ++ octetAt ip 2 ++ octetAt ip 3 = ip := by
  apply BitVec.eq_of_getLsbD_eq
  intro bit inside
  have field : ∀ position offset, bit = 24 - 8 * position + offset → offset < 8 →
      (octetAt ip position).getLsbD offset = ip.getLsbD bit := by
    intro position offset same short
    rw [octetAt, BitVec.getLsbD_extractLsb', decide_eq_true short, Bool.true_and, same]
  simp only [BitVec.getLsbD_append]
  split_ifs with fourth third second
  · exact field 3 bit (by omega) fourth
  · exact field 2 (bit - 8) (by omega) third
  · exact field 1 (bit - 8 - 8) (by omega) second
  · exact field 0 (bit - 8 - 8 - 8) (by omega) (by omega)

theorem decimal_reads (octet : BitVec 8) : Reads (decimal octet) octet := by
  refine ⟨⟨Nat.toDigits_ne_nil, fun ch member => ?_⟩, Nat.ofDigitChars_ten_toDigits⟩
  exact Nat.isDigit_of_mem_toDigits (by omega) (le_refl 10) member

theorem dotOctets_head (turns : Nat) {text behind : List Char} {octet : BitVec 8}
    (reads : Reads text octet) (ends : Ends behind) :
    ∃ later, dotOctets (turns + 1) (text ++ behind) = octet :: later ∧
      ∀ rest, behind = '.' :: rest → later = dotOctets turns rest := by
  obtain ⟨ch, front, shape⟩ := List.exists_cons_of_ne_nil reads.1.1
  have value := (congrArg (BitVec.ofInt 8) (atoi_numeral reads.1 ends)).trans (ofInt_number reads)
  have next : ∀ rest, behind = '.' :: rest → index (text ++ behind) '.' = some ('.' :: rest) := by
    rintro rest rfl
    exact index_first (reads.1.absent (by decide))
  rw [shape, List.cons_append] at value next ⊢
  rw [dotOctets, value]
  · refine ⟨_, rfl, fun rest same => ?_⟩
    rw [next rest same]
    rfl
  · exact List.cons_ne_nil _ _

theorem ends_mark {ch : Char} (mark : ch.isDigit = false) (rest : List Char) :
    Ends (ch :: rest) := by
  intro other head
  rw [← Option.some.inj head]
  exact mark

/-- Four numerals with dots between them, whatever follows. -/
theorem dot2ip_text {a b c d behind : List Char} {address : IPaddr}
    (readsA : Reads a (octetAt address 0)) (readsB : Reads b (octetAt address 1))
    (readsC : Reads c (octetAt address 2)) (readsD : Reads d (octetAt address 3))
    (ends : Ends behind) :
    dot2ip (a ++ '.' :: (b ++ '.' :: (c ++ '.' :: (d ++ behind)))) = address := by
  have dot : ∀ rest, Ends ('.' :: rest) := ends_mark (by decide)
  obtain ⟨_, first, afterFirst⟩ := dotOctets_head 3 readsA (dot (b ++ '.' :: (c ++ '.' ::
    (d ++ behind))))
  obtain ⟨_, second, afterSecond⟩ := dotOctets_head 2 readsB (dot (c ++ '.' :: (d ++ behind)))
  obtain ⟨_, third, afterThird⟩ := dotOctets_head 1 readsC (dot (d ++ behind))
  obtain ⟨_, fourth, _⟩ := dotOctets_head 0 readsD ends
  unfold dot2ip ipAlen
  rw [first, afterFirst _ rfl, second, afterSecond _ rfl, third, afterThird _ rfl, fourth]
  exact octets_joined address

theorem dot2ip_ip2dot (ip : IPaddr) : dot2ip (ip2dot ip) = ip := by
  have text : ip2dot ip = decimal (octetAt ip 0) ++ '.' :: (decimal (octetAt ip 1) ++
      '.' :: (decimal (octetAt ip 2) ++ '.' :: (decimal (octetAt ip 3) ++ []))) := by
    simp [ip2dot, ipAlen, List.range_succ]
  rw [text]
  apply dot2ip_text (decimal_reads _) (decimal_reads _) (decimal_reads _) (decimal_reads _)
  intro ch none
  cases none

/-! ## Ports -/

theorem portLoop_eq (fspec : List Char) (i : Nat) :
    portLoop (BitVec.ofNat 32 i) fspec =
      (BitVec.ofNat 32 (Nat.ofDigitChars 10 (fspec.takeWhile Char.isDigit) i),
        fspec.dropWhile Char.isDigit) := by
  induction fspec generalizing i with
  | nil => rfl
  | cons ch fspec ih =>
      rw [portLoop, List.takeWhile_cons, List.dropWhile_cons]
      cases digit : ch.isDigit with
      | false => rfl
      | true =>
          have next : 10 * BitVec.ofNat 32 i + BitVec.ofNat 32 (ch.toNat - '0'.toNat) =
              BitVec.ofNat 32 (10 * i + (ch.toNat - '0'.toNat)) := by
            apply BitVec.eq_of_toNat_eq
            simp [BitVec.toNat_mul, BitVec.toNat_add]
          simp only [if_true]
          rw [next, ih, Nat.ofDigitChars_cons]

theorem numeral_iff (text : List Char) :
    Numeral text ↔ text ≠ [] ∧ text.dropWhile Char.isDigit = [] := by
  rw [Numeral, List.dropWhile_eq_nil_iff]

/-- What `dnparse` makes of a string with a colon. -/
theorem dnparse_colon {fspec found : List Char} (colon : index fspec ':' = some found)
    (paddr : IPaddr) (pport : BitVec 16) :
    dnparse (some fspec) paddr pport =
      if Numeral found.tail ∧ number found.tail % 2 ^ 32 ≠ 0 then
        (true, dot2ip fspec, BitVec.ofNat 16 (number found.tail))
      else (false, dot2ip fspec, pport) := by
  have loop : portLoop 0 found.tail = _ := portLoop_eq found.tail 0
  have zero : ∀ value : Nat, BitVec.ofNat 32 value = 0 ↔ value % 2 ^ 32 = 0 := by
    intro value
    rw [← BitVec.toNat_inj, BitVec.toNat_ofNat]
    rfl
  unfold dnparse
  simp only [colon]
  rw [loop]
  by_cases digits : found.tail.dropWhile Char.isDigit = []
  · have whole : found.tail.takeWhile Char.isDigit = found.tail := by
      have parts : found.tail.takeWhile Char.isDigit ++ found.tail.dropWhile Char.isDigit =
          found.tail := List.takeWhile_append_dropWhile
      rwa [digits, List.append_nil] at parts
    have cut : (BitVec.ofNat 32 (number found.tail)).setWidth 16 =
        BitVec.ofNat 16 (number found.tail) := by
      apply BitVec.eq_of_toNat_eq
      rw [BitVec.toNat_setWidth, BitVec.toNat_ofNat, BitVec.toNat_ofNat]
      omega
    have value : Nat.ofDigitChars 10 found.tail 0 = number found.tail := rfl
    rw [whole, digits, value]
    by_cases multiple : number found.tail % 2 ^ 32 = 0
    · rw [if_pos (Or.inl ((zero _).mpr multiple)), if_neg fun both => both.2 multiple]
    · have nonempty : found.tail ≠ [] := by
        intro empty
        rw [empty] at multiple
        exact multiple rfl
      have accepted : ¬ (BitVec.ofNat 32 (number found.tail) = 0 ∨ ([] : List Char) ≠ []) := by
        rintro (none | some)
        · exact multiple ((zero _).mp none)
        · exact some rfl
      rw [if_neg accepted, if_pos ⟨(numeral_iff _).mpr ⟨nonempty, digits⟩, multiple⟩, cut]
  · rw [if_pos (Or.inr digits), if_neg fun numeral => digits ((numeral_iff _).mp numeral.1).2]

theorem endpoint_parsed {fspec : List Char} {address : IPaddr} {port : BitVec 16}
    (endpoint : Endpoint fspec address port) (paddr : IPaddr) (pport : BitVec 16) :
    dnparse (some fspec) paddr pport = (true, address, port) := by
  obtain ⟨a, b, c, d, p, rfl, readsA, readsB, readsC, readsD, numeral, value, positive⟩ := endpoint
  have colon : index (a ++ '.' :: (b ++ '.' :: (c ++ '.' :: (d ++ ':' :: p)))) ':' =
      some (':' :: p) := by
    have absent : ':' ∉ a ++ '.' :: (b ++ '.' :: (c ++ '.' :: d)) := by
      have inA : ':' ∉ a := readsA.1.absent (by decide)
      have inB : ':' ∉ b := readsB.1.absent (by decide)
      have inC : ':' ∉ c := readsC.1.absent (by decide)
      have inD : ':' ∉ d := readsD.1.absent (by decide)
      simp [inA, inB, inC, inD]
    have first : index ((a ++ '.' :: (b ++ '.' :: (c ++ '.' :: d))) ++ ':' :: p) ':' =
        some (':' :: p) := index_first absent
    simpa [List.append_assoc] using first
  have short := port.isLt
  have notZero : port.toNat ≠ 0 := by
    intro zero
    exact positive (BitVec.eq_of_toNat_eq zero)
  have accepted : Numeral (':' :: p).tail ∧ number (':' :: p).tail % 2 ^ 32 ≠ 0 := by
    refine ⟨numeral, ?_⟩
    rw [List.tail_cons, value]
    omega
  rw [dnparse_colon colon, if_pos accepted, List.tail_cons, value, BitVec.ofNat_toNat,
    BitVec.setWidth_eq, dot2ip_text readsA readsB readsC readsD (ends_mark (by decide) p)]

theorem refused_iff (fspec : List Char) (paddr : IPaddr) (pport : BitVec 16) :
    (dnparse (some fspec) paddr pport).1 = false ↔ NoPort fspec := by
  unfold NoPort
  cases colon : index fspec ':' with
  | none =>
      have refused : dnparse (some fspec) paddr pport = (false, dot2ip fspec, pport) := by
        unfold dnparse
        simp only [colon]
      rw [refused]
      simp
  | some found =>
      rw [dnparse_colon colon]
      simp only [Option.mem_def, Option.some.injEq, forall_eq']
      split_ifs with accepted
      · simp only [false_iff]
        rintro (text | multiple)
        · exact text accepted.1
        · exact accepted.2 multiple
      · simp only [true_iff]
        by_cases numeral : Numeral found.tail
        · right
          by_contra value
          exact accepted ⟨numeral, value⟩
        · exact Or.inl numeral

/-- Addresses come back from their text. A string is parsed right exactly if it is well formed or
there is no port to be found in it. -/
theorem address_text (ip : IPaddr) (fspec : List Char) :
    dot2ip (ip2dot ip) = ip ∧ (ParsedRight fspec ↔ WellFormed fspec ∨ NoPort fspec) := by
  refine ⟨dot2ip_ip2dot ip, ?_, ?_⟩
  · intro right
    by_cases wellFormed : WellFormed fspec
    · exact Or.inl wellFormed
    · exact Or.inr ((refused_iff fspec 0 0).mp (right.refused wellFormed 0 0))
  · rintro (wellFormed | noPort)
    · exact ⟨fun _ _ endpoint => endpoint_parsed endpoint, fun other => absurd wellFormed other⟩
    · exact ⟨fun _ _ endpoint => endpoint_parsed endpoint, fun _ paddr pport =>
        (refused_iff fspec paddr pport).mpr noPort⟩

/-- The port 65536 is accepted and comes back as 0. -/
theorem port_cut :
    ¬ ∀ (ip : IPaddr) (fspec : List Char), dot2ip (ip2dot ip) = ip ∧ ParsedRight fspec := by
  intro always
  have right := (always 0 ['1', '9', '2', '.', '5', '.', '4', '8', '.', '3', '0', ':', '6', '5',
    '5', '3', '6']).2
  have parsed : dnparse (some ['1', '9', '2', '.', '5', '.', '4', '8', '.', '3', '0', ':', '6', '5',
      '5', '3', '6']) 0 0 = (true, 0xc005301e, 0) := by
    decide
  have refused := right.refused (by
    rintro ⟨address, port, endpoint⟩
    have again := endpoint_parsed endpoint 0 0
    obtain ⟨_, _, _, _, _, _, _, _, _, _, _, _, positive⟩ := endpoint
    rw [parsed] at again
    exact positive (congrArg (fun result => result.2.2) again).symm) 0 0
  rw [parsed] at refused
  cases refused

end MvsXinu.AddressText
