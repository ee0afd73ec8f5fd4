import MvsXinu.Kernel.NumberText

/-!
# Numeric conversions in a format

A conversion of a number has at most one flag, a width and a letter. In any format, with whatever
behind it, it puts the numeral of its argument out, filled up to the width: blanks stand before
the sign or behind the digits, zeros between the sign and the digits.
-/

namespace MvsXinu.Doprnt

set_option autoImplicit false

inductive Flag where
  | plain
  | minus
  | zero
  deriving DecidableEq, Repr

def Flag.text : Flag → List Char
  | .plain => []
  | .minus => ['-']
  | .zero => ['0']

/-- No width, a width in the format, or a star with the width among the arguments. -/
inductive Width where
  | absent
  | digits (width : Nat)
  | star (width : Nat)
  deriving DecidableEq, Repr

def Width.value : Width → Nat
  | .absent => 0
  | .digits width => width
  | .star width => width

def Width.text : Width → List Char
  | .absent => []
  | .digits width => Nat.toDigits 10 width
  | .star _ => ['*']

def Width.args : Width → Args
  | .star width => [BitVec.ofNat 32 width]
  | _ => []

inductive Letter where
  | d
  | u
  | o
  | x
  deriving DecidableEq, Repr

def Letter.char : Letter → Char
  | .d => 'd'
  | .u => 'u'
  | .o => 'o'
  | .x => 'x'

def Letter.negative : Letter → BitVec 32 → Bool
  | .d, num => decide (num.toInt < 0)
  | _, _ => false

/-- The standard representation of the value, without its sign. -/
def Letter.digits : Letter → BitVec 32 → List Char
  | .d, num => Nat.toDigits 10 num.toInt.natAbs
  | .u, num => Nat.toDigits 10 num.toNat
  | .o, num => Nat.toDigits 8 num.toNat
  | .x, num => Nat.toDigits 16 num.toNat

/-- A conversion with a width that is not too large. -/
structure Numeric where
  flag : Flag
  width : Width
  long : Bool
  letter : Letter
  fits : width.value ≤ maxStr

/-- What stands behind the width. -/
def Numeric.tail (conv : Numeric) (fmt : List Char) : List Char :=
  if conv.long then 'l' :: conv.letter.char :: fmt else conv.letter.char :: fmt

/-- The format with the conversion in front. -/
def Numeric.format (conv : Numeric) (fmt : List Char) : List Char :=
  '%' :: (conv.flag.text ++ (conv.width.text ++ conv.tail fmt))

/-- The sign and the digits. -/
def Numeric.natural (conv : Numeric) (num : BitVec 32) : List Char :=
  (if conv.letter.negative num then ['-'] else []) ++ conv.letter.digits num

/-- The text that fills the width. -/
def Numeric.text (conv : Numeric) (num : BitVec 32) : List Char :=
  let sign := if conv.letter.negative num then ['-'] else []
  let filled := List.replicate (conv.width.value - (conv.natural num).length)
  match conv.flag with
  | .plain => filled ' ' ++ conv.natural num
  | .minus => conv.natural num ++ filled ' '
  | .zero => sign ++ filled '0' ++ conv.letter.digits num

theorem Numeric.text_length (conv : Numeric) (num : BitVec 32) :
    (conv.text num).length = max conv.width.value (conv.natural num).length := by
  unfold Numeric.text
  cases conv.flag with
  | plain =>
      dsimp only
      rw [List.length_append, List.length_replicate]
      omega
  | minus =>
      dsimp only
      rw [List.length_append, List.length_replicate]
      omega
  | zero =>
      have natural : (conv.natural num).length =
          (if conv.letter.negative num then ['-'] else []).length +
            (conv.letter.digits num).length := List.length_append
      dsimp only
      rw [List.length_append, List.length_append, List.length_replicate]
      omega

/-! ## The text of the argument -/

theorem Letter.digits_length (letter : Letter) (num : BitVec 32) :
    (letter.digits num).length + 1 ≤ stringLen := by
  have bound := num.isLt
  have magnitude : num.toInt.natAbs < 10 ^ 10 := by
    have upper := BitVec.toInt_lt (x := num)
    have lower := BitVec.le_toInt num
    omega
  have decimal : ∀ value < 10 ^ 10, (Nat.toDigits 10 value).length ≤ 10 := fun value small =>
    (Nat.length_toDigits_le_iff (by decide) (by decide)).mpr small
  have octal : (Nat.toDigits 8 num.toNat).length ≤ 11 :=
    (Nat.length_toDigits_le_iff (by decide) (by decide)).mpr (by omega)
  have hexadecimal : (Nat.toDigits 16 num.toNat).length ≤ 8 :=
    (Nat.length_toDigits_le_iff (by decide) (by decide)).mpr (by omega)
  unfold stringLen
  cases letter with
  | d =>
      have short := decimal _ magnitude
      rw [Letter.digits]
      omega
  | u =>
      have short := decimal num.toNat (by omega)
      rw [Letter.digits]
      omega
  | o =>
      rw [Letter.digits]
      omega
  | x =>
      rw [Letter.digits]
      omega

/-- What a numeric conversion makes of its field and its argument. -/
def converted (letter : Letter) (field : Field) (num : BitVec 32) : Conversion where
  echo := []
  string := letter.digits num
  str := letter.digits num
  sign := letter.negative num
  field := { field with fmax := 0 }

theorem numeric_digits (letter : Letter) (field : Field) (num : BitVec 32) :
    numeric field (letter.negative num) (letter.digits num) = some (converted letter field num) := by
  rw [numeric, store, if_pos (letter.digits_length num)]
  rfl

/-- The least number too, which is its own complement, is negated to its magnitude. -/
theorem neg_toNat {num : BitVec 32} (negative : num.msb = true) :
    (-num).toNat = num.toInt.natAbs := by
  have above := BitVec.msb_eq_true_iff_two_mul_ge.mp negative
  have bound := num.isLt
  rw [BitVec.toNat_neg, BitVec.toInt_eq_msb_cond, negative, if_pos rfl]
  omega

theorem convert_letter (strings : BitVec 32 → List Char) (string : List Char) (field : Field)
    (letter : Letter) (num : BitVec 32) (args : Args) :
    convert strings string field letter.char (num :: args) =
      some (converted letter field num) := by
  rw [← numeric_digits]
  cases letter with
  | d =>
      have sign : Letter.negative .d num = num.msb := by
        rw [Letter.negative, BitVec.msb_eq_toInt]
      have steps : convert strings string field 'd' (num :: args) =
          if num.msb then numeric field true (unsigned (-num))
          else numeric field false (unsigned num) := rfl
      rw [Letter.char, steps, sign, Letter.digits]
      cases negative : num.msb with
      | true => rw [if_pos rfl, unsigned_eq, neg_toNat negative]
      | false =>
          have below := BitVec.msb_eq_false_iff_two_mul_lt.mp negative
          have value : num.toInt.natAbs = num.toNat := by
            rw [BitVec.toInt_eq_toNat_of_msb negative]
            rfl
          rw [if_neg Bool.false_ne_true, unsigned_eq, value]
  | u =>
      have steps : convert strings string field 'u' (num :: args) =
          numeric field false (unsigned num) := rfl
      rw [Letter.char, steps, unsigned_eq]
      rfl
  | o =>
      have steps : convert strings string field 'o' (num :: args) =
          numeric field false (prtl8 num) := rfl
      rw [Letter.char, steps, prtl8_eq]
      rfl
  | x =>
      have steps : convert strings string field 'x' (num :: args) =
          numeric field false (prtl16 num) := rfl
      rw [Letter.char, steps, prtl16_eq]
      rfl

/-! ## The field -/

theorem skip_same (ch : Char) (fmt : List Char) : skip ch (ch :: fmt) = (true, fmt) :=
  if_pos rfl

theorem skip_other {ch c : Char} (other : c ≠ ch) (fmt : List Char) :
    skip ch (c :: fmt) = (false, c :: fmt) :=
  if_neg other

theorem digit_bounds {c : Char} : ('0' ≤ c ∧ c ≤ '9') ↔ c.isDigit = true := by
  rw [Char.isDigit, Bool.and_eq_true, decide_eq_true_eq, decide_eq_true_eq]
  rfl

theorem digits_stop {c : Char} (other : c.isDigit = false) (value : BitVec 32) (fmt : List Char) :
    digits value (c :: fmt) = (value, c :: fmt) := by
  rw [digits, if_neg]
  rw [digit_bounds, other]
  exact Bool.false_ne_true

/-- The digits of a width give its value, as long as that is an `int`. -/
theorem digits_append {text : List Char} (numeral : ∀ ch ∈ text, ch.isDigit = true) (value : Nat)
    (fmt : List Char) :
    digits (BitVec.ofNat 32 value) (text ++ fmt) =
      digits (BitVec.ofNat 32 (Nat.ofDigitChars 10 text value)) fmt := by
  induction text generalizing value with
  | nil => rw [List.nil_append, Nat.ofDigitChars_nil]
  | cons c text ih =>
      have isDigit : c.isDigit = true := numeral c List.mem_cons_self
      have above : 48 ≤ c.toNat := (digit_bounds.mpr isDigit).1
      have step : BitVec.ofNat 32 value * 10 + BitVec.ofNat 32 c.toNat -
          BitVec.ofNat 32 '0'.toNat = BitVec.ofNat 32 (10 * value + (c.toNat - '0'.toNat)) := by
        have zero : '0'.toNat = 48 := rfl
        have split : c.toNat = c.toNat - 48 + 48 := by omega
        rw [zero, split, Nat.add_sub_cancel, BitVec.ofNat_add, ← BitVec.add_assoc,
          BitVec.add_sub_cancel, BitVec.ofNat_add, BitVec.ofNat_mul, BitVec.mul_comm]
        rfl
      rw [List.cons_append, digits, if_pos (digit_bounds.mpr isDigit), step,
        ih fun ch member => numeral ch (List.mem_cons_of_mem c member), Nat.ofDigitChars_cons]

/-- A character that is no part of a field. -/
structure Behind (c : Char) : Prop where
  notDigit : c.isDigit = false
  notMinus : c ≠ '-'
  notStar : c ≠ '*'
  notPoint : c ≠ '.'
  notPercent : c ≠ '%'

theorem letter_behind (letter : Letter) : Behind letter.char := by
  cases letter <;> exact ⟨rfl, by decide, by decide, by decide, by decide⟩

theorem Numeric.tail_behind (conv : Numeric) (fmt : List Char) :
    ∃ c rest, conv.tail fmt = c :: rest ∧ Behind c := by
  unfold Numeric.tail
  split_ifs
  · exact ⟨'l', _, rfl, rfl, by decide, by decide, by decide, by decide⟩
  · exact ⟨_, _, rfl, letter_behind conv.letter⟩

theorem Numeric.skip_long (conv : Numeric) (fmt : List Char) :
    (skip 'l' (conv.tail fmt)).2 = conv.letter.char :: fmt := by
  unfold Numeric.tail
  split_ifs
  · rw [skip_same]
  · rw [skip_other]
    cases conv.letter <;> decide

/-- What stands in front of the width is not taken for a part of it, but for a width of 0. -/
theorem Numeric.width_cases (conv : Numeric) (fmt : List Char) :
    (∃ c rest, conv.width.text ++ conv.tail fmt = c :: rest ∧ c ≠ '-' ∧ c ≠ '0' ∧ c ≠ '%') ∨
      (conv.width = .digits 0 ∧ conv.width.text ++ conv.tail fmt = '0' :: conv.tail fmt) := by
  obtain ⟨c, rest, tail, behind⟩ := conv.tail_behind fmt
  cases given : conv.width with
  | absent =>
      left
      refine ⟨c, rest, by rw [tail]; rfl, behind.notMinus, ?_, behind.notPercent⟩
      rintro rfl
      cases behind.notDigit
  | star width => exact Or.inl ⟨'*', _, rfl, by decide, by decide, by decide⟩
  | digits width =>
      rcases Nat.eq_zero_or_pos width with rfl | positive
      · exact Or.inr ⟨rfl, rfl⟩
      · left
        obtain ⟨first, low, digits, nonzero⟩ := Numerals.toDigits_first
          (show 1 < 10 by decide) positive
        have member : first ∈ Nat.toDigits 10 width := by
          rw [digits]
          exact List.mem_cons_self
        have isDigit := Nat.isDigit_of_mem_toDigits (by decide) (by decide) member
        refine ⟨first, low ++ conv.tail fmt, by rw [Width.text, digits]; rfl, ?_, nonzero, ?_⟩
        · rintro rfl
          cases isDigit
        · rintro rfl
          cases isDigit

theorem Numeric.number_width (conv : Numeric) (fmt : List Char) (args : Args) :
    number (conv.width.text ++ conv.tail fmt) (conv.width.args ++ args) =
      some (BitVec.ofNat 32 conv.width.value, conv.tail fmt, args) := by
  obtain ⟨c, rest, tail, behind⟩ := conv.tail_behind fmt
  have stop : digits 0 (c :: rest) = (0, c :: rest) := digits_stop behind.notDigit 0 rest
  cases given : conv.width with
  | absent =>
      have read : number (conv.tail fmt) args =
          some (BitVec.ofNat 32 0, conv.tail fmt, args) := by
        rw [tail, number, skip_other behind.notStar, stop]
        rfl
      exact read
  | star width =>
      rw [Width.text, List.singleton_append, number, skip_same]
      rfl
  | digits width =>
      have numeral : ∀ ch ∈ Nat.toDigits 10 width, ch.isDigit = true := fun ch member =>
        Nat.isDigit_of_mem_toDigits (by decide) (by decide) member
      have value : digits 0 (Nat.toDigits 10 width ++ conv.tail fmt) =
          (BitVec.ofNat 32 width, conv.tail fmt) := by
        have read := digits_append numeral 0 (conv.tail fmt)
        rw [Nat.ofDigitChars_ten_toDigits, tail, digits_stop behind.notDigit] at read
        rw [tail]
        exact read
      obtain ⟨first, low, text⟩ := List.exists_cons_of_ne_nil
        (Nat.toDigits_ne_nil : Nat.toDigits 10 width ≠ [])
      have notStar : first ≠ '*' := by
        rintro rfl
        have isDigit := numeral '*' (by rw [text]; exact List.mem_cons_self)
        cases isDigit
      have star : skip '*' (Nat.toDigits 10 width ++ conv.tail fmt) =
          (false, Nat.toDigits 10 width ++ conv.tail fmt) := by
        rw [text, List.cons_append]
        exact skip_other notStar _
      rw [Width.text, number, star, value]
      rfl

def Flag.fill : Flag → Char
  | .zero => '0'
  | _ => ' '

def Numeric.field (conv : Numeric) (fill : Char) : Field where
  leftjust := conv.flag = .minus
  fill := fill
  fmin := BitVec.ofNat 32 conv.width.value
  fmax := 0

/-- How the field is filled: as the flag says, but a width of 0 may have been taken for it. -/
def Numeric.Fills (conv : Numeric) (fill : Char) : Prop :=
  fill = conv.flag.fill ∨ conv.width.value = 0 ∧ fill = '0'

/-- Behind the flag for the left side. -/
theorem Numeric.fill_read (conv : Numeric) (notZero : conv.flag ≠ .zero) (fmt : List Char)
    (args : Args) :
    ∃ zero, conv.Fills (if zero then '0' else ' ') ∧
      (skip '0' (conv.width.text ++ conv.tail fmt)).1 = zero ∧
      number (skip '0' (conv.width.text ++ conv.tail fmt)).2 (conv.width.args ++ args) =
        some (BitVec.ofNat 32 conv.width.value, conv.tail fmt, args) := by
  rcases conv.width_cases fmt with ⟨c, rest, text, _, other, _⟩ | ⟨given, text⟩
  · refine ⟨false, Or.inl ?_, ?_, ?_⟩
    · cases flag : conv.flag with
      | plain => rfl
      | minus => rfl
      | zero => exact absurd flag notZero
    · rw [text, skip_other other]
    · rw [← conv.number_width fmt args, text, skip_other other]
  · have none : conv.width.value = 0 := by rw [given]; rfl
    obtain ⟨c, rest, tail, behind⟩ := conv.tail_behind fmt
    refine ⟨true, Or.inr ⟨none, rfl⟩, ?_, ?_⟩
    · rw [text, skip_same]
    · rw [text, skip_same, none, given, tail]
      have read : number (c :: rest) args = some (BitVec.ofNat 32 0, c :: rest, args) := by
        rw [number, skip_other behind.notStar, digits_stop behind.notDigit]
        rfl
      exact read

theorem Numeric.field_steps (conv : Numeric) {text fmt1 fmt2 fmt : List Char} {args behind : Args}
    {left zero : Bool} {fmin : BitVec 32} (minus : skip '-' text = (left, fmt1))
    (flag : skip '0' fmt1 = (zero, fmt2))
    (width : number fmt2 args = some (fmin, conv.tail fmt, behind)) :
    Doprnt.field text args = some (⟨left, if zero then '0' else ' ', fmin, 0⟩,
      conv.letter.char :: fmt, behind) := by
  obtain ⟨c, rest, tail, other⟩ := conv.tail_behind fmt
  have noPoint : skip '.' (conv.tail fmt) = (false, conv.tail fmt) := by
    rw [tail, skip_other other.notPoint]
  rw [Doprnt.field, minus]
  dsimp only
  rw [flag]
  dsimp only
  rw [width, Option.bind_some]
  dsimp only
  rw [noPoint, if_neg Bool.false_ne_true, Option.map_some]
  dsimp only
  rw [conv.skip_long]

/-- A conversion is read as what it says. -/
theorem Numeric.field_read (conv : Numeric) (fmt : List Char) (args : Args) :
    ∃ fill, conv.Fills fill ∧
      Doprnt.field (conv.flag.text ++ (conv.width.text ++ conv.tail fmt))
        (conv.width.args ++ args) = some (conv.field fill, conv.letter.char :: fmt, args) := by
  have notMinus : skip '-' (conv.width.text ++ conv.tail fmt) =
      (false, conv.width.text ++ conv.tail fmt) := by
    rcases conv.width_cases fmt with ⟨first, low, text, other, _⟩ | ⟨_, text⟩
    · rw [text, skip_other other]
    · rw [text, skip_other (by decide)]
  unfold Numeric.field
  cases flag : conv.flag with
  | plain =>
      obtain ⟨zero, fills, found, read⟩ := conv.fill_read (by rw [flag]; decide) fmt args
      exact ⟨_, fills, conv.field_steps notMinus (Prod.ext found rfl) read⟩
  | minus =>
      obtain ⟨zero, fills, found, read⟩ := conv.fill_read (by rw [flag]; decide) fmt args
      exact ⟨_, fills, conv.field_steps (skip_same '-' _) (Prod.ext found rfl) read⟩
  | zero =>
      refine ⟨'0', Or.inl (by rw [flag]; rfl), ?_⟩
      exact conv.field_steps (skip_other (by decide) _) (skip_same '0' _)
        (conv.number_width fmt args)

/-! ## The text of the conversion -/

theorem limit_small {width : Nat} (small : width ≤ maxStr) :
    limit (BitVec.ofNat 32 width) = width := by
  have word : 2 * width < 2 ^ 32 := by
    unfold maxStr at small
    omega
  have value : (BitVec.ofNat 32 width).toInt = width := by
    rw [BitVec.toInt_eq_toNat_cond, BitVec.toNat_ofNat, Nat.mod_eq_of_lt (by omega), if_pos word]
  rw [limit, value, if_neg (by omega)]

theorem Numeric.natural_length (conv : Numeric) (num : BitVec 32) :
    (conv.natural num).length =
      (conv.letter.digits num).length + if conv.letter.negative num then 1 else 0 := by
  rw [Numeric.natural, List.length_append, Nat.add_comm]
  split_ifs <;> rfl

section Printing

variable (conv : Numeric) (num : BitVec 32) (fill : Char)

theorem Numeric.converted_length :
    (converted conv.letter (conv.field fill) num).length = (conv.letter.digits num).length := by
  have none : limit 0 = 0 := by decide
  rw [Conversion.length, converted, none, if_neg (fun both => both.1 rfl)]

/-- A width of 0 and one that the text fills leave nothing to be filled. -/
theorem Numeric.converted_leading :
    (converted conv.letter (conv.field fill) num).leading.toNat =
      conv.width.value - (conv.natural num).length := by
  have none : limit 0 = 0 := by decide
  have sign : (converted conv.letter (conv.field fill) num).sign = conv.letter.negative num := rfl
  have fmax : limit (converted conv.letter (conv.field fill) num).field.fmax = 0 := none
  have fmin : limit (converted conv.letter (conv.field fill) num).field.fmin =
      conv.width.value := limit_small conv.fits
  rw [Conversion.leading, conv.converted_length num fill, conv.natural_length num, sign, fmax, fmin]
  by_cases absent : conv.width.value = 0
  · rw [if_neg (by simp [absent]), absent, Nat.zero_sub]
    rfl
  · have present : (conv.width.value : Int) ≠ 0 := by omega
    rw [if_pos (Or.inr present), if_pos present]
    split_ifs <;> omega

theorem Numeric.converted_output :
    (converted conv.letter (conv.field fill) num).output =
      (if conv.letter.negative num ∧ fill = '0' then ['-'] else []) ++
        (if conv.flag = .minus then []
          else List.replicate (conv.width.value - (conv.natural num).length) fill) ++
        (if conv.letter.negative num ∧ fill = ' ' then ['-'] else []) ++
        conv.letter.digits num ++
        (if conv.flag = .minus then
          List.replicate (conv.width.value - (conv.natural num).length) fill else []) := by
  rw [Conversion.output, conv.converted_leading num fill, conv.converted_length num fill]
  simp only [converted, Numeric.field, decide_eq_true_eq, Int.toNat_natCast, List.take_length,
    List.nil_append]
  rfl

end Printing

theorem Numeric.output (conv : Numeric) (num : BitVec 32) {fill : Char}
    (fills : conv.Fills fill) :
    (converted conv.letter (conv.field fill) num).output = conv.text num := by
  rw [conv.converted_output num fill]
  unfold Numeric.text
  rcases fills with rfl | ⟨none, rfl⟩
  · cases conv.flag with
    | plain => simp [Flag.fill, Numeric.natural]
    | minus => simp [Flag.fill, Numeric.natural]
    | zero => simp [Flag.fill]
  · rw [none, Nat.zero_sub]
    cases conv.flag with
    | plain => simp [Numeric.natural]
    | minus => simp [Numeric.natural]
    | zero => simp

theorem Numeric.not_percent (conv : Numeric) (fmt rest : List Char) :
    conv.flag.text ++ (conv.width.text ++ conv.tail fmt) ≠ '%' :: rest := by
  intro percent
  cases flag : conv.flag with
  | plain =>
      rw [flag, Flag.text, List.nil_append] at percent
      rcases conv.width_cases fmt with ⟨first, low, text, _, _, other⟩ | ⟨_, text⟩
      · rw [text] at percent
        exact other (List.cons.inj percent).1
      · rw [text] at percent
        cases percent
  | minus =>
      rw [flag] at percent
      cases percent
  | zero =>
      rw [flag] at percent
      cases percent

/-- A conversion that is read and carried out is put out, and the format goes on behind it. -/
theorem doprnt_conversion (strings : BitVec 32 → List Char) (string : List Char)
    {fmt rest : List Char} {args behind : Args} {read : Field} {f : Char} {conv : Conversion}
    (conversion : ∀ rest, fmt ≠ '%' :: rest)
    (found : field fmt args = some (read, f :: rest, behind))
    (done : convert strings string read f behind = some conv) :
    doprnt strings string ('%' :: fmt) args =
      (doprnt strings conv.string rest behind.tail).map fun text => conv.output ++ text := by
  rw [doprnt, if_neg (by simp)]
  · split
    · rename_i none
      rw [found] at none
      cases none
    · rename_i ended
      rw [found] at ended
      cases ended
    · rename_i same
      rw [found] at same
      cases same
      rw [done, Option.bind_some]
  · exact fun rest percent => conversion rest percent

end MvsXinu.Doprnt
