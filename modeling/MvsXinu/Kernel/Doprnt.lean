import MvsXinu.Lib.Numerals

/-!
# Formatted output (`doprnt.c`)

`doprnt` hands the characters of a format on and puts the text of an argument in the place of
each conversion. What is handed to `doputc` is listed. `INT_NOT_LONG` is not defined, so that
every number is printed as a long. An argument that is missing and a text that runs over the
buffer for conversions have no model: there is no result.
-/

namespace MvsXinu.Doprnt

set_option autoImplicit false

abbrev Args := List (BitVec 32)

def maxStr : Nat := 80

/-- Characters of `string`. -/
def stringLen : Nat := 20

/-! ## Digits -/

/-- `temp` from 1 on: the character of each turn, and what the turn leaves of the number. -/
def temp (digit : BitVec 32 → Char) (rest : BitVec 32 → BitVec 32) :
    Nat → BitVec 32 → List Char
  | 0, _ => []
  | turns + 1, num => digit num :: temp digit rest turns (rest num)

/-- A digit added to `'0'`. -/
def addChar (ch : Char) (digit : Nat) : Char := Char.ofNat (ch.toNat + digit)

def maskChar (ch mask : Char) : Char := Char.ofNat (ch.toNat &&& mask.toNat)

def prtl10 (num : BitVec 32) : List Char :=
  Numerals.strip
    (temp (fun num => addChar '0' (num.srem 10).toNat) (fun num => num.sdiv 10) 10 num)

def prtl8 (num : BitVec 32) : List Char :=
  Numerals.strip
    ((temp (fun num => addChar '0' (num &&& 7).toNat) (fun num => num.sshiftRight 3) 11 num).modify
      10 fun ch => maskChar ch '3')

def hexDigits : List Char :=
  ['0', '1', '2', '3', '4', '5', '6', '7', '8', '9', 'a', 'b', 'c', 'd', 'e', 'f']

def prtl16 (num : BitVec 32) : List Char :=
  Numerals.strip
    (temp (fun num => hexDigits.getD (num &&& 15).toNat '0') (fun num => num.sshiftRight 4) 8 num)

def prtl2 (num : BitVec 32) : List Char :=
  Numerals.strip
    (temp (fun num => if num.srem 2 = 0 then '0' else '1') (fun num => num.sshiftRight 1) 32 num)

/-- The loop that makes a long positive, and how often it took 1000000000 from it. -/
def positive (num : BitVec 32) (digit1 : Nat) : BitVec 32 × Nat :=
  if num.msb then positive (num - 1000000000#32) (digit1 + 1) else (num, digit1)
termination_by num.toNat
decreasing_by
  rename_i negative
  have large := BitVec.msb_eq_true_iff_two_mul_ge.mp negative
  simp only [BitVec.toNat_sub, BitVec.toNat_ofNat]
  omega

def unsigned (num : BitVec 32) : List Char :=
  let (num, digit1) := positive num 0
  (prtl10 num).modifyHead fun ch => addChar ch digit1

/-! ## The format -/

structure Field where
  leftjust : Bool
  fill : Char
  fmin : BitVec 32
  fmax : BitVec 32

/-- Whether the format goes on with this character, and what is behind it. -/
def skip (ch : Char) : List Char → Bool × List Char
  | [] => (false, [])
  | c :: fmt => if c = ch then (true, fmt) else (false, c :: fmt)

def digits (number : BitVec 32) : List Char → BitVec 32 × List Char
  | [] => (number, [])
  | c :: fmt =>
      if '0' ≤ c ∧ c ≤ '9' then
        digits (number * 10 + BitVec.ofNat 32 c.toNat - BitVec.ofNat 32 '0'.toNat) fmt
      else (number, c :: fmt)

/-- A width or a maximum, from an argument or from the format. -/
def number (fmt : List Char) (args : Args) : Option (BitVec 32 × List Char × Args) :=
  let (star, behind) := skip '*' fmt
  if star then args.head?.map fun arg => (arg, behind, args.tail)
  else
    let (number, fmt) := digits 0 fmt
    some (number, fmt, args)

/-- What stands between the percent sign and the letter of the conversion. -/
def field (fmt : List Char) (args : Args) : Option (Field × List Char × Args) :=
  let (leftjust, fmt) := skip '-' fmt
  let (zero, fmt) := skip '0' fmt
  (number fmt args).bind fun (fmin, fmt, args) =>
    let (point, fmt) := skip '.' fmt
    (if point then number fmt args else some (0, fmt, args)).map fun (fmax, fmt, args) =>
      ({ leftjust := leftjust, fill := if zero then '0' else ' ', fmin := fmin, fmax := fmax },
        (skip 'l' fmt).2, args)

/-! ## Conversions -/

/-- What a conversion hands on at once, what it leaves in `string`, the text to be printed, and
the field as it is then. -/
structure Conversion where
  echo : List Char
  string : List Char
  str : List Char
  sign : Bool
  field : Field

/-- A text and its NUL are stored in `string`. -/
def store (text : List Char) : Option (List Char) :=
  if text.length + 1 ≤ stringLen then some text else none

def numeric (field : Field) (sign : Bool) (text : List Char) : Option Conversion :=
  (store text).map fun string =>
    { echo := [], string := string, str := string, sign := sign, field := { field with fmax := 0 } }

def convert (strings : BitVec 32 → List Char) (string : List Char) (field : Field) (f : Char)
    (args : Args) : Option Conversion :=
  if f = 'c' then
    args.head?.map fun arg =>
      let text := if arg.setWidth 8 = 0 then [] else [Char.ofNat (arg.setWidth 8).toNat]
      { echo := [], string := text, str := text, sign := false
        field := { field with fmax := 0, fill := ' ' } }
  else if f = 's' then
    args.head?.map fun arg =>
      { echo := [], string := string, str := strings arg, sign := false
        field := { field with fill := ' ' } }
  else if f = 'D' ∨ f = 'd' then
    args.head?.bind fun arg =>
      if arg.msb then numeric field true (unsigned (-arg)) else numeric field false (unsigned arg)
  else if f = 'U' ∨ f = 'u' then args.head?.bind fun arg => numeric field false (unsigned arg)
  else if f = 'O' ∨ f = 'o' then args.head?.bind fun arg => numeric field false (prtl8 arg)
  else if f = 'X' ∨ f = 'x' then args.head?.bind fun arg => numeric field false (prtl16 arg)
  else if f = 'B' ∨ f = 'b' then args.head?.bind fun arg => numeric field false (prtl2 arg)
  -- no conversion; what is left in `string` is printed behind the character
  else some { echo := [f], string := string, str := string, sign := false, field := field }

/-- A width or a maximum that is not too large. -/
def limit (number : BitVec 32) : Int :=
  if (maxStr : Int) < number.toInt ∨ number.toInt < 0 then 0 else number.toInt

def Conversion.length (conv : Conversion) : Int :=
  if limit conv.field.fmax ≠ 0 ∧ limit conv.field.fmax < conv.str.length then limit conv.field.fmax
  else conv.str.length

def Conversion.leading (conv : Conversion) : Int :=
  if limit conv.field.fmax ≠ 0 ∨ limit conv.field.fmin ≠ 0 then
    (if limit conv.field.fmin ≠ 0 then limit conv.field.fmin - conv.length else 0) -
      (if conv.sign then 1 else 0)
  else 0

def Conversion.output (conv : Conversion) : List Char :=
  let fill := List.replicate conv.leading.toNat conv.field.fill
  let sign := fun fill => if conv.sign ∧ conv.field.fill = fill then ['-'] else []
  conv.echo ++ sign '0' ++ (if conv.field.leftjust then [] else fill) ++ sign ' ' ++
    conv.str.take conv.length.toNat ++ (if conv.field.leftjust then fill else [])

theorem skip_length (ch : Char) (fmt : List Char) : (skip ch fmt).2.length ≤ fmt.length := by
  cases fmt with
  | nil => exact le_refl _
  | cons c fmt =>
      rw [skip]
      split_ifs <;> simp

theorem digits_length (value : BitVec 32) (fmt : List Char) :
    (digits value fmt).2.length ≤ fmt.length := by
  induction fmt generalizing value with
  | nil => exact le_refl _
  | cons c fmt ih =>
      rw [digits]
      split_ifs
      · exact (ih _).trans (by simp)
      · exact le_refl _

theorem number_length {fmt rest : List Char} {args behind : Args} {value : BitVec 32}
    (read : number fmt args = some (value, rest, behind)) : rest.length ≤ fmt.length := by
  unfold number at read
  dsimp only at read
  split_ifs at read
  · obtain ⟨arg, _, same⟩ := Option.map_eq_some_iff.mp read
    cases same
    exact skip_length '*' fmt
  · cases read
    exact digits_length 0 fmt

theorem field_length {fmt rest : List Char} {args behind : Args} {read : Field}
    (found : field fmt args = some (read, rest, behind)) : rest.length ≤ fmt.length := by
  obtain ⟨⟨fmin, rest1, args1⟩, first, found⟩ := Option.bind_eq_some_iff.mp found
  obtain ⟨⟨fmax, rest2, args2⟩, second, same⟩ := Option.map_eq_some_iff.mp found
  cases same
  have minimum := number_length first
  have maximum : rest2.length ≤ (skip '.' rest1).2.length := by
    split_ifs at second
    · exact number_length second
    · cases second
      exact le_refl _
  calc (skip 'l' rest2).2.length ≤ rest2.length := skip_length 'l' rest2
    _ ≤ (skip '.' rest1).2.length := maximum
    _ ≤ rest1.length := skip_length '.' rest1
    _ ≤ (skip '0' (skip '-' fmt).2).2.length := minimum
    _ ≤ (skip '-' fmt).2.length := skip_length '0' _
    _ ≤ fmt.length := skip_length '-' fmt

/-- With the string at each address, and what is in `string` at first. -/
def doprnt (strings : BitVec 32 → List Char) (string : List Char) (fmt : List Char) (args : Args) :
    Option (List Char) :=
  match fmt with
  | [] => some []
  | c :: fmt =>
      if c ≠ '%' then (doprnt strings string fmt args).map fun text => c :: text
      else
        match fmt with
        | '%' :: fmt => (doprnt strings string fmt args).map fun text => '%' :: text
        | fmt =>
            match found : field fmt args with
            | none => none
            | some (_, [], _) => some ['%']
            | some (field, f :: rest, args) =>
                (convert strings string field f args).bind fun conv =>
                  (doprnt strings conv.string rest args.tail).map fun text => conv.output ++ text
termination_by fmt.length
decreasing_by
  · simp
  · simp only [List.length_cons]
    omega
  · have shorter := field_length found
    simp only [List.length_cons] at shorter ⊢
    omega

end MvsXinu.Doprnt
