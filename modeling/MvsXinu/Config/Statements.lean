import Mathlib.Logic.Function.Basic
import Mathlib.Data.Fin.VecNotation
import MvsXinu.Net.AddressText

/-!
# Configuration statements (`xfigger.c`, `xfig_iface.c`, `xconfig.c`, `config.h`)

`tokenize` blanks a line out but for letters, digits, colons and periods and lists its tokens,
and `xfig_iface` works off the list. The interface and the half of its CTC that are being
described stay selected across calls. Storage outside of the fields and a token behind the end of
the list have no model: a step that comes to one has no result. What is printed is left out.
-/

namespace MvsXinu.Config

open MvsXinu.Routing MvsXinu.AddressText

set_option autoImplicit false

abbrev Token := List Char

def maxTokens : Nat := 10
def maxIface : Nat := 4
def ddnameLen : Nat := 8

/-! ## Tokens -/

def tokenChar (ch : Char) : Bool := ch == ':' || ch == '.' || ch.isAlphanum

def clean (pline : List Char) : List Char :=
  pline.map fun ch => if tokenChar ch then ch else ' '

/-- The loop of `tokenize` over at most `fuel` characters; `none` where that is not enough. -/
def tokenLoop : Nat → Nat → List Char → Option (List Token)
  | _, _, [] => some []
  | 0, _, _ => none
  | fuel + 1, i, ch :: pchar =>
      if ch ≠ ' ' then
        let ptoken := (ch :: pchar).takeWhile (· != ' ')
        let behind := (ch :: pchar).dropWhile (· != ' ')
        -- more than `MAX_TOKENS` tokens; excess ignored
        if maxTokens < i + 1 then some [ptoken]
        else (tokenLoop fuel (i + 1) behind.tail).map fun tokens => ptoken :: tokens
      else tokenLoop fuel i pchar

def tokenize (pline : List Char) : Option (List Token) :=
  tokenLoop pline.length 0 (clean pline)

/-! ## Interfaces -/

inductive NifType where
  | loop
  | ctci
  | lcs
  deriving DecidableEq, Repr

structure Ctchalf where
  ddname : List Char
  cuu : Nat
  full : ddname.length = ddnameLen

structure Fignif where
  type : NifType
  enabled : Bool
  dfgw : Bool
  ip : IPaddr
  mask : IPaddr
  gwip : IPaddr
  read : Ctchalf
  write : Ctchalf

inductive Half where
  | read
  | write
  deriving DecidableEq, Repr

/-- The interfaces of `Config` and the static variables. A half is one of the interface that is
selected. -/
structure Xfig where
  nif : Fin maxIface → Fignif
  iface : Int
  phalf : Option (Int × Half)
  own : ∀ half ∈ phalf, half.1 = iface

/-- `Config.nif[iface]`, if there is one. -/
def Xfig.change (s : Xfig) (iface : Int) (setting : Fignif → Option Fignif) : Option Xfig :=
  if inside : 0 ≤ iface ∧ iface < maxIface then
    let place : Fin maxIface := ⟨iface.toNat, by omega⟩
    (setting (s.nif place)).map fun nif => { s with nif := Function.update s.nif place nif }
  else none

def Xfig.set (s : Xfig) (setting : Fignif → Fignif) : Option Xfig :=
  s.change s.iface fun nif => some (setting nif)

def setCtchalf (which : Half) (setting : Ctchalf → Option Ctchalf) (nif : Fignif) :
    Option Fignif :=
  match which with
  | .read => (setting nif.read).map fun read => { nif with read := read }
  | .write => (setting nif.write).map fun write => { nif with write := write }

def Xfig.setHalf (s : Xfig) (half : Int × Half) (setting : Ctchalf → Option Ctchalf) :
    Option Xfig :=
  s.change half.1 (setCtchalf half.2 setting)

def Xfig.select (s : Xfig) (iface : Int) : Xfig where
  nif := s.nif
  iface := iface
  phalf := none
  own := fun _ none => by cases none

def Xfig.point (s : Xfig) (half : Half) : Xfig where
  nif := s.nif
  iface := s.iface
  phalf := some (s.iface, half)
  own := fun _ some => by rw [← Option.some.inj some]

def setType (value : Token) (nif : Fignif) : Fignif :=
  if value = ['L', 'O', 'O', 'P'] then { nif with type := .loop }
  else if value = ['C', 'T', 'C', 'I'] then { nif with type := .ctci }
  else if value = ['L', 'C', 'S'] then { nif with type := .lcs }
  else { nif with enabled := false }

/-- Blanks, and then the whole token. -/
def setDdname (value : Token) (half : Ctchalf) : Option Ctchalf :=
  if fits : value.length ≤ ddnameLen then
    some { half with
      ddname := value ++ List.replicate (ddnameLen - value.length) ' '
      full := by
        rw [List.length_append, List.length_replicate]
        omega }
  else none

def hexDigit (ch : Char) : Option Nat :=
  if ch.isDigit then some (ch.toNat - '0'.toNat)
  else if 'a' ≤ ch ∧ ch ≤ 'f' then some (ch.toNat - 'a'.toNat + 10)
  else if 'A' ≤ ch ∧ ch ≤ 'F' then some (ch.toNat - 'A'.toNat + 10)
  else none

def hexNumber : Nat → List Char → Nat
  | value, [] => value
  | value, ch :: rest =>
      match hexDigit ch with
      | none => value
      | some digit => hexNumber (16 * value + digit) rest

/-- `strtol` with the base 16, for a text without blanks and signs. -/
def strtol16 (text : List Char) : Nat :=
  let digits := match text with
    | '0' :: x :: ch :: rest =>
        if (x = 'x' ∨ x = 'X') ∧ (hexDigit ch).isSome then ch :: rest else text
    | _ => text
  min (hexNumber 0 digits) (2 ^ 31 - 1)

def setCuu (value : Token) (half : Ctchalf) : Option Ctchalf :=
  some { half with cuu := strtol16 value % 4096 }

/-! ## Statements -/

inductive Keyword where
  | iface
  | enable
  | disable
  | type
  | ip
  | mask
  | defaultgw
  | half (which : Half)
  | ddname
  | cuu
  deriving DecidableEq, Repr

def strcasecmp (left right : List Char) : Bool := left.map Char.toLower == right.map Char.toLower

/-- What a token is compared with, in this order. -/
def keys : List (List Char × Keyword) :=
  [(['i', 'f', 'a', 'c', 'e'], .iface),
   (['e', 'n', 'a', 'b', 'l', 'e'], .enable),
   (['e', 'n', 'a', 'b', 'l', 'e', 'd'], .enable),
   (['d', 'i', 's', 'a', 'b', 'l', 'e'], .disable),
   (['d', 'i', 's', 'a', 'b', 'l', 'e', 'd'], .disable),
   (['t', 'y', 'p', 'e'], .type),
   (['i', 'p'], .ip),
   (['m', 'a', 's', 'k'], .mask),
   (['d', 'e', 'f', 'a', 'u', 'l', 't', 'g', 'w'], .defaultgw),
   (['r', 'e', 'a', 'd'], .half .read),
   (['w', 'r', 'i', 't', 'e'], .half .write),
   (['d', 'd', 'n', 'a', 'm', 'e'], .ddname),
   (['c', 'u', 'u'], .cuu)]

def keyword (ptoken : Token) : Option Keyword :=
  (keys.find? fun key => strcasecmp ptoken key.1).map Prod.snd

/-- `dot2ip` of a null pointer is 0. -/
def dot2ipPtr (pdot : Option Token) : IPaddr := (pdot.map dot2ip).getD 0

/-- One turn of the loop, with the next token, which is `none` for the null pointer behind the
last one; and whether the turn has stepped on to it. -/
def xfigToken (s : Xfig) (ptoken : Token) (next : Option Token) : Option (Xfig × Bool) :=
  match keyword ptoken with
  | none => some (s, false)
  | some .iface => next.map fun value => (s.select (atoi value), true)
  | some .enable => (s.set fun nif => { nif with enabled := true }).map fun s => (s, false)
  | some .disable => (s.set fun nif => { nif with enabled := false }).map fun s => (s, false)
  | some .type => next.bind fun value => (s.set (setType value)).map fun s => (s, true)
  | some .ip => (s.set fun nif => { nif with ip := dot2ipPtr next }).map fun s => (s, true)
  | some .mask => (s.set fun nif => { nif with mask := dot2ipPtr next }).map fun s => (s, true)
  | some .defaultgw =>
      (s.set fun nif => { nif with gwip := dot2ipPtr next, dfgw := true }).map fun s => (s, true)
  | some (.half which) => some (s.point which, false)
  | some .ddname =>
      match s.phalf with
      | none => some (s, false)
      | some half =>
          next.bind fun value => (s.setHalf half (setDdname value)).map fun s => (s, true)
  | some .cuu =>
      match s.phalf with
      | none => some (s, false)
      | some half =>
          next.bind fun value => (s.setHalf half (setCuu value)).map fun s => (s, true)

def xfigIface (s : Xfig) : List Token → Option Xfig
  | [] => some s
  | ptoken :: pptoken =>
      match xfigToken s ptoken pptoken.head? with
      | none => none
      | some (s, false) => xfigIface s pptoken
      | some (s, true) =>
          match pptoken with
          -- the pointer is behind the null pointer that ends the list
          | [] => none
          | _ :: later => xfigIface s later

/-! ## Defaults -/

def nif0 : Fignif where
  type := .loop
  enabled := true
  dfgw := false
  ip := dot2ip ['1', '2', '7', '.', '0', '.', '0', '.', '1']
  mask := dot2ip ['2', '5', '5', '.', '0', '.', '0', '.', '0']
  gwip := 0
  read := ⟨['L', 'O', 'O', 'P', ' ', ' ', ' ', ' '], 0, rfl⟩
  write := ⟨['L', 'O', 'O', 'P', ' ', ' ', ' ', ' '], 0, rfl⟩

def nif1 : Fignif where
  type := .loop
  enabled := true
  dfgw := true
  ip := dot2ip ['1', '9', '2', '.', '1', '6', '8', '.', '2', '0', '0', '.', '1']
  mask := dot2ip ['2', '5', '5', '.', '2', '5', '5', '.', '2', '5', '5', '.', '0']
  gwip := dot2ip ['1', '9', '2', '.', '1', '6', '8', '.', '0', '.', '1']
  read := ⟨['C', 'T', 'C', '5', '0', '0', ' ', ' '], 0x500, rfl⟩
  write := ⟨['C', 'T', 'C', '5', '0', '1', ' ', ' '], 0x501, rfl⟩

def nif2 : Fignif where
  type := .loop
  enabled := false
  dfgw := false
  ip := dot2ip ['1', '0', '.', '1', '1', '.', '1', '2', '.', '1']
  mask := dot2ip ['2', '5', '5', '.', '0', '.', '0', '.', '0']
  gwip := 0
  read := ⟨['C', 'T', 'C', '5', '0', '2', ' ', ' '], 0x504, rfl⟩
  write := ⟨['C', 'T', 'C', '5', '0', '5', '3', ' '], 0x505, rfl⟩

def nif3 : Fignif where
  type := .loop
  enabled := false
  dfgw := false
  ip := dot2ip ['1', '9', '2', '.', '1', '6', '8', '.', '2', '5', '4', '.', '3', '0']
  mask := dot2ip ['2', '5', '5', '.', '2', '5', '5', '.', '2', '5', '5', '.', '0']
  gwip := 0
  read := ⟨['C', 'T', 'C', '5', '0', '4', ' ', ' '], 0x510, rfl⟩
  write := ⟨['C', 'T', 'C', '5', '0', '5', ' ', ' '], 0x511, rfl⟩

/-- `xconfig` in front of the first line. -/
def xconfig : Xfig where
  nif := ![nif0, nif1, nif2, nif3]
  iface := 0
  phalf := none
  own := fun _ none => by cases none

end MvsXinu.Config
