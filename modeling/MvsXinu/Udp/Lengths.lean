import MvsXinu.Ip.Cksums
import MvsXinu.Ip.Outbound
import MvsXinu.Net.PacketPaths
import MvsXinu.Udp.Ports

/-!
# Lengths of UDP datagrams (`udp_in.c`, `dgread.c`, `dgwrite.c`)

`udp_in` compares `u_len` with nothing, and `dgread` takes it for the length of what it copies.
`dgwrite` compares the length with the longest datagram that `struct udp` has room for and
takes a buffer from the pool of small ones.
-/

namespace MvsXinu.UdpLengths

open MvsXinu.Octets MvsXinu.Ip
open MvsXinu.Net (udpLen ipdstopts)
open MvsXinu.Datagrams (Upq upps upplen)
open MvsXinu.Outbound (Pip UdpCall Iface octets16 udpsend)

set_option autoImplicit false

abbrev Word := BitVec 32

def ok : Int := 1
def syserr : Int := -1
def timeout : Int := -3

def uHlen : Nat := 8
def xghlen : Nat := 8
def epHlen : Nat := 24
def epDlen : Nat := 1500

/-- `EP_MAXLEN`. -/
def maxnetbuf : Nat := epHlen + epDlen

def bpmaxb : Nat := 20 * 1024

/-- `IP_MAXLEN-(IP_MINHLEN<<2)-U_HLEN`. -/
def uMaxlen : Nat := bpmaxb - epHlen - 20 - uHlen

/-- The bits of `dg_mode`. -/
def dgNmode : Word := 1
def dgTmode : Word := 4
def dgCmode : Word := 8

structure Dgblk where
  dgLport : BitVec 16
  dgFip : Word
  dgFport : BitVec 16
  dgMode : Word

def Dgblk.has (pdg : Dgblk) (bit : Word) : Bool := pdg.dgMode &&& bit != 0

/-! ## `udp_in` -/

/-- The entry of `upqs` for a port. -/
def upqFor (upqs : Nat → Upq) (dst : Nat) : Option Upq :=
  ((List.range upps).map upqs).find? fun pup => pup.port.toNat == dst

/-- With the packet as it is queued and the port that it is queued at. A checksum of zero is not
looked at. -/
def udpIn (upqs : Nat → Upq) (pcount : Int → Nat) (pip : Packet) : Int × Option (Int × Packet) :=
  let checked :=
    if halfword pip 26 ≠ 0 then Cksums.udpcksum pip (udpLen pip) else (pip, 0)
  if checked.2 ≠ 0 then (syserr, none)
  else
    match upqFor upqs (halfword checked.1 22) with
    | none => (ok, none)
    | some pup =>
        if upplen ≤ pcount pup.xport then (syserr, none)
        else (ok, some (pup.xport, checked.1))

/-! ## `dgread` -/

/-- What a reader finds that does not wait for ever: who waits at the entry, how many datagrams
are queued, and whether its time runs out. -/
structure Scene where
  upPid : Int
  queued : Int
  timedOut : Bool

/-- What `dgread` copies to the caller, and its result. -/
structure Reading where
  header : List Octet
  data : List Octet
  datalen : Word

/-- Behind `preceive`. -/
def copyOut (pdg : Dgblk) (pip : Packet) (len : Word) : Except Int Reading :=
  let datalen := BitVec.ofNat 32 (udpLen pip) - BitVec.ofNat 32 uHlen
  if pdg.has dgNmode then
    if len.ult (datalen + BitVec.ofNat 32 xghlen) then .error syserr
    else
      .ok
        { header := fetch pip 12 4 ++ fetch pip 20 2 ++ octets16 pdg.dgLport
          data := fetch pip 28 datalen.toNat
          datalen := datalen }
  else
    let datalen := if len.ult datalen then len else datalen
    .ok { header := [], data := fetch pip 28 datalen.toNat, datalen := datalen }

def dgread (pdg : Dgblk) (scene : Scene) (pip : Packet) (len : Word) : Except Int Reading :=
  if pdg.has dgTmode then
    if ¬ Datagrams.isbadpid scene.upPid then .error syserr
    else if scene.queued ≤ 0 ∧ scene.timedOut then .error timeout
    else copyOut pdg pip len
  else copyOut pdg pip len

/-! ## `dgwrite` -/

/-- What `dgwrite` asks the rest of the system for: a buffer, the route to an address, and the
time to live for it. -/
structure Network where
  netpool : Option Pip
  rtget : Word → Option Iface
  ttl : Word → Octet
  ipackid : BitVec 16

def address (user : Storage) (place : Int) : Word :=
  user place ++ user (place + 1) ++ user (place + 2) ++ user (place + 3)

def port (user : Storage) (place : Int) : BitVec 16 := user place ++ user (place + 1)

def Network.send (network : Network) (pdg : Dgblk) (pep : Pip) (ipa : Word) (dst : BitVec 16)
    (data : List Octet) : Option Pip :=
  udpsend network.ipackid pep
    { fip := ipa, fport := dst, lport := pdg.dgLport, data := data, docksum := pdg.has dgCmode
      route := network.rtget ipa, ttl := network.ttl ipa }

/-- `none` is `SYSERR`. -/
def dgwrite (network : Network) (pdg : Dgblk) (user : Storage) (pxg : Int) (len : Word) :
    Option Pip :=
  if uMaxlen < len.toNat then none
  else
    match network.netpool with
    | none => none
    | some pep =>
        if pdg.has dgNmode then
          let named := decide (pdg.dgFport = 0)
          network.send pdg pep (if named then address user pxg else pdg.dgFip)
            (if named then port user (pxg + 4) else pdg.dgFport) (fetch user (pxg + 8) len.toNat)
        else if pdg.dgFport = 0 then none
        else network.send pdg pep pdg.dgFip pdg.dgFport (fetch user pxg len.toNat)

/-! ## The law of lengths -/

/-- The data of a datagram, as far as they are in the payload that was received. -/
def udpData (pip : Packet) : List Octet := ((payload pip).take (udpLen pip)).drop uHlen

structure ReadLaw (arrived : Packet) (len : Word) (reading : Reading) : Prop where
  fits : reading.header.length + reading.data.length ≤ len.toNat
  received : reading.data <+: udpData arrived
  counted : reading.datalen.toNat = reading.data.length

/-- The datagram with its headers, in a buffer that it follows the header of the frame in. -/
def WriteLaw (sent : Pip) : Prop := epHlen + sent.octets.length ≤ maxnetbuf

/-- The octets of UDP data that there is room for in the IP payload. -/
def room (pip : Packet) : Nat := (ipLen pip - 20).toNat - uHlen

/-- `dgread` comes to the copying. -/
def Copies (pdg : Dgblk) (scene : Scene) : Prop :=
  pdg.has dgTmode → Datagrams.isbadpid scene.upPid ∧ (0 < scene.queued ∨ scene.timedOut = false)

/-- Nothing is copied, or `u_len` has the UDP header in it and what is copied was received. -/
def ReadFits (pdg : Dgblk) (scene : Scene) (pip : Packet) (len : Word) : Prop :=
  Copies pdg scene →
    if pdg.has dgNmode then
      len.toNat < udpLen pip ∨ (uHlen ≤ udpLen pip ∧ udpLen pip - uHlen ≤ room pip)
    else len = 0 ∨ (uHlen ≤ udpLen pip ∧ min (udpLen pip - uHlen) len.toNat ≤ room pip)

/-- The address that a datagram goes to, if there is one. -/
def destination (pdg : Dgblk) (user : Storage) (pxg : Int) : Option Word :=
  if pdg.dgFport ≠ 0 then some pdg.dgFip
  else if pdg.has dgNmode then some (address user pxg)
  else none

/-- The datagram is refused, or there is room for its data behind the headers. -/
def WriteFits (network : Network) (pdg : Dgblk) (user : Storage) (pxg : Int) (len : Word) : Prop :=
  uMaxlen < len.toNat ∨ network.netpool = none ∨
    (∀ ipa ∈ destination pdg user pxg, pdg.has dgCmode ∧ network.rtget ipa = none) ∨
      len.toNat ≤ epDlen - 20 - uHlen

end MvsXinu.UdpLengths
