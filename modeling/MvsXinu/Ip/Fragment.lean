import MvsXinu.Ip.Packet

/-!
# Fragmentation (`ipputp.c`, `ipfsend.c`, `ipfhcopy.c`, `ipcksum.c`)

The interface is up and takes every packet, and the buffers are available, so what
`ipputp` does is the list of packets it hands to `netwrite`.
-/

namespace MvsXinu.Ip

open MvsXinu.Octets

set_option autoImplicit false

def ipoNop : Octet := 1
def ipoEoop : Octet := 0

/-- `otype & IPO_COPY`. -/
def ipoCopy (otype : Octet) : Bool := decide (128 ≤ otype.toNat)

def stevensCksum (addr : Packet) (len : Nat) : Nat :=
  let words := ((List.range (len / 2)).map fun word : Nat => halfword addr (2 * (word : Int))).sum
  let sum := words + if len % 2 = 1 then 256 * (addr ((len : Int) - 1)).toNat else 0
  let folded := sum / 65536 + sum % 65536
  65535 - (folded + folded / 65536) % 65536

def ipcksum (pip : Packet) : Nat := stevensCksum (putHalfword pip 10 0) (ipHlen pip).toNat

/-! ## The header of a fragment -/

/-- The option loop. `pepfrom` gives the packet that is read when `pepto` has been written
so far: the two are the same buffer for the last fragment. -/
def optionLoop (pepfrom : Packet → Packet) (maxhlen : Int) :
    Nat → Packet → Int → Int → Packet × Int
  | 0, pepto, hlen, _ => (pepto, hlen)
  | fuel + 1, pepto, hlen, i =>
      if i < maxhlen then
        let otype := pepfrom pepto i
        let olen := (pepfrom pepto (i + 1)).toNat
        if ipoCopy otype then
          optionLoop pepfrom maxhlen fuel (memcpy pepto hlen (fetch (pepfrom pepto) i olen))
            (hlen + olen) (i + olen)
        else if otype = ipoEoop then (memcpy pepto hlen [otype], hlen + 1)
        else if otype = ipoNop then
          optionLoop pepfrom maxhlen fuel (memcpy pepto hlen [otype]) (hlen + 1) (i + 1)
        else optionLoop pepfrom maxhlen fuel pepto hlen (i + olen)
      else (pepto, hlen)

/-- The octets that are missing to a multiple of 4. -/
def padding (hlen : Int) : Nat := ((4 - hlen % 4) % 4).toNat

/-- A header has at most 40 octets of options, and every option takes at least one. -/
def optionFuel : Nat := 40

/-- `shared` tells that both arguments of the source are the same buffer. -/
def ipfhcopy (pepto pepfrom : Packet) (shared : Bool) (offindg : Int) : Packet × Int :=
  if offindg = 0 then
    (memcpy pepto 0 (fetch pepfrom 0 (ipHlen pepfrom).toNat), ipHlen pepfrom)
  else
    let reads : Packet → Packet := if shared then id else fun _ => pepfrom
    let copied := optionLoop reads (ipHlen pepfrom) optionFuel
      (memcpy pepto 0 (fetch pepfrom 0 20)) 20 20
    (memcpy copied.1 copied.2 (List.replicate (padding copied.2) ipoNop),
      copied.2 + padding copied.2)

/-- The fields of a fragment and its checksum over `summed` octets. -/
def putFields (pip : Packet) (fragoff : Nat) (len : Int) : Packet :=
  putHalfword (putHalfword (putHalfword pip 6 fragoff) 2 len.toNat) 10 0

/-- `buffer` is what the new network buffer held before. -/
def ipfsend (buffer pep : Packet) (offset maxdlen offindg : Int) : Packet :=
  let copied := ipfhcopy buffer pep false offindg
  let pipnew := putFields copied.1 (8192 + (offindg / 8).toNat) (maxdlen + copied.2)
  let summed := putHalfword pipnew 10 (stevensCksum pipnew copied.2.toNat)
  memcpy summed copied.2 (fetch pep (ipHlen pep + offset) maxdlen.toNat)

/-- The last fragment, which takes the place of the datagram. -/
def lastFragment (pep : Packet) (offset tosend offindg : Int) : Packet :=
  let copied := ipfhcopy pep pep true offindg
  let slid := memcpy copied.1 copied.2
    (fetch copied.1 (ipHlen copied.1 + offset) tosend.toNat)
  let more := if moreFragments slid then 8192 else 0
  let pip := putFields slid (more + (offindg / 8).toNat) (tosend + copied.2)
  putHalfword pip 10 (ipcksum pip)

/-- The fragment loop; each turn takes a new buffer. -/
def fragmentLoop (buffers : Nat → Packet) (pep : Packet) (maxdlen : Int) :
    Nat → Int → Int → Int → List Packet
  | 0, _, _, _ => []
  | fuel + 1, tosend, offset, offindg =>
      if maxdlen < tosend then
        ipfsend (buffers fuel) pep offset maxdlen offindg ::
          fragmentLoop buffers pep maxdlen fuel (tosend - maxdlen) (offset + maxdlen)
            (offindg + maxdlen)
      else [lastFragment pep offset tosend offindg]

def ipputp (niMtu : Nat) (buffers : Nat → Packet) (pep : Packet) : List Packet :=
  if ipLen pep ≤ niMtu then
    let pip := putHalfword pep 10 0
    [putHalfword pip 10 (ipcksum pip)]
  else if dontFragment pep then []
  else
    let room := (niMtu : Int) - ipHlen pep
    let tosend := ipLen pep - ipHlen pep
    fragmentLoop buffers pep (room - room % 8) (tosend.toNat + 1) tosend 0 (packoff pep)

end MvsXinu.Ip
