import RsvpTe.Lib.Buffer
import RsvpTe.Protocol

/-!
# The message builder (`rsvp_builder.c`)

A `Builder` owns a zeroed buffer of a fixed size and a write cursor.  Objects are appended
by `rsvpBuilderAddObj`, which refuses an object that does not fit, and
`rsvpBuilderFinalize` fills in the length and the one's-complement checksum.

The result code of the C functions is the first component; every sender of the state machine
ignores it.
-/

namespace Rsvp

open Words

/-! ## Checksum -/

/-- The summing loop of `rsvp_checksum`: 16-bit words in network order into a 32-bit
accumulator, a left-over byte as a high half. -/
def sumWords (acc : Nat) : Bytes → Nat
  | a :: b :: rest => sumWords ((acc + (ntohs (le16 a b)).toNat) % 2 ^ 32) rest
  | [a] => (acc + a.toNat * 256) % 2 ^ 32
  | [] => acc

/-- `while (sum >> 16) sum = (sum & 0xffff) + (sum >> 16);` -/
def foldCarry : Nat → Nat → Nat
  | 0, sum => sum
  | fuel + 1, sum =>
    if sum / 65536 = 0 then sum else foldCarry fuel (sum % 65536 + sum / 65536)

/-- `htons((uint16_t)(~sum))` of the folded sum.  Three rounds fold every 32-bit sum
(`foldCarry_lt`). -/
def complementSum (sum : Nat) : UInt16 :=
  htons (UInt16.ofNat (65535 - foldCarry 3 sum % 65536))

def rsvpChecksum (buf : Bytes) : UInt16 := complementSum (sumWords 0 buf)

/-- `rsvp_checksum_verify`: 0 when the checksum field equals the sum of everything else. -/
def rsvpChecksumVerify (buf : Bytes) : Int :=
  match buf with
  | a :: b :: c :: d :: rest =>
    let sum := sumWords (ntohs (le16 a b)).toNat rest
    if le16 c d = complementSum sum then 0 else -1
  | _ => -1

theorem foldCarry_lt {sum : Nat} (bound : sum < 2 ^ 32) : foldCarry 3 sum < 65536 := by
  simp only [foldCarry]
  split_ifs <;> omega

/-! ## The builder -/

/-- `struct rsvp_builder`; `hdr` is the start of `buffer`. -/
structure Builder : Type where
  buffer : Bytes
  size : Nat
  offset : Nat
  deriving DecidableEq, Repr

def rsvpBuilderInit (size : Nat) (msgType : UInt8) : Builder :=
  let zeroed : Bytes := List.replicate size 0
  let typed := Buffer.write zeroed 0 [rsvpVersion <<< 4, msgType]
  ⟨Buffer.write typed 4 [255], size, commonHdrLen⟩

/-- `b.hdr->ttl = ttl;` -/
def Builder.setTtl (b : Builder) (ttl : UInt8) : Builder :=
  { b with buffer := Buffer.write b.buffer 4 [ttl] }

def rsvpBuilderAddObj (b : Builder) (classNum cType : UInt8) (data : Bytes) : Int × Builder :=
  let objTotalLen := objHdrLen + data.length
  let alignedLen := rsvpAlign objTotalLen
  if b.offset + alignedLen > b.size then (-1, b)
  else
    let objHdr := bytes16 (htons (UInt16.ofNat objTotalLen)) ++ [classNum, cType]
    let withHdr := Buffer.write b.buffer b.offset objHdr
    let withData := Buffer.write withHdr (b.offset + objHdrLen) data
    (0, { b with buffer := withData, offset := b.offset + alignedLen })

/-- `rsvp_builder_finalize`: the length, then a zero checksum, then the checksum of the
whole message. -/
def rsvpBuilderFinalize (b : Builder) : Nat × Builder :=
  let withLen := Buffer.write b.buffer 6 (bytes16 (htons (UInt16.ofNat b.offset)))
  let zeroSum := Buffer.write withLen 2 (bytes16 0)
  let sum := rsvpChecksum (zeroSum.take b.offset)
  (b.offset, { b with buffer := Buffer.write zeroSum 2 (bytes16 sum) })

/-- The finished message: the first `len` bytes of the buffer, as a sender hands them on. -/
def Builder.finish (b : Builder) : Bytes :=
  let (len, done) := rsvpBuilderFinalize b
  done.buffer.take len

/-! ## Objects -/

/-- The SESSION payload is rebuilt from three fields; `memset` leaves `reserved` zero. -/
def rsvpBuilderAddSessionIpv4 (b : Builder) (dest : InAddr) (tunnelId : UInt16)
    (extTunnelId : InAddr) : Int × Builder :=
  rsvpBuilderAddObj b classSession 7 (SessionIpv4.bytes ⟨dest, 0, htons tunnelId, extTunnelId⟩)

/-- At most 255 bytes of the name are sent; `name_length` is that count. -/
def rsvpBuilderAddSessionAttributeEx (b : Builder) (name : Option Bytes)
    (setupPrio holdingPrio flags : UInt8) : Int × Builder :=
  let sent := (name.getD []).take 255
  rsvpBuilderAddObj b classSessionAttrib 7
    ([setupPrio, holdingPrio, flags, UInt8.ofNat sent.length] ++ sent)

def rsvpBuilderAddFastReroute (b : Builder) (setupPrio holdingPrio hopLimit flags : UInt8)
    (bandwidth : UInt32) : Int × Builder :=
  rsvpBuilderAddObj b classFastReroute 1
    (FastReroute.bytes ⟨setupPrio, holdingPrio, hopLimit, flags, htonl bandwidth, 0, 0, 0⟩)

def rsvpBuilderAddHopIpv4 (b : Builder) (neighbor : InAddr) (logicalIntf : UInt32) :
    Int × Builder :=
  rsvpBuilderAddObj b classHop 1 (HopIpv4.bytes ⟨neighbor, htonl logicalIntf⟩)

def rsvpBuilderAddLabelIpv4 (b : Builder) (label : UInt32) : Int × Builder :=
  rsvpBuilderAddObj b classLabel 1 (bytes32 (htonl label))

def rsvpBuilderAddLabelRequest (b : Builder) (l3pid : UInt16) : Int × Builder :=
  rsvpBuilderAddObj b classLabelRequest 1 (bytes16 0 ++ bytes16 (htons l3pid))

def rsvpBuilderAddStyle (b : Builder) (styleVal : UInt32) : Int × Builder :=
  rsvpBuilderAddObj b classStyle 1 (bytes32 (htonl styleVal))

def rsvpBuilderAddTimeValues (b : Builder) (refreshMs : UInt32) : Int × Builder :=
  rsvpBuilderAddObj b classTimeValues 1 (bytes32 (htonl refreshMs))

/-- The host-order traffic specification in network order; the length is always rewritten
to the seven words of the structure. -/
def wireTspec (t : SenderTspec) : SenderTspec :=
  { t with
    length := htons 7
    svcLength := htons t.svcLength
    paramLength := htons t.paramLength
    tokenBucketRate := htonl t.tokenBucketRate
    tokenBucketSize := htonl t.tokenBucketSize
    peakDataRate := htonl t.peakDataRate
    minPolicedUnit := htonl t.minPolicedUnit
    maxPacketSize := htonl t.maxPacketSize }

def rsvpBuilderAddTspec (b : Builder) (t : SenderTspec) : Int × Builder :=
  rsvpBuilderAddObj b classSenderTspec 2 (wireTspec t).bytes

def rsvpBuilderAddFlowspec (b : Builder) (t : SenderTspec) : Int × Builder :=
  rsvpBuilderAddObj b classFlowspec 2 (wireTspec t).bytes

/-- `rsvp_builder_add_ero` and `rsvp_builder_add_rro` refuse an empty list. -/
def rsvpBuilderAddRoute (b : Builder) (classNum : UInt8) (hops : List EroSubobj) :
    Int × Builder :=
  if hops = [] then (-3, b)
  else rsvpBuilderAddObj b classNum 1 (hops.flatMap EroSubobj.bytes)

def rsvpBuilderAddEro (b : Builder) (eroList : List EroSubobj) : Int × Builder :=
  rsvpBuilderAddRoute b classExplicitRoute eroList

def rsvpBuilderAddRro (b : Builder) (rroList : List EroSubobj) : Int × Builder :=
  rsvpBuilderAddRoute b classRecordRoute rroList

def rsvpBuilderAddHello (b : Builder) (srcInstance dstInstance : UInt32) (cType : UInt8) :
    Int × Builder :=
  rsvpBuilderAddObj b classHello cType (bytes32 (htonl srcInstance) ++ bytes32 (htonl dstInstance))

end Rsvp
