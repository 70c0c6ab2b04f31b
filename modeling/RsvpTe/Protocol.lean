import RsvpTe.Lib.Words

/-!
# Wire structures (`rsvp_protocol.h`, `rsvp_error.h`)

Every packed structure of the protocol header is a record whose fields hold what a
little-endian host loads from memory, so that a multi-byte field is in network order until
`ntohs`, `ntohl` convert it, exactly as in the source.  `X.bytes` is the memory image of a
structure and `X.ofBytes` the structure a pointer cast reads at that memory.

The IPv6 structures, INTEGRITY, ADSPEC, DETOUR and SESSION_ATTRIBUTE with affinities are only
measured by the parser (`Slot.minLen`) and have no record of their own.
-/

namespace Rsvp

open Words

/-- `struct in_addr`: the four address bytes as the host loads them (`s_addr`). -/
abbrev InAddr : Type := UInt32

/-- `ntohs` and `htons` of a little-endian host. -/
abbrev ntohs (v : UInt16) : UInt16 := bswap16 v
abbrev htons (v : UInt16) : UInt16 := bswap16 v

/-- `ntohl` and `htonl` of a little-endian host. -/
abbrev ntohl (v : UInt32) : UInt32 := bswap32 v
abbrev htonl (v : UInt32) : UInt32 := bswap32 v

/-- `rsvp_error_t`, with `RSVP_SUCCESS` left to the successful results. -/
inductive RsvpError : Type
  | malformedObj
  | memAlloc
  | invalidParam
  | notFound
  | timeout
  | sys
  | bufferTooSmall
  | checksum
  | sendFailed
  | unknownClass
  | noRoute
  | frrNotConfigured
  | alreadyExists
  deriving DecidableEq, Repr

/-! ## Message types, object classes and constants -/

def msgPath : UInt8 := 1
def msgResv : UInt8 := 2
def msgPathErr : UInt8 := 3
def msgResvErr : UInt8 := 4
def msgPathTear : UInt8 := 5
def msgResvTear : UInt8 := 6
def msgHello : UInt8 := 20

def classSession : UInt8 := 1
def classHop : UInt8 := 3
def classIntegrity : UInt8 := 4
def classTimeValues : UInt8 := 5
def classErrorSpec : UInt8 := 6
def classStyle : UInt8 := 8
def classFlowspec : UInt8 := 9
def classFilterSpec : UInt8 := 10
def classSenderTemplate : UInt8 := 11
def classSenderTspec : UInt8 := 12
def classAdspec : UInt8 := 13
def classLabel : UInt8 := 16
def classLabelRequest : UInt8 := 19
def classExplicitRoute : UInt8 := 20
def classRecordRoute : UInt8 := 21
def classHello : UInt8 := 22
def classDetour : UInt8 := 63
def classFastReroute : UInt8 := 205
def classSessionAttrib : UInt8 := 207

def helloCtypeRequest : UInt8 := 1
def helloCtypeAck : UInt8 := 2

def rsvpVersion : UInt8 := 1

def eroIpv4 : UInt8 := 1

def sessattrLocalProtDesired : UInt8 := 0x01
def sessattrSeStyle : UInt8 := 0x04
def sessattrLocalProtInUse : UInt8 := 0x08
def sessattrBwProtection : UInt8 := 0x20

def frrFlagOneToOne : UInt8 := 0x01
def frrFlagFacility : UInt8 := 0x02

def styleFf : UInt32 := 10

def protoErrAdmissionControl : UInt8 := 1
def protoErrNoPathState : UInt8 := 3
def protoErrRoutingProblem : UInt8 := 24

/-- `sizeof(struct iphdr)`, `sizeof(struct rsvp_common_hdr)`, `sizeof(struct rsvp_obj_hdr)`. -/
def iphdrLen : Nat := 20
def commonHdrLen : Nat := 8
def objHdrLen : Nat := 4

/-- `RSVP_ALIGN`: round up to a multiple of four. -/
def rsvpAlign (len : Nat) : Nat := (len + 3) / 4 * 4

/-- `struct rsvp_common_hdr`. -/
structure CommonHdr : Type where
  verFlags : UInt8
  msgType : UInt8
  checksum : UInt16
  ttl : UInt8
  reserved : UInt8
  length : UInt16
  deriving DecidableEq, Repr

def CommonHdr.ofBytes (d : Bytes) : CommonHdr :=
  ⟨u8At d 0, u8At d 1, u16At d 2, u8At d 4, u8At d 5, u16At d 6⟩

/-- `struct rsvp_session_ipv4`. -/
structure SessionIpv4 : Type where
  destAddr : InAddr
  reserved : UInt16
  tunnelId : UInt16
  extendedTunnelId : InAddr
  deriving DecidableEq, Repr

def SessionIpv4.bytes (s : SessionIpv4) : Bytes :=
  bytes32 s.destAddr ++ bytes16 s.reserved ++ bytes16 s.tunnelId ++ bytes32 s.extendedTunnelId

def SessionIpv4.ofBytes (d : Bytes) : SessionIpv4 :=
  ⟨u32At d 0, u16At d 4, u16At d 6, u32At d 8⟩

/-- `struct rsvp_sender_ipv4`. -/
structure SenderIpv4 : Type where
  sourceAddr : InAddr
  reserved : UInt16
  lspId : UInt16
  deriving DecidableEq, Repr

def SenderIpv4.bytes (s : SenderIpv4) : Bytes :=
  bytes32 s.sourceAddr ++ bytes16 s.reserved ++ bytes16 s.lspId

def SenderIpv4.ofBytes (d : Bytes) : SenderIpv4 :=
  ⟨u32At d 0, u16At d 4, u16At d 6⟩

/-- `struct rsvp_path_key`: what every state table compares with `memcmp`, byte for byte. -/
structure PathKey : Type where
  session : SessionIpv4
  sender : SenderIpv4
  deriving DecidableEq, Repr

/-- The key `memset` leaves behind. -/
def PathKey.zero : PathKey := ⟨⟨0, 0, 0, 0⟩, ⟨0, 0, 0⟩⟩

/-- `struct rsvp_hop_ipv4`. -/
structure HopIpv4 : Type where
  neighborAddr : InAddr
  logicalInterface : UInt32
  deriving DecidableEq, Repr

def HopIpv4.bytes (h : HopIpv4) : Bytes :=
  bytes32 h.neighborAddr ++ bytes32 h.logicalInterface

def HopIpv4.ofBytes (d : Bytes) : HopIpv4 := ⟨u32At d 0, u32At d 4⟩

/-- `struct rsvp_ero_ipv4_subobj`, the subobject of ERO and RRO alike. -/
structure EroSubobj : Type where
  type : UInt8
  length : UInt8
  addr : InAddr
  prefixLen : UInt8
  res : UInt8
  deriving DecidableEq, Repr

def EroSubobj.bytes (e : EroSubobj) : Bytes :=
  [e.type, e.length] ++ bytes32 e.addr ++ [e.prefixLen, e.res]

def EroSubobj.ofBytes (d : Bytes) : EroSubobj :=
  ⟨u8At d 0, u8At d 1, u32At d 2, u8At d 6, u8At d 7⟩

/-- `struct rsvp_error_spec_ipv4`. -/
structure ErrorSpec : Type where
  errorNode : InAddr
  flags : UInt8
  errorCode : UInt8
  errorValue : UInt16
  deriving DecidableEq, Repr

def ErrorSpec.bytes (e : ErrorSpec) : Bytes :=
  bytes32 e.errorNode ++ [e.flags, e.errorCode] ++ bytes16 e.errorValue

def ErrorSpec.ofBytes (d : Bytes) : ErrorSpec :=
  ⟨u32At d 0, u8At d 4, u8At d 5, u16At d 6⟩

/-- `struct rsvp_sender_tspec`; a `float` is its 32-bit pattern. -/
structure SenderTspec : Type where
  version : UInt8
  reserved : UInt8
  length : UInt16
  serviceHdr : UInt8
  reserved2 : UInt8
  svcLength : UInt16
  paramId : UInt8
  flags : UInt8
  paramLength : UInt16
  tokenBucketRate : UInt32
  tokenBucketSize : UInt32
  peakDataRate : UInt32
  minPolicedUnit : UInt32
  maxPacketSize : UInt32
  deriving DecidableEq, Repr

def SenderTspec.zero : SenderTspec := ⟨0, 0, 0, 0, 0, 0, 0, 0, 0, 0, 0, 0, 0, 0⟩

def SenderTspec.bytes (t : SenderTspec) : Bytes :=
  [t.version, t.reserved] ++ bytes16 t.length ++ [t.serviceHdr, t.reserved2] ++
    bytes16 t.svcLength ++ [t.paramId, t.flags] ++ bytes16 t.paramLength ++
    bytes32 t.tokenBucketRate ++ bytes32 t.tokenBucketSize ++ bytes32 t.peakDataRate ++
    bytes32 t.minPolicedUnit ++ bytes32 t.maxPacketSize

def SenderTspec.ofBytes (d : Bytes) : SenderTspec :=
  ⟨u8At d 0, u8At d 1, u16At d 2, u8At d 4, u8At d 5, u16At d 6, u8At d 8, u8At d 9,
    u16At d 10, u32At d 12, u32At d 16, u32At d 20, u32At d 24, u32At d 28⟩

/-- `struct rsvp_fast_reroute`. -/
structure FastReroute : Type where
  setupPrio : UInt8
  holdingPrio : UInt8
  hopLimit : UInt8
  flags : UInt8
  bandwidth : UInt32
  includeAny : UInt32
  excludeAny : UInt32
  includeAll : UInt32
  deriving DecidableEq, Repr

def FastReroute.bytes (f : FastReroute) : Bytes :=
  [f.setupPrio, f.holdingPrio, f.hopLimit, f.flags] ++ bytes32 f.bandwidth ++
    bytes32 f.includeAny ++ bytes32 f.excludeAny ++ bytes32 f.includeAll

def FastReroute.ofBytes (d : Bytes) : FastReroute :=
  ⟨u8At d 0, u8At d 1, u8At d 2, u8At d 3, u32At d 4, u32At d 8, u32At d 12, u32At d 16⟩

/-! ## A structure read where it was written is itself -/

theorem SessionIpv4.ofBytes_bytes (s : SessionIpv4) (rest : Bytes) :
    SessionIpv4.ofBytes (s.bytes ++ rest) = s := by
  simp [SessionIpv4.ofBytes, SessionIpv4.bytes, bytes32, bytes16, u32At, u16At, u8At]

theorem SenderIpv4.ofBytes_bytes (s : SenderIpv4) (rest : Bytes) :
    SenderIpv4.ofBytes (s.bytes ++ rest) = s := by
  simp [SenderIpv4.ofBytes, SenderIpv4.bytes, bytes32, bytes16, u32At, u16At, u8At]

theorem HopIpv4.ofBytes_bytes (h : HopIpv4) (rest : Bytes) :
    HopIpv4.ofBytes (h.bytes ++ rest) = h := by
  simp [HopIpv4.ofBytes, HopIpv4.bytes, bytes32, u32At, u8At]

@[simp] theorem SessionIpv4.length_bytes (s : SessionIpv4) : s.bytes.length = 12 := rfl

@[simp] theorem SenderIpv4.length_bytes (s : SenderIpv4) : s.bytes.length = 8 := rfl

@[simp] theorem HopIpv4.length_bytes (h : HopIpv4) : h.bytes.length = 8 := rfl

@[simp] theorem EroSubobj.length_bytes (e : EroSubobj) : e.bytes.length = 8 := rfl

@[simp] theorem ErrorSpec.length_bytes (e : ErrorSpec) : e.bytes.length = 8 := rfl

@[simp] theorem SenderTspec.length_bytes (t : SenderTspec) : t.bytes.length = 32 := rfl

@[simp] theorem FastReroute.length_bytes (f : FastReroute) : f.bytes.length = 20 := rfl

theorem le_rsvpAlign (len : Nat) : len ≤ rsvpAlign len := by
  unfold rsvpAlign
  omega

theorem rsvpAlign_mod (len : Nat) : rsvpAlign len % 4 = 0 := by
  unfold rsvpAlign
  omega

end Rsvp
