import RsvpTe.Lib.Binary32
import RsvpTe.Parser
import RsvpTe.State

/-!
# Senders (`rsvp_state_machine.c`, `rsvp_send_packet`)

Every message the state machine emits, object by object in the order of the source.  A sender
ignores the result code of each builder call, builds in a buffer of fixed size and hands the
finished message to `rsvpSendPacket`, which puts an IPv4 header in front of it.
-/

namespace Rsvp

open Words

/-- A builder call whose result code is ignored. -/
def Builder.call (b : Builder) (f : Builder → Int × Builder) : Builder := (f b).2

def rsvpProtocol : UInt8 := 46
def maxRsvpPacketSize : Nat := 4096

/-- The IPv4 header with the checksum computed before the router alert option is filled in. -/
def ipHeader (src dest : InAddr) (ttl : UInt8) (totalLen : Nat) (useRao : Bool) : Bytes :=
  let fields (check : UInt16) : Bytes :=
    [if useRao then 0x46 else 0x45, 0] ++ bytes16 (htons (UInt16.ofNat totalLen)) ++
      bytes16 (htons 54321) ++ bytes16 0 ++ [ttl, rsvpProtocol] ++ bytes16 check ++
      bytes32 src ++ bytes32 dest
  let blank : Bytes := if useRao then [0, 0, 0, 0] else []
  let options : Bytes := if useRao then [148, 4, 0, 0] else []
  fields (rsvpChecksum (fields 0 ++ blank)) ++ options

/-- The packet `rsvp_send_packet` hands to the socket. -/
def rsvpPacket (src dest : InAddr) (msg : Bytes) (useRao : Bool) : Bytes :=
  let optlen := if useRao then 4 else 0
  let ttl := if commonHdrLen ≤ msg.length then u8At msg 4 else 255
  ipHeader src dest ttl (iphdrLen + optlen + msg.length) useRao ++ msg

def rsvpSendPacket (s : Node) (src dest : InAddr) (msg : Bytes) (useRao : Bool) : Node :=
  let optlen := if useRao then 4 else 0
  if iphdrLen + optlen + msg.length > maxRsvpPacketSize then s
  else s.emit (.packet dest useRao (rsvpPacket src dest msg useRao))

/-- Sending only extends the log. -/
theorem rsvpSendPacket_out (src dest : InAddr) (msg : Bytes) (useRao : Bool) :
    ∃ sent, ∀ s : Node, rsvpSendPacket s src dest msg useRao = { s with out := s.out ++ sent } := by
  by_cases long : iphdrLen + (if useRao then 4 else 0) + msg.length > maxRsvpPacketSize
  · refine ⟨[], fun s => (if_pos long).trans ?_⟩
    rw [List.append_nil]
  · exact ⟨[_], fun s => if_neg long⟩

/-- A packet that does not fit is dropped. -/
theorem rsvpSendPacket_cases (s : Node) (src dest : InAddr) (msg : Bytes) (useRao : Bool) :
    rsvpSendPacket s src dest msg useRao = s ∨
      rsvpSendPacket s src dest msg useRao =
        s.emit (.packet dest useRao (rsvpPacket src dest msg useRao)) :=
  ite_eq_or_eq _ _ _

/-! ## Helpers -/

/-- `tspec_copy_and_ntoh`: only the five 32-bit fields are converted. -/
def tspecCopyAndNtoh (src : SenderTspec) : SenderTspec :=
  { src with
    tokenBucketRate := ntohl src.tokenBucketRate
    tokenBucketSize := ntohl src.tokenBucketSize
    peakDataRate := ntohl src.peakDataRate
    minPolicedUnit := ntohl src.minPolicedUnit
    maxPacketSize := ntohl src.maxPacketSize }

/-- The first ERO hop is popped if it is this node. -/
def Route.popLocal (hal : Hal) (ero : Route) : Route :=
  match ero.hops with
  | [] => ero
  | hop :: _ =>
    if hop.addr = hal.localAddrOrZero 0 then
      ⟨ero.hops.tail, Nat.le_trans (by rw [List.length_tail]; omega) ero.short⟩
    else ero

/-- The first remaining ERO hop, or the tunnel endpoint. -/
def Route.ipDest (ero : Route) (key : PathKey) : InAddr :=
  match ero.hops with
  | [] => key.session.destAddr
  | hop :: _ => hop.addr

/-- The IP destination of a PATH, the interface toward it, and what is left of the ERO. -/
def resolvePathNextHop (hal : Hal) (key : PathKey) (psb : PsbState) :
    InAddr × Option UInt32 × Route :=
  let ero := psb.ero.popLocal hal
  let ipDest := ero.ipDest key
  (ipDest, hal.getEgressIf ipDest, ero)

def isFlowspecGte (a b : SenderTspec) : Bool :=
  Binary32.ge a.tokenBucketRate b.tokenBucketRate &&
    Binary32.ge a.tokenBucketSize b.tokenBucketSize

def rsvpIsBlockaded (s : Node) (rsb : Rsb) : Bool :=
  match s.rsvpBsbFind rsb.key with
  | none => false
  | some bsb => isFlowspecGte rsb.body.flowspec bsb.body.flowspecQb

/-- The Controlled-Load headers of a specification built here. -/
def controlledLoad : SenderTspec :=
  { SenderTspec.zero with
    length := 7
    serviceHdr := 5
    svcLength := 6
    paramId := 127
    paramLength := 5 }

def rsvpComputeMergedFlowspec (s : Node) (psb : PsbState) : SenderTspec :=
  match s.rsbOf psb with
  | none => controlledLoad
  | some rsb =>
    if rsvpIsBlockaded s rsb then controlledLoad
    else
      { controlledLoad with
        tokenBucketRate := rsb.body.flowspec.tokenBucketRate
        tokenBucketSize := rsb.body.flowspec.tokenBucketSize
        peakDataRate := rsb.body.flowspec.peakDataRate
        minPolicedUnit := rsb.body.flowspec.minPolicedUnit
        maxPacketSize := rsb.body.flowspec.maxPacketSize }

/-- `(ttl > 0) ? ttl - 1 : 255`. -/
def forwardTtl (ttl : UInt8) : UInt8 := if ttl > 0 then ttl - 1 else 255

/-- The SESSION object of a key, as every sender re-encodes it. -/
def addSession (key : PathKey) (b : Builder) : Int × Builder :=
  rsvpBuilderAddSessionIpv4 b key.session.destAddr (ntohs key.session.tunnelId)
    key.session.extendedTunnelId

/-- SENDER_TEMPLATE and FILTER_SPEC copy the sender part of the key. -/
def addSender (classNum : UInt8) (key : PathKey) (b : Builder) : Int × Builder :=
  rsvpBuilderAddObj b classNum 7 key.sender.bytes

def addErrorSpec (spec : ErrorSpec) (b : Builder) : Int × Builder :=
  rsvpBuilderAddObj b classErrorSpec 1 spec.bytes

/-! ## PATH -/

def sessAttrFlags (psb : PsbState) : UInt8 :=
  let desired := sessattrLocalProtDesired ||| sessattrSeStyle
  if psb.frrActive then
    let inUse := desired ||| sessattrLocalProtInUse
    if psb.frrMode = .facility then inUse ||| sessattrBwProtection else inUse
  else desired

/-- A PSB without a traffic specification sends a default of 1 Mbps. -/
def pathTspec (psb : PsbState) : SenderTspec :=
  if Binary32.isZero psb.tspec.tokenBucketRate then
    { psb.tspec with
      version := 0
      length := 7
      serviceHdr := 5
      svcLength := 6
      paramId := 127
      paramLength := 5
      tokenBucketRate := 0x49742400
      tokenBucketSize := 0x447A0000
      peakDataRate := 0x49742400
      minPolicedUnit := 64
      maxPacketSize := 1500 }
  else psb.tspec

/-- A full RRO is not sent at all. -/
def pathRro (psb : PsbState) (localAddr : InAddr) : List EroSubobj :=
  if psb.rro.hops.length < maxHops then
    psb.rro.hops ++ [⟨eroIpv4, 8, localAddr, 32, 0⟩]
  else []

def pathMessage (key : PathKey) (psb : PsbState) (localAddr : InAddr) (ifindex : UInt32) :
    Bytes :=
  let bandwidth := Binary32.ofUInt32 psb.frrBandwidth
  (rsvpBuilderInit 1500 msgPath).setTtl (forwardTtl psb.ttl)
    |>.call (addSession key)
    |>.call (rsvpBuilderAddHopIpv4 · localAddr ifindex)
    |>.call (rsvpBuilderAddTimeValues · psb.refreshMs)
    |>.call (rsvpBuilderAddEro · psb.ero.hops)
    |>.call (rsvpBuilderAddLabelRequest · 0x0800)
    |>.call (rsvpBuilderAddSessionAttributeEx · psb.lspName psb.setupPrio psb.holdingPrio
      (sessAttrFlags psb))
    |>.call (fun b =>
      if psb.frrMode ≠ .none ∧ psb.isBypassTunnel = false then
        rsvpBuilderAddFastReroute b psb.setupPrio psb.holdingPrio 32 frrFlagFacility bandwidth
      else (0, b))
    |>.call (addSender classSenderTemplate key)
    |>.call (rsvpBuilderAddTspec · (pathTspec psb))
    |>.call (rsvpBuilderAddRro · (pathRro psb localAddr))
    |>.finish

/-- The PATH for a PSB: its address and the interface it leaves through are stored first. -/
def sendPathDownstream (env : Env) (s : Node) (p : Ptr) : Node :=
  match s.psbs.get p with
  | none => s
  | some psb =>
    let (ipDest, ifindex, ero) := resolvePathNextHop env.toHal psb.key psb.body
    let popped := s.modPsb p fun b => { b with ero := ero }
    match ifindex with
    | none => popped
    | some ifindex =>
      let routed := popped.modPsb p fun b => { b with ifindexOut := ifindex }
      let localAddr := (env.getLocalAddr ifindex).getD psb.key.sender.sourceAddr
      let body := { psb.body with ero := ero, ifindexOut := ifindex }
      rsvpSendPacket routed localAddr ipDest (pathMessage psb.key body localAddr ifindex) true

/-! ## RESV -/

def resvMessage (key : PathKey) (rsb : RsbState) (merged : SenderTspec) (localAddr : InAddr)
    (ifindex : UInt32) : Bytes :=
  let style := if rsb.style = 0 then styleFf else rsb.style.toUInt32
  (rsvpBuilderInit 1024 msgResv).setTtl (forwardTtl rsb.ttl)
    |>.call (addSession key)
    |>.call (rsvpBuilderAddHopIpv4 · localAddr ifindex)
    |>.call (rsvpBuilderAddTimeValues · rsb.refreshMs)
    |>.call (rsvpBuilderAddStyle · style)
    |>.call (rsvpBuilderAddFlowspec · merged)
    |>.call (addSender classFilterSpec key)
    |>.call (rsvpBuilderAddLabelIpv4 · rsb.labelIn)
    |>.finish

/-- The packet of a RESV for `rsb` toward the previous hop of `psb`.  Without a route to it the
interface index received in the PATH is echoed. -/
def sendResv (env : Env) (s : Node) (psb : Psb) (rsb : Rsb) : Node :=
  let nbr := psb.body.prevHop.neighborAddr
  let outIdx := env.getEgressIf nbr
  let localAddr := (outIdx.map env.localAddrOrZero).getD 0
  let ifindex := outIdx.getD psb.body.ifindexIn
  let merged := rsvpComputeMergedFlowspec s psb.body
  rsvpSendPacket s localAddr nbr (resvMessage psb.key rsb.body merged localAddr ifindex) false

/-- A label is allocated if the RSB has none; without a label nothing is sent. -/
def sendResvUpstream (env : Env) (s : Node) (r : Ptr) : Node :=
  match s.rsbs.get r with
  | none => s
  | some rsb =>
    match s.psbOf rsb.body with
    | none => s
    | some psb =>
      if rsb.body.labelIn = 0 then
        let (label, labels) := labelMgrAlloc s.labels
        let labelled := { s with labels := labels }.modRsb r fun b => { b with labelIn := label }
        if label = 0 then labelled
        else sendResv env labelled psb { rsb with body := { rsb.body with labelIn := label } }
      else sendResv env s psb rsb

/-! ## Tears -/

def pathTearMessage (key : PathKey) (psb : PsbState) (localAddr : InAddr) (ifindex : UInt32) :
    Bytes :=
  (rsvpBuilderInit 1024 msgPathTear).setTtl (forwardTtl psb.ttl)
    |>.call (addSession key)
    |>.call (rsvpBuilderAddHopIpv4 · localAddr ifindex)
    |>.call (addSender classSenderTemplate key)
    |>.finish

def propagatePathTear (env : Env) (s : Node) (p : Ptr) : Node :=
  match s.psbs.get p with
  | none => s
  | some psb =>
    let (ipDest, ifindex, ero) := resolvePathNextHop env.toHal psb.key psb.body
    let popped := s.modPsb p fun b => { b with ero := ero }
    match ifindex with
    | none => popped
    | some ifindex =>
      let localAddr := (env.getLocalAddr ifindex).getD psb.key.sender.sourceAddr
      rsvpSendPacket popped localAddr ipDest (pathTearMessage psb.key psb.body localAddr ifindex)
        true

def resvTearMessage (key : PathKey) (rsb : RsbState) (localAddr : InAddr) (ifindex : UInt32) :
    Bytes :=
  let style := if rsb.style = 0 then styleFf else rsb.style.toUInt32
  (rsvpBuilderInit 1024 msgResvTear)
    |>.call (addSession key)
    |>.call (rsvpBuilderAddHopIpv4 · localAddr ifindex)
    |>.call (rsvpBuilderAddStyle · style)
    |>.call (addSender classFilterSpec key)
    |>.finish

def propagateResvTear (env : Env) (s : Node) (r : Ptr) : Node :=
  match s.rsbs.get r with
  | none => s
  | some rsb =>
    match s.psbOf rsb.body with
    | none => s
    | some psb =>
      let prev := psb.body.prevHop.neighborAddr
      if prev = 0 then s
      else
        let ifindex := env.getEgressIf prev
        let localAddr := (ifindex.map env.localAddrOrZero).getD 0
        let idx := ifindex.getD (ntohl psb.body.prevHop.logicalInterface)
        rsvpSendPacket s localAddr prev (resvTearMessage psb.key rsb.body localAddr idx) false

/-! ## Errors -/

def pathErrMessage (key : PathKey) (spec : ErrorSpec) : Bytes :=
  (rsvpBuilderInit 1024 msgPathErr).setTtl 255
    |>.call (addSession key)
    |>.call (addErrorSpec spec)
    |>.call (addSender classSenderTemplate key)
    |>.finish

/-- The error this node reports about a message it received. -/
def localError (hal : Hal) (errorCode : UInt8) (errorValue : UInt16) : ErrorSpec :=
  ⟨hal.localAddrOrZero 0, 0, errorCode, htons errorValue⟩

def sendPathErr (env : Env) (s : Node) (info : MessageInfo) (errorCode : UInt8)
    (errorValue : UInt16) : Node :=
  rsvpSendPacket s 0 info.srcIp
    (pathErrMessage info.key (localError env.toHal errorCode errorValue)) false

theorem sendPathErr_out (env : Env) (info : MessageInfo) (errorCode : UInt8) (errorValue : UInt16) :
    ∃ sent, ∀ s : Node, sendPathErr env s info errorCode errorValue =
      { s with out := s.out ++ sent } :=
  rsvpSendPacket_out _ _ _ _

def resvErrMessage (key : PathKey) (spec : ErrorSpec) : Bytes :=
  (rsvpBuilderInit 1024 msgResvErr).setTtl 255
    |>.call (addSession key)
    |>.call (addErrorSpec spec)
    |>.call (rsvpBuilderAddStyle · styleFf)
    |>.call (addSender classFilterSpec key)
    |>.finish

def sendResvErr (env : Env) (s : Node) (info : MessageInfo) (errorCode : UInt8)
    (errorValue : UInt16) : Node :=
  rsvpSendPacket s 0 info.srcIp
    (resvErrMessage info.key (localError env.toHal errorCode errorValue)) false

theorem sendResvErr_out (env : Env) (info : MessageInfo) (errorCode : UInt8) (errorValue : UInt16) :
    ∃ sent, ∀ s : Node, sendResvErr env s info errorCode errorValue =
      { s with out := s.out ++ sent } :=
  rsvpSendPacket_out _ _ _ _

/-- The PathErr rebuilt for the previous hop; the received error is copied. -/
def pathErrRelay (key : PathKey) (spec : Option ErrorSpec) (localAddr : InAddr)
    (ifindex : UInt32) : Bytes :=
  (rsvpBuilderInit 1024 msgPathErr).setTtl 255
    |>.call (addSession key)
    |>.call (rsvpBuilderAddHopIpv4 · localAddr ifindex)
    |>.call (fun b => match spec with
      | none => (0, b)
      | some spec => addErrorSpec spec b)
    |>.call (addSender classSenderTemplate key)
    |>.finish

def resvErrRelay (key : PathKey) (spec : Option ErrorSpec) (localAddr : InAddr)
    (ifindex : UInt32) : Bytes :=
  (rsvpBuilderInit 1024 msgResvErr).setTtl 255
    |>.call (addSession key)
    |>.call (rsvpBuilderAddHopIpv4 · localAddr ifindex)
    |>.call (fun b => match spec with
      | none => (0, b)
      | some spec => addErrorSpec spec b)
    |>.call (rsvpBuilderAddStyle · styleFf)
    |>.call (addSender classFilterSpec key)
    |>.finish

def propagateResvErr (env : Env) (s : Node) (rsb : Rsb) (spec : Option ErrorSpec) : Node :=
  match s.psbOf rsb.body with
  | none => s
  | some psb =>
    let dest := psb.key.session.destAddr
    match env.getEgressIf dest with
    | none => s
    | some ifindex =>
      let localAddr := env.localAddrOrZero ifindex
      rsvpSendPacket s localAddr dest (resvErrRelay psb.key spec localAddr ifindex) false

end Rsvp
