import RsvpTe.Senders

/-!
# The state machine (`rsvp_state_machine.c`)

Message handlers, timer callbacks and operator calls as functions on `Node`.  A block is named
by its address, and a function that follows a pointer to no block does nothing.

`Event` lists everything that makes the daemon act and `Node.step` is one turn of its event
loop.  HELLO adjacencies live in another module of the source and reach this one only as
`rsvp_frr_trigger`, which is an event of its own here.
-/

namespace Rsvp

open Words

def rsvpRefreshMs : UInt32 := 30000

/-- The text before the first NUL. -/
def cString (bytes : Bytes) : Bytes := bytes.takeWhile (· ≠ 0)

/-- `strdup`, which may run out of memory. -/
def Env.strdup (env : Env) (bytes : Bytes) : Option Bytes :=
  if env.strdupOk then some (cString bytes) else none

/-! ## Teardown -/

def rsbCleanupResources (s : Node) (r : Ptr) : Node :=
  match s.rsbs.get r with
  | none => s
  | some rsb =>
    let psb := s.psbOf rsb.body
    let isIngress := psb.any (·.body.isIngress)
    let dest := psb.map (·.key.session.destAddr)
    let released :=
      if rsb.body.labelIn ≠ 0 then
        let removed := s.halMplsRemove rsb.body.labelIn dest
        { removed with labels := labelMgrFree removed.labels rsb.body.labelIn }
          |>.modRsb r fun b => { b with labelIn := 0 }
      else if isIngress then s.halMplsRemove 0 dest
      else s
    released.modRsb r fun b => { b with refreshTimer := false, cleanupTimer := false }

def rsvpRsbCleanup (env : Env) (s : Node) (r : Ptr) (propagate : Bool) : Node :=
  match s.rsbs.get r with
  | none => s
  | some rsb =>
    let isIngress := (s.psbOf rsb.body).any (·.body.isIngress)
    let told := if propagate ∧ isIngress = false then propagateResvTear env s r else s
    let released := rsbCleanupResources told r
    let cut :=
      match rsb.body.associatedPsb with
      | none => released
      | some p => released.modPsb p fun b => { b with associatedRsb := none }
    cut.rsvpRsbDelete r

def rsvpPsbCleanup (env : Env) (s : Node) (p : Ptr) (propagate : Bool) : Node :=
  match s.psbs.get p with
  | none => s
  | some psb =>
    let isEgress := env.isLocalAddr psb.key.session.destAddr
    let told := if propagate ∧ isEgress = false then propagatePathTear env s p else s
    let cleaned :=
      match psb.body.associatedRsb with
      | none => told
      | some r => rsvpRsbCleanup env told r false
    cleaned.rsvpPsbDelete p

/-! ## Fast reroute and make-before-break helpers -/

/-- A ready bypass for the interface: its RSB has a label. -/
def bypassReady (s : Node) (ifindex : UInt32) (c : Psb) : Bool :=
  c.body.isBypassTunnel && decide (c.body.frrProtectedIfindex = ifindex) &&
    (s.rsvpRsbFind c.key).any (·.body.labelOut ≠ 0)

def rsvpFrrAutoAssociate (s : Node) (p : Ptr) : Node :=
  match s.psbs.get p with
  | none => s
  | some psb =>
    if psb.body.frrMode ≠ .facility ∨ psb.body.bypassPsb ≠ none ∨ psb.body.ifindexOut = 0 ∨
        psb.body.isBypassTunnel then s
    else
      match s.psbs.blocks.find? (bypassReady s psb.body.ifindexOut) with
      | none => s
      | some c =>
        s.modPsb p fun b => { b with
          bypassPsb := some c.addr
          bypassTunnelId := ntohs c.key.session.tunnelId }

def rsvpFrrAutoAssociateAll (s : Node) (protectedIfindex : UInt32) : Node :=
  (s.psbs.blocks.map Block.addr).foldl (fun s p =>
    match s.psbs.get p with
    | none => s
    | some c =>
      if c.body.isBypassTunnel then s
      else if c.body.frrMode ≠ .facility then s
      else if c.body.ifindexOut ≠ protectedIfindex then s
      else if c.body.bypassPsb ≠ none then s
      else rsvpFrrAutoAssociate s p) s

def rsvpMbbComplete (env : Env) (s : Node) (p : Ptr) : Node :=
  match s.psbs.get p with
  | none => s
  | some new =>
    let torn :=
      match s.rsvpPsbFindById (ntohs new.key.session.tunnelId) new.body.mbbOldLspId with
      | none => s
      | some old => rsvpPsbCleanup env s old.addr true
    torn.modPsb p fun b => { b with isMbbPending := false, mbbOldLspId := 0 }

/-! ## PATH -/

/-- The error a PATH is refused with. -/
def rsvpValidatePathMessage (info : MessageInfo) (existing : Option Psb) :
    Option (UInt8 × UInt16) :=
  if info.objs .hopV4 = none then some (protoErrRoutingProblem, 0)
  else if info.objs .senderV4 = none then some (protoErrRoutingProblem, 0)
  else if info.objs .labelReq = none ∧ existing = none then some (protoErrRoutingProblem, 0)
  else none

/-- The subobject loop for ERO and RRO: at most `room` IPv4 subobjects are stored, others are
stepped over, a bad length ends it. -/
def readHops : Nat → Nat → Bytes → List EroSubobj
  | 0, _, _ => []
  | fuel + 1, room, data =>
    if data.length < 2 ∨ room = 0 then []
    else
      let len := (u8At data 1).toNat
      if len < 2 ∨ len > data.length then []
      else if u8At data 0 &&& 0x7F = eroIpv4 ∧ len = 8 then
        .ofBytes data :: readHops fuel (room - 1) (data.drop len)
      else readHops fuel room (data.drop len)

theorem length_readHops_le (fuel room : Nat) (data : Bytes) :
    (readHops fuel room data).length ≤ room := by
  induction fuel generalizing room data with
  | zero => exact Nat.zero_le _
  | succ fuel ih =>
    rw [readHops]
    split
    · exact Nat.zero_le _
    · simp only
      split
      · exact Nat.zero_le _
      · split
        · have := ih (room - 1) (data.drop (u8At data 1).toNat)
          rw [List.length_cons]
          omega
        · exact ih room _

/-- A received ERO or RRO payload as it is stored. -/
def Route.ofBytes (data : Bytes) : Route :=
  ⟨readHops data.length maxHops data, length_readHops_le _ _ _⟩

/-- What a received PATH writes into its PSB, up to the timers. -/
def pathUpdate (env : Env) (info : MessageInfo) (psb : PsbState) : PsbState :=
  let psb :=
    match info.objs .timeValues with
    | none => psb
    | some o => { psb with refreshMs := ntohl (u32At o.data 0) }
  let psb := { psb with ttl := info.commonHdr.ttl }
  let psb :=
    match info.objs .ero with
    | none => psb
    | some o => { psb with ero := .ofBytes o.data }
  let psb :=
    match info.objs .rro with
    | none => psb
    | some o => { psb with rro := .ofBytes o.data }
  let psb :=
    match info.objs .tspec with
    | none => psb
    | some o => { psb with tspec := tspecCopyAndNtoh (.ofBytes o.data) }
  let psb :=
    match info.objs .sessAttr with
    | none => psb
    | some o => { psb with setupPrio := u8At o.data 0, holdingPrio := u8At o.data 1 }
  let psb :=
    match info.objs .fastReroute with
    | none => psb
    | some o =>
      let request := FastReroute.ofBytes o.data
      if psb.isBypassTunnel then psb
      else if request.flags &&& frrFlagFacility ≠ 0 then
        { psb with
          frrMode := .facility
          frrBandwidth := Binary32.toUInt32 (ntohl request.bandwidth) }
      else if request.flags &&& frrFlagOneToOne ≠ 0 then { psb with frrMode := .oneToOne }
      else psb
  let psb :=
    if cString info.lspName = [] then psb
    else { psb with lspName := env.strdup info.lspName }
  let psb :=
    match info.objs .hopV4 with
    | none => psb
    | some o =>
      let hop := HopIpv4.ofBytes o.data
      { psb with prevHop := hop, ifindexIn := ntohl hop.logicalInterface }
  { psb with cleanupTimer := true, refreshTimer := true }

/-- Egress: the first PATH creates the RSB and triggers a RESV. -/
def pathEgress (env : Env) (s : Node) (info : MessageInfo) (p : Ptr) : Node :=
  let refreshMs := ((s.psbs.get p).map (·.body.refreshMs)).getD 0
  match s.rsvpRsbFind info.key with
  | some rsb => s.modRsb rsb.addr fun b => { b with refreshMs := refreshMs }
  | none =>
    match s.rsvpRsbCreate env info.key with
    | none => s
    | some (r, s) =>
      let linked := s.modRsb r (fun b => { b with
          associatedPsb := some p
          refreshMs := refreshMs
          refreshTimer := true })
        |>.modPsb p fun b => { b with associatedRsb := some r }
      sendResvUpstream env linked r

/-- Transit: the PATH is forwarded and protection is armed if a bypass is ready. -/
def pathTransit (env : Env) (s : Node) (info : MessageInfo) (p : Ptr) (isNew : Bool) : Node :=
  match s.psbs.get p with
  | none => s
  | some psb =>
    let (_, ifindex, ero) := resolvePathNextHop env.toHal psb.key psb.body
    let popped := s.modPsb p fun b => { b with ero := ero }
    match ifindex with
    | none =>
      let told := sendPathErr env popped info protoErrRoutingProblem 0
      if isNew then told.rsvpPsbDelete p else told
    | some _ =>
      let sent := sendPathDownstream env popped p
      match sent.psbs.get p with
      | none => sent
      | some psb =>
        if psb.body.frrMode = .facility ∧ psb.body.isBypassTunnel = false ∧
            psb.body.bypassPsb = none then rsvpFrrAutoAssociate sent p
        else sent

/-- The handler from the point where the PSB is at hand. -/
def pathArrived (env : Env) (s : Node) (info : MessageInfo) (p : Ptr) (isNew : Bool) : Node :=
  let updated := s.modPsb p (pathUpdate env info)
  if env.isLocalAddr info.key.session.destAddr then pathEgress env updated info p
  -- Our own PATH came back.
  else if env.isLocalAddr info.key.sender.sourceAddr then updated
  else pathTransit env updated info p isNew

def handlePathMessage (env : Env) (s : Node) (info : MessageInfo) : Node :=
  let found := s.rsvpPsbFind info.key
  match rsvpValidatePathMessage info found with
  | some (errCode, errVal) => sendPathErr env s info errCode errVal
  | none =>
    match found with
    | some psb => pathArrived env s info psb.addr false
    | none =>
      match s.rsvpPsbCreate env info.key with
      | none => s
      | some (p, s) =>
        pathArrived env (s.modPsb p fun b => { b with refreshMs := rsvpRefreshMs }) info p true

/-! ## RESV -/

def rsvpValidateResvMessage (s : Node) (info : MessageInfo) : Option (UInt8 × UInt16) :=
  if s.rsvpPsbFind info.key = none then some (protoErrNoPathState, 0)
  else if info.objs .hopV4 = none then some (protoErrRoutingProblem, 0)
  else if info.objs .label = none then some (protoErrRoutingProblem, 0)
  else none

/-- The label of a RESV, in host order. -/
def MessageInfo.labelValue (info : MessageInfo) : UInt32 :=
  ((info.objs .label).map fun o => ntohl (u32At o.data 0)).getD 0

/-- The RSVP_HOP of a message. -/
def MessageInfo.hop (info : MessageInfo) : HopIpv4 :=
  ((info.objs .hopV4).map fun o => HopIpv4.ofBytes o.data).getD ⟨0, 0⟩

/-- A new RSB is tied to the PSB of its key. -/
def resvLink (s : Node) (key : PathKey) (r : Ptr) : Node :=
  match s.rsvpPsbFind key with
  | none => s.modRsb r fun b => { b with refreshMs := rsvpRefreshMs }
  | some psb =>
    s.modRsb r (fun b => { b with
        associatedPsb := some psb.addr
        refreshMs := psb.body.refreshMs })
      |>.modPsb psb.addr fun b => { b with associatedRsb := some r }

/-- What a RESV writes before the blockade test. -/
def resvUpdate (info : MessageInfo) (rsb : RsbState) : RsbState :=
  let rsb :=
    match info.objs .timeValues with
    | none => rsb
    | some o => { rsb with refreshMs := ntohl (u32At o.data 0) }
  let rsb :=
    match info.objs .flowspec with
    | none => rsb
    | some o => { rsb with flowspec := tspecCopyAndNtoh (.ofBytes o.data) }
  match info.objs .style with
  | none => rsb
  | some o => { rsb with style := (ntohl (u32At o.data 0)).toUInt8 }

/-- What a RESV writes after it. -/
def resvStore (info : MessageInfo) (isIngress : Bool) (rsb : RsbState) : RsbState :=
  { rsb with
    ttl := info.commonHdr.ttl
    cleanupTimer := true
    refreshTimer := !isIngress
    labelOut := info.labelValue
    nextHop := info.hop }

/-- The bypass and make-before-break consequences of a programmed RESV. -/
def resvFollowUp (env : Env) (s : Node) (psb : Psb) (isNew labelChanged : Bool) : Node :=
  let armed :=
    if psb.body.isBypassTunnel ∧ (isNew ∨ labelChanged) then
      rsvpFrrAutoAssociateAll s psb.body.frrProtectedIfindex
    else s
  if psb.body.isMbbPending ∧ isNew then rsvpMbbComplete env armed psb.addr else armed

/-- Programming the forwarding plane for `rsb`, whose fields are already those of the RESV. -/
def resvProgram (env : Env) (s : Node) (info : MessageInfo) (psb : Psb) (rsb : Rsb)
    (isNew labelChanged : Bool) : Node :=
  let dest := psb.key.session.destAddr
  let nextHop := rsb.body.nextHop.neighborAddr
  let outIf := ntohl rsb.body.nextHop.logicalInterface
  if psb.body.prevHop.neighborAddr ≠ 0 then
    -- Transit: swap.
    if rsb.body.labelIn = 0 then
      let (label, labels) := labelMgrAlloc s.labels
      let labelled :=
        { s with labels := labels }.modRsb rsb.addr fun b => { b with labelIn := label }
      if label = 0 then
        let dropped := if isNew then rsvpRsbCleanup env labelled rsb.addr false else labelled
        sendResvErr env dropped info protoErrAdmissionControl 0
      else
        let swapped := labelled.halMplsInstall label rsb.body.labelOut outIf nextHop dest
        resvFollowUp env (sendResvUpstream env swapped rsb.addr) psb isNew labelChanged
    else
      let swapped := s.halMplsInstall rsb.body.labelIn rsb.body.labelOut outIf nextHop dest
      resvFollowUp env (sendResvUpstream env swapped rsb.addr) psb isNew labelChanged
  else
    -- Ingress: push.
    let pushed := s.halMplsInstall 0 rsb.body.labelOut outIf nextHop dest
    resvFollowUp env pushed psb isNew labelChanged

/-- A RESV that changes nothing is passed on upstream. -/
def resvRefresh (env : Env) (s : Node) (rsb : Rsb) : Node :=
  match s.psbOf rsb.body with
  | none => s
  | some psb =>
    if psb.body.prevHop.neighborAddr ≠ 0 ∧ psb.body.isIngress = false then
      sendResvUpstream env s rsb.addr
    else s

/-- The handler past the blockade test; `rsb` is the block before the RESV's label and hop are
stored. -/
def resvAccepted (env : Env) (s : Node) (info : MessageInfo) (rsb : Rsb) (isNew : Bool) :
    Node :=
  let isIngress := (s.psbOf rsb.body).any (·.body.isIngress)
  let stored := s.modRsb rsb.addr (resvStore info isIngress)
  let rsb' : Rsb := { rsb with body := resvStore info isIngress rsb.body }
  let labelChanged : Bool := info.labelValue ≠ rsb.body.labelOut
  let hopChanged : Bool := info.hop.neighborAddr ≠ rsb.body.nextHop.neighborAddr
  if isNew ∨ labelChanged ∨ hopChanged then
    match stored.psbOf rsb'.body with
    | none => stored
    | some psb => resvProgram env stored info psb rsb' isNew labelChanged
  else resvRefresh env stored rsb'

/-- The handler from the point where the RSB is at hand. -/
def resvArrived (env : Env) (s : Node) (info : MessageInfo) (r : Ptr) (isNew : Bool) : Node :=
  let updated := s.modRsb r (resvUpdate info)
  match updated.rsbs.get r with
  | none => updated
  | some rsb =>
    if rsvpIsBlockaded updated rsb then
      if isNew then
        let cut :=
          match rsb.body.associatedPsb with
          | none => updated
          | some p => updated.modPsb p fun b => { b with associatedRsb := none }
        cut.rsvpRsbDelete r
      else updated
    else resvAccepted env updated info rsb isNew

def handleResvMessage (env : Env) (s : Node) (info : MessageInfo) : Node :=
  match rsvpValidateResvMessage s info with
  | some (errCode, errVal) => sendResvErr env s info errCode errVal
  | none =>
    match s.rsvpRsbFind info.key with
    | some rsb => resvArrived env s info rsb.addr false
    | none =>
      match s.rsvpRsbCreate env info.key with
      | none => s
      | some (r, s) => resvArrived env (resvLink s info.key r) info r true

/-! ## Tears and errors -/

/-- A tear removes the blockade state of its key. -/
def bsbRemove (s : Node) (key : PathKey) : Node :=
  match s.rsvpBsbFind key with
  | none => s
  | some bsb => s.rsvpBsbDelete bsb.addr

def handlePathTear (env : Env) (s : Node) (info : MessageInfo) : Node :=
  let cleaned :=
    match s.rsvpPsbFind info.key with
    | none => s
    | some psb => rsvpPsbCleanup env s psb.addr true
  bsbRemove cleaned info.key

def handleResvTear (env : Env) (s : Node) (info : MessageInfo) : Node :=
  let cleaned :=
    match s.rsvpRsbFind info.key with
    | none => s
    | some rsb => rsvpRsbCleanup env s rsb.addr true
  bsbRemove cleaned info.key

/-- The ERROR_SPEC of a message. -/
def MessageInfo.errorSpec (info : MessageInfo) : Option ErrorSpec :=
  (info.objs .errorSpec).map fun o => ErrorSpec.ofBytes o.data

def handlePathErr (env : Env) (s : Node) (info : MessageInfo) : Node :=
  match s.rsvpPsbFind info.key with
  | none => s
  | some psb =>
    let prev := psb.body.prevHop.neighborAddr
    if psb.body.isIngress ∨ prev = 0 then s
    else
      let outIdx := env.getEgressIf prev
      let localAddr :=
        match outIdx with
        | none => psb.key.session.destAddr
        | some i => env.localAddrOrZero i
      let ifindex := outIdx.getD psb.body.ifindexIn
      rsvpSendPacket s localAddr prev (pathErrRelay psb.key info.errorSpec localAddr ifindex)
        false

/-- An admission failure with a FLOWSPEC creates or updates blockade state. -/
def resvErrBlockade (env : Env) (s : Node) (info : MessageInfo) : Node :=
  match info.errorSpec, info.objs .flowspec with
  | some spec, some flowspec =>
    if spec.errorCode = protoErrAdmissionControl then
      let found :=
        match s.rsvpBsbFind info.key with
        | some bsb => some (bsb.addr, s)
        | none => s.rsvpBsbCreate env info.key
      match found with
      | none => s
      | some (b, s) =>
        let qb := tspecCopyAndNtoh (.ofBytes flowspec.data)
        { s with bsbs := s.bsbs.modify b fun _ => ⟨qb, true⟩ }
    else s
  | _, _ => s

def handleResvErr (env : Env) (s : Node) (info : MessageInfo) : Node :=
  let blocked := resvErrBlockade env s info
  match blocked.rsvpRsbFind info.key with
  | none => blocked
  | some rsb =>
    if env.isLocalAddr info.key.session.destAddr then blocked
    else propagateResvErr env blocked rsb info.errorSpec

def rsvpHandleMessage (env : Env) (s : Node) (info : MessageInfo) : Node :=
  let msgType := info.commonHdr.msgType
  if msgType = msgPath then handlePathMessage env s info
  else if msgType = msgResv then handleResvMessage env s info
  else if msgType = msgPathTear then handlePathTear env s info
  else if msgType = msgResvTear then handleResvTear env s info
  else if msgType = msgPathErr then handlePathErr env s info
  else if msgType = msgResvErr then handleResvErr env s info
  -- ResvConf and SRefresh are only logged, HELLO goes to its own module.
  else s

/-- The raw-socket branch of `rsvp_dispatcher_run`: at most `maxRsvpPacketSize` bytes are read,
and a packet with a local source address is dropped. -/
def dispatchPacket (env : Env) (s : Node) (packet : Bytes) : Node :=
  let buffer := packet.take maxRsvpPacketSize
  if buffer = [] then s
  else if iphdrLen ≤ buffer.length ∧ env.isLocalAddr (u32At buffer 12) then s
  else
    match rsvpParsePacket buffer with
    | .ok info => rsvpHandleMessage env s info
    | _ => s

/-! ## Timer callbacks -/

def psbRefreshTimerCb (env : Env) (s : Node) (p : Ptr) : Node :=
  match s.psbs.get p with
  | none => s
  | some psb =>
    let sent :=
      if psb.body.isIngress ∨ env.isLocalAddr psb.key.session.destAddr = false then
        sendPathDownstream env s p
      else s
    sent.modPsb p fun b => { b with refreshTimer := true }

def psbCleanupTimerCb (env : Env) (s : Node) (p : Ptr) : Node := rsvpPsbCleanup env s p true

def rsbRefreshTimerCb (env : Env) (s : Node) (r : Ptr) : Node :=
  match s.rsbs.get r with
  | none => s
  | some rsb =>
    (resvRefresh env s rsb).modRsb r fun b => { b with refreshTimer := true }

def rsbCleanupTimerCb (env : Env) (s : Node) (r : Ptr) : Node := rsvpRsbCleanup env s r true

def bsbCleanupTimerCb (s : Node) (b : Ptr) : Node := s.rsvpBsbDelete b

/-! ## Operator calls -/

/-- The key of an LSP this node originates. -/
def ingressKey (src dest : InAddr) (tunnelId lspId : UInt16) : PathKey :=
  ⟨⟨dest, 0, htons tunnelId, src⟩, ⟨src, 0, htons lspId⟩⟩

/-- A route argument replaces the stored one only if it has hops. -/
def Route.orElse (given : List EroSubobj) (kept : Route) : Route :=
  if given = [] then kept else .clamp given

def rsvpInitiatePathWithEro (env : Env) (s : Node) (src dest : InAddr) (tunnelId : UInt16)
    (lspName : Option Bytes) (ero : List EroSubobj) (requestFrr : Bool) : Node :=
  let key := ingressKey src dest tunnelId s.nextLspId
  let s := { s with nextLspId := s.nextLspId + 1 }
  match s.rsvpPsbFind key with
  | some psb => sendPathDownstream env s psb.addr
  | none =>
    match s.rsvpPsbCreate env key with
    | none => s
    | some (p, s) =>
      let set := s.modPsb p fun b => { b with
        refreshMs := rsvpRefreshMs
        isIngress := true
        lspName := lspName.bind env.strdup
        ero := .orElse ero b.ero
        frrMode := if requestFrr then .facility else b.frrMode
        refreshTimer := true }
      sendPathDownstream env set p

def rsvpInitiatePath (env : Env) (s : Node) (src dest : InAddr) (tunnelId : UInt16)
    (lspName : Option Bytes) : Node :=
  rsvpInitiatePathWithEro env s src dest tunnelId lspName [] false

def rsvpInitiateBypassTunnel (env : Env) (s : Node) (src dest : InAddr) (tunnelId : UInt16)
    (name : Option Bytes) (ero : List EroSubobj) (protectedIfindex : UInt32) : Node :=
  let key := ingressKey src dest tunnelId s.nextLspId
  let s := { s with nextLspId := s.nextLspId + 1 }
  match s.rsvpPsbFind key with
  | some _ => s
  | none =>
    match s.rsvpPsbCreate env key with
    | none => s
    | some (p, s) =>
      let set := s.modPsb p fun b => { b with
        refreshMs := rsvpRefreshMs
        isIngress := true
        isBypassTunnel := true
        frrProtectedIfindex := protectedIfindex
        lspName := name.bind env.strdup
        ero := .orElse ero b.ero
        refreshTimer := true }
      sendPathDownstream env set p

def rsvpFrrEnableProtection (s : Node) (tunnelId lspId : UInt16) (frrMode : FrrMode)
    (bypassTunnelId : UInt16) : Except RsvpError Node :=
  match s.rsvpPsbFindById tunnelId lspId with
  | none => .error .notFound
  | some psb =>
    match s.psbs.blocks.find? fun c =>
      ntohs c.key.session.tunnelId = bypassTunnelId ∧ c.body.isBypassTunnel with
    | none => .error .notFound
    | some bypass =>
      if (s.rsvpRsbFind bypass.key).any (·.body.labelOut ≠ 0) then
        .ok (s.modPsb psb.addr fun b => { b with
          frrMode := frrMode
          bypassTunnelId := bypassTunnelId
          bypassPsb := some bypass.addr })
      else .error .frrNotConfigured

/-- One PSB of the scan in `rsvp_frr_trigger`. -/
def frrTriggerOne (env : Env) (failedIfindex : UInt32) (s : Node) (p : Ptr) : Node :=
  match s.psbs.get p with
  | none => s
  | some psb =>
    match psb.body.bypassPsb with
    | none => s
    | some b =>
      if psb.body.ifindexOut = failedIfindex ∧ psb.body.frrMode = .facility ∧
          psb.body.frrActive = false ∧ psb.body.isBypassTunnel = false then
        let bp := s.derefPsb env b
        match s.rsvpRsbFind bp.key with
        | none => s
        | some brsb =>
          if brsb.body.labelOut = 0 then s
          else
            let switched :=
              match s.rsvpRsbFind psb.key with
              | none => s
              | some rsb =>
                s.halMplsInstall rsb.body.labelIn brsb.body.labelOut
                  (ntohl brsb.body.nextHop.logicalInterface) brsb.body.nextHop.neighborAddr
                  psb.key.session.destAddr
            let marked := switched.modPsb p fun x => { x with
              frrActive := true
              ifindexOut := bp.body.ifindexOut }
            sendPathDownstream env marked p
      else s

def rsvpFrrTrigger (env : Env) (s : Node) (failedIfindex : UInt32) : Node :=
  (s.psbs.blocks.map Block.addr).foldl (frrTriggerOne env failedIfindex) s

/-- One PSB of the scan in `rsvp_frr_revert`. -/
def frrRevertOne (env : Env) (recoveredIfindex : UInt32) (s : Node) (p : Ptr) : Node :=
  match s.psbs.get p with
  | none => s
  | some psb =>
    match psb.body.bypassPsb with
    | none => s
    | some b =>
      if psb.body.frrActive ∧
          (s.derefPsb env b).body.frrProtectedIfindex = recoveredIfindex then
        match s.rsvpRsbFind psb.key with
        | none => s
        | some rsb =>
          let restored := s.halMplsInstall rsb.body.labelIn rsb.body.labelOut
            (ntohl rsb.body.nextHop.logicalInterface) rsb.body.nextHop.neighborAddr
            psb.key.session.destAddr
          let marked := restored.modPsb p fun x => { x with
            ifindexOut := recoveredIfindex
            frrActive := false }
          sendPathDownstream env marked p
      else s

def rsvpFrrRevert (env : Env) (s : Node) (recoveredIfindex : UInt32) : Node :=
  (s.psbs.blocks.map Block.addr).foldl (frrRevertOne env recoveredIfindex) s

def rsvpTeardownPath (env : Env) (s : Node) (tunnelId lspId : UInt16) : Node :=
  match s.rsvpPsbFindById tunnelId lspId with
  | none => s
  | some psb => rsvpPsbCleanup env s psb.addr true

/-- The pending PSB cloned from the incumbent. -/
def mbbClone (env : Env) (old : PsbState) (oldLspId : UInt16) (newEro : List EroSubobj)
    (blank : PsbState) : PsbState :=
  { blank with
    refreshMs := old.refreshMs
    isIngress := true
    frrMode := old.frrMode
    frrBandwidth := old.frrBandwidth
    setupPrio := old.setupPrio
    holdingPrio := old.holdingPrio
    ttl := old.ttl
    tspec := old.tspec
    lspName := old.lspName.bind env.strdup
    ero := .orElse newEro old.ero
    isMbbPending := true
    mbbOldLspId := oldLspId
    refreshTimer := true }

def rsvpMbbStart (env : Env) (s : Node) (tunnelId oldLspId newLspId : UInt16)
    (newEro : List EroSubobj) : Except RsvpError Node :=
  match s.rsvpPsbFindById tunnelId oldLspId with
  | none => .error .notFound
  | some old =>
    if old.body.isIngress = false then .error .invalidParam
    else
      let newKey := { old.key with sender := { old.key.sender with lspId := htons newLspId } }
      match s.rsvpPsbFind newKey with
      | some _ => .error .alreadyExists
      | none =>
        match s.rsvpPsbCreate env newKey with
        | none => .error .memAlloc
        | some (p, s) =>
          .ok (sendPathDownstream env (s.modPsb p (mbbClone env old.body oldLspId newEro)) p)

/-! ## Events -/

/-- Everything that makes the daemon act. -/
inductive Event : Type
  | recv (packet : Bytes)
  | psbRefresh (p : Ptr)
  | psbCleanup (p : Ptr)
  | rsbRefresh (r : Ptr)
  | rsbCleanup (r : Ptr)
  | bsbCleanup (b : Ptr)
  | initiatePath (src dest : InAddr) (tunnelId : UInt16) (lspName : Option Bytes)
    (ero : List EroSubobj) (requestFrr : Bool)
  | initiateBypass (src dest : InAddr) (tunnelId : UInt16) (name : Option Bytes)
    (ero : List EroSubobj) (protectedIfindex : UInt32)
  | frrEnable (tunnelId lspId : UInt16) (frrMode : FrrMode) (bypassTunnelId : UInt16)
  | frrTrigger (ifindex : UInt32)
  | frrRevert (ifindex : UInt32)
  | teardown (tunnelId lspId : UInt16)
  | mbbStart (tunnelId oldLspId newLspId : UInt16) (newEro : List EroSubobj)

/-- A call that fails leaves the node as it was. -/
def Node.orSelf (s : Node) : Except RsvpError Node → Node
  | .ok s' => s'
  | .error _ => s

def Node.step (env : Env) (s : Node) : Event → Node
  | .recv packet => dispatchPacket env s packet
  | .psbRefresh p => psbRefreshTimerCb env s p
  | .psbCleanup p => psbCleanupTimerCb env s p
  | .rsbRefresh r => rsbRefreshTimerCb env s r
  | .rsbCleanup r => rsbCleanupTimerCb env s r
  | .bsbCleanup b => bsbCleanupTimerCb s b
  | .initiatePath src dest tunnelId lspName ero requestFrr =>
    rsvpInitiatePathWithEro env s src dest tunnelId lspName ero requestFrr
  | .initiateBypass src dest tunnelId name ero protectedIfindex =>
    rsvpInitiateBypassTunnel env s src dest tunnelId name ero protectedIfindex
  | .frrEnable tunnelId lspId frrMode bypassTunnelId =>
    s.orSelf (rsvpFrrEnableProtection s tunnelId lspId frrMode bypassTunnelId)
  | .frrTrigger ifindex => rsvpFrrTrigger env s ifindex
  | .frrRevert ifindex => rsvpFrrRevert env s ifindex
  | .teardown tunnelId lspId => rsvpTeardownPath env s tunnelId lspId
  | .mbbStart tunnelId oldLspId newLspId newEro =>
    s.orSelf (rsvpMbbStart env s tunnelId oldLspId newLspId newEro)

end Rsvp
