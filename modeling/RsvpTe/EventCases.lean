import RsvpTe.EventEffects

/-!
# The ways through an event

`Event.Takes` has a case for each way through the handler of an event, with what the way tests, and
`Node.step_takes` says that there are no others.  What single events keep is shown by these cases.
-/

namespace Rsvp

open Words

variable {env : Env} {s : Node}

/-- What is set in the PSB of an LSP that starts here. -/
def ingressSet (env : Env) (lspName : Option Bytes) (ero : List EroSubobj) (requestFrr : Bool)
    (b : PsbState) : PsbState :=
  { b with
    refreshMs := rsvpRefreshMs
    isIngress := true
    lspName := lspName.bind env.strdup
    ero := .orElse ero b.ero
    frrMode := if requestFrr then .facility else b.frrMode
    refreshTimer := true }

/-- What is set in the PSB of a bypass tunnel. -/
def bypassSet (env : Env) (name : Option Bytes) (ero : List EroSubobj) (protectedIfindex : UInt32)
    (b : PsbState) : PsbState :=
  { b with
    refreshMs := rsvpRefreshMs
    isIngress := true
    isBypassTunnel := true
    frrProtectedIfindex := protectedIfindex
    lspName := name.bind env.strdup
    ero := .orElse ero b.ero
    refreshTimer := true }

/-- The key that takes over from `key`. -/
def PathKey.withLspId (key : PathKey) (lspId : UInt16) : PathKey :=
  { key with sender := { key.sender with lspId := htons lspId } }

/-- A node that has used up an LSP-ID. -/
def Node.numbered (s : Node) : Node := { s with nextLspId := s.nextLspId + 1 }

/-- The states an event takes a node to. -/
inductive Event.Takes (env : Env) (s : Node) : Event → Node → Prop
  | idle {ev : Event} : ev.Takes env s s
  | message {packet : Bytes} {info : MessageInfo} : Receives env packet info →
    (Event.recv packet).Takes env s (rsvpHandleMessage env s info)
  | refreshed {b : Psb} : b ∈ s.psbs →
    b.body.isIngress = true ∨ env.isLocalAddr b.key.session.destAddr = false →
    (Event.psbRefresh b.addr).Takes env s ((sendPathDownstream env s b.addr).modPsb b.addr
      fun x => { x with refreshTimer := true })
  | restarted {b : Psb} : b ∈ s.psbs →
    (Event.psbRefresh b.addr).Takes env s (s.modPsb b.addr fun x => { x with refreshTimer := true })
  | psbExpired {b : Psb} : b ∈ s.psbs →
    (Event.psbCleanup b.addr).Takes env s (rsvpPsbCleanup env s b.addr true)
  | resvRefreshed {r : Rsb} : r ∈ s.rsbs →
    (Event.rsbRefresh r.addr).Takes env s ((resvRefresh env s r).modRsb r.addr
      fun x => { x with refreshTimer := true })
  | rsbExpired {r : Rsb} : r ∈ s.rsbs →
    (Event.rsbCleanup r.addr).Takes env s (rsvpRsbCleanup env s r.addr true)
  | bsbExpired {b : Ptr} : (Event.bsbCleanup b).Takes env s (s.rsvpBsbDelete b)
  | pathFailed {src dest : InAddr} {tunnelId : UInt16} {lspName : Option Bytes}
    {ero : List EroSubobj} {requestFrr : Bool} :
    (Event.initiatePath src dest tunnelId lspName ero requestFrr).Takes env s s.numbered
  | pathAgain {src dest : InAddr} {tunnelId : UInt16} {lspName : Option Bytes}
    {ero : List EroSubobj} {requestFrr : Bool} {b : Psb} : b ∈ s.psbs →
    b.key = ingressKey src dest tunnelId s.nextLspId →
    (Event.initiatePath src dest tunnelId lspName ero requestFrr).Takes env s
      (sendPathDownstream env s.numbered b.addr)
  | pathStarted {src dest : InAddr} {tunnelId : UInt16} {lspName : Option Bytes}
    {ero : List EroSubobj} {requestFrr : Bool} {p : Ptr} {t : Node} :
    s.numbered.rsvpPsbFind (ingressKey src dest tunnelId s.nextLspId) = none →
    s.numbered.rsvpPsbCreate env (ingressKey src dest tunnelId s.nextLspId) = some (p, t) →
    (Event.initiatePath src dest tunnelId lspName ero requestFrr).Takes env s
      (sendPathDownstream env (t.modPsb p (ingressSet env lspName ero requestFrr)) p)
  | bypassFailed {src dest : InAddr} {tunnelId : UInt16} {name : Option Bytes}
    {ero : List EroSubobj} {protectedIfindex : UInt32} :
    (Event.initiateBypass src dest tunnelId name ero protectedIfindex).Takes env s s.numbered
  | bypassStarted {src dest : InAddr} {tunnelId : UInt16} {name : Option Bytes}
    {ero : List EroSubobj} {protectedIfindex : UInt32} {p : Ptr} {t : Node} :
    s.numbered.rsvpPsbFind (ingressKey src dest tunnelId s.nextLspId) = none →
    s.numbered.rsvpPsbCreate env (ingressKey src dest tunnelId s.nextLspId) = some (p, t) →
    (Event.initiateBypass src dest tunnelId name ero protectedIfindex).Takes env s
      (sendPathDownstream env (t.modPsb p (bypassSet env name ero protectedIfindex)) p)
  | enabled {tunnelId lspId : UInt16} {frrMode : FrrMode} {bypassTunnelId : UInt16} {b c : Psb} :
    s.rsvpPsbFindById tunnelId lspId = some b → c ∈ s.psbs →
    ntohs c.key.session.tunnelId = bypassTunnelId → c.body.isBypassTunnel = true →
    (Event.frrEnable tunnelId lspId frrMode bypassTunnelId).Takes env s (s.modPsb b.addr fun x =>
      { x with frrMode := frrMode, bypassTunnelId := bypassTunnelId, bypassPsb := some c.addr })
  | triggered {ifindex : UInt32} :
    (Event.frrTrigger ifindex).Takes env s (rsvpFrrTrigger env s ifindex)
  | reverted {ifindex : UInt32} :
    (Event.frrRevert ifindex).Takes env s (rsvpFrrRevert env s ifindex)
  | tornDown {tunnelId lspId : UInt16} {b : Psb} : s.rsvpPsbFindById tunnelId lspId = some b →
    (Event.teardown tunnelId lspId).Takes env s (rsvpPsbCleanup env s b.addr true)
  | mbbStarted {tunnelId oldLspId newLspId : UInt16} {newEro : List EroSubobj} {old : Psb}
    {p : Ptr} {t : Node} : s.rsvpPsbFindById tunnelId oldLspId = some old →
    s.rsvpPsbFind (old.key.withLspId newLspId) = none →
    s.rsvpPsbCreate env (old.key.withLspId newLspId) = some (p, t) →
    (Event.mbbStart tunnelId oldLspId newLspId newEro).Takes env s
      (sendPathDownstream env (t.modPsb p (mbbClone env old.body oldLspId newEro)) p)

/-! ## The handlers -/

theorem dispatchPacket_takes (s : Node) (packet : Bytes) :
    (Event.recv packet).Takes env s (dispatchPacket env s packet) := by
  unfold dispatchPacket
  dsimp only
  split
  · exact .idle
  · split
    · exact .idle
    · rename_i foreign
      split
      · rename_i info parsed
        exact .message ⟨foreign, parsed⟩
      · exact .idle

theorem psbRefreshTimerCb_takes (s : Node) (p : Ptr) :
    (Event.psbRefresh p).Takes env s (psbRefreshTimerCb env s p) := by
  unfold psbRefreshTimerCb
  split
  · exact .idle
  · rename_i b found
    obtain ⟨mem, rfl⟩ := Table.get_eq_some.mp found
    dsimp only
    split
    · rename_i due
      exact .refreshed mem due
    · exact .restarted mem

theorem psbCleanupTimerCb_takes (s : Node) (p : Ptr) :
    (Event.psbCleanup p).Takes env s (psbCleanupTimerCb env s p) := by
  cases found : s.psbs.get p with
  | none =>
    rw [psbCleanupTimerCb, rsvpPsbCleanup, found]
    exact .idle
  | some b =>
    obtain ⟨mem, rfl⟩ := Table.get_eq_some.mp found
    exact .psbExpired mem

theorem rsbRefreshTimerCb_takes (s : Node) (r : Ptr) :
    (Event.rsbRefresh r).Takes env s (rsbRefreshTimerCb env s r) := by
  unfold rsbRefreshTimerCb
  split
  · exact .idle
  · rename_i rsb found
    obtain ⟨mem, rfl⟩ := Table.get_eq_some.mp found
    exact .resvRefreshed mem

theorem rsbCleanupTimerCb_takes (s : Node) (r : Ptr) :
    (Event.rsbCleanup r).Takes env s (rsbCleanupTimerCb env s r) := by
  cases found : s.rsbs.get r with
  | none =>
    rw [rsbCleanupTimerCb, rsvpRsbCleanup, found]
    exact .idle
  | some rsb =>
    obtain ⟨mem, rfl⟩ := Table.get_eq_some.mp found
    exact .rsbExpired mem

theorem rsvpInitiatePathWithEro_takes (s : Node) (src dest : InAddr) (tunnelId : UInt16)
    (lspName : Option Bytes) (ero : List EroSubobj) (requestFrr : Bool) :
    (Event.initiatePath src dest tunnelId lspName ero requestFrr).Takes env s
      (rsvpInitiatePathWithEro env s src dest tunnelId lspName ero requestFrr) := by
  unfold rsvpInitiatePathWithEro
  dsimp only
  split
  · rename_i b found
    obtain ⟨mem, key⟩ := Table.find_eq_some found
    exact .pathAgain mem key
  · rename_i absent
    split
    · exact .pathFailed
    · rename_i made
      exact .pathStarted absent made

theorem rsvpInitiateBypassTunnel_takes (s : Node) (src dest : InAddr) (tunnelId : UInt16)
    (name : Option Bytes) (ero : List EroSubobj) (protectedIfindex : UInt32) :
    (Event.initiateBypass src dest tunnelId name ero protectedIfindex).Takes env s
      (rsvpInitiateBypassTunnel env s src dest tunnelId name ero protectedIfindex) := by
  unfold rsvpInitiateBypassTunnel
  dsimp only
  split
  · exact .bypassFailed
  · rename_i absent
    split
    · exact .bypassFailed
    · rename_i made
      exact .bypassStarted absent made

theorem rsvpFrrEnableProtection_takes (s : Node) (tunnelId lspId : UInt16) (frrMode : FrrMode)
    (bypassTunnelId : UInt16) :
    (Event.frrEnable tunnelId lspId frrMode bypassTunnelId).Takes env s
      (s.orSelf (rsvpFrrEnableProtection s tunnelId lspId frrMode bypassTunnelId)) := by
  unfold rsvpFrrEnableProtection
  split
  · exact .idle
  · rename_i b scanned
    split
    · exact .idle
    · rename_i c chosen
      have meets := List.find?_some chosen
      rw [decide_eq_true_eq] at meets
      split
      · exact .enabled scanned (List.mem_of_find?_eq_some chosen) meets.1 meets.2
      · exact .idle

theorem rsvpTeardownPath_takes (s : Node) (tunnelId lspId : UInt16) :
    (Event.teardown tunnelId lspId).Takes env s (rsvpTeardownPath env s tunnelId lspId) := by
  unfold rsvpTeardownPath
  split
  · exact .idle
  · rename_i b scanned
    exact .tornDown scanned

theorem rsvpMbbStart_takes (s : Node) (tunnelId oldLspId newLspId : UInt16)
    (newEro : List EroSubobj) :
    (Event.mbbStart tunnelId oldLspId newLspId newEro).Takes env s
      (s.orSelf (rsvpMbbStart env s tunnelId oldLspId newLspId newEro)) := by
  unfold rsvpMbbStart
  split
  · exact .idle
  · rename_i old scanned
    split
    · exact .idle
    · dsimp only
      split
      · exact .idle
      · rename_i absent
        split
        · exact .idle
        · rename_i made
          exact .mbbStarted scanned absent made

/-- Every event takes one of the ways through its handler. -/
theorem Node.step_takes (env : Env) (s : Node) (ev : Event) : ev.Takes env s (s.step env ev) := by
  cases ev with
  | recv packet => exact dispatchPacket_takes s packet
  | psbRefresh p => exact psbRefreshTimerCb_takes s p
  | psbCleanup p => exact psbCleanupTimerCb_takes s p
  | rsbRefresh r => exact rsbRefreshTimerCb_takes s r
  | rsbCleanup r => exact rsbCleanupTimerCb_takes s r
  | bsbCleanup b => exact .bsbExpired
  | initiatePath src dest tunnelId lspName ero requestFrr =>
    exact rsvpInitiatePathWithEro_takes s src dest tunnelId lspName ero requestFrr
  | initiateBypass src dest tunnelId name ero protectedIfindex =>
    exact rsvpInitiateBypassTunnel_takes s src dest tunnelId name ero protectedIfindex
  | frrEnable tunnelId lspId frrMode bypassTunnelId =>
    exact rsvpFrrEnableProtection_takes s tunnelId lspId frrMode bypassTunnelId
  | frrTrigger ifindex => exact .triggered
  | frrRevert ifindex => exact .reverted
  | teardown tunnelId lspId => exact rsvpTeardownPath_takes s tunnelId lspId
  | mbbStart tunnelId oldLspId newLspId newEro =>
    exact rsvpMbbStart_takes s tunnelId oldLspId newLspId newEro

end Rsvp
