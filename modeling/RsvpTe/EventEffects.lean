import RsvpTe.ResvEffects

/-!
# The actions of each event

`Event.Allows` lists, for every event, the actions other than the benign ones that it can take
and the state in which it takes them, and `Node.step_runs` says that the list is complete.
`Reachable` are the states of all runs of the daemon: the environment may answer differently at
every step.
-/

namespace Rsvp

open Words

variable {env : Env} {ok : Act → Prop} {s : Node} {info : MessageInfo}

/-- The actions a message may take. -/
inductive MessageInfo.Allows (env : Env) (s : Node) (info : MessageInfo) : Act → Prop
  | benign {act : Act} : act.Benign → info.Allows env s act
  | pathArm : info.commonHdr.msgType = msgPath → info.Allows env s .arm
  | pathHop : info.commonHdr.msgType = msgPath → info.Allows env s (.hop info.key info.hop)
  | pathNewPsb : info.commonHdr.msgType = msgPath → info.Allows env s (.newPsb info.key false)
  | pathNewRsb : info.commonHdr.msgType = msgPath → info.Allows env s (.newRsb info.key)
  | pathResv : info.commonHdr.msgType = msgPath → info.Allows env s (.resv info.key)
  | pathAdvertise : info.commonHdr.msgType = msgPath → PathAccepted env s info →
    EgressAdvertises env s.rsbs s.labels info → info.Allows env s (.advertise info.key)
  | resvNewRsb : info.commonHdr.msgType = msgResv → info.Allows env s (.newRsb info.key)
  | resvStore : info.commonHdr.msgType = msgResv →
    info.Allows env s (.store info.key info.labelValue)
  | resvSwap : info.commonHdr.msgType = msgResv →
    info.Allows env s (.swap info.key info.labelValue (ntohl info.hop.logicalInterface))
  | resvInstall : info.commonHdr.msgType = msgResv →
    info.Allows env s (.install info.key info.labelValue (ntohl info.hop.logicalInterface))
  | resvResv : info.commonHdr.msgType = msgResv → info.Allows env s (.resv info.key)
  | resvReject : info.commonHdr.msgType = msgResv → s.rsvpRsbFind info.key = none →
    s.rsvpBsbFind info.key ≠ none ∨ (labelMgrAlloc s.labels).1 = 0 →
    info.Allows env s (.dropRsb info.key 0)
  | resvAdvertise {b : Psb} {r : Rsb} : info.commonHdr.msgType = msgResv →
    s.rsvpPsbFind info.key = some b → s.rsvpRsbFind info.key = some r →
    ResvAdvertises s info b r → info.Allows env s (.advertise info.key)
  | resvArm {b : Psb} : info.commonHdr.msgType = msgResv → s.rsvpPsbFind info.key = some b →
    b.body.isBypassTunnel = true → info.Allows env s .arm
  | mbbDropRsb {b old : Psb} {label : UInt32} : info.commonHdr.msgType = msgResv →
    s.rsvpPsbFind info.key = some b → MbbCompletes env s info b →
    s.rsvpPsbFindById (ntohs b.key.session.tunnelId) b.body.mbbOldLspId = some old →
    info.Allows env s (.dropRsb old.key label)
  | mbbDropPsb {b old : Psb} : info.commonHdr.msgType = msgResv →
    s.rsvpPsbFind info.key = some b → MbbCompletes env s info b →
    s.rsvpPsbFindById (ntohs b.key.session.tunnelId) b.body.mbbOldLspId = some old →
    info.Allows env s (.dropPsb old.addr)
  | pathTearRsb {b : Psb} {label : UInt32} : info.commonHdr.msgType = msgPathTear →
    s.rsvpPsbFind info.key = some b → info.Allows env s (.dropRsb b.key label)
  | pathTearPsb {b : Psb} : info.commonHdr.msgType = msgPathTear →
    s.rsvpPsbFind info.key = some b → info.Allows env s (.dropPsb b.addr)
  | resvTear {r : Rsb} : info.commonHdr.msgType = msgResvTear →
    s.rsvpRsbFind info.key = some r → info.Allows env s (.dropRsb r.key r.body.labelIn)

/-- The packet is read and parsed: it does not come from this node itself. -/
structure Receives (env : Env) (packet : Bytes) (info : MessageInfo) : Prop where
  foreign : ¬ (iphdrLen ≤ (packet.take maxRsvpPacketSize).length ∧
    env.isLocalAddr (u32At (packet.take maxRsvpPacketSize) 12) = true)
  parsed : rsvpParsePacket (packet.take maxRsvpPacketSize) = .ok info

theorem Receives.unique {packet : Bytes} {info info' : MessageInfo}
    (first : Receives env packet info) (second : Receives env packet info') : info = info' := by
  have same := first.parsed.symm.trans second.parsed
  cases same
  rfl

/-- The actions an event may take. -/
inductive Event.Allows (env : Env) (s : Node) : Event → Act → Prop
  | benign {ev : Event} {act : Act} : act.Benign → ev.Allows env s act
  | recv {packet : Bytes} {info : MessageInfo} {act : Act} :
    Receives env packet info → info.Allows env s act → (Event.recv packet).Allows env s act
  | psbCleanupRsb {b : Psb} {label : UInt32} : b ∈ s.psbs →
    (Event.psbCleanup b.addr).Allows env s (.dropRsb b.key label)
  | psbCleanupPsb {b : Psb} : b ∈ s.psbs →
    (Event.psbCleanup b.addr).Allows env s (.dropPsb b.addr)
  | rsbRefreshResv {r : Rsb} : r ∈ s.rsbs → (Event.rsbRefresh r.addr).Allows env s (.resv r.key)
  | rsbRefreshAdvertise {b : Psb} {r : Rsb} : b ∈ s.psbs → r ∈ s.rsbs →
    r.body.associatedPsb = some b.addr → r.body.labelIn = 0 →
    b.body.prevHop.neighborAddr ≠ 0 → b.body.isIngress = false →
    (labelMgrAlloc s.labels).1 ≠ 0 → (Event.rsbRefresh r.addr).Allows env s (.advertise r.key)
  | rsbCleanup {r : Rsb} : r ∈ s.rsbs →
    (Event.rsbCleanup r.addr).Allows env s (.dropRsb r.key r.body.labelIn)
  | initiatePath {src dest : InAddr} {tunnelId : UInt16} {lspName : Option Bytes}
    {ero : List EroSubobj} {requestFrr : Bool} :
    (Event.initiatePath src dest tunnelId lspName ero requestFrr).Allows env s
      (.newPsb (ingressKey src dest tunnelId s.nextLspId) false)
  | initiateBypass {src dest : InAddr} {tunnelId : UInt16} {name : Option Bytes}
    {ero : List EroSubobj} {ifindex : UInt32} :
    (Event.initiateBypass src dest tunnelId name ero ifindex).Allows env s
      (.newPsb (ingressKey src dest tunnelId s.nextLspId) false)
  | frrEnable {tunnelId lspId bypassTunnelId : UInt16} {frrMode : FrrMode} :
    (Event.frrEnable tunnelId lspId frrMode bypassTunnelId).Allows env s .arm
  | frrTrigger {key : PathKey} {ifindex outLabel outIfindex : UInt32} :
    (Event.frrTrigger ifindex).Allows env s (.install key outLabel outIfindex)
  | frrRevert {key : PathKey} {ifindex outLabel outIfindex : UInt32} :
    (Event.frrRevert ifindex).Allows env s (.install key outLabel outIfindex)
  | teardownRsb {tunnelId lspId : UInt16} {b : Psb} {label : UInt32} :
    s.rsvpPsbFindById tunnelId lspId = some b →
    (Event.teardown tunnelId lspId).Allows env s (.dropRsb b.key label)
  | teardownPsb {tunnelId lspId : UInt16} {b : Psb} :
    s.rsvpPsbFindById tunnelId lspId = some b →
    (Event.teardown tunnelId lspId).Allows env s (.dropPsb b.addr)
  | mbbStart {tunnelId oldLspId newLspId : UInt16} {newEro : List EroSubobj} {old : Psb} :
    s.rsvpPsbFindById tunnelId oldLspId = some old →
    (Event.mbbStart tunnelId oldLspId newLspId newEro).Allows env s
      (.newPsb { old.key with sender := { old.key.sender with lspId := htons newLspId } } true)

/-! ## Messages -/

theorem runs_misc (benign : ∀ act, act.Benign → ok act) (s : Node)
    {bsbs : Table PathKey BsbState} (keyed : s.bsbs.Keyed → bsbs.Keyed) :
    Runs env.toHal ok s { s with bsbs := bsbs } :=
  .one (benign .misc trivial) (.misc bsbs s.nextLspId keyed)

theorem bsbRemove_runs (benign : ∀ act, act.Benign → ok act) (s : Node) (key : PathKey) :
    Runs env.toHal ok s (bsbRemove s key) := by
  unfold bsbRemove
  split
  · exact .refl s
  · exact runs_misc benign s fun keyed => keyed.unlink _

theorem handlePathTear_runs (benign : ∀ act, act.Benign → ok act) (wf : s.Wf)
    (drops : ∀ b, s.rsvpPsbFind info.key = some b →
      (∀ label, ok (.dropRsb b.key label)) ∧ ok (.dropPsb b.addr)) :
    Runs env.toHal ok s (handlePathTear env s info) := by
  unfold handlePathTear
  simp only
  split
  · exact bsbRemove_runs benign s _
  · rename_i b found
    obtain ⟨dropRsb, dropPsb⟩ := drops b found
    obtain ⟨mem, -⟩ := Table.find_eq_some found
    exact (rsvpPsbCleanup_runs benign wf mem dropRsb dropPsb true).trans
      (bsbRemove_runs benign _ _)

theorem handleResvTear_runs (benign : ∀ act, act.Benign → ok act) (wf : s.Wf)
    (drops : ∀ r, s.rsvpRsbFind info.key = some r → ok (.dropRsb r.key r.body.labelIn)) :
    Runs env.toHal ok s (handleResvTear env s info) := by
  unfold handleResvTear
  simp only
  split
  · exact bsbRemove_runs benign s _
  · rename_i r found
    obtain ⟨mem, -⟩ := Table.find_eq_some found
    exact (rsvpRsbCleanup_runs benign wf mem (drops r found) true).trans
      (bsbRemove_runs benign _ _)

theorem resvErrBlockade_eq (s : Node) (info : MessageInfo) :
    ∃ bsbs, resvErrBlockade env s info = { s with bsbs := bsbs } ∧ (s.bsbs.Keyed → bsbs.Keyed) := by
  unfold resvErrBlockade
  split
  · split
    · simp only
      split
      · exact ⟨s.bsbs, rfl, id⟩
      · rename_i b t found
        split at found
        · cases found
          exact ⟨_, rfl, fun keyed => keyed.modify _ _⟩
        · rename_i absent
          obtain ⟨⟨q, bsbs⟩, created, same⟩ := Option.map_eq_some_iff.mp found
          cases same
          exact ⟨_, rfl, fun keyed =>
            keyed.modify_create (Table.find_eq_none.mp absent) created _⟩
    · exact ⟨s.bsbs, rfl, id⟩
  · exact ⟨s.bsbs, rfl, id⟩

theorem handleResvErr_runs (benign : ∀ act, act.Benign → ok act) :
    Runs env.toHal ok s (handleResvErr env s info) := by
  obtain ⟨bsbs, blocked, keyed⟩ := @resvErrBlockade_eq env s info
  unfold handleResvErr
  rw [blocked]
  simp only
  have noted := @runs_misc env ok benign s bsbs keyed
  split
  · exact noted
  · split
    · exact noted
    · exact noted.trans (propagateResvErr_runs benign _ _)

theorem rsvpHandleMessage_runs (wf : s.Wf) (allowed : ∀ act, info.Allows env s act → ok act) :
    Runs env.toHal ok s (rsvpHandleMessage env s info) := by
  have benign : ∀ act, act.Benign → ok act := fun act quiet => allowed act (.benign quiet)
  unfold rsvpHandleMessage
  simp only
  by_cases path : info.commonHdr.msgType = msgPath
  · rw [if_pos path]
    refine handlePathMessage_runs benign (fun accepted => ?_) wf
    exact ⟨benign, allowed _ (.pathArm path), allowed _ (.pathHop path),
      allowed _ (.pathNewPsb path), allowed _ (.pathNewRsb path), allowed _ (.pathResv path),
      fun advertises => allowed _ (.pathAdvertise path accepted advertises)⟩
  rw [if_neg path]
  by_cases resv : info.commonHdr.msgType = msgResv
  · rw [if_pos resv]
    apply handleResvMessage_runs _ wf
    exact ⟨benign, allowed _ (.resvNewRsb resv), allowed _ (.resvStore resv),
      allowed _ (.resvSwap resv), allowed _ (.resvInstall resv), allowed _ (.resvResv resv),
      fun absent full => allowed _ (.resvReject resv absent full),
      fun b r foundB foundR advertises =>
        allowed _ (.resvAdvertise resv foundB foundR advertises),
      fun b found bypass => allowed _ (.resvArm resv found bypass),
      fun b old found completes scanned =>
        ⟨fun _ => allowed _ (.mbbDropRsb resv found completes scanned),
          allowed _ (.mbbDropPsb resv found completes scanned)⟩⟩
  rw [if_neg resv]
  split
  · rename_i type
    exact handlePathTear_runs benign wf fun b found =>
      ⟨fun _ => allowed _ (.pathTearRsb type found), allowed _ (.pathTearPsb type found)⟩
  split
  · rename_i type
    exact handleResvTear_runs benign wf fun r found => allowed _ (.resvTear type found)
  split
  · exact handlePathErr_runs benign info
  split
  · exact handleResvErr_runs benign
  · exact .refl s

theorem dispatchPacket_runs (wf : s.Wf) (packet : Bytes)
    (allowed : ∀ act, (Event.recv packet).Allows env s act → ok act) :
    Runs env.toHal ok s (dispatchPacket env s packet) := by
  unfold dispatchPacket
  simp only
  split
  · exact .refl s
  split
  · exact .refl s
  rename_i foreign
  split
  · rename_i info parsed
    exact rsvpHandleMessage_runs wf fun act allows => allowed act (.recv ⟨foreign, parsed⟩ allows)
  · exact .refl s

/-! ## Timers -/

theorem psbRefreshTimerCb_runs (benign : ∀ act, act.Benign → ok act) (p : Ptr) :
    Runs env.toHal ok s (psbRefreshTimerCb env s p) := by
  have restarted : ∀ t : Node, Runs env.toHal ok t
      (t.modPsb p fun b => { b with refreshTimer := true }) := fun t =>
    runs_tunePsb benign p (fun _ => .of_same rfl rfl rfl rfl id) (fun _ => rfl) fun _ => rfl
  unfold psbRefreshTimerCb
  split
  · exact .refl s
  · simp only
    split
    · exact (sendPathDownstream_runs benign p).trans (restarted _)
    · exact restarted s

theorem rsbRefreshTimerCb_runs (wf : s.Wf) (r : Ptr)
    (allowed : ∀ act, (Event.rsbRefresh r).Allows env s act → ok act) :
    Runs env.toHal ok s (rsbRefreshTimerCb env s r) := by
  have benign : ∀ act, act.Benign → ok act := fun act quiet => allowed act (.benign quiet)
  unfold rsbRefreshTimerCb
  split
  · exact .refl s
  · rename_i rsb found
    obtain ⟨mem, rfl⟩ := Table.get_eq_some.mp found
    obtain ⟨b, memb, -, tied, -⟩ := wf.owned rsb mem
    have refreshed : Runs env.toHal ok s (resvRefresh env s rsb) := by
      apply resvRefresh_runs benign wf memb mem tied (allowed _ (.rsbRefreshResv mem))
      intro bare prevHop transit label
      exact allowed _ (.rsbRefreshAdvertise memb mem tied bare prevHop transit label)
    exact refreshed.trans (runs_tuneRsb benign _ (fun _ => ⟨rfl, rfl⟩) fun _ => rfl)

theorem psbCleanupTimerCb_runs (wf : s.Wf) (p : Ptr)
    (allowed : ∀ act, (Event.psbCleanup p).Allows env s act → ok act) :
    Runs env.toHal ok s (psbCleanupTimerCb env s p) := by
  have benign : ∀ act, act.Benign → ok act := fun act quiet => allowed act (.benign quiet)
  cases found : s.psbs.get p with
  | none =>
    unfold psbCleanupTimerCb rsvpPsbCleanup
    rw [found]
    exact .refl s
  | some b =>
    obtain ⟨mem, rfl⟩ := Table.get_eq_some.mp found
    exact rsvpPsbCleanup_runs benign wf mem (fun _ => allowed _ (.psbCleanupRsb mem))
      (allowed _ (.psbCleanupPsb mem)) true

theorem rsbCleanupTimerCb_runs (wf : s.Wf) (r : Ptr)
    (allowed : ∀ act, (Event.rsbCleanup r).Allows env s act → ok act) :
    Runs env.toHal ok s (rsbCleanupTimerCb env s r) := by
  have benign : ∀ act, act.Benign → ok act := fun act quiet => allowed act (.benign quiet)
  cases found : s.rsbs.get r with
  | none =>
    unfold rsbCleanupTimerCb rsvpRsbCleanup
    rw [found]
    exact .refl s
  | some rsb =>
    obtain ⟨mem, rfl⟩ := Table.get_eq_some.mp found
    exact rsvpRsbCleanup_runs benign wf mem (allowed _ (.rsbCleanup mem)) true

/-! ## Operator calls -/

/-- An LSP this node originates: its PSB is created and its PATH sent. -/
theorem originate_runs (benign : ∀ act, act.Benign → ok act) {key : PathKey}
    {f : PsbState → PsbState} (newPsb : ok (.newPsb key (f .zero).isMbbPending))
    (absent : s.rsvpPsbFind key = none) (blank : (f .zero).Fresh key) {p : Ptr} {t : Node}
    (made : s.rsvpPsbCreate env key = some (p, t)) :
    Runs env.toHal ok s (sendPathDownstream env (t.modPsb p f) p) := by
  obtain ⟨psbs, created, rfl⟩ := Node.rsvpPsbCreate_eq_some made
  have does : Does env.toHal (.newPsb key (f .zero).isMbbPending) s { s with psbs := psbs.modify p f } :=
    .newPsb (Table.find_eq_none.mp absent) created blank
  exact .trans (.one newPsb does) (sendPathDownstream_runs benign p)

theorem rsvpInitiatePathWithEro_runs (benign : ∀ act, act.Benign → ok act) (src dest : InAddr)
    (tunnelId : UInt16) (newPsb : ok (.newPsb (ingressKey src dest tunnelId s.nextLspId) false))
    (lspName : Option Bytes) (ero : List EroSubobj) (requestFrr : Bool) :
    Runs env.toHal ok s
      (rsvpInitiatePathWithEro env s src dest tunnelId lspName ero requestFrr) := by
  have counted : Runs env.toHal ok s { s with nextLspId := s.nextLspId + 1 } :=
    .one (benign .misc trivial) (.misc s.bsbs (s.nextLspId + 1) id)
  unfold rsvpInitiatePathWithEro
  simp only
  refine counted.trans ?_
  split
  · exact sendPathDownstream_runs benign _
  · rename_i absent
    split
    · exact .refl _
    · rename_i made
      refine originate_runs benign newPsb absent ⟨rfl, rfl, rfl, rfl, fun waits => ?_⟩ made
      cases waits

theorem rsvpInitiateBypassTunnel_runs (benign : ∀ act, act.Benign → ok act) (src dest : InAddr)
    (tunnelId : UInt16) (newPsb : ok (.newPsb (ingressKey src dest tunnelId s.nextLspId) false))
    (name : Option Bytes) (ero : List EroSubobj) (ifindex : UInt32) :
    Runs env.toHal ok s
      (rsvpInitiateBypassTunnel env s src dest tunnelId name ero ifindex) := by
  have counted : Runs env.toHal ok s { s with nextLspId := s.nextLspId + 1 } :=
    .one (benign .misc trivial) (.misc s.bsbs (s.nextLspId + 1) id)
  unfold rsvpInitiateBypassTunnel
  simp only
  refine counted.trans ?_
  split
  · exact .refl _
  · rename_i absent
    split
    · exact .refl _
    · rename_i made
      refine originate_runs benign newPsb absent ⟨rfl, rfl, rfl, rfl, fun waits => ?_⟩ made
      cases waits

theorem rsvpFrrEnableProtection_runs (arm : ok .arm) (tunnelId lspId : UInt16)
    (frrMode : FrrMode) (bypassTunnelId : UInt16) :
    Runs env.toHal ok s
      (s.orSelf (rsvpFrrEnableProtection s tunnelId lspId frrMode bypassTunnelId)) := by
  unfold rsvpFrrEnableProtection
  split
  · exact .refl s
  · rename_i b scanned
    split
    · exact .refl s
    · rename_i c scannedC
      split
      · have mem : b ∈ s.psbs := List.mem_of_find?_eq_some scanned
        have memc : c ∈ s.psbs := List.mem_of_find?_eq_some scannedC
        have bypass : c.body.isBypassTunnel = true := by
          have meets := List.find?_some scannedC
          simp only [decide_eq_true_eq] at meets
          exact meets.2
        exact .one arm (.arm mem memc bypass (.of_same rfl rfl rfl rfl id) rfl rfl)
      · exact .refl s

/-- A PSB is marked and its PATH sent. -/
theorem tuned_sendPath_runs (benign : ∀ act, act.Benign → ok act) (t : Node) (p : Ptr)
    {f : PsbState → PsbState} (keeps : ∀ b : PsbState, b.Keeps (f b))
    (hop : ∀ b, (f b).prevHop = b.prevHop) (bypass : ∀ b, (f b).bypassPsb = b.bypassPsb) :
    Runs env.toHal ok t (sendPathDownstream env (t.modPsb p f) p) :=
  (runs_tunePsb benign p keeps hop bypass).trans (sendPathDownstream_runs benign p)

theorem frrTriggerOne_runs (benign : ∀ act, act.Benign → ok act)
    (install : ∀ key outLabel outIfindex, ok (.install key outLabel outIfindex))
    (ifindex : UInt32) (s : Node) (p : Ptr) :
    Runs env.toHal ok s (frrTriggerOne env ifindex s p) := by
  have marked : ∀ (t : Node) (out : UInt32), Runs env.toHal ok t (sendPathDownstream env
      (t.modPsb p fun x => { x with frrActive := true, ifindexOut := out }) p) := fun t out =>
    tuned_sendPath_runs benign t p (fun _ => .of_same rfl rfl rfl rfl id) (fun _ => rfl) fun _ => rfl
  unfold frrTriggerOne
  split
  · exact .refl s
  split
  · exact .refl s
  split
  · simp only
    split
    · exact .refl s
    split
    · exact .refl s
    split
    · exact marked s _
    · rename_i rsb found
      obtain ⟨mem, key⟩ := Table.find_eq_some found
      exact .trans (.one (install _ _ _) (.install fun _ => ⟨rsb, mem, key, rfl⟩)) (marked _ _)
  · exact .refl s

theorem frrRevertOne_runs (benign : ∀ act, act.Benign → ok act)
    (install : ∀ key outLabel outIfindex, ok (.install key outLabel outIfindex))
    (ifindex : UInt32) (s : Node) (p : Ptr) :
    Runs env.toHal ok s (frrRevertOne env ifindex s p) := by
  unfold frrRevertOne
  split
  · exact .refl s
  split
  · exact .refl s
  split
  · split
    · exact .refl s
    · rename_i rsb found
      obtain ⟨mem, key⟩ := Table.find_eq_some found
      simp only
      exact .trans (.one (install _ _ _) (.install fun _ => ⟨rsb, mem, key, rfl⟩))
        (tuned_sendPath_runs benign _ p (fun _ => .of_same rfl rfl rfl rfl id) (fun _ => rfl)
          fun _ => rfl)
  · exact .refl s

theorem rsvpTeardownPath_runs (wf : s.Wf) (tunnelId lspId : UInt16)
    (allowed : ∀ act, (Event.teardown tunnelId lspId).Allows env s act → ok act) :
    Runs env.toHal ok s (rsvpTeardownPath env s tunnelId lspId) := by
  have benign : ∀ act, act.Benign → ok act := fun act quiet => allowed act (.benign quiet)
  unfold rsvpTeardownPath
  split
  · exact .refl s
  · rename_i b scanned
    have mem : b ∈ s.psbs := List.mem_of_find?_eq_some scanned
    exact rsvpPsbCleanup_runs benign wf mem (fun _ => allowed _ (.teardownRsb scanned))
      (allowed _ (.teardownPsb scanned)) true

theorem rsvpMbbStart_runs (tunnelId oldLspId newLspId : UInt16) (newEro : List EroSubobj)
    (allowed : ∀ act, (Event.mbbStart tunnelId oldLspId newLspId newEro).Allows env s act →
      ok act) :
    Runs env.toHal ok s (s.orSelf (rsvpMbbStart env s tunnelId oldLspId newLspId newEro)) := by
  have benign : ∀ act, act.Benign → ok act := fun act quiet => allowed act (.benign quiet)
  unfold rsvpMbbStart
  split
  · exact .refl s
  rename_i old scanned
  split
  · exact .refl s
  simp only
  split
  · exact .refl s
  rename_i absent
  split
  · exact .refl s
  rename_i made
  have meets := List.find?_some scanned
  simp only [decide_eq_true_eq] at meets
  -- The new LSP ID differs from the old one: its key has no PSB yet.
  have other : oldLspId ≠ ntohs (htons newLspId) := by
    intro same
    have mem : old ∈ s.psbs := List.mem_of_find?_eq_some scanned
    apply Table.find_eq_none.mp absent old mem
    have lspId : old.key.sender.lspId = htons newLspId := by
      have eq := congrArg htons (meets.2.trans same)
      rw [htons, ntohs, bswap16_bswap16, ntohs, htons, bswap16_bswap16] at eq
      exact eq
    rw [← lspId]
  exact originate_runs benign (allowed _ (.mbbStart scanned)) absent
    ⟨rfl, rfl, rfl, rfl, fun _ => ⟨rfl, other⟩⟩ made

/-! ## Events and runs -/

/-- An event takes only the actions it allows. -/
theorem Node.step_runs (wf : s.Wf) (ev : Event) (allowed : ∀ act, ev.Allows env s act → ok act) :
    Runs env.toHal ok s (s.step env ev) := by
  have benign : ∀ act, act.Benign → ok act := fun act quiet => allowed act (.benign quiet)
  cases ev with
  | recv packet => exact dispatchPacket_runs wf packet allowed
  | psbRefresh p => exact psbRefreshTimerCb_runs benign p
  | psbCleanup p => exact psbCleanupTimerCb_runs wf p allowed
  | rsbRefresh r => exact rsbRefreshTimerCb_runs wf r allowed
  | rsbCleanup r => exact rsbCleanupTimerCb_runs wf r allowed
  | bsbCleanup b => exact runs_misc benign s fun keyed => keyed.unlink b
  | initiatePath src dest tunnelId lspName ero requestFrr =>
    exact rsvpInitiatePathWithEro_runs benign src dest tunnelId (allowed _ .initiatePath) _ _ _
  | initiateBypass src dest tunnelId name ero ifindex =>
    exact rsvpInitiateBypassTunnel_runs benign src dest tunnelId (allowed _ .initiateBypass) _ _ _
  | frrEnable tunnelId lspId frrMode bypassTunnelId =>
    exact rsvpFrrEnableProtection_runs (allowed _ .frrEnable) tunnelId lspId frrMode bypassTunnelId
  | frrTrigger ifindex =>
    exact Runs.foldl (frrTriggerOne_runs benign (fun _ _ _ => allowed _ .frrTrigger) ifindex) _ s
  | frrRevert ifindex =>
    exact Runs.foldl (frrRevertOne_runs benign (fun _ _ _ => allowed _ .frrRevert) ifindex) _ s
  | teardown tunnelId lspId => exact rsvpTeardownPath_runs wf tunnelId lspId allowed
  | mbbStart tunnelId oldLspId newLspId newEro =>
    exact rsvpMbbStart_runs tunnelId oldLspId newLspId newEro allowed

theorem Node.Wf.step (wf : s.Wf) (env : Env) (ev : Event) : (s.step env ev).Wf :=
  (@Node.step_runs env (fun _ => True) s wf ev fun _ _ => trivial).wf wf

/-- The states of every run from an empty node with a label pool `labels`. -/
inductive Reachable (labels : LabelMgr) : Node → Prop
  | init : Reachable labels (Node.init labels)
  | step {s : Node} (env : Env) (ev : Event) : Reachable labels s →
    Reachable labels (s.step env ev)

theorem Reachable.wf {labels : LabelMgr} (pool : labels.Wf) (run : Reachable labels s) : s.Wf := by
  induction run with
  | init => exact .init pool
  | step env ev _ ih => exact ih.step env ev

/-- The tables of a reachable state: one block per key, every RSB with the PSB of its key, and no
PSB with an RSB that is gone. -/
theorem associated_of_reachable {min max : UInt32} (low : 1 ≤ min) (ordered : min ≤ max)
    (high : max < 1048576) (run : Reachable (labelMgrInit min max true) s) :
    (s.psbs.Keyed ∧ s.rsbs.Keyed ∧ s.bsbs.Keyed) ∧
    (∀ r ∈ s.rsbs, ∃ b ∈ s.psbs, r.body.associatedPsb = some b.addr ∧ b.key = r.key ∧
      b.body.associatedRsb = some r.addr) ∧
    ∀ b ∈ s.psbs, ∀ a, b.body.associatedRsb = some a → ∃ r ∈ s.rsbs, r.addr = a ∧ r.key = b.key := by
  have wf := run.wf (labelMgrInit_wf low ordered high).1
  refine ⟨⟨wf.psbKeyed, wf.rsbKeyed, wf.bsbKeyed⟩, fun r mem => ?_, fun b mem a back => ?_⟩
  · obtain ⟨b, memb, key, tied, back⟩ := wf.owned r mem
    exact ⟨b, memb, tied, key, back⟩
  · obtain ⟨r, memr, addr, tied⟩ := wf.linked b mem a back
    exact ⟨r, memr, addr, (wf.psb_of_rsb mem memr tied).1.symm⟩

/-- The egress of a first LSP: its RSB has a PSB. -/
theorem associated_of_reachable_egress :
    ∃ r ∈ ((Node.init (labelMgrInit 16 31 true)).step (sampleEnv (· = 0x0300000A) 1)
        (.recv (samplePath 0x0300000A 1 5))).rsbs,
      ∃ b ∈ ((Node.init (labelMgrInit 16 31 true)).step (sampleEnv (· = 0x0300000A) 1)
          (.recv (samplePath 0x0300000A 1 5))).psbs,
        r.body.associatedPsb = some b.addr ∧ b.key = r.key ∧
          b.body.associatedRsb = some r.addr := by
  have run : Reachable (labelMgrInit 16 31 true) ((Node.init (labelMgrInit 16 31 true)).step
      (sampleEnv (· = 0x0300000A) 1) (.recv (samplePath 0x0300000A 1 5))) := .step _ _ .init
  have one : ((Node.init (labelMgrInit 16 31 true)).step (sampleEnv (· = 0x0300000A) 1)
      (.recv (samplePath 0x0300000A 1 5))).rsbs.blocks.length = 1 := by
    decide +kernel
  obtain ⟨r, only⟩ := List.length_eq_one_iff.mp one
  have mem : r ∈ ((Node.init (labelMgrInit 16 31 true)).step (sampleEnv (· = 0x0300000A) 1)
      (.recv (samplePath 0x0300000A 1 5))).rsbs := by
    rw [Table.mem_def, only]
    exact List.mem_singleton.mpr rfl
  obtain ⟨-, owned, -⟩ := associated_of_reachable (by decide) (by decide) (by decide) run
  exact ⟨r, mem, owned r mem⟩

end Rsvp
