import RsvpTe.EventCases
import RsvpTe.Switchover

/-!
# LSPs stay on their bypass

The handlers look at `frr_active` in `rsvp_frr_trigger` and `rsvp_frr_revert` only: a RESV writes the
entry of its LSP from the primary label whether the LSP is on its bypass or not, and a new label of
a bypass reaches no LSP that uses it.  `Event.Steady` says which events do not do so, and a run of
such events keeps every LSP with `frr_active` on its bypass.
-/

namespace Rsvp

open Words

variable {env : Env} {s s' : Node} {info : MessageInfo}

/-! ## Steady events -/

/-- The removal of the state of PSB `b` spares the LSPs on their bypass. -/
def Node.SparesRemoval (s : Node) (b : Psb) : Prop :=
  ∀ r ∈ s.rsbs, r.key = b.key → s.SparesPush b r

structure MessageInfo.Steady (env : Env) (s : Node) (info : MessageInfo) : Prop where
  path : info.commonHdr.msgType = msgPath → info.PathSpares env s
  resv : info.commonHdr.msgType = msgResv → info.ResvSpares s
  tear : info.commonHdr.msgType = msgPathTear ∨ info.commonHdr.msgType = msgResvTear →
    ∀ b ∈ s.psbs, b.key = info.key → s.SparesRemoval b

/-- The event leaves the entries of the LSPs on their bypass alone, and both labels of each: no RESV
that changes something is for such an LSP, for its tunnel or for another LSP that pushes under its
entry, no such other LSP goes, and none is switched or taken back to another label. -/
def Event.Steady (env : Env) (s : Node) : Event → Prop
  | .recv packet => ∀ info, Receives env packet info → info.Steady env s
  | .psbCleanup p => ∀ b ∈ s.psbs, b.addr = p → s.SparesRemoval b
  | .rsbRefresh a => ∀ r ∈ s.rsbs, r.addr = a → ∀ b ∈ s.psbs, b.key = r.key → TakesLabel s b r →
    ∀ p c, ¬ Disturbs s (· = r.key) (fun _ => False) p c
  | .rsbCleanup a => ∀ r ∈ s.rsbs, r.addr = a → ∀ b ∈ s.psbs, b.key = r.key → s.SparesPush b r
  | .frrEnable tunnelId lspId _ bypassTunnelId => ∀ b,
    s.rsvpPsbFindById tunnelId lspId = some b → b.body.frrActive = true → ∀ c ∈ s.psbs,
    ntohs c.key.session.tunnelId = bypassTunnelId → c.body.isBypassTunnel = true →
    b.body.bypassPsb = some c.addr ∨ ∀ r ∈ s.rsbs, r.key ≠ b.key
  | .frrTrigger ifindex => TriggerAgrees env s ifindex
  | .frrRevert ifindex => RevertAgrees env s ifindex
  | .teardown tunnelId lspId => ∀ b, s.rsvpPsbFindById tunnelId lspId = some b → s.SparesRemoval b
  | _ => True

theorem bsbRemove_keepsDiverted (s : Node) (key : PathKey) :
    KeepsDiverted s (bsbRemove s key) := by
  unfold bsbRemove
  split
  · exact .refl s
  · exact .of_same rfl rfl rfl

theorem rsvpHandleMessage_keepsDiverted (wf : s.Wf) (sound : s.ledger.Sound)
    (refers : s.AllPsbs Psb.Referring) (steady : info.Steady env s) :
    KeepsDiverted s (rsvpHandleMessage env s info) := by
  have apart := labelsApart_of_sound sound
  unfold rsvpHandleMessage
  dsimp only
  split
  · rename_i path
    exact handlePathMessage_keepsDiverted wf refers (steady.path path)
  split
  · rename_i resv
    exact handleResvMessage_keepsDiverted wf sound refers (steady.resv resv)
  split
  · rename_i tear
    unfold handlePathTear
    refine KeepsDiverted.trans ?_ (bsbRemove_keepsDiverted _ info.key)
    split
    · exact .refl s
    · rename_i b found
      obtain ⟨mem, key⟩ := Table.find_eq_some found
      exact rsvpPsbCleanup_keepsDiverted wf apart mem (steady.tear (.inl tear) b mem key) true
  split
  · rename_i tear
    unfold handleResvTear
    refine KeepsDiverted.trans ?_ (bsbRemove_keepsDiverted _ info.key)
    split
    · exact .refl s
    · rename_i r found
      obtain ⟨mem, key⟩ := Table.find_eq_some found
      obtain ⟨b, memb, keyB, tied, -⟩ := wf.owned r mem
      exact rsvpRsbCleanup_keepsDiverted wf apart memb mem tied
        (steady.tear (.inr tear) b memb (keyB.trans key) r mem keyB.symm) true
  split
  · obtain ⟨out, told⟩ := @handlePathErr_eq env info s
    rw [told]
    exact .of_same rfl rfl rfl
  split
  · obtain ⟨bsbs, out, told⟩ := @handleResvErr_eq env info s
    rw [told]
    exact .of_same rfl rfl rfl
  · exact .refl s

/-- A PSB that is created, set and announced is not on a bypass. -/
theorem originated_keepsDiverted (wf : s.Wf) {key : PathKey} (absent : s.rsvpPsbFind key = none)
    {p : Ptr} {t : Node} {f : PsbState → PsbState} (made : s.rsvpPsbCreate env key = some (p, t))
    (inactive : (f .zero).frrActive = false) :
    KeepsDiverted s (sendPathDownstream env (t.modPsb p f) p) := by
  obtain ⟨psbs, created, rfl⟩ := Node.rsvpPsbCreate_eq_some made
  exact (created_keepsDiverted (Table.find_eq_none.mp absent) created inactive wf).trans
    (sendPathDownstream_keepsDiverted _ p)

theorem enabled_onBypass (on : s.OnBypass) {tunnelId lspId : UInt16} {b c : Psb}
    (scanned : s.rsvpPsbFindById tunnelId lspId = some b)
    (steady : b.body.frrActive = true →
      b.body.bypassPsb = some c.addr ∨ ∀ r ∈ s.rsbs, r.key ≠ b.key)
    {frrMode : FrrMode} {bypassTunnelId : UInt16} :
    (s.modPsb b.addr fun x => { x with
      frrMode := frrMode
      bypassTunnelId := bypassTunnelId
      bypassPsb := some c.addr }).OnBypass := by
  have memb : b ∈ s.psbs := List.mem_of_find?_eq_some scanned
  intro b' r c' x routed active
  obtain ⟨c₀, memc₀, addrC, keyC⟩ : ∃ c₀ ∈ s.psbs, c₀.addr = c'.addr ∧ c₀.key = c'.key := by
    rcases Table.mem_modify.mp routed.memc with ⟨old, -⟩ | ⟨c₀, old, -, rfl⟩
    · exact ⟨c', old, rfl, rfl⟩
    · exact ⟨c₀, old, rfl, rfl⟩
  have keyX : x.key = c₀.key := routed.keyX.trans keyC.symm
  rcases Table.mem_modify.mp routed.memb with ⟨old, -⟩ | ⟨b₀, old, here, rfl⟩
  · exact on b' r c₀ x ⟨old, routed.memr, routed.keyR, memc₀, addrC ▸ routed.bypass,
      routed.memx, keyX⟩ active
  · obtain rfl := Table.eq_of_addr_eq old memb here
    rcases steady active with same | bare
    · have bypass : b₀.body.bypassPsb = some c₀.addr :=
        same.trans (routed.bypass.trans (congrArg some addrC.symm))
      exact on b₀ r c₀ x ⟨memb, routed.memr, routed.keyR, memc₀, bypass, routed.memx, keyX⟩ active
    · exact absurd routed.keyR (bare r routed.memr)

/-- A steady event keeps every LSP on its bypass. -/
theorem Node.step_onBypass (wf : s.Wf) (sound : s.ledger.Sound) (refers : s.AllPsbs Psb.Referring)
    (on : s.OnBypass) {ev : Event} (steady : ev.Steady env s) : (s.step env ev).OnBypass := by
  have apart := labelsApart_of_sound sound
  have numbered : KeepsDiverted s s.numbered := .of_same rfl rfl rfl
  have wfT : s.numbered.Wf := wf.congr rfl rfl wf.bsbKeyed wf.labels
  have restarted : ∀ (t : Node) p, KeepsDiverted t (t.modPsb p fun x =>
      { x with refreshTimer := true }) := fun t p => .modPsb p (fun _ => rfl) fun _ => rfl
  have takes := s.step_takes env ev
  generalize s.step env ev = s' at takes ⊢
  cases takes with
  | idle => exact on
  | message received =>
    exact (rsvpHandleMessage_keepsDiverted wf sound refers (steady _ received)).onBypass on
  | refreshed mem due =>
    exact ((sendPathDownstream_keepsDiverted s _).trans (restarted _ _)).onBypass on
  | restarted mem => exact (restarted s _).onBypass on
  | psbExpired mem =>
    exact (rsvpPsbCleanup_keepsDiverted wf apart mem (steady _ mem rfl) true).onBypass on
  | @resvRefreshed r mem =>
    obtain ⟨b, memb, keyB, tied, -⟩ := wf.owned r mem
    have sent : KeepsDiverted s (resvRefresh env s r) :=
      resvRefresh_keepsDiverted wf.labels memb mem tied (steady r mem rfl b memb keyB)
    have restarted : KeepsDiverted (resvRefresh env s r) ((resvRefresh env s r).modRsb r.addr
        fun x => { x with refreshTimer := true }) :=
      .modRsb _ r.addr (fun _ => rfl) (fun _ => rfl) fun _ => rfl
    exact (sent.trans restarted).onBypass on
  | @rsbExpired r mem =>
    obtain ⟨b, memb, keyB, tied, -⟩ := wf.owned r mem
    exact (rsvpRsbCleanup_keepsDiverted wf apart memb mem tied
      (steady r mem rfl b memb keyB) true).onBypass on
  | @bsbExpired b =>
    have same : KeepsDiverted s (s.rsvpBsbDelete b) := .of_same rfl rfl rfl
    exact same.onBypass on
  | pathFailed => exact numbered.onBypass on
  | pathAgain mem key => exact (numbered.trans (sendPathDownstream_keepsDiverted _ _)).onBypass on
  | pathStarted absent made =>
    exact (numbered.trans (originated_keepsDiverted wfT absent made rfl)).onBypass on
  | bypassFailed => exact numbered.onBypass on
  | bypassStarted absent made =>
    exact (numbered.trans (originated_keepsDiverted wfT absent made rfl)).onBypass on
  | enabled scanned mem tunnel bypass =>
    exact enabled_onBypass on scanned fun active => steady _ scanned active _ mem tunnel bypass
  | triggered => exact rsvpFrrTrigger_onBypass wf apart on steady
  | reverted => exact rsvpFrrRevert_onBypass wf apart on steady
  | tornDown scanned =>
    exact (rsvpPsbCleanup_keepsDiverted wf apart (List.mem_of_find?_eq_some scanned)
      (steady _ scanned) true).onBypass on
  | mbbStarted scanned absent made =>
    exact (originated_keepsDiverted wf absent made rfl).onBypass on

/-! ## Runs -/

/-- Reachability with steady events. -/
inductive SteadyRun (labels : LabelMgr) : Node → Prop
  | init : SteadyRun labels (Node.init labels)
  | step {s : Node} (env : Env) (ev : Event) : SteadyRun labels s → ev.Steady env s →
    SteadyRun labels (s.step env ev)

theorem SteadyRun.reachable {labels : LabelMgr} (run : SteadyRun labels s) :
    Reachable labels s := by
  induction run with
  | init => exact .init
  | step env ev _ _ ih => exact .step env ev ih

/-- No event makes an LSP active without a bypass, or takes the bypass from an active one. -/
theorem admits_referring (env : Env) (s : Node) (ev : Event) : ev.Admits Psb.Referring env s := by
  cases ev with
  | recv packet =>
    intro info received
    refine ⟨fun _ _ _ _ _ => (by rintro _ ⟨⟩), fun _ kept => kept, fun _ b _ kept active => ?_,
      fun _ _ active => by cases active⟩
    change (pathUpdate env info b.body).bypassPsb ≠ none
    change (pathUpdate env info b.body).frrActive = true at active
    rw [pathUpdate_eq] at active ⊢
    exact kept active
  | initiatePath src dest tunnelId lspName ero requestFrr => exact fun _ active => by cases active
  | initiateBypass src dest tunnelId name ero protectedIfindex =>
    exact fun _ active => by cases active
  | frrEnable => exact fun _ _ _ _ _ => by rintro _ ⟨⟩
  | frrTrigger => exact fun _ _ _ armed _ => armed
  | frrRevert => exact fun _ _ _ active => by cases active
  | mbbStart tunnelId oldLspId newLspId newEro => exact fun _ _ _ active => by cases active
  | psbRefresh => trivial
  | psbCleanup => trivial
  | rsbRefresh => trivial
  | rsbCleanup => trivial
  | bsbCleanup => trivial
  | teardown => trivial

theorem Reachable.referring {labels : LabelMgr} (pool : labels.Wf) (run : Reachable labels s) :
    s.AllPsbs Psb.Referring := by
  induction run with
  | init => exact fun b mem => absurd mem (Table.not_mem_empty b)
  | step env ev before ih =>
    exact Node.step_all referring_rule (before.wf pool) (admits_referring env _ ev) ih

theorem SteadyRun.onBypass {labels : LabelMgr} (pool : labels.Wf)
    (unused : ∀ label, ¬ labels.InUse label) (run : SteadyRun labels s) : s.OnBypass := by
  induction run with
  | init => exact fun b _ _ _ routed => absurd routed.memb (Table.not_mem_empty b)
  | step env ev before steady ih =>
    have reached := before.reachable
    exact Node.step_onBypass (reached.wf pool) (reached.sound pool unused)
      (reached.referring pool) ih steady

/-- In a run of steady events, the entry of an LSP with `frr_active` set has the outgoing label and
the next hop of the RSB of its bypass. -/
theorem stays_on_bypass {min max : UInt32} (low : 1 ≤ min) (ordered : min ≤ max)
    (high : max < 1048576) (run : SteadyRun (labelMgrInit min max true) s) {b c : Psb} {r x : Rsb}
    (memb : b ∈ s.psbs) (active : b.body.frrActive = true) (rsb : s.rsvpRsbFind b.key = some r)
    (memc : c ∈ s.psbs) (bypass : b.body.bypassPsb = some c.addr)
    (bypassRsb : s.rsvpRsbFind c.key = some x) :
    ∃ e, s.fwd (fwdKey r.body.labelIn b.key.session.destAddr) = some e ∧
      e.outLabel = x.body.labelOut ∧ e.nextHop = x.body.nextHop.neighborAddr := by
  obtain ⟨pool, unused⟩ := labelMgrInit_wf low ordered high
  obtain ⟨memr, keyR⟩ := Table.find_eq_some rsb
  obtain ⟨memx, keyX⟩ := Table.find_eq_some bypassRsb
  have diverted := run.onBypass pool unused b r c x
    ⟨memb, memr, keyR, memc, bypass, memx, keyX⟩ active
  rw [← keyR]
  exact diverted

/-- While no LSP is active, every packet is steady. -/
theorem recv_steady_of_idle (idle : ∀ b ∈ s.psbs, b.body.frrActive = false) (packet : Bytes) :
    (Event.recv packet).Steady env s := by
  have inactive : ∀ {b : Psb}, b ∈ s.psbs → ¬ b.body.frrActive = true := fun mem active =>
    absurd ((idle _ mem).symm.trans active) Bool.false_ne_true
  have calm : ∀ ins outs b c, ¬ Disturbs s ins outs b c := fun _ _ _ _ disturbs =>
    inactive disturbs.memb disturbs.active
  have spared : ∀ b r, s.SparesPush b r := fun _ _ _ _ _ _ routed active =>
    absurd active (inactive routed.memb)
  have clear : ∀ info b isNew, ResvClear s info b isNew := by
    intro info b isNew
    refine ⟨fun p c => calm _ _ p c, fun _ diverted => ?_, fun _ _ old _ r _ _ => spared old r⟩
    obtain ⟨p, _, _, _, routed, active, -⟩ := diverted
    exact inactive routed.memb active
  intro info _
  refine ⟨fun _ _ _ => ⟨fun b c => calm _ _ b c, fun _ b mem active => ?_⟩, fun _ => ?_,
    fun _ b _ _ r _ _ => spared b r⟩
  · exact absurd active (inactive mem)
  · exact ⟨fun _ b _ _ r _ _ _ _ => clear info b false, fun _ b _ _ _ _ => clear info b true,
      fun _ _ _ _ _ _ _ _ _ _ p c => calm _ _ p c⟩

/-- An LSP with protection to 10.0.0.4 and a bypass to 10.0.0.3, both announced. -/
def sampleAnnounced : Node :=
  ((Node.init (labelMgrInit 16 31 true)).step (sampleEnv (fun _ => false) 1)
    (.initiatePath 0x0900000A 0x0400000A 1 none [] true)).step (sampleEnv (fun _ => false) 2)
    (.initiateBypass 0x0900000A 0x0300000A 1 none [] 2)

/-- The bypass has the label 100. -/
def sampleBypassUp : Node :=
  sampleAnnounced.step (sampleEnv (fun _ => false) 2) (.recv (sampleResv 0x0300000A 2 100 7))

/-- The LSP has the label 200. -/
def sampleLabelled : Node :=
  sampleBypassUp.step (sampleEnv (fun _ => false) 3) (.recv (sampleResv 0x0400000A 1 200 7))

/-- The same after the link has failed. -/
def sampleRerouted : Node :=
  sampleLabelled.step (sampleEnv (fun _ => false) 3) (.frrTrigger 2)

/-- The LSP gets the label 201. -/
def sampleRelabelled : Node :=
  sampleRerouted.step (sampleEnv (fun _ => false) 3) (.recv (sampleResv 0x0400000A 1 201 7))

/-- The bypass gets the label 101. -/
def sampleBypassRelabelled : Node :=
  sampleRerouted.step (sampleEnv (fun _ => false) 3) (.recv (sampleResv 0x0300000A 2 101 7))

theorem steadyRun_sampleRerouted : SteadyRun (labelMgrInit 16 31 true) sampleRerouted := by
  have idle : (sampleAnnounced.psbs.blocks.all (!·.body.frrActive) &&
      sampleBypassUp.psbs.blocks.all (!·.body.frrActive) &&
      sampleLabelled.psbs.blocks.all (fun b => sampleLabelled.rsbs.blocks.all fun r =>
        r.key = b.key ∨ r.key.session.destAddr ≠ b.key.session.destAddr)) = true := by
    decide +kernel
  simp only [Bool.and_eq_true, List.all_eq_true, Bool.not_eq_true', decide_eq_true_eq] at idle
  obtain ⟨⟨first, second⟩, apart⟩ := idle
  have announced : SteadyRun (labelMgrInit 16 31 true) sampleAnnounced :=
    .step _ _ (.step _ _ .init trivial) trivial
  have bypassUp : SteadyRun (labelMgrInit 16 31 true) sampleBypassUp :=
    .step _ _ announced (recv_steady_of_idle (fun b mem => first b (Table.mem_def.mp mem)) _)
  have protectedUp : SteadyRun (labelMgrInit 16 31 true) sampleLabelled :=
    .step _ _ bypassUp (recv_steady_of_idle (fun b mem => second b (Table.mem_def.mp mem)) _)
  refine .step _ _ protectedUp ?_
  -- Every LSP has its own destination.
  intro b mem _ _ _ _ r _ _ routed _ shared
  exact absurd shared.2.2.1 ((apart b mem r routed.memr).resolve_left shared.1)

/-- LSP `b` is active with the tunnel `c`, both have RSBs, and `test` holds of these. -/
def Node.reroutes (s : Node) (test : Psb → Rsb → Rsb → Bool) (b c : Psb) : Bool :=
  b.body.frrActive && decide (b.body.bypassPsb = some c.addr) &&
    (s.rsvpRsbFind b.key).any fun r => (s.rsvpRsbFind c.key).any fun x => test b r x

theorem Node.reroutes_cases {test : Psb → Rsb → Rsb → Bool} {b c : Psb}
    (reroutes : s.reroutes test b c = true) :
    b.body.frrActive = true ∧ b.body.bypassPsb = some c.addr ∧ ∃ r x,
      s.rsvpRsbFind b.key = some r ∧ s.rsvpRsbFind c.key = some x ∧ test b r x = true := by
  simp only [Node.reroutes, Bool.and_eq_true, decide_eq_true_eq] at reroutes
  obtain ⟨⟨active, bypass⟩, found⟩ := reroutes
  obtain ⟨r, rsb, found⟩ := (Option.any_eq_true _ _).mp found
  obtain ⟨x, bypassRsb, tested⟩ := (Option.any_eq_true _ _).mp found
  exact ⟨active, bypass, r, x, rsb, bypassRsb, tested⟩

theorem stays_on_bypass_rerouted :
    ∃ b ∈ sampleRerouted.psbs, b.body.frrActive = true ∧ ∃ r x : Rsb,
      sampleRerouted.rsvpRsbFind b.key = some r ∧ x.body.labelOut = 100 ∧
      ∃ e, sampleRerouted.fwd (fwdKey r.body.labelIn b.key.session.destAddr) = some e ∧
        e.outLabel = x.body.labelOut ∧ e.nextHop = x.body.nextHop.neighborAddr := by
  have up : sampleRerouted.psbs.blocks.any (fun b => sampleRerouted.psbs.blocks.any
      (sampleRerouted.reroutes (fun _ _ x => x.body.labelOut = 100) b)) = true := by
    decide +kernel
  obtain ⟨b, memb, up⟩ := List.any_eq_true.mp up
  obtain ⟨c, memc, up⟩ := List.any_eq_true.mp up
  obtain ⟨active, bypass, r, x, rsb, bypassRsb, label⟩ := Node.reroutes_cases up
  have mem : b ∈ sampleRerouted.psbs := Table.mem_def.mpr memb
  have entry := stays_on_bypass (by decide) (by decide) (by decide) steadyRun_sampleRerouted mem
    active rsb (Table.mem_def.mpr memc) bypass bypassRsb
  exact ⟨b, mem, active, r, x, rsb, of_decide_eq_true label, entry⟩

/-- The entry of an active LSP does not lead where the RSB of its bypass leads. -/
def Node.LeavesBypass (s : Node) : Prop :=
  ∃ b ∈ s.psbs, ∃ c ∈ s.psbs, ∃ r x, b.body.frrActive = true ∧
    s.rsvpRsbFind b.key = some r ∧ b.body.bypassPsb = some c.addr ∧
    s.rsvpRsbFind c.key = some x ∧
    ¬ ∃ e, s.fwd (fwdKey r.body.labelIn b.key.session.destAddr) = some e ∧
      e.outLabel = x.body.labelOut ∧ e.nextHop = x.body.nextHop.neighborAddr

theorem leavesBypass_of_any
    (strays : s.psbs.blocks.any (fun b => s.psbs.blocks.any (s.reroutes (fun b r x =>
      (s.fwd (fwdKey r.body.labelIn b.key.session.destAddr)).all
        (·.outLabel ≠ x.body.labelOut)) b)) = true) : s.LeavesBypass := by
  obtain ⟨b, memb, strays⟩ := List.any_eq_true.mp strays
  obtain ⟨c, memc, strays⟩ := List.any_eq_true.mp strays
  obtain ⟨active, bypass, r, x, rsb, bypassRsb, strays⟩ := Node.reroutes_cases strays
  refine ⟨b, memb, c, memc, r, x, active, rsb, bypass, bypassRsb, ?_⟩
  rintro ⟨e, entry, out, -⟩
  rw [entry, Option.all_some, decide_eq_true_eq] at strays
  exact strays out

/-- A changed label of the LSP puts it back on the failed link, and one of its bypass leaves it with
the old label. -/
theorem exists_leaves_bypass :
    Reachable (labelMgrInit 16 31 true) sampleRelabelled ∧ sampleRelabelled.LeavesBypass ∧
    Reachable (labelMgrInit 16 31 true) sampleBypassRelabelled ∧
    sampleBypassRelabelled.LeavesBypass := by
  have reached := steadyRun_sampleRerouted.reachable
  exact ⟨.step _ _ reached, leavesBypass_of_any (by decide +kernel), .step _ _ reached,
    leavesBypass_of_any (by decide +kernel)⟩

end Rsvp
