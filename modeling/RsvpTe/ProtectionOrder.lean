import RsvpTe.EventCases
import RsvpTe.Arming

/-!
# Protection in either order

The handlers of PATH and RESV leave no LSP waiting for a bypass that is there.  Operator calls and
refresh timers announce the LSPs of this node without looking for one: `Event.Arms` says when that
does no harm, and in a run of such events every LSP has its bypass whichever came first.
-/

namespace Rsvp

open Words

variable {env : Env} {s s' s'' : Node} {info : MessageInfo}

/-! ## RESV -/

section Resv

variable {b : Psb} {r : Rsb} {isNew : Bool}

/-- A label that is stored covers at most the interface of the bypass it is for. -/
theorem covers_stored (wf : s.Wf) (memb : b ∈ s.psbs) (memr : r ∈ s.rsbs)
    (tied : r.body.associatedPsb = some b.addr) {f : RsbState → RsbState} {ifindex : UInt32}
    (covers : (s.modRsb r.addr f).Covers ifindex) :
    s.Covers ifindex ∨ b.body.isBypassTunnel = true ∧ ifindex = b.body.frrProtectedIfindex := by
  obtain ⟨c, memc, x, memx, tunnel, ifindex, key, label⟩ := covers
  rcases Table.mem_modify.mp memx with ⟨old, -⟩ | ⟨y, memy, here, rfl⟩
  · exact .inl ⟨c, memc, x, old, tunnel, ifindex, key, label⟩
  · have same := Table.eq_of_addr_eq memy memr here
    subst same
    have keyB := (wf.psb_of_rsb memb memy tied).1
    rw [wf.psbKeyed c memc b memb (key.symm.trans keyB.symm)] at tunnel ifindex
    exact .inr ⟨tunnel, ifindex.symm⟩

/-- The label of the RESV is stored: LSPs are armed up to those that wait for this bypass. -/
theorem stored_armed (wf : s.Wf) (armed : s.Armed) (memb : b ∈ s.psbs) (memr : r ∈ s.rsbs)
    (tied : r.body.associatedPsb = some b.addr) :
    (s.modRsb r.addr (resvStored info b.body.isIngress)).ArmedBut
      (fun i => i = b.body.frrProtectedIfindex) ∧
    (b.body.isBypassTunnel = false ∨ info.labelValue = r.body.labelOut →
      (s.modRsb r.addr (resvStored info b.body.isIngress)).Armed) := by
  refine ⟨fun c memc waits covers => ?_, fun quiet => ?_⟩
  · rcases covers_stored wf memb memr tied covers with old | ⟨-, here⟩
    · exact (armed c memc waits old).elim
    · exact here
  · rcases quiet with plain | same
    · intro c memc waits covers
      rcases covers_stored wf memb memr tied covers with old | ⟨tunnel, -⟩
      · exact armed c memc waits old
      · exact Bool.false_ne_true (plain.symm.trans tunnel)
    · refine KeepsArming.armedBut ?_ armed
      have kept : ∀ x ∈ s.rsbs, x.addr = r.addr →
          (resvStored info b.body.isIngress x.body).labelOut = x.body.labelOut := by
        intro x memx here
        rw [Table.eq_of_addr_eq memx memr here]
        exact same
      refine ⟨(KeepsArming.refl s).waits, (KeepsArming.refl s).tunnels, fun x memx label => ?_⟩
      rcases Table.mem_modify.mp memx with ⟨old, -⟩ | ⟨y, memy, here, rfl⟩
      · exact ⟨x, old, rfl, label⟩
      · exact ⟨y, memy, rfl, kept y memy here ▸ label⟩

theorem rsvpMbbComplete_arming (wf : s.Wf) (mem : b ∈ s.psbs) :
    KeepsArming s (rsvpMbbComplete env s b.addr) := by
  have cleared : ∀ t : Node, KeepsArming t (t.modPsb b.addr fun x =>
      { x with isMbbPending := false, mbbOldLspId := 0 }) := fun t =>
    .modPsb b.addr fun c _ _ => .of_same rfl rfl rfl rfl rfl
  unfold rsvpMbbComplete
  rw [Table.get_of_mem mem]
  dsimp only
  cases scanned : s.rsvpPsbFindById (ntohs b.key.session.tunnelId) b.body.mbbOldLspId with
  | none => exact cleared s
  | some old =>
    have memOld : old ∈ s.psbs := List.mem_of_find?_eq_some scanned
    exact (rsvpPsbCleanup_arming wf memOld true).trans (cleared _)

/-- The follow-up arms the LSPs that wait for the bypass. -/
theorem resvFollowUp_armed (wf : s.Wf) (mem : b ∈ s.psbs)
    (real : b.body.isBypassTunnel = true → b.body.frrProtectedIfindex ≠ 0) {labelChanged : Bool}
    (but : s.ArmedBut (· = b.body.frrProtectedIfindex))
    (armed : b.body.isBypassTunnel = false ∨ labelChanged = false → s.Armed) :
    (resvFollowUp env s b isNew labelChanged).Armed := by
  unfold resvFollowUp
  dsimp only
  by_cases bypass : b.body.isBypassTunnel = true ∧ (isNew = true ∨ labelChanged = true)
  · have plain : ¬ (b.body.isMbbPending = true ∧ isNew = true) := by
      intro completes
      rcases completes with ⟨pending, -⟩
      rw [(wf.pending b mem pending).1] at bypass
      exact Bool.false_ne_true bypass.1
    rw [if_pos bypass, if_neg plain]
    exact rsvpFrrAutoAssociateAll_armed wf.rsbKeyed (fun _ => real bypass.1) but
  · have quiet : b.body.isBypassTunnel = false ∨ labelChanged = false := by
      by_contra loud
      simp only [not_or, Bool.not_eq_false] at loud
      exact bypass ⟨loud.1, .inr loud.2⟩
    rw [if_neg bypass]
    split
    · exact (rsvpMbbComplete_arming wf mem).armedBut (armed quiet)
    · exact armed quiet

theorem resvArrived_armed (wf : s.Wf) (armed : s.Armed) (memb : b ∈ s.psbs) (memr : r ∈ s.rsbs)
    (tied : r.body.associatedPsb = some b.addr) (key : r.key = info.key)
    (real : b.body.isBypassTunnel = true → b.body.frrProtectedIfindex ≠ 0)
    (label : isNew = false → b.body.isBypassTunnel = true → b.body.prevHop.neighborAddr ≠ 0 →
      r.body.labelIn = 0 → (labelMgrAlloc s.labels).1 ≠ 0) :
    (resvArrived env s info r.addr isNew).Armed := by
  have cut : KeepsArming s (s.modPsb b.addr fun x => { x with associatedRsb := none }) :=
    .modPsb b.addr fun c _ _ => associate_steady c.body none
  cases blockaded : resvBlockaded s info r.body with
  | true =>
    rw [resvArrived_blockaded memr tied key blockaded]
    split
    · exact (cut.trans (.unlinkRsb _ r.addr)).armedBut armed
    · refine KeepsArming.armedBut (.modRsb s r.addr fun x => ?_) armed
      exact (resvUpdate_keeps info x).2.1
  | false =>
    have keeps := resvStored_keeps info b.body.isIngress r.body
    have here := s.mem_modRsb memr (resvStored info b.body.isIngress)
    have tied' : (resvStored info b.body.isIngress r.body).associatedPsb = some b.addr :=
      keeps.associatedPsb.trans tied
    have wfU := wf.modRsb memr keeps.associatedPsb
    obtain ⟨but, quiet⟩ := @stored_armed s info b r wf armed memb memr tied
    rw [resvArrived_admitted memb memr tied key blockaded]
    split
    · rcases @resvProgram_cases env (s.modRsb r.addr (resvStored info b.body.isIngress)) info b
        ⟨r.addr, r.key, resvStored info b.body.isIngress r.body⟩ isNew wf.labels memb here tied'
        (info.labelValue ≠ r.body.labelOut)
        with ⟨transit, bare, failed, out, result⟩ | ⟨label, labels, out, labelled, result⟩
      · rw [result]
        cases isNew with
        | true =>
          rw [if_pos rfl]
          obtain ⟨out', cleaned⟩ := @rsvpRsbCleanup_eq env
            (s.modRsb r.addr (resvStored info b.body.isIngress)) b
            { r with body := resvStored info b.body.isIngress r.body } memb here tied' false
          rw [cleaned]
          refine KeepsArming.armedBut (cut.trans ((KeepsArming.unlinkRsb _ r.addr).trans
            (.of_same rfl ?_))) armed
          exact Table.unlink_modify ..
        | false =>
          rw [if_neg Bool.false_ne_true]
          -- A bypass finds a label.
          refine quiet (.inl (Bool.eq_false_iff.mpr fun tunnel => ?_))
          exact label rfl tunnel transit (keeps.labelIn.symm.trans bare) failed
      · rw [result]
        have programmed : KeepsArming (s.modRsb r.addr (resvStored info b.body.isIngress))
            ((s.modRsb r.addr (resvStored info b.body.isIngress)).programmed b
              ⟨r.addr, r.key, resvStored info b.body.isIngress r.body⟩ label labels out) :=
          (KeepsArming.takeLabel _ r.addr label labels).trans (.of_same rfl rfl)
        refine resvFollowUp_armed (labelled.wf_programmed wfU here out) memb real
          (programmed.armedBut but) fun plain => programmed.armedBut (quiet ?_)
        rw [decide_eq_false_iff_not, not_not] at plain
        exact plain
    · rename_i unchanged
      have same : info.labelValue = r.body.labelOut := by
        by_contra other
        exact unchanged (.inr (.inl other))
      refine KeepsArming.armedBut ?_ (quiet (.inr same))
      rcases @resvRefresh_cases env (s.modRsb r.addr (resvStored info b.body.isIngress)) b
        ⟨r.addr, r.key, resvStored info b.body.isIngress r.body⟩ wf.labels memb here tied' with
        ⟨-, out, sent⟩ | ⟨-, label, labels, out, -, -, sent⟩
      · rw [sent]
        exact .of_same rfl rfl
      · rw [sent]
        exact (KeepsArming.takeLabel _ r.addr label labels).trans (.of_same rfl rfl)

end Resv

/-- A new RSB has no label yet. -/
theorem withRsb_arming {p r : Ptr} {mem : Option Ptr} {rsbs : Table PathKey RsbState}
    {key : PathKey} {f : RsbState → RsbState} (unlabelled : (f .zero).labelOut = 0)
    (created : s.rsbs.create rsvpKeyHash mem key .zero = some (r, rsbs)) :
    KeepsArming s
      { s with
        rsbs := rsbs.modify r f
        psbs := s.psbs.modify p fun x => { x with associatedRsb := some r } } := by
  have linked : KeepsArming s (s.modPsb p fun x => { x with associatedRsb := some r }) :=
    .modPsb p fun c _ _ => associate_steady c.body (some r)
  refine ⟨linked.waits, linked.tunnels, fun x memx label => ?_⟩
  rcases (Table.mem_modify_create created).mp memx with rfl | old
  · exact absurd unlabelled label
  · exact ⟨x, old, rfl, label⟩

/-- A bypass tunnel protects an interface. -/
def Psb.Protects (c : Psb) : Prop :=
  c.body.isBypassTunnel = true → c.body.frrProtectedIfindex ≠ 0

/-- The RESV finds a label for its bypass, if that is in transit and has none. -/
def MessageInfo.FindsLabel (s : Node) (info : MessageInfo) : Prop :=
  ∀ b ∈ s.psbs, b.key = info.key → b.body.isBypassTunnel = true →
    b.body.prevHop.neighborAddr ≠ 0 → ∀ r ∈ s.rsbs, r.key = info.key → r.body.labelIn = 0 →
    (labelMgrAlloc s.labels).1 ≠ 0

theorem handleResvMessage_armed (wf : s.Wf) (armed : s.Armed) (real : s.AllPsbs Psb.Protects)
    (label : info.FindsLabel s) : (handleResvMessage env s info).Armed := by
  have turn := @handleResvMessage_turn env s info wf
  generalize handleResvMessage env s info = t at turn ⊢
  cases turn with
  | refused sent _ => exact armed
  | @found b r _ memb keyB memr keyR tied =>
    exact resvArrived_armed wf armed memb memr tied keyR (real b memb) fun _ tunnel transit bare =>
      label b memb keyB tunnel transit r memr keyR bare
  | noMemory => exact armed
  | @first b r rsbs _ first =>
    have armedT : (s.withRsb b r rsbs).Armed :=
      (withRsb_arming rfl first.created).armedBut armed
    exact @resvArrived_armed env _ info (b.linked r) (b.newRsb r) true (first.does.wf wf) armedT
      first.mem_linked first.mem_new rfl first.key (real b first.memb) (by rintro ⟨⟩)

/-! ## PATH -/

theorem sendResvUpstream_arming (s : Node) (r : Ptr) :
    KeepsArming s (sendResvUpstream env s r) := by
  have sent : ∀ (t : Node) (b : Psb) (x : Rsb), KeepsArming t (sendResv env t b x) := by
    intro t b x
    unfold sendResv
    obtain ⟨sent, eq⟩ := rsvpSendPacket_out _ _ _ _
    rw [eq]
    exact .of_same rfl rfl
  unfold sendResvUpstream
  split
  · exact .refl s
  · split
    · exact .refl s
    · split
      · dsimp only
        split
        · exact .takeLabel s r _ _
        · exact (KeepsArming.takeLabel s r _ _).trans (sent _ _ _)
      · exact sent _ _ _

theorem pathEgress_arming (s : Node) (p : Ptr) : KeepsArming s (pathEgress env s info p) := by
  unfold pathEgress
  dsimp only
  split
  · exact .modRsb s _ fun _ => rfl
  · split
    · exact .refl s
    · rename_i r t made
      obtain ⟨rsbs, created, rfl⟩ := Node.rsvpRsbCreate_eq_some made
      exact (withRsb_arming rfl created).trans (sendResvUpstream_arming _ r)

/-- The PATH for an LSP with this ERO ends here, comes back, or has no route. -/
def MessageInfo.Unforwarded (env : Env) (info : MessageInfo) (ero : Route) : Prop :=
  env.isLocalAddr info.key.session.destAddr = true ∨
    env.isLocalAddr info.key.sender.sourceAddr = true ∨
    env.getEgressIf (((info.eroOr ero).popLocal env.toHal).ipDest info.key) = none

theorem protects_rule : PsbRule Psb.Protects where
  pop := fun _ _ protects => protects
  out := fun _ _ protects => protects
  spare := fun _ _ _ protects => protects

theorem not_covers_zero (real : s.AllPsbs Psb.Protects) : ¬ s.Covers 0 := by
  rintro ⟨c, memc, -, -, tunnel, zero, -⟩
  exact real c memc tunnel zero

/-- What is forwarded is armed if a bypass is there. -/
theorem pathTransit_armed (keyed : s.rsbs.Keyed) (real : s.AllPsbs Psb.Protects) {b : Psb}
    (mem : b ∈ s.psbs) (away : s.ArmedAway b.addr) {isNew : Bool}
    (stays : b.body.Waits →
      env.getEgressIf ((b.body.ero.popLocal env.toHal).ipDest b.key) = none →
      ¬ s.Covers b.body.ifindexOut) :
    (pathTransit env s info b.addr isNew).Armed := by
  have popped : KeepsArming s (s.modPsb b.addr fun x =>
      { x with ero := b.body.ero.popLocal env.toHal }) :=
    .modPsb b.addr fun c _ _ => popped_steady c.body _
  have here := s.mem_modPsb mem fun x => { x with ero := b.body.ero.popLocal env.toHal }
  unfold pathTransit
  rw [Table.get_of_mem mem]
  dsimp only [resolvePathNextHop]
  split
  · rename_i missing
    obtain ⟨sent, eq⟩ := sendPathErr_out env info protoErrRoutingProblem 0
    rw [eq]
    have told : (s.modPsb b.addr fun x =>
        { x with ero := b.body.ero.popLocal env.toHal }).Armed := by
      refine popped.armedBut (away.armed fun c memc addr waits covers => ?_)
      rw [Table.eq_of_addr_eq memc mem addr] at waits covers
      exact stays waits missing covers
    split
    · exact (rsvpPsbDelete_arming _ b.addr).armedBut told
    · exact told
  · have realT := @sendPathDownstream_all env _ _ protects_rule
      (protects_rule.popped real mem env.toHal) b.addr
    obtain ⟨awayT, rsbs⟩ : (sendPathDownstream env (s.modPsb b.addr fun x =>
        { x with ero := b.body.ero.popLocal env.toHal }) b.addr).ArmedAway b.addr ∧
        (sendPathDownstream env (s.modPsb b.addr fun x =>
          { x with ero := b.body.ero.popLocal env.toHal }) b.addr).rsbs = s.rsbs := by
      obtain ⟨out, sent⟩ := @sendPathDownstream_leaves env (s.modPsb b.addr fun x =>
        { x with ero := b.body.ero.popLocal env.toHal }) _ here
      have moved := (popped.armedAway away).modPsb (f := fun x =>
        { x with
          ero := (b.body.ero.popLocal env.toHal).popLocal env.toHal
          ifindexOut := leavesBy env b.key { b.body with ero := b.body.ero.popLocal env.toHal } })
        (fun _ => rfl) fun _ => rfl
      dsimp only at sent
      rw [sent]
      exact ⟨moved, rfl⟩
    generalize sendPathDownstream env (s.modPsb b.addr fun x =>
      { x with ero := b.body.ero.popLocal env.toHal }) b.addr = t at realT awayT rsbs ⊢
    have keyedT : t.rsbs.Keyed := rsbs ▸ keyed
    cases found : t.psbs.get b.addr with
    | none => exact awayT.armed fun c memc addr => absurd addr (Table.get_eq_none.mp found c memc)
    | some c =>
      obtain ⟨memc, addrC⟩ := Table.get_eq_some.mp found
      dsimp only
      split
      · have keeps := rsvpFrrAutoAssociate_arming t b.addr
        refine (keeps.armedAway awayT).armed fun d' memd' addr waits' covers' => ?_
        obtain ⟨d, memd, addrD, -, same⟩ := keeps.waits d' memd' waits'
        have covers : t.Covers d.body.ifindexOut := same ▸ keeps.covers covers'
        have pos : d.body.ifindexOut ≠ 0 := fun zero => not_covers_zero realT (zero ▸ covers)
        rw [← addr, ← addrD] at memd'
        exact rsvpFrrAutoAssociate_armed keyedT memd covers pos d' memd' addrD.symm waits'
      · rename_i guard
        refine awayT.armed fun d memd addr waits => absurd ?_ guard
        rw [← Table.eq_of_addr_eq memd memc (addr.trans addrC.symm)]
        exact ⟨waits.facility, waits.lsp, waits.bare⟩

theorem pathArrived_armed (keyed : s.rsbs.Keyed) (real : s.AllPsbs Psb.Protects) (armed : s.Armed)
    {b : Psb} (mem : b ∈ s.psbs) (key : b.key = info.key) {isNew : Bool}
    (stays : (pathUpdate env info b.body).Waits → info.Unforwarded env b.body.ero →
      ¬ s.Covers b.body.ifindexOut) : (pathArrived env s info b.addr isNew).Armed := by
  have tunnel : ∀ x, (pathUpdate env info x).isBypassTunnel = x.isBypassTunnel := fun x =>
    (pathUpdate_spared env info x).isBypassTunnel
  have guards : ∀ x, (pathUpdate env info x).frrProtectedIfindex = x.frrProtectedIfindex := by
    intro x
    rw [pathUpdate_eq]
  have ifindex : (pathUpdate env info b.body).ifindexOut = b.body.ifindexOut := by
    rw [pathUpdate_eq]
  have ero : (pathUpdate env info b.body).ero = info.eroOr b.body.ero := by rw [pathUpdate_eq]
  have updated : info.Unforwarded env b.body.ero →
      (s.modPsb b.addr (pathUpdate env info)).Armed := by
    intro unforwarded
    refine armed.modPsb tunnel guards fun c memc here waits => ?_
    rw [Table.eq_of_addr_eq memc mem here] at waits ⊢
    rw [ifindex]
    exact stays waits unforwarded
  unfold pathArrived
  dsimp only
  split
  · rename_i egress
    exact (pathEgress_arming _ b.addr).armedBut (updated (.inl egress))
  · split
    · rename_i own
      exact updated (.inr (.inl own))
    · have away : s.ArmedAway b.addr := fun c memc _ => armed c memc
      have realU : (s.modPsb b.addr (pathUpdate env info)).AllPsbs Psb.Protects := by
        refine real.modPsb b.addr fun c memc _ bypass => ?_
        exact (guards c.body).symm ▸ real c memc ((tunnel c.body).symm.trans bypass)
      refine @pathTransit_armed env (s.modPsb b.addr (pathUpdate env info)) info keyed realU
        ⟨b.addr, b.key, pathUpdate env info b.body⟩ (s.mem_modPsb mem _)
        (away.modPsb tunnel guards) isNew fun waits missing covers => ?_
      dsimp only at waits missing covers
      rw [ero, key] at missing
      rw [ifindex] at covers
      exact stays waits (.inr (.inr missing)) (covers_modPsb tunnel guards covers)

/-- A PATH that asks for protection is forwarded, or its LSP has no covered interface. -/
def MessageInfo.Forwards (env : Env) (s : Node) (info : MessageInfo) : Prop :=
  ∀ b ∈ s.psbs, b.key = info.key → (pathUpdate env info b.body).Waits →
    info.Unforwarded env b.body.ero → ¬ s.Covers b.body.ifindexOut

/-- A new PSB that is no bypass and has no interface yet. -/
theorem created_armed (armed : s.Armed) (real : s.AllPsbs Psb.Protects) {mem : Option Ptr}
    {key : PathKey} {p : Ptr} {psbs : Table PathKey PsbState} {f : PsbState → PsbState}
    (created : s.psbs.create rsvpKeyHash mem key .zero = some (p, psbs))
    (lsp : (f .zero).isBypassTunnel = false) (bare : (f .zero).ifindexOut = 0) :
    (∀ i, ({ s with psbs := psbs.modify p f } : Node).Covers i → s.Covers i) ∧
      ({ s with psbs := psbs.modify p f } : Node).Armed := by
  have covers : ∀ i, ({ s with psbs := psbs.modify p f } : Node).Covers i → s.Covers i := by
    rintro i ⟨c, memc, r, memr, tunnel, ifindex, key, label⟩
    rcases (Table.mem_modify_create created).mp memc with rfl | old
    · exact absurd (lsp.symm.trans tunnel) Bool.false_ne_true
    · exact ⟨c, old, r, memr, tunnel, ifindex, key, label⟩
  refine ⟨covers, fun b memb waits covered => ?_⟩
  rcases (Table.mem_modify_create created).mp memb with rfl | old
  · have zero := covers _ covered
    dsimp only at zero
    rw [bare] at zero
    exact not_covers_zero real zero
  · exact armed b old waits (covers _ covered)

theorem handlePathMessage_armed (wf : s.Wf) (armed : s.Armed) (real : s.AllPsbs Psb.Protects)
    (forwards : info.Forwards env s) : (handlePathMessage env s info).Armed := by
  unfold handlePathMessage
  dsimp only
  split
  · obtain ⟨sent, eq⟩ := sendPathErr_out env info _ _
    rw [eq]
    exact armed
  · split
    · rename_i b found
      obtain ⟨mem, key⟩ := Table.find_eq_some found
      exact pathArrived_armed wf.rsbKeyed real armed mem key (forwards b mem key)
    · split
      · exact armed
      · rename_i p t made
        obtain ⟨psbs, created, rfl⟩ := Node.rsvpPsbCreate_eq_some made
        obtain ⟨covers, armedT⟩ := created_armed armed real created
          (f := fun b => { b with refreshMs := rsvpRefreshMs }) rfl rfl
        have realT := real.create (f := fun b => { b with refreshMs := rsvpRefreshMs }) created
          (fun tunnel => by cases tunnel)
        refine @pathArrived_armed env (s.withPsb p psbs) info wf.rsbKeyed realT armedT
          ⟨p, info.key, { PsbState.zero with refreshMs := rsvpRefreshMs }⟩
          ((Table.mem_modify_create created).mpr (.inl rfl)) rfl true fun _ _ => ?_
        exact not_covers_zero realT

/-! ## Events -/

/-- What a message must meet for all LSPs to stay armed. -/
def MessageInfo.Arms (env : Env) (s : Node) (info : MessageInfo) : Prop :=
  (info.commonHdr.msgType = msgPath → info.Forwards env s) ∧
    (info.commonHdr.msgType = msgResv → info.FindsLabel s)

theorem rsvpHandleMessage_armed (wf : s.Wf) (armed : s.Armed) (real : s.AllPsbs Psb.Protects)
    (arms : info.Arms env s) : (rsvpHandleMessage env s info).Armed := by
  unfold rsvpHandleMessage
  dsimp only
  split
  · rename_i path
    exact handlePathMessage_armed wf armed real (arms.1 path)
  split
  · rename_i resv
    exact handleResvMessage_armed wf armed real (arms.2 resv)
  split
  · unfold handlePathTear
    refine (bsbRemove_arming _ info.key).armedBut ?_
    split
    · exact armed
    · rename_i b found
      exact (rsvpPsbCleanup_arming wf (Table.find_eq_some found).1 true).armedBut armed
  split
  · unfold handleResvTear
    refine (bsbRemove_arming _ info.key).armedBut ?_
    split
    · exact armed
    · rename_i r found
      exact (rsvpRsbCleanup_arming wf (Table.find_eq_some found).1 true).armedBut armed
  split
  · obtain ⟨out, told⟩ := @handlePathErr_eq env info s
    rw [told]
    exact armed
  split
  · obtain ⟨bsbs, out, told⟩ := @handleResvErr_eq env info s
    rw [told]
    exact armed
  · exact armed

theorem originated_armed (armed : s.Armed) (real : s.AllPsbs Psb.Protects) {key : PathKey}
    {p : Ptr} {t : Node} {f : PsbState → PsbState} (made : s.rsvpPsbCreate env key = some (p, t))
    (lsp : (f .zero).isBypassTunnel = false) (bare : (f .zero).ifindexOut = 0)
    (route : (f .zero).Waits → ¬ s.Covers (leavesBy env key (f .zero))) :
    (sendPathDownstream env (t.modPsb p f) p).Armed := by
  obtain ⟨psbs, created, rfl⟩ := Node.rsvpPsbCreate_eq_some made
  obtain ⟨covers, armedT⟩ := created_armed armed real created lsp bare
  exact @sendPathDownstream_armed env { s with psbs := psbs.modify p f } armedT ⟨p, key, f .zero⟩
    ((Table.mem_modify_create created).mpr (.inl rfl))
    fun waits covered => route waits (covers _ covered)

/-- A new bypass has no label yet. -/
theorem originated_bypass_armed (wf : s.Wf) (armed : s.Armed) {key : PathKey}
    (fresh : s.rsvpPsbFind key = none) {p : Ptr} {t : Node} {f : PsbState → PsbState}
    (made : s.rsvpPsbCreate env key = some (p, t)) (tunnel : (f .zero).isBypassTunnel = true) :
    (sendPathDownstream env (t.modPsb p f) p).Armed := by
  obtain ⟨psbs, created, rfl⟩ := Node.rsvpPsbCreate_eq_some made
  have covers : ∀ i, ({ s with psbs := psbs.modify p f } : Node).Covers i → s.Covers i := by
    rintro i ⟨c, memc, r, memr, tunnelC, ifindex, same, label⟩
    rcases (Table.mem_modify_create created).mp memc with rfl | old
    · obtain ⟨b, memb, keyB, -⟩ := wf.owned r memr
      exact absurd (keyB.trans same) (Table.find_eq_none.mp fresh b memb)
    · exact ⟨c, old, r, memr, tunnelC, ifindex, same, label⟩
  have armedT : ({ s with psbs := psbs.modify p f } : Node).Armed := by
    intro b memb waits covered
    rcases (Table.mem_modify_create created).mp memb with rfl | old
    · exact absurd (waits.lsp.symm.trans tunnel) Bool.false_ne_true
    · exact armed b old waits (covers _ covered)
  refine @sendPathDownstream_armed env { s with psbs := psbs.modify p f } armedT ⟨p, key, f .zero⟩
    ((Table.mem_modify_create created).mpr (.inl rfl)) fun waits => ?_
  exact absurd (waits.lsp.symm.trans tunnel) Bool.false_ne_true

/-- A mark on an LSP that has its bypass, and a PATH for it. -/
theorem marked_armed (armed : s.Armed) {b : Psb} (mem : b ∈ s.psbs)
    (protection : b.body.bypassPsb ≠ none) {f : PsbState → PsbState}
    (isBypassTunnel : ∀ x, (f x).isBypassTunnel = x.isBypassTunnel)
    (frrProtectedIfindex : ∀ x, (f x).frrProtectedIfindex = x.frrProtectedIfindex)
    (bypassPsb : ∀ x, (f x).bypassPsb = x.bypassPsb) :
    (sendPathDownstream env (s.modPsb b.addr f) b.addr).Armed := by
  have armedT : (s.modPsb b.addr f).Armed := by
    refine armed.modPsb isBypassTunnel frrProtectedIfindex fun c memc here waits => ?_
    rw [Table.eq_of_addr_eq memc mem here] at waits
    exact absurd ((bypassPsb _).symm.trans waits.bare) protection
  refine @sendPathDownstream_armed env _ armedT ⟨b.addr, b.key, f b.body⟩ (s.mem_modPsb mem f)
    fun waits => ?_
  exact absurd ((bypassPsb _).symm.trans waits.bare) protection

theorem frrTriggerOne_armed (ifindex : UInt32) (armed : s.Armed) (p : Ptr) :
    (frrTriggerOne env ifindex s p).Armed := by
  unfold frrTriggerOne
  split
  · exact armed
  · rename_i b found
    obtain ⟨mem, rfl⟩ := Table.get_eq_some.mp found
    split
    · exact armed
    · rename_i bypass
      have protection : b.body.bypassPsb ≠ none := by
        rw [bypass]
        exact Option.some_ne_none _
      split
      · dsimp only
        split
        · exact armed
        · split
          · exact armed
          · split
            · exact marked_armed armed mem protection (fun _ => rfl) (fun _ => rfl) fun _ => rfl
            · exact @marked_armed env (s.halMplsInstall _ _ _ _ _) armed b mem protection _
                (fun _ => rfl) (fun _ => rfl) fun _ => rfl
      · exact armed

theorem frrRevertOne_armed (ifindex : UInt32) (armed : s.Armed) (p : Ptr) :
    (frrRevertOne env ifindex s p).Armed := by
  unfold frrRevertOne
  split
  · exact armed
  · rename_i b found
    obtain ⟨mem, rfl⟩ := Table.get_eq_some.mp found
    split
    · exact armed
    · rename_i bypass
      have protection : b.body.bypassPsb ≠ none := by
        rw [bypass]
        exact Option.some_ne_none _
      split
      · split
        · exact armed
        · exact @marked_armed env (s.halMplsInstall _ _ _ _ _) armed b mem protection _
            (fun _ => rfl) (fun _ => rfl) fun _ => rfl
      · exact armed

/-- No LSP that waits is announced here, without being armed, out of a covered interface. -/
def Event.Arms (env : Env) (s : Node) : Event → Prop
  | .recv packet => ∀ info, Receives env packet info → info.Arms env s
  | .psbRefresh p => ∀ b ∈ s.psbs, b.addr = p →
    b.body.isIngress = true ∨ env.isLocalAddr b.key.session.destAddr = false →
    b.body.Waits → ¬ s.Covers (leavesBy env b.key b.body)
  | .initiatePath src dest tunnelId lspName ero requestFrr =>
    (∀ b ∈ s.psbs, b.key = ingressKey src dest tunnelId s.nextLspId → b.body.Waits →
      ¬ s.Covers (leavesBy env b.key b.body)) ∧
    (requestFrr = true → ¬ s.Covers (leavesBy env (ingressKey src dest tunnelId s.nextLspId)
      (ingressState env lspName ero requestFrr)))
  | .initiateBypass _ _ _ _ _ protectedIfindex => protectedIfindex ≠ 0
  | .mbbStart tunnelId oldLspId newLspId newEro =>
    ∀ old, s.rsvpPsbFindById tunnelId oldLspId = some old → old.body.frrMode = .facility →
      ¬ s.Covers (leavesBy env
        { old.key with sender := { old.key.sender with lspId := htons newLspId } }
        (mbbClone env old.body oldLspId newEro .zero))
  | _ => True

theorem Node.step_armed (wf : s.Wf) (real : s.AllPsbs Psb.Protects) (armed : s.Armed) {ev : Event}
    (arms : ev.Arms env s) : (s.step env ev).Armed := by
  have restarted : ∀ (t : Node) p, KeepsArming t (t.modPsb p fun x =>
      { x with refreshTimer := true }) := fun t p =>
    .modPsb p fun b _ _ => .of_same rfl rfl rfl rfl rfl
  have numbered : s.numbered.Armed := armed
  have wfT : s.numbered.Wf := wf.congr rfl rfl wf.bsbKeyed wf.labels
  have takes := s.step_takes env ev
  generalize s.step env ev = s' at takes ⊢
  cases takes with
  | idle => exact armed
  | message received => exact rsvpHandleMessage_armed wf armed real (arms _ received)
  | refreshed mem due =>
    exact (restarted _ _).armedBut (sendPathDownstream_armed armed mem (arms _ mem rfl due))
  | restarted mem => exact (restarted s _).armedBut armed
  | psbExpired mem => exact (rsvpPsbCleanup_arming wf mem true).armedBut armed
  | @resvRefreshed r mem =>
    have sent : (resvRefresh env s r).Armed := by
      unfold resvRefresh
      split
      · exact armed
      · split
        · exact (sendResvUpstream_arming s _).armedBut armed
        · exact armed
    have restarted := KeepsArming.modRsb (resvRefresh env s r) r.addr
      (f := fun x => { x with refreshTimer := true }) fun _ => rfl
    exact restarted.armedBut sent
  | rsbExpired mem => exact (rsvpRsbCleanup_arming wf mem true).armedBut armed
  | bsbExpired => exact armed
  | pathFailed => exact numbered
  | pathAgain mem key => exact sendPathDownstream_armed numbered mem (arms.1 _ mem key)
  | pathStarted absent made =>
    refine originated_armed numbered real made rfl rfl fun waits => arms.2 ?_
    by_contra plain
    have mode := waits.facility
    rw [ingressSet, if_neg plain] at mode
    cases mode
  | bypassFailed => exact numbered
  | bypassStarted absent made => exact originated_bypass_armed wfT numbered absent made rfl
  | enabled scanned mem tunnel bypass =>
    refine KeepsArming.armedBut (.modPsb _ fun b _ _ => ⟨fun waits => ?_, rfl, rfl⟩) armed
    cases waits.bare
  | triggered => exact List.foldlRecOn _ _ armed fun t armedT p _ => frrTriggerOne_armed _ armedT p
  | reverted => exact List.foldlRecOn _ _ armed fun t armedT p _ => frrRevertOne_armed _ armedT p
  | tornDown scanned =>
    exact (rsvpPsbCleanup_arming wf (List.mem_of_find?_eq_some scanned) true).armedBut armed
  | mbbStarted scanned absent made =>
    exact originated_armed armed real made rfl rfl fun waits => arms _ scanned waits.facility

/-! ## Runs -/

/-- Reachability with events that leave no LSP waiting. -/
inductive ArmingRun (labels : LabelMgr) : Node → Prop
  | init : ArmingRun labels (Node.init labels)
  | step {s : Node} (env : Env) (ev : Event) : ArmingRun labels s → ev.Arms env s →
    ArmingRun labels (s.step env ev)

theorem ArmingRun.reachable {labels : LabelMgr} (run : ArmingRun labels s) :
    Reachable labels s := by
  induction run with
  | init => exact .init
  | step env ev _ _ ih => exact .step env ev ih

/-- A bypass tunnel keeps the interface it was created for. -/
theorem Event.Arms.admits {ev : Event} (arms : ev.Arms env s) :
    ev.Admits Psb.Protects env s := by
  cases ev with
  | recv packet =>
    intro info received
    refine ⟨fun _ _ _ _ kept => kept, fun _ kept => kept, fun _ b _ kept tunnel => ?_,
      fun _ _ tunnel => by cases tunnel⟩
    change (pathUpdate env info b.body).frrProtectedIfindex ≠ 0
    change (pathUpdate env info b.body).isBypassTunnel = true at tunnel
    rw [pathUpdate_eq] at tunnel ⊢
    exact kept tunnel
  | initiatePath src dest tunnelId lspName ero requestFrr => exact fun _ tunnel => by cases tunnel
  | initiateBypass src dest tunnelId name ero protectedIfindex => exact fun _ _ => arms
  | frrEnable => exact fun _ _ kept _ _ => kept
  | frrTrigger => exact fun _ _ kept _ => kept
  | frrRevert => exact fun _ _ kept => kept
  | mbbStart tunnelId oldLspId newLspId newEro => exact fun _ _ _ tunnel => by cases tunnel
  | psbRefresh => trivial
  | psbCleanup => trivial
  | rsbRefresh => trivial
  | rsbCleanup => trivial
  | bsbCleanup => trivial
  | teardown => trivial

theorem ArmingRun.armed {labels : LabelMgr} (pool : labels.Wf) (run : ArmingRun labels s) :
    s.AllPsbs Psb.Protects ∧ s.Armed := by
  induction run with
  | init =>
    exact ⟨fun b mem => absurd mem (Table.not_mem_empty b),
      fun b mem => absurd mem (Table.not_mem_empty b)⟩
  | step env ev before arms ih =>
    have wf := before.reachable.wf pool
    exact ⟨Node.step_all protects_rule wf arms.admits ih.1, Node.step_armed wf ih.1 ih.2 arms⟩

/-- An LSP with facility protection whose interface a bypass with a label protects has a bypass,
in whatever order the two came up. -/
theorem protected_in_either_order {min max : UInt32} (low : 1 ≤ min) (ordered : min ≤ max)
    (high : max < 1048576) (run : ArmingRun (labelMgrInit min max true) s) {b c : Psb} {r : Rsb}
    (memb : b ∈ s.psbs) (facility : b.body.frrMode = .facility)
    (lsp : b.body.isBypassTunnel = false) (memc : c ∈ s.psbs)
    (tunnel : c.body.isBypassTunnel = true)
    (protects : c.body.frrProtectedIfindex = b.body.ifindexOut)
    (found : s.rsvpRsbFind c.key = some r) (label : r.body.labelOut ≠ 0) :
    b.body.bypassPsb ≠ none := by
  obtain ⟨-, armed⟩ := run.armed (labelMgrInit_wf low ordered high).1
  obtain ⟨memr, key⟩ := Table.find_eq_some found
  intro bare
  exact armed b memb ⟨facility, lsp, bare⟩ ⟨c, memc, r, memr, tunnel, protects, key, label⟩

theorem bypassReady_cases {ifindex : UInt32} {c : Psb} (ready : bypassReady s ifindex c = true) :
    c.body.isBypassTunnel = true ∧ c.body.frrProtectedIfindex = ifindex ∧
      ∃ r, s.rsvpRsbFind c.key = some r ∧ r.body.labelOut ≠ 0 := by
  simp only [bypassReady, Bool.and_eq_true, decide_eq_true_eq] at ready
  obtain ⟨⟨tunnel, ifindex⟩, found⟩ := ready
  obtain ⟨r, found, label⟩ := (Option.any_eq_true _ _).mp found
  exact ⟨tunnel, ifindex, r, found, of_decide_eq_true label⟩

/-- An LSP with protection, then a bypass for its interface and the label of that. -/
def sampleLspFirst : Node :=
  (((Node.init (labelMgrInit 16 31 true)).step (sampleEnv (fun _ => false) 1)
    (.initiatePath 0x0900000A 0x0400000A 2 none [] true)).step (sampleEnv (fun _ => false) 2)
    (.initiateBypass 0x0900000A 0x0300000A 1 none [] 2)).step (sampleEnv (fun _ => false) 2)
    (.recv (sampleResv 0x0300000A 2 100 7))

/-- The same LSP after the bypass has its label. -/
def sampleBypassFirst : Node :=
  (((Node.init (labelMgrInit 16 31 true)).step (sampleEnv (fun _ => false) 1)
    (.initiateBypass 0x0900000A 0x0300000A 1 none [] 2)).step (sampleEnv (fun _ => false) 1)
    (.recv (sampleResv 0x0300000A 1 100 7))).step (sampleEnv (fun _ => false) 2)
    (.initiatePath 0x0900000A 0x0400000A 2 none [] true)

theorem armingRun_sampleLspFirst : ArmingRun (labelMgrInit 16 31 true) sampleLspFirst := by
  have uncovered : ∀ (t : Node) i, t.rsbs.blocks = [] → ¬ t.Covers i := by
    rintro t i none ⟨-, -, r, memr, -⟩
    rw [Table.mem_def, none] at memr
    cases memr
  refine .step _ _ (.step _ _ (.step _ _ .init ⟨?_, fun _ => uncovered _ _ rfl⟩)
    (show (2 : UInt32) ≠ 0 by decide)) ?_
  · exact fun b mem => absurd mem (Table.not_mem_empty b)
  · have before : ((((Node.init (labelMgrInit 16 31 true)).step (sampleEnv (fun _ => false) 1)
        (.initiatePath 0x0900000A 0x0400000A 2 none [] true)).step (sampleEnv (fun _ => false) 2)
        (.initiateBypass 0x0900000A 0x0300000A 1 none [] 2)).rsbs.blocks.isEmpty &&
        (((Node.init (labelMgrInit 16 31 true)).step (sampleEnv (fun _ => false) 1)
        (.initiatePath 0x0900000A 0x0400000A 2 none [] true)).step (sampleEnv (fun _ => false) 2)
        (.initiateBypass 0x0900000A 0x0300000A 1 none [] 2)).psbs.blocks.all
          (·.body.prevHop.neighborAddr = 0)) = true := by
      decide +kernel
    rw [Bool.and_eq_true] at before
    intro info _
    refine ⟨fun _ b _ _ _ _ => uncovered _ _ (List.isEmpty_iff.mp before.1), ?_⟩
    intro _ b mem _ _ transit
    exact absurd (of_decide_eq_true (List.all_eq_true.mp before.2 b mem)) transit

theorem protected_in_either_order_lspFirst :
    ∃ b ∈ sampleLspFirst.psbs, b.body.frrMode = .facility ∧ b.body.bypassPsb ≠ none := by
  have up : sampleLspFirst.psbs.blocks.any (fun b =>
      decide (b.body.frrMode = .facility ∧ b.body.isBypassTunnel = false) &&
        sampleLspFirst.psbs.blocks.any (bypassReady sampleLspFirst b.body.ifindexOut)) = true := by
    decide +kernel
  obtain ⟨b, memb, both⟩ := List.any_eq_true.mp up
  rw [Bool.and_eq_true, decide_eq_true_eq] at both
  obtain ⟨⟨facility, lsp⟩, ready⟩ := both
  obtain ⟨c, memc, ready⟩ := List.any_eq_true.mp ready
  obtain ⟨tunnel, protects, r, found, label⟩ := bypassReady_cases ready
  have mem : b ∈ sampleLspFirst.psbs := Table.mem_def.mpr memb
  have armed := protected_in_either_order (by decide) (by decide) (by decide)
    armingRun_sampleLspFirst mem facility lsp (Table.mem_def.mpr memc) tunnel protects found label
  exact ⟨b, mem, facility, armed⟩

/-- The LSP that comes second is not protected. -/
theorem exists_order_unprotected :
    Reachable (labelMgrInit 16 31 true) sampleBypassFirst ∧
      ∃ b ∈ sampleBypassFirst.psbs, ∃ c ∈ sampleBypassFirst.psbs, ∃ r,
        b.body.frrMode = .facility ∧ b.body.isBypassTunnel = false ∧
        c.body.isBypassTunnel = true ∧ c.body.frrProtectedIfindex = b.body.ifindexOut ∧
        sampleBypassFirst.rsvpRsbFind c.key = some r ∧ r.body.labelOut ≠ 0 ∧
        b.body.bypassPsb = none := by
  have up : sampleBypassFirst.psbs.blocks.any (fun b =>
      decide (b.body.frrMode = .facility ∧ b.body.isBypassTunnel = false ∧
        b.body.bypassPsb = none) &&
        sampleBypassFirst.psbs.blocks.any
          (bypassReady sampleBypassFirst b.body.ifindexOut)) = true := by
    decide +kernel
  obtain ⟨b, memb, both⟩ := List.any_eq_true.mp up
  rw [Bool.and_eq_true, decide_eq_true_eq] at both
  obtain ⟨⟨facility, lsp, bare⟩, ready⟩ := both
  obtain ⟨c, memc, ready⟩ := List.any_eq_true.mp ready
  obtain ⟨tunnel, protects, r, found, label⟩ := bypassReady_cases ready
  exact ⟨.step _ _ (.step _ _ (.step _ _ .init)), b, memb, c, memc, r, facility, lsp, tunnel,
    protects, found, label, bare⟩

end Rsvp
