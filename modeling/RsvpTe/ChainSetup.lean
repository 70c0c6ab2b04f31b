import Mathlib.Data.Fintype.EquivFin
import RsvpTe.Chain
import RsvpTe.PathRelay
import RsvpTe.ResvRefresh

/-!
# Setting up an LSP along a chain

What a chain can do from any configuration that it reaches: a new LSP comes up if node 0 originates
it, the PATH is delivered down the chain and the RESV back.  Each node handles one PATH and one
RESV, and what it logs is what the next node receives.

`Node.Awaits` is a node between its PATH and its RESV, `Chain.Down` and `Chain.Up` are the chain
while the PATH goes down and while the RESV comes back.
-/

namespace Rsvp

open Words

variable {hal : Hal} {env : Env} {s t : Node} {info : MessageInfo} {key : PathKey} {hop : HopIpv4}

/-! ## Reception -/

/-- A logged PATH is received, unless its source is local. -/
theorem pathOutput_receives {psb : PsbState} {ipDest dest : InAddr} {ifindex : UInt32}
    {useRao : Bool} {bytes : Bytes}
    (sent : Output.packet dest useRao bytes = pathOutput hal key psb ipDest ifindex)
    (foreign : env.isLocalAddr (ownAddr hal key ifindex) = false) :
    ∃ info, Receives env bytes info ∧ Decodes info msgPath (forwardTtl psb.ttl)
      (pathCalls key psb (ownAddr hal key ifindex) ifindex) := by
  cases sent
  obtain ⟨info, parsed, decodes, srcIp, -⟩ := parse_pathCalls key psb (ownAddr hal key ifindex)
    ifindex (ownAddr hal key ifindex) ipDest true
  have whole := take_rsvpPacket_built (ownAddr hal key ifindex) ipDest msgPath (forwardTtl psb.ttl)
    (pathCalls_fit key psb (ownAddr hal key ifindex) ifindex) (Nat.le_refl 1500) true
  rw [← pathMessage_eq] at whole
  rw [← whole] at parsed
  refine ⟨info, ⟨fun loops => ?_, parsed⟩, decodes⟩
  obtain ⟨objs, -, rfl⟩ := Accepted.of_ok parsed
  have own : env.isLocalAddr (ownAddr hal key ifindex) = true :=
    (congrArg env.isLocalAddr srcIp.symm).trans loops.2
  cases foreign.symm.trans own

/-- A logged RESV is received, unless its source is local. -/
theorem resvOutput_receives {b : Psb} {rsb : RsbState} {merged : SenderTspec} {dest : InAddr}
    {useRao : Bool} {bytes : Bytes}
    (sent : Output.packet dest useRao bytes = resvOutput hal b rsb merged)
    (foreign : env.isLocalAddr (((hal.getEgressIf b.body.prevHop.neighborAddr).map
      hal.localAddrOrZero).getD 0) = false) :
    ∃ info, Receives env bytes info ∧ info.commonHdr.msgType = msgResv ∧ info.key = b.key.wire ∧
      info.objs .hopV4 ≠ none ∧ info.labelValue = rsb.labelIn ∧ info.objs .label ≠ none := by
  cases sent
  obtain ⟨info, parsed, type, keyEq, -, hopHeld, label, labelHeld, srcIp⟩ := parse_resvMessage b.key
    rsb merged (((hal.getEgressIf b.body.prevHop.neighborAddr).map hal.localAddrOrZero).getD 0)
    ((hal.getEgressIf b.body.prevHop.neighborAddr).getD b.body.ifindexIn)
    (((hal.getEgressIf b.body.prevHop.neighborAddr).map hal.localAddrOrZero).getD 0)
    b.body.prevHop.neighborAddr false
  have whole := take_rsvpPacket_built
    (((hal.getEgressIf b.body.prevHop.neighborAddr).map hal.localAddrOrZero).getD 0)
    b.body.prevHop.neighborAddr msgResv (forwardTtl rsb.ttl)
    (resvCalls_fit b.key rsb merged
      (((hal.getEgressIf b.body.prevHop.neighborAddr).map hal.localAddrOrZero).getD 0)
      ((hal.getEgressIf b.body.prevHop.neighborAddr).getD b.body.ifindexIn)) (by decide) false
  rw [← resvMessage_eq] at whole
  rw [← whole] at parsed
  refine ⟨info, ⟨fun loops => ?_, parsed⟩, type, keyEq, hopHeld, label, labelHeld⟩
  obtain ⟨objs, -, rfl⟩ := Accepted.of_ok parsed
  have own := (congrArg env.isLocalAddr srcIp.symm).trans loops.2
  cases foreign.symm.trans own

/-! ## One node -/

/-- The node has no state for the LSP. -/
structure Node.Lacks (s : Node) (key : PathKey) : Prop where
  psb : s.rsvpPsbFind key = none
  rsb : s.rsvpRsbFind key = none
  bsb : s.rsvpBsbFind key = none

/-- The node has sent the PATH on and no RESV has come; `prev` is where the PATH came from. -/
structure Node.Awaits (s : Node) (key : PathKey) (prev : InAddr) : Prop where
  psb : ∃ b ∈ s.psbs, b.key = key ∧ b.body.prevHop.neighborAddr = prev ∧
    b.body.isBypassTunnel = false ∧ b.body.isMbbPending = false
  rsb : s.rsvpRsbFind key = none
  bsb : s.rsvpBsbFind key = none

/-- A PATH of the LSP has left through a route. -/
def Node.SentPath (s : Node) (hal : Hal) (key : PathKey) : Prop :=
  ∃ psb ipDest ifindex, hal.getEgressIf ipDest = some ifindex ∧
    pathOutput hal key psb ipDest ifindex ∈ s.out

/-- A RESV of the LSP with the label has left for `prev`. -/
def Node.SentResv (s : Node) (hal : Hal) (key : PathKey) (label : UInt32) (prev : InAddr) : Prop :=
  ∃ b rsb merged, b.key = key ∧ b.body.prevHop.neighborAddr = prev ∧ rsb.labelIn = label ∧
    resvOutput hal b rsb merged ∈ s.out

/-- An allocation at an unused address succeeds. -/
theorem create_fresh {β : Type} (t : Table PathKey β) (key : PathKey) (body : β) :
    ∃ p t', t.create rsvpKeyHash (some p) key body = some (p, t') := by
  obtain ⟨p, fresh⟩ := Infinite.exists_notMem_finset (t.blocks.map Block.addr).toFinset
  exact ⟨p, _, dif_neg fun used => fresh (List.mem_toFinset.mpr used)⟩

theorem rsvpFrrAutoAssociate_psbs (s : Node) (p : Ptr) :
    rsvpFrrAutoAssociate s p = { s with psbs := (rsvpFrrAutoAssociate s p).psbs } := by
  unfold rsvpFrrAutoAssociate
  split
  · rfl
  · split
    · rfl
    · split <;> rfl

/-- A PSB that is sent on keeps what a RESV asks of it. -/
theorem pathTransit_passes {b : Psb} (mem : b ∈ s.psbs)
    (routes : ∀ addr, env.getEgressIf addr ≠ none) (isNew : Bool) :
    ∃ psbs out, pathTransit env s info b.addr isNew = { s with psbs := psbs, out := out } ∧
      ∃ c ∈ psbs, c.key = b.key ∧ c.body.prevHop = b.body.prevHop ∧
        c.body.isBypassTunnel = b.body.isBypassTunnel ∧
        c.body.isMbbPending = b.body.isMbbPending := by
  unfold pathTransit
  rw [Table.get_of_mem mem]
  dsimp only [resolvePathNextHop]
  cases route : env.getEgressIf ((b.body.ero.popLocal env.toHal).ipDest b.key) with
  | none => exact absurd route (routes _)
  | some ifindex =>
    have popped := s.mem_modPsb mem fun x => { x with ero := b.body.ero.popLocal env.toHal }
    obtain ⟨sent, -, passed⟩ := @sendPathDownstream_logs env _ _ popped
    have left := Node.mem_modPsb _ popped (pathSent env b.key)
    have got := Table.get_of_mem left
    dsimp only [Node.modPsb] at passed left got ⊢
    rw [passed, got]
    dsimp only
    split
    · obtain ⟨bypassPsb, bypassTunnelId, memc⟩ :=
        @rsvpFrrAutoAssociate_mem { s with psbs := _, out := s.out ++ sent } _ left
      rw [rsvpFrrAutoAssociate_psbs]
      exact ⟨_, _, rfl, _, memc, rfl, rfl, rfl, rfl⟩
    · exact ⟨_, _, rfl, _, left, rfl, rfl, rfl, rfl⟩

section First

variable {p : Ptr} {psbs : Table PathKey PsbState}

/-- The PSB of the first PATH. -/
theorem mem_withPsb (created : s.psbs.create rsvpKeyHash env.psbMem key .zero = some (p, psbs)) :
    (⟨p, key, { PsbState.zero with refreshMs := rsvpRefreshMs }⟩ : Psb) ∈ (s.withPsb p psbs).psbs :=
  (Table.mem_modify_create created).mpr (.inl rfl)

/-- The PATH of a new LSP at a node in transit. -/
theorem handlePathMessage_passes (lacks : s.Lacks info.key)
    (valid : rsvpValidatePathMessage info none = none)
    (created : s.psbs.create rsvpKeyHash env.psbMem info.key .zero = some (p, psbs))
    (transit : env.isLocalAddr info.key.session.destAddr = false)
    (foreign : env.isLocalAddr info.key.sender.sourceAddr = false)
    (routes : ∀ addr, env.getEgressIf addr ≠ none) :
    (handlePathMessage env s info).Awaits info.key info.hop.neighborAddr ∧
      (handlePathMessage env s info).labels = s.labels ∧
      (handlePathMessage env s info).SentPath env.toHal info.key := by
  have mem := mem_withPsb created
  have updated := (s.withPsb p psbs).mem_modPsb mem (pathUpdate env info)
  have handled := handlePathMessage_new lacks.psb valid created
  obtain ⟨psbs', out, arrived, c, memc, keyC, hopC, bypassC, pendingC⟩ :=
    @pathTransit_passes env _ info _ updated routes true
  have result : handlePathMessage env s info = { s with psbs := psbs', out := out } := by
    rw [handled, pathArrived]
    simp only [transit, foreign, Bool.false_eq_true, if_false]
    exact arrived
  refine ⟨?_, ?_, ?_⟩
  · have spared := pathUpdate_spared env info { PsbState.zero with refreshMs := rsvpRefreshMs }
    rw [(pathUpdate_hop env (hop_of_valid valid) _).1] at hopC
    rw [result]
    exact ⟨⟨c, memc, keyC, congrArg HopIpv4.neighborAddr hopC, bypassC.trans spared.isBypassTunnel,
      pendingC.trans spared.isMbbPending⟩, lacks.rsb, lacks.bsb⟩
  · rw [result]
  · obtain ⟨sent, logged, passed⟩ := @pathArrived_out env _ info _ mem rfl true transit foreign
    rw [handled, Node.SentPath, logged]
    cases passed with
    | refused none => exact absurd none (routes _)
    | dropped _ none => exact absurd none (routes _)
    | forwarded _ route =>
      exact ⟨_, _, _, route, List.mem_append_right _ (List.mem_singleton.mpr rfl)⟩

/-- The PATH of a new LSP at the node that originates it. -/
theorem rsvpInitiatePathWithEro_awaits {src dest : InAddr} {tunnelId : UInt16}
    (lspName : Option Bytes) (ero : List EroSubobj) (requestFrr : Bool)
    (lacks : s.Lacks (ingressKey src dest tunnelId s.nextLspId))
    (created : s.psbs.create rsvpKeyHash env.psbMem (ingressKey src dest tunnelId s.nextLspId)
      .zero = some (p, psbs)) (routes : ∀ addr, env.getEgressIf addr ≠ none) :
    let t := rsvpInitiatePathWithEro env s src dest tunnelId lspName ero requestFrr
    t.Awaits (ingressKey src dest tunnelId s.nextLspId) 0 ∧ t.labels = s.labels ∧
      t.SentPath env.toHal (ingressKey src dest tunnelId s.nextLspId) := by
  dsimp only
  rw [rsvpInitiatePathWithEro]
  dsimp only
  have absent : ({ s with nextLspId := s.nextLspId + 1 } : Node).rsvpPsbFind
      (ingressKey src dest tunnelId s.nextLspId) = none := lacks.psb
  rw [absent, Node.rsvpPsbCreate, created]
  dsimp only [Option.map_some]
  let first : PsbState → PsbState := fun b => { b with
    refreshMs := rsvpRefreshMs
    isIngress := true
    lspName := lspName.bind env.strdup
    ero := .orElse ero b.ero
    frrMode := if requestFrr then .facility else b.frrMode
    refreshTimer := true }
  have mem : (⟨p, ingressKey src dest tunnelId s.nextLspId, first .zero⟩ : Psb) ∈
      psbs.modify p first := (Table.mem_modify_create created).mpr (.inl rfl)
  let set : Node := { s with nextLspId := s.nextLspId + 1, psbs := psbs.modify p first }
  obtain ⟨sent, -, passed⟩ := @sendPathDownstream_logs env set _ mem
  have logged := @sendPathDownstream_out env set _ mem
  change (sendPathDownstream env set p).Awaits _ 0 ∧ (sendPathDownstream env set p).labels = _ ∧
    (sendPathDownstream env set p).SentPath _ _
  refine ⟨?_, ?_, ?_⟩
  · rw [passed]
    exact ⟨⟨_, set.mem_modPsb mem (pathSent env _), rfl, rfl, rfl, rfl⟩, lacks.rsb, lacks.bsb⟩
  · rw [passed]
  · rw [Node.SentPath, logged]
    cases route : env.getEgressIf (((first .zero).ero.popLocal env.toHal).ipDest
        (ingressKey src dest tunnelId s.nextLspId)) with
    | none => exact absurd route (routes _)
    | some ifindex =>
      exact ⟨_, _, _, route, List.mem_append_right _ (List.mem_singleton.mpr rfl)⟩

end First

/-- A RESV goes upstream with the label that the RSB has or takes. -/
theorem sendResvUpstream_sends {b : Psb} {r : Rsb} (memr : r ∈ s.rsbs)
    (psb : s.psbOf r.body = some b)
    (free : r.body.labelIn = 0 → (labelMgrAlloc s.labels).1 ≠ 0) :
    ∃ label labels merged, label ≠ 0 ∧ (r.body.labelIn ≠ 0 → label = r.body.labelIn) ∧
      sendResvUpstream env s r.addr =
        { s with
          labels := labels
          rsbs := s.rsbs.modify r.addr fun x => { x with labelIn := label }
          out := s.out ++ [resvOutput env.toHal b { r.body with labelIn := label } merged] } := by
  have sent : ∀ (t : Node) (x : Rsb), ∃ merged, sendResv env t b x =
      { t with out := t.out ++ [resvOutput env.toHal b x.body merged] } := by
    intro t x
    refine ⟨rsvpComputeMergedFlowspec t b.body, ?_⟩
    rw [sendResv, resvOutput, resvMessage_eq, rsvpSendPacket_built _ _ _ _ _ (resvCalls_fit b.key x.body _ _ _)
      (by decide)]
    rfl
  unfold sendResvUpstream
  rw [Table.get_of_mem memr]
  simp only [psb]
  by_cases bare : r.body.labelIn = 0
  · have pos := free bare
    obtain ⟨merged, eq⟩ := sent ({ s with labels := (labelMgrAlloc s.labels).2 }.modRsb r.addr
      fun x => { x with labelIn := (labelMgrAlloc s.labels).1 })
      { r with body := { r.body with labelIn := (labelMgrAlloc s.labels).1 } }
    refine ⟨_, (labelMgrAlloc s.labels).2, merged, pos, fun label => absurd bare label, ?_⟩
    rw [if_pos bare, if_neg pos]
    exact eq
  · obtain ⟨merged, eq⟩ := sent s r
    have kept : s.rsbs.modify r.addr (fun x => { x with labelIn := r.body.labelIn }) = s.rsbs := by
      rw [Table.modify_eq_self_iff memr]
    refine ⟨_, s.labels, merged, bare, fun _ => rfl, ?_⟩
    rw [if_neg bare, kept]
    exact eq

/-- The PATH of a new LSP at its egress. -/
theorem handlePathMessage_answers (lacks : s.Lacks info.key)
    (valid : rsvpValidatePathMessage info none = none) {p r : Ptr} {psbs : Table PathKey PsbState}
    {rsbs : Table PathKey RsbState}
    (created : s.psbs.create rsvpKeyHash env.psbMem info.key .zero = some (p, psbs))
    (stored : s.rsbs.create rsvpKeyHash env.rsbMem info.key .zero = some (r, rsbs))
    (egress : env.isLocalAddr info.key.session.destAddr = true)
    (free : (labelMgrAlloc s.labels).1 ≠ 0) :
    ∃ label, (handlePathMessage env s info).Held info.key label ∧
      (handlePathMessage env s info).SentResv env.toHal info.key label info.hop.neighborAddr := by
  have mem := mem_withPsb created
  have updated := (s.withPsb p psbs).mem_modPsb mem (pathUpdate env info)
  have absent : ((s.withPsb p psbs).modPsb p (pathUpdate env info)).rsvpRsbFind info.key = none :=
    lacks.rsb
  have made : ((s.withPsb p psbs).modPsb p (pathUpdate env info)).rsbs.create rsvpKeyHash env.rsbMem
    info.key .zero = some (r, rsbs) := stored
  rw [handlePathMessage_new lacks.psb valid created, pathArrived, if_pos egress, pathEgress,
    Table.get_of_mem updated, absent, Node.rsvpRsbCreate, made]
  dsimp only [Option.map_some, Option.getD_some]
  let first : PsbState := pathUpdate env info { PsbState.zero with refreshMs := rsvpRefreshMs }
  let linked : Node := { s with
    psbs := ((s.withPsb p psbs).modPsb p (pathUpdate env info)).psbs.modify p fun x =>
      { x with associatedRsb := some r }
    rsbs := rsbs.modify r (egressRsbState p first.refreshMs) }
  have memr : (⟨r, info.key, egressRsbState p first.refreshMs .zero⟩ : Rsb) ∈ linked.rsbs :=
    (Table.mem_modify_create stored).mpr (.inl rfl)
  have memb := Node.mem_modPsb _ updated fun x => { x with associatedRsb := some r }
  have psb : linked.psbOf (egressRsbState p first.refreshMs .zero) = some
      ⟨p, info.key, { first with associatedRsb := some r }⟩ := Table.get_of_mem memb
  obtain ⟨label, labels, merged, pos, -, sent⟩ :=
    @sendResvUpstream_sends env linked _ _ memr psb fun _ => free
  refine ⟨label, ?_, ?_⟩
  · change (sendResvUpstream env linked r).Held _ _
    rw [sent]
    exact ⟨pos, _, linked.mem_modRsb memr _, rfl, rfl⟩
  · change (sendResvUpstream env linked r).SentResv _ _ _ _
    rw [sent]
    refine ⟨_, _, merged, rfl, ?_, rfl, List.mem_append_right _ (List.mem_singleton.mpr rfl)⟩
    exact congrArg HopIpv4.neighborAddr (pathUpdate_hop env (hop_of_valid valid) _).1

/-- An LSP that is neither a bypass nor a replacement has nothing to follow up. -/
theorem resvFollowUp_plain {b : Psb} (bypass : b.body.isBypassTunnel = false)
    (pending : b.body.isMbbPending = false) (isNew labelChanged : Bool) :
    resvFollowUp env s b isNew labelChanged = s := by
  simp only [resvFollowUp, bypass, pending, Bool.false_eq_true, false_and, if_false]

/-- A first RESV in transit. -/
theorem resvProgram_swaps {b : Psb} {r : Rsb} (memb : b ∈ s.psbs) (memr : r ∈ s.rsbs)
    (tied : r.body.associatedPsb = some b.addr) (transit : b.body.prevHop.neighborAddr ≠ 0)
    (bare : r.body.labelIn = 0) (free : (labelMgrAlloc s.labels).1 ≠ 0)
    (bypass : b.body.isBypassTunnel = false) (pending : b.body.isMbbPending = false)
    (isNew labelChanged : Bool) :
    let t := resvProgram env s info b r isNew labelChanged
    ∃ label, t.Held r.key label ∧
      t.SentResv env.toHal b.key label b.body.prevHop.neighborAddr ∧
      ∃ e, t.fwd (.label label) = some e ∧ e.outLabel = r.body.labelOut := by
  dsimp only
  rw [resvProgram]
  dsimp only
  rw [if_pos transit, if_pos bare, if_neg free, resvFollowUp_plain bypass pending]
  have here := Node.mem_modRsb { s with labels := (labelMgrAlloc s.labels).2 } memr fun x =>
    { x with labelIn := (labelMgrAlloc s.labels).1 }
  obtain ⟨label, labels, merged, pos, same, sent⟩ := @sendResvUpstream_sends env
    ((({ s with labels := (labelMgrAlloc s.labels).2 } : Node).modRsb r.addr fun x =>
      { x with labelIn := (labelMgrAlloc s.labels).1 }).halMplsInstall (labelMgrAlloc s.labels).1
        r.body.labelOut (ntohl r.body.nextHop.logicalInterface) r.body.nextHop.neighborAddr
        b.key.session.destAddr) b _ here (psbOf_tied (r := ⟨r.addr, r.key, _⟩) memb tied)
    fun zero => absurd zero free
  cases same free
  dsimp only at sent
  rw [sent]
  refine ⟨(labelMgrAlloc s.labels).1, ?_, ?_, ⟨r.body.labelOut,
    ntohl r.body.nextHop.logicalInterface, r.body.nextHop.neighborAddr⟩, ?_, rfl⟩
  · exact ⟨free, _, Node.mem_modRsb _ here _, rfl, rfl⟩
  · exact ⟨_, _, merged, rfl, rfl, rfl, List.mem_append_right _ (List.mem_singleton.mpr rfl)⟩
  · have place : fwdKey (labelMgrAlloc s.labels).1 b.key.session.destAddr =
        .label (labelMgrAlloc s.labels).1 := if_neg free
    rw [← place]
    exact Function.update_self _ _ _

section Resv

variable {r : Ptr} {rsbs : Table PathKey RsbState}

/-- The RESV of an LSP whose PATH came through this node. -/
theorem handleResvMessage_first {prev : InAddr} (wf : s.Wf) (awaits : s.Awaits info.key prev)
    (hop : info.objs .hopV4 ≠ none) (label : info.objs .label ≠ none)
    (created : s.rsbs.create rsvpKeyHash env.rsbMem info.key .zero = some (r, rsbs)) :
    ∃ b : Psb, b.key = info.key ∧ b.body.prevHop.neighborAddr = prev ∧
      b.body.isBypassTunnel = false ∧ b.body.isMbbPending = false ∧
      FirstRsb env s info b r rsbs ∧ handleResvMessage env s info =
        resvProgram env ((s.withRsb b r rsbs).modRsb r (resvStored info b.body.isIngress)) info
          (b.linked r) ((b.newRsb r).update (resvStored info b.body.isIngress)) true
          (info.labelValue ≠ (newResvState b).labelOut) := by
  obtain ⟨b, memb, keyB, prevB, bypass, pending⟩ := awaits.psb
  have psb : s.rsvpPsbFind info.key = some b := keyB ▸ wf.psbKeyed.find_of_mem memb
  have valid : rsvpValidateResvMessage s info = none := by
    rw [rsvpValidateResvMessage, psb, if_neg (Option.some_ne_none b), if_neg hop, if_neg label]
  have first : FirstRsb env s info b r rsbs := ⟨memb, keyB, awaits.rsb, keyB ▸ created⟩
  have admitted : resvBlockaded s info (newResvState b) = false := by
    rw [resvBlockaded, rsvpIsBlockaded, awaits.bsb]
  refine ⟨b, keyB, prevB, bypass, pending, first, ?_⟩
  rw [handleResvMessage_new valid psb awaits.rsb created]
  exact first.programmed admitted

/-- The first RESV at a node in transit. -/
theorem handleResvMessage_swaps {prev : InAddr} (wf : s.Wf) (awaits : s.Awaits info.key prev)
    (transit : prev ≠ 0) (hop : info.objs .hopV4 ≠ none) (label : info.objs .label ≠ none)
    (created : s.rsbs.create rsvpKeyHash env.rsbMem info.key .zero = some (r, rsbs))
    (free : (labelMgrAlloc s.labels).1 ≠ 0) :
    let t := handleResvMessage env s info
    ∃ label, t.Held info.key label ∧ t.SentResv env.toHal info.key label prev ∧
      ∃ e, t.fwd (.label label) = some e ∧ e.outLabel = info.labelValue := by
  obtain ⟨b, keyB, rfl, bypass, pending, first, handled⟩ :=
    handleResvMessage_first wf awaits hop label created
  have keeps := resvStored_keeps info b.body.isIngress (newResvState b)
  have here := (s.withRsb b r rsbs).mem_modRsb first.mem_new (resvStored info b.body.isIngress)
  have swapped := @resvProgram_swaps env
    ((s.withRsb b r rsbs).modRsb r (resvStored info b.body.isIngress)) info (b.linked r) _
    first.mem_linked here keeps.associatedPsb transit keeps.labelIn free bypass pending true
    (info.labelValue ≠ (newResvState b).labelOut)
  rw [← keyB]
  dsimp only at swapped ⊢
  rw [handled]
  exact swapped

/-- The first RESV at the node that originated the LSP. -/
theorem handleResvMessage_pushes (wf : s.Wf) (awaits : s.Awaits info.key 0)
    (hop : info.objs .hopV4 ≠ none) (label : info.objs .label ≠ none)
    (created : s.rsbs.create rsvpKeyHash env.rsbMem info.key .zero = some (r, rsbs)) :
    ∃ e, (handleResvMessage env s info).fwd (.push info.key.session.destAddr) = some e ∧
      e.outLabel = info.labelValue := by
  obtain ⟨b, keyB, ingress, bypass, pending, first, handled⟩ :=
    handleResvMessage_first wf awaits hop label created
  have head : ¬ (b.linked r).body.prevHop.neighborAddr ≠ 0 := not_not_intro ingress
  rw [handled, resvProgram]
  dsimp only
  rw [if_neg head, resvFollowUp_plain (b := b.linked r) bypass pending, ← keyB]
  exact ⟨_, Function.update_self _ _ _, rfl⟩

end Resv

/-! ## The chain -/

/-- Every node but the last has a route for every address, through an interface with an address of
its own; the ends of the LSP are at the ends of the chain. -/
structure Conducts (n : Nat) (hal : Nat → Hal) (src dest : InAddr) : Prop where
  routes : ∀ i < n, ∀ addr, (hal i).getEgressIf addr ≠ none
  own : ∀ i < n, ∀ ifindex addr, (hal i).getLocalAddr ifindex = some addr →
    (hal i).isLocalAddr addr = true
  inner : ∀ i, 0 < i → i < n →
    (hal i).isLocalAddr dest = false ∧ (hal i).isLocalAddr src = false
  tail : (hal n).isLocalAddr dest = true

section Chain

variable {n k : Nat} {hal : Nat → Hal} {pools : Nat → LabelMgr} {c : Nat → Node}
  {src dest : InAddr} {prev : InAddr} {label : UInt32}

theorem sent_mem_facts {o : Output} (logged : o ∈ (c k).out) :
    .sent k o ∈ (chain n hal pools).facts c :=
  Set.mem_iUnion.mpr ⟨k, .inl ⟨o, logged, rfl⟩⟩

/-- A PATH that node `k` has sent can arrive at the next one. -/
theorem path_arrives (addressed : Addressed n hal) (conducts : Conducts n hal src dest) (lt : k < n)
    (reserved : key.session.reserved = 0) (sent : (c k).SentPath (hal k) key)
    (here : env.toHal = hal (k + 1)) :
    ∃ ev info, ChainEvent hal ((chain n hal pools).facts c) (k + 1) ev ∧ info.key = key ∧
      rsvpValidatePathMessage info none = none ∧
      (hal k).isLocalAddr info.hop.neighborAddr = true ∧
      ∀ s : Node, s.step env ev = handlePathMessage env s info := by
  obtain ⟨psb, ipDest, ifindex, route, logged⟩ := sent
  obtain ⟨addr, address, owner⟩ := addressed.own k (Nat.le_of_lt lt) ipDest ifindex route
  have foreign : env.isLocalAddr (ownAddr (hal k) key ifindex) = false := by
    rw [ownAddr, address, here]
    refine Bool.eq_false_iff.mpr fun own => ?_
    exact absurd (owner (k + 1) lt own) (Nat.succ_ne_self k)
  obtain ⟨info, received, -⟩ := @pathOutput_receives (hal k) env key psb ipDest ipDest ifindex true
    _ rfl foreign
  obtain ⟨isPath, keyEq, hop, valid⟩ := @pathOutput_received (hal k) env key psb ipDest ipDest ifindex
    true _ rfl info received
  rw [(PathKey.wire_eq_self_iff key).mpr reserved] at keyEq
  refine ⟨_, info, .path (sent_mem_facts logged) (pathOutput_msgType (hal k) key psb ipDest ifindex),
    keyEq, valid, ?_, fun s => ?_⟩
  · rw [hop, address]
    exact conducts.own k lt ifindex addr address
  · rw [received.step_eq, rsvpHandleMessage]
    exact if_pos isPath

/-- A RESV that the next node has sent can arrive at node `k`. -/
theorem resv_arrives (addressed : Addressed n hal) (lt : k < n) (reserved : key.session.reserved = 0)
    (sent : (c (k + 1)).SentResv (hal (k + 1)) key label prev)
    (mine : (hal k).isLocalAddr prev = true) (here : env.toHal = hal k) :
    ∃ ev info, ChainEvent hal ((chain n hal pools).facts c) k ev ∧ info.key = key ∧
      info.objs .hopV4 ≠ none ∧ info.objs .label ≠ none ∧ info.labelValue = label ∧
      ∀ s : Node, s.step env ev = handleResvMessage env s info := by
  obtain ⟨b, rsb, merged, rfl, rfl, rfl, logged⟩ := sent
  have foreign : env.isLocalAddr (((hal (k + 1)).getEgressIf b.body.prevHop.neighborAddr).map
      (hal (k + 1)).localAddrOrZero |>.getD 0) = false := by
    rw [here]
    cases route : (hal (k + 1)).getEgressIf b.body.prevHop.neighborAddr with
    | none => exact addressed.zero k (Nat.le_of_lt lt)
    | some ifindex =>
      obtain ⟨addr, address, owner⟩ := addressed.own (k + 1) lt _ ifindex route
      rw [Option.map_some, Option.getD_some, Hal.localAddrOrZero, address]
      refine Bool.eq_false_iff.mpr fun own => ?_
      exact absurd (owner k (Nat.le_of_lt lt) own) (Nat.succ_ne_self k).symm
  obtain ⟨info, received, isResv, keyEq, hop, value, held⟩ :=
    @resvOutput_receives (hal (k + 1)) env b rsb merged _ false _ rfl foreign
  rw [(PathKey.wire_eq_self_iff b.key).mpr reserved] at keyEq
  refine ⟨_, info, .resv (sent_mem_facts logged) (resvOutput_msgType (hal (k + 1)) b rsb merged)
    mine, keyEq, hop, held, value, fun s => ?_⟩
  rw [received.step_eq, rsvpHandleMessage, isResv]
  rfl

/-- Surroundings with unused addresses to allocate. -/
def freshEnv (hal : Hal) (p r : Ptr) : Env :=
  { hal with
    psbMem := some p
    rsbMem := some r
    bsbMem := none
    strdupOk := true
    freed := fun _ => ⟨0, .zero, .zero⟩ }

/-- The PATH has come down to node `k`. -/
structure Down (n : Nat) (hal : Nat → Hal) (key : PathKey) (k : Nat) (c : Nat → Node) : Prop where
  head : (c 0).Awaits key 0
  passed : ∀ i < k, ∃ prev, (c (i + 1)).Awaits key prev ∧ (hal i).isLocalAddr prev = true
  lacks : ∀ i, k < i → i ≤ n → (c i).Lacks key
  free : ∀ i, 0 < i → i ≤ n → (labelMgrAlloc (c i).labels).1 ≠ 0
  sent : (c k).SentPath (hal k) key

/-- The RESV has come up from node `k + 1`, which takes packets of the LSP under `label` to the last
node. -/
structure Up (n : Nat) (hal : Nat → Hal) (key : PathKey) (k : Nat) (label : UInt32)
    (c : Nat → Node) : Prop where
  head : (c 0).Awaits key 0
  passed : ∀ i < k, ∃ prev, (c (i + 1)).Awaits key prev ∧ (hal i).isLocalAddr prev = true
  free : ∀ i, 0 < i → i ≤ k → (labelMgrAlloc (c i).labels).1 ≠ 0
  sent : ∃ prev, (c (k + 1)).SentResv (hal (k + 1)) key label prev ∧
    (hal k).isLocalAddr prev = true
  swaps : ∃ last, Relation.ReflTransGen (Swaps c) (k + 1, label) (n, last) ∧ (c n).Held key last

variable (pools)

/-- The PATH goes on to the next node in transit. -/
theorem Down.pass (addressed : Addressed n hal) (conducts : Conducts n hal src dest)
    (reserved : key.session.reserved = 0) (target : key.session.destAddr = dest)
    (source : key.sender.sourceAddr = src) (lt : k + 1 < n) (down : Down n hal key k c) :
    ∃ c', (chain n hal pools).Moves c c' ∧ Down n hal key (k + 1) c' := by
  have le : k + 1 ≤ n := Nat.le_of_lt lt
  have lacks := down.lacks (k + 1) (Nat.lt_succ_self k) le
  obtain ⟨p, psbs, created⟩ := create_fresh (c (k + 1)).psbs key .zero
  obtain ⟨ev, info, event, rfl, valid, hop, step⟩ := @path_arrives (freshEnv (hal (k + 1)) p 0) key n
    k hal pools c src dest addressed conducts (Nat.lt_of_succ_lt lt) reserved down.sent rfl
  obtain ⟨transit, foreign⟩ := conducts.inner (k + 1) (Nat.succ_pos k) lt
  obtain ⟨awaits, labels, sent⟩ := @handlePathMessage_passes (freshEnv (hal (k + 1)) p 0) _ info p
    psbs lacks valid created (target.symm ▸ transit) (source.symm ▸ foreign) (conducts.routes _ lt)
  refine ⟨_, ⟨k + 1, _, ⟨le, freshEnv (hal (k + 1)) p 0, ev, rfl, event, rfl⟩, rfl⟩, ?_⟩
  rw [step]
  refine ⟨?_, ?_, ?_, ?_, ?_⟩
  · rw [Function.update_of_ne (by omega)]
    exact down.head
  · intro i below
    rcases Nat.lt_succ_iff_lt_or_eq.mp below with old | rfl
    · rw [Function.update_of_ne (by omega)]
      exact down.passed i old
    · rw [Function.update_self]
      exact ⟨_, awaits, hop⟩
  · intro i above last
    rw [Function.update_of_ne (by omega)]
    exact down.lacks i (Nat.lt_of_succ_lt above) last
  · intro i pos last
    by_cases acted : i = k + 1
    · subst acted
      rw [Function.update_self, labels]
      exact down.free _ pos last
    · rw [Function.update_of_ne acted]
      exact down.free i pos last
  · rw [Function.update_self]
    exact sent

/-- The last node answers the PATH. -/
theorem Down.turn (addressed : Addressed n hal) (conducts : Conducts n hal src dest)
    (reserved : key.session.reserved = 0) (target : key.session.destAddr = dest)
    (last : k + 1 = n) (down : Down n hal key k c) :
    ∃ c' label, (chain n hal pools).Moves c c' ∧ Up n hal key k label c' := by
  subst last
  have lacks := down.lacks (k + 1) (Nat.lt_succ_self k) (Nat.le_refl _)
  obtain ⟨p, psbs, created⟩ := create_fresh (c (k + 1)).psbs key .zero
  obtain ⟨r, rsbs, stored⟩ := create_fresh (c (k + 1)).rsbs key .zero
  obtain ⟨ev, info, event, rfl, valid, hop, step⟩ := @path_arrives (freshEnv (hal (k + 1)) p r) key
    (k + 1) k hal pools c src dest addressed conducts (Nat.lt_succ_self k) reserved down.sent rfl
  obtain ⟨label, held, sent⟩ := @handlePathMessage_answers (freshEnv (hal (k + 1)) p r) _ info lacks
    valid p r psbs rsbs created stored (target.symm ▸ conducts.tail)
    (down.free (k + 1) (Nat.succ_pos k) (Nat.le_refl _))
  refine ⟨_, label, ⟨k + 1, _, ⟨Nat.le_refl _, freshEnv (hal (k + 1)) p r, ev, rfl, event, rfl⟩,
    rfl⟩, ?_⟩
  rw [step]
  refine ⟨?_, ?_, ?_, ?_, ?_⟩
  · rw [Function.update_of_ne (by omega)]
    exact down.head
  · intro i below
    rw [Function.update_of_ne (by omega)]
    exact down.passed i below
  · intro i pos below
    rw [Function.update_of_ne (by omega)]
    exact down.free i pos (Nat.le_succ_of_le below)
  · rw [Function.update_self]
    exact ⟨_, sent, hop⟩
  · rw [Function.update_self]
    exact ⟨label, .refl, held⟩

/-- Labelled packets do not see the nodes behind them. -/
theorem Swaps.ahead {c' : Nat → Node} {p q : Nat × UInt32}
    (path : Relation.ReflTransGen (Swaps c) p q) (same : ∀ i, p.1 ≤ i → c' i = c i) :
    Relation.ReflTransGen (Swaps c') p q := by
  induction path using Relation.ReflTransGen.head_induction_on with
  | refl => exact .refl
  | head first _ ih =>
    obtain ⟨pos, next, e, entry, out⟩ := first
    refine .head ⟨pos, next, e, ?_, out⟩ (ih fun i above => same i (by omega))
    rw [same _ (Nat.le_refl _)]
    exact entry

/-- The RESV goes on to the node before. -/
theorem Up.pass (addressed : Addressed n hal) (reserved : key.session.reserved = 0) (lt : k + 1 < n)
    (wf : (c (k + 1)).Wf) (up : Up n hal key (k + 1) label c) :
    ∃ c' label', (chain n hal pools).Moves c c' ∧ Up n hal key k label' c' := by
  have le : k + 1 ≤ n := Nat.le_of_lt lt
  obtain ⟨prev, sent, mine⟩ := up.sent
  obtain ⟨before, awaits, mineBefore⟩ := up.passed k (Nat.lt_succ_self k)
  have transit : before ≠ 0 := by
    intro zero
    have none := addressed.zero k (Nat.le_of_succ_le le)
    rw [← zero, mineBefore] at none
    cases none
  obtain ⟨r, rsbs, created⟩ := create_fresh (c (k + 1)).rsbs key .zero
  obtain ⟨ev, info, event, rfl, hop, held, value, step⟩ := @resv_arrives
    (freshEnv (hal (k + 1)) 0 r) key n (k + 1) hal pools c prev label addressed lt reserved sent mine
    rfl
  obtain ⟨label', heldHere, sentHere, e, entry, out⟩ := @handleResvMessage_swaps
    (freshEnv (hal (k + 1)) 0 r) _ info r rsbs before wf awaits transit hop held created
    (up.free (k + 1) (Nat.succ_pos k) (Nat.le_refl _))
  refine ⟨_, label', ⟨k + 1, _, ⟨le, freshEnv (hal (k + 1)) 0 r, ev, rfl, event, rfl⟩, rfl⟩, ?_⟩
  rw [step]
  refine ⟨?_, ?_, ?_, ?_, ?_⟩
  · rw [Function.update_of_ne (by omega)]
    exact up.head
  · intro i below
    rw [Function.update_of_ne (by omega)]
    exact up.passed i (Nat.lt_succ_of_lt below)
  · intro i pos below
    rw [Function.update_of_ne (by omega)]
    exact up.free i pos (Nat.le_succ_of_le below)
  · rw [Function.update_self]
    exact ⟨_, sentHere, mineBefore⟩
  · obtain ⟨last, path, heldLast⟩ := up.swaps
    refine ⟨last, .head (b := (k + 2, label)) ⟨heldHere.1, rfl, e, ?_, ?_⟩ ?_, ?_⟩
    · rw [Function.update_self]
      exact entry
    · rw [out, value]
    · exact Swaps.ahead path fun i above => Function.update_of_ne (by dsimp only at above; omega) _ _
    · rw [Function.update_of_ne (by omega)]
      exact heldLast

/-- The RESV reaches the node that originated the LSP. -/
theorem Up.finish (addressed : Addressed n hal) (reserved : key.session.reserved = 0) (pos : 0 < n)
    (wf : (c 0).Wf) (up : Up n hal key 0 label c) :
    ∃ c', (chain n hal pools).Moves c c' ∧
      ∃ e last, (c' 0).fwd (.push key.session.destAddr) = some e ∧
        Relation.ReflTransGen (Swaps c') (1, e.outLabel) (n, last) ∧ (c' n).Held key last := by
  obtain ⟨prev, sent, mine⟩ := up.sent
  obtain ⟨r, rsbs, created⟩ := create_fresh (c 0).rsbs key .zero
  obtain ⟨ev, info, event, rfl, hop, held, value, step⟩ := @resv_arrives
    (freshEnv (hal 0) 0 r) key n 0 hal pools c prev label addressed pos reserved sent mine rfl
  obtain ⟨e, entry, out⟩ := @handleResvMessage_pushes (freshEnv (hal 0) 0 r) _ info r rsbs wf up.head
    hop held created
  obtain ⟨last, path, heldLast⟩ := up.swaps
  refine ⟨_, ⟨0, _, ⟨Nat.zero_le n, freshEnv (hal 0) 0 r, ev, rfl, event, rfl⟩, rfl⟩, e, last, ?_, ?_,
    ?_⟩
  · rw [step, Function.update_self]
    exact entry
  · rw [out, value]
    exact Swaps.ahead path fun i above => Function.update_of_ne (by dsimp only at above; omega) _ _
  · rw [Function.update_of_ne (by omega)]
    exact heldLast

/-- Node by node the PATH comes down, and the last node answers. -/
theorem Down.completes (addressed : Addressed n hal) (conducts : Conducts n hal src dest)
    (reserved : key.session.reserved = 0) (target : key.session.destAddr = dest)
    (source : key.sender.sourceAddr = src) {left : Nat} (size : k + left + 1 = n)
    (down : Down n hal key k c) :
    ∃ c' label, Relation.ReflTransGen (chain n hal pools).Moves c c' ∧
      Up n hal key (n - 1) label c' := by
  induction left generalizing k c with
  | zero =>
    obtain ⟨c', label, moved, up⟩ := down.turn pools addressed conducts reserved target size
    refine ⟨c', label, .single moved, ?_⟩
    rw [← size] at up ⊢
    exact up
  | succ left ih =>
    obtain ⟨d, moved, next⟩ :=
      down.pass pools addressed conducts reserved target source (by omega)
    obtain ⟨c', label, moves, up⟩ := ih (by omega) next
    exact ⟨c', label, .head moved moves, up⟩

/-- Node by node the RESV comes up. -/
theorem Up.completes (addressed : Addressed n hal) (reserved : key.session.reserved = 0)
    (lt : k < n) (wf : ∀ {c' : Nat → Node}, (chain n hal pools).Reach c' → ∀ i, (c' i).Wf)
    (reach : (chain n hal pools).Reach c) (up : Up n hal key k label c) :
    ∃ c', Relation.ReflTransGen (chain n hal pools).Moves c c' ∧
      ∃ e last, (c' 0).fwd (.push key.session.destAddr) = some e ∧
        Relation.ReflTransGen (Swaps c') (1, e.outLabel) (n, last) ∧ (c' n).Held key last := by
  induction k generalizing c label with
  | zero =>
    obtain ⟨c', moved, works⟩ := up.finish pools addressed reserved lt (wf reach 0)
    exact ⟨c', .single moved, works⟩
  | succ k ih =>
    obtain ⟨d, label', moved, next⟩ :=
      up.pass pools addressed reserved lt (wf reach (k + 1))
    obtain ⟨c', moves, works⟩ := ih (Nat.lt_of_succ_lt lt) (reach.moves (.single moved)) next
    exact ⟨c', .head moved moves, works⟩

end Chain

/-- Whatever a chain has done before: once node 0 originates an LSP with a new identifier, the chain
has a run in which it comes up.  Node 0 pushes a label for the destination, every node on the way
swaps it, and the last node has the LSP under the label that arrives. -/
theorem chain_sets_up {n : Nat} {hal : Nat → Hal} {min max : Nat → UInt32} {src dest : InAddr}
    (low : ∀ i, 1 ≤ min i) (ordered : ∀ i, min i ≤ max i) (high : ∀ i, max i < 1048576)
    (addressed : Addressed n hal) (conducts : Conducts n hal src dest) (pos : 0 < n)
    {c : Nat → Node} (reach : (chain n hal fun i => labelMgrInit (min i) (max i) true).Reach c)
    (tunnelId : UInt16) (lspName : Option Bytes) (ero : List EroSubobj) (requestFrr : Bool)
    (unknown : ∀ i ≤ n, (c i).Lacks (ingressKey src dest tunnelId (c 0).nextLspId))
    (free : ∀ i, 0 < i → i ≤ n → (labelMgrAlloc (c i).labels).1 ≠ 0)
    {env : Env} (here : env.toHal = hal 0)
    (memory : (c 0).rsvpPsbCreate env (ingressKey src dest tunnelId (c 0).nextLspId) ≠ none) :
    ∃ c', Relation.ReflTransGen (chain n hal fun i => labelMgrInit (min i) (max i) true).Moves
        (Function.update c 0
          ((c 0).step env (.initiatePath src dest tunnelId lspName ero requestFrr))) c' ∧
      ∃ e last, (c' 0).fwd (.push dest) = some e ∧
        Relation.ReflTransGen (Swaps c') (1, e.outLabel) (n, last) ∧
        (c' n).Held (ingressKey src dest tunnelId (c 0).nextLspId) last := by
  have pools := fun i => labelMgrInit_wf (low i) (ordered i) (high i)
  have wf : ∀ {d : Nat → Node}, (chain n hal fun i => labelMgrInit (min i) (max i) true).Reach d →
      ∀ i, (d i).Wf := fun reach i =>
    ((chainContract addressed (fun i => (pools i).1) fun i => (pools i).2).inv_of_reach reach i).1
  obtain ⟨⟨p, t⟩, made⟩ := Option.ne_none_iff_exists'.mp memory
  obtain ⟨psbs, created, -⟩ := Node.rsvpPsbCreate_eq_some made
  have routes : ∀ addr, env.getEgressIf addr ≠ none := by
    rw [here]
    exact conducts.routes 0 pos
  obtain ⟨awaits, labels, sent⟩ := @rsvpInitiatePathWithEro_awaits env (c 0) p psbs src dest tunnelId
    lspName ero requestFrr (unknown 0 (Nat.zero_le n)) created routes
  rw [here] at sent
  have originated := Network.Reach.step reach ⟨Nat.zero_le n, env, .initiatePath src dest tunnelId
    lspName ero requestFrr, here, .originate, rfl⟩
  have down : Down n hal (ingressKey src dest tunnelId (c 0).nextLspId) 0 (Function.update c 0
      ((c 0).step env (.initiatePath src dest tunnelId lspName ero requestFrr))) := by
    refine ⟨?_, fun i below => absurd below (Nat.not_lt_zero i), ?_, ?_, ?_⟩
    · rw [Function.update_self]
      exact awaits
    · intro i above last
      rw [Function.update_of_ne (by omega)]
      exact unknown i last
    · intro i above last
      rw [Function.update_of_ne (by omega)]
      exact free i above last
    · rw [Function.update_self]
      exact sent
  obtain ⟨d, label, came, up⟩ := down.completes
    (fun i => labelMgrInit (min i) (max i) true) addressed conducts rfl rfl rfl
    (by omega : 0 + (n - 1) + 1 = n)
  obtain ⟨c', went, works⟩ := up.completes _ addressed rfl (by omega) wf (originated.moves came)
  exact ⟨c', came.trans went, works⟩

/-! ## Three nodes -/

theorem sampleHal_conducts : Conducts 2 sampleHal 1 3 where
  routes := fun _ _ _ => Option.some_ne_none _
  own := by
    intro i _ ifindex addr address
    exact decide_eq_true (Option.some.inj address).symm
  inner := by
    intro i pos lt
    have one : i = 1 := by omega
    subst one
    exact ⟨by decide, by decide⟩
  tail := by decide

/-- The ranges of `samplePools`. -/
theorem samplePools_range (i : Nat) :
    (1 : UInt32) ≤ (if i = 0 then 16 else if i = 1 then 32 else 48) ∧
      (if i = 0 then 16 else if i = 1 then 32 else 48 : UInt32) ≤
        (if i = 0 then 31 else if i = 1 then 47 else 63) ∧
      (if i = 0 then 31 else if i = 1 then 47 else 63 : UInt32) < 1048576 := by
  split
  · decide
  · split <;> decide

theorem samplePools_free (i : Nat) : (labelMgrAlloc (samplePools i)).1 ≠ 0 := by
  unfold samplePools
  split
  · decide +kernel
  · split <;> decide +kernel

/-- The first LSP from node 0 to node 2 comes up. -/
theorem chain_sets_up_first :
    ∃ c', Relation.ReflTransGen (chain 2 sampleHal samplePools).Moves
        (Function.update (fun i => Node.init (samplePools i)) 0 headNode) c' ∧
      ∃ e last, (c' 0).fwd (.push 3) = some e ∧
        Relation.ReflTransGen (Swaps c') (1, e.outLabel) (2, last) ∧
        (c' 2).Held (ingressKey 1 3 1 1) last :=
  chain_sets_up (fun i => (samplePools_range i).1) (fun i => (samplePools_range i).2.1)
    (fun i => (samplePools_range i).2.2) sampleHal_addressed sampleHal_conducts (by decide) .init 1
    none [] false (fun _ _ => ⟨rfl, rfl, rfl⟩) (fun i _ _ => samplePools_free i)
    (rfl : (sampleHop 0).toHal = sampleHal 0) (Option.some_ne_none _)

end Rsvp
