import RsvpTe.Isolation
import RsvpTe.PathRejection

/-!
# What a PATH or a RESV leaves behind

`Does` says what kinds of action a handler takes.  Here the handlers of PATH and RESV are followed
to the exact tables they end with; only the log is left open.
-/

namespace Rsvp

open Words

variable {env : Env} {s : Node} {info : MessageInfo}

/-! ## Senders -/

/-- A RESV goes upstream with the label the RSB has, or with one it takes now.  Without a label
nothing happens. -/
theorem sendResvUpstream_cases (pool : s.labels.Wf) {b : Psb} {r : Rsb} (memr : r ∈ s.rsbs)
    (psb : s.psbOf r.body = some b) :
    ((r.body.labelIn = 0 → (labelMgrAlloc s.labels).1 = 0) ∧
      ∃ out, sendResvUpstream env s r.addr = { s with out := out }) ∨
    r.body.labelIn = 0 ∧ ∃ label labels out, labelMgrAlloc s.labels = (label, labels) ∧
      s.labels.Allocates label labels ∧ sendResvUpstream env s r.addr =
        { s with
          labels := labels
          rsbs := s.rsbs.modify r.addr fun x => { x with labelIn := label }
          out := out } := by
  have sent : ∀ (t : Node) (x : Rsb), ∃ out, sendResv env t b x = { t with out := out } := by
    intro t x
    unfold sendResv
    obtain ⟨sent, eq⟩ := rsvpSendPacket_out _ _ _ _
    exact ⟨_, eq _⟩
  unfold sendResvUpstream
  rw [Table.get_of_mem memr]
  simp only [psb]
  by_cases bare : r.body.labelIn = 0
  · rw [if_pos bare]
    rcases labelMgrAlloc_cases pool with failed | ⟨label, labels, allocated, takes⟩
    · left
      rw [failed]
      refine ⟨fun _ => rfl, s.out, ?_⟩
      simp only [if_true]
      have same : s.rsbs.modify r.addr (fun x => { x with labelIn := 0 }) = s.rsbs := by
        rw [Table.modify_eq_self_iff memr, ← bare]
      simp only [Node.modRsb, same]
    · right
      have pos : label ≠ 0 := pool.ne_zero takes.inRange
      obtain ⟨out, eq⟩ := sent ({ s with labels := labels }.modRsb r.addr fun x =>
        { x with labelIn := label }) { r with body := { r.body with labelIn := label } }
      refine ⟨bare, label, labels, out, allocated, takes, ?_⟩
      rw [allocated]
      simp only [if_neg pos]
      exact eq
  · left
    rw [if_neg bare]
    exact ⟨fun zero => absurd zero bare, sent s r⟩

/-- The interface of a PSB once its PATH is sent. -/
def leavesBy (env : Env) (key : PathKey) (psb : PsbState) : UInt32 :=
  (env.getEgressIf ((psb.ero.popLocal env.toHal).ipDest key)).getD psb.ifindexOut

/-- A PSB once its PATH is sent. -/
def pathSent (env : Env) (key : PathKey) (psb : PsbState) : PsbState :=
  { psb with
    ero := psb.ero.popLocal env.toHal
    ifindexOut := leavesBy env key psb }

/-- The output programs the forwarding plane. -/
def Output.isInstall : Output → Bool
  | .mplsInstall _ _ _ _ _ => true
  | _ => false

/-- Packets are all a PATH adds to the log. -/
theorem sendPathDownstream_logs {b : Psb} (mem : b ∈ s.psbs) :
    ∃ sent, (∀ o ∈ sent, o.isInstall = false) ∧ sendPathDownstream env s b.addr =
      { s with psbs := s.psbs.modify b.addr (pathSent env b.key), out := s.out ++ sent } := by
  unfold sendPathDownstream
  rw [Table.get_of_mem mem]
  dsimp only [resolvePathNextHop]
  cases route : env.getEgressIf ((b.body.ero.popLocal env.toHal).ipDest b.key) with
  | none =>
    refine ⟨[], fun o none => absurd none List.not_mem_nil, ?_⟩
    have leaves : leavesBy env b.key b.body = b.body.ifindexOut := by
      rw [leavesBy, route, Option.getD_none]
    have same : s.psbs.modify b.addr (pathSent env b.key) =
        s.psbs.modify b.addr fun x => { x with ero := b.body.ero.popLocal env.toHal } := by
      refine Table.modify_congr mem ?_
      rw [pathSent, leaves]
    rw [same, List.append_nil]
    rfl
  | some ifindex =>
    have leaves : leavesBy env b.key b.body = ifindex := by
      rw [leavesBy, route, Option.getD_some]
    have same : s.psbs.modify b.addr (pathSent env b.key) =
        (s.psbs.modify b.addr fun x => { x with ero := b.body.ero.popLocal env.toHal }).modify
          b.addr fun x => { x with ifindexOut := ifindex } := by
      rw [Table.modify_modify]
      refine Table.modify_congr mem ?_
      rw [pathSent, leaves]
      rfl
    dsimp only
    rw [same]
    rcases rsvpSendPacket_cases
        ((s.modPsb b.addr fun x => { x with ero := b.body.ero.popLocal env.toHal }).modPsb
          b.addr fun x => { x with ifindexOut := ifindex })
        ((env.getLocalAddr ifindex).getD b.key.sender.sourceAddr)
        ((b.body.ero.popLocal env.toHal).ipDest b.key)
        (pathMessage b.key
          { b.body with ero := b.body.ero.popLocal env.toHal, ifindexOut := ifindex }
          ((env.getLocalAddr ifindex).getD b.key.sender.sourceAddr) ifindex) true with
      dropped | sent
    · refine ⟨[], fun o none => absurd none List.not_mem_nil, dropped.trans ?_⟩
      rw [List.append_nil]
      rfl
    · refine ⟨[_], fun o packet => ?_, sent⟩
      rw [List.mem_singleton.mp packet]
      rfl

theorem sendPathDownstream_leaves {b : Psb} (mem : b ∈ s.psbs) :
    ∃ out, sendPathDownstream env s b.addr =
      { s with
        psbs := s.psbs.modify b.addr fun x =>
          { x with
            ero := b.body.ero.popLocal env.toHal
            ifindexOut := leavesBy env b.key b.body }
        out := out } := by
  obtain ⟨sent, -, eq⟩ := @sendPathDownstream_logs env s b mem
  refine ⟨s.out ++ sent, eq.trans ?_⟩
  rw [Table.modify_congr mem]
  rfl

/-- The PATH of a PSB whose ERO starts elsewhere: only the outgoing interface is stored. -/
theorem sendPathDownstream_eq {b : Psb} (mem : b ∈ s.psbs)
    (popped : b.body.ero.popLocal env.toHal = b.body.ero) {ifindex : UInt32}
    (route : env.getEgressIf (b.body.ero.ipDest b.key) = some ifindex) :
    ∃ out, sendPathDownstream env s b.addr =
      { s with
        psbs := s.psbs.modify b.addr fun x => { x with ifindexOut := ifindex }
        out := out } := by
  obtain ⟨out, sent⟩ := @sendPathDownstream_leaves env s b mem
  have leaves : leavesBy env b.key b.body = ifindex := by
    rw [leavesBy, popped, route, Option.getD_some]
  rw [popped, leaves] at sent
  refine ⟨out, sent.trans ?_⟩
  rw [Table.modify_congr mem]
  rfl

/-! ## Automatic protection -/

/-- The guards of `rsvp_frr_auto_associate` include those of its caller. -/
theorem rsvpFrrAutoAssociate_of_guard {b : Psb} (mem : b ∈ s.psbs)
    (guard : ¬ (b.body.frrMode = .facility ∧ b.body.isBypassTunnel = false ∧
      b.body.bypassPsb = none)) : rsvpFrrAutoAssociate s b.addr = s := by
  unfold rsvpFrrAutoAssociate
  rw [Table.get_of_mem mem]
  refine if_pos ?_
  by_contra inactive
  simp only [not_or, not_not, Bool.not_eq_true] at inactive
  exact guard ⟨inactive.1, inactive.2.2.2, inactive.2.1⟩

/-- Protection that was looked for once is not found again. -/
theorem rsvpFrrAutoAssociate_again (s : Node) (p : Ptr) :
    rsvpFrrAutoAssociate (rsvpFrrAutoAssociate s p) p = rsvpFrrAutoAssociate s p := by
  generalize result : rsvpFrrAutoAssociate s p = t
  have first := result
  unfold rsvpFrrAutoAssociate at result
  split at result
  · rw [← result, first, result]
  · rename_i b found
    obtain ⟨mem, rfl⟩ := Table.get_eq_some.mp found
    split at result
    · rw [← result, first, result]
    · split at result
      · rw [← result, first, result]
      · rename_i c _
        have armed := s.mem_modPsb mem fun x => { x with
          bypassPsb := some c.addr
          bypassTunnelId := ntohs c.key.session.tunnelId }
        have kept := rsvpFrrAutoAssociate_of_guard armed fun guard => by cases guard.2.2
        rw [← result]
        exact kept

/-- The search for protection does not read the log. -/
theorem rsvpFrrAutoAssociate_logged (s : Node) (p : Ptr) (out : List Output) :
    rsvpFrrAutoAssociate { s with out := out } p =
      { rsvpFrrAutoAssociate s p with out := out } := by
  unfold rsvpFrrAutoAssociate
  cases s.psbs.get p with
  | none => rfl
  | some b =>
    dsimp only
    split
    · rfl
    · have ready : ∀ i, bypassReady { s with out := out } i = bypassReady s i := fun _ => rfl
      rw [ready]
      cases s.psbs.blocks.find? (bypassReady s b.body.ifindexOut) <;> rfl

/-- What every single search keeps, the search for all PSBs keeps. -/
theorem rsvpFrrAutoAssociateAll_induct {P : Node → Prop} (start : P s) (ifindex : UInt32)
    (step : ∀ t p, P t → P (rsvpFrrAutoAssociate t p)) :
    P (rsvpFrrAutoAssociateAll s ifindex) := by
  unfold rsvpFrrAutoAssociateAll
  generalize s.psbs.blocks.map Block.addr = addrs
  induction addrs generalizing s with
  | nil => exact start
  | cons p rest ih =>
    apply ih
    dsimp only
    split
    · exact start
    · repeat' split
      all_goals first | exact start | exact step s p start

/-- What a PATH in transit leaves when interface `ifindex` leads to its next hop. -/
theorem pathTransit_routed {b : Psb} (mem : b ∈ s.psbs)
    (popped : (b.body.ero.popLocal env.toHal).popLocal env.toHal = b.body.ero.popLocal env.toHal)
    {ifindex : UInt32}
    (route : env.getEgressIf ((b.body.ero.popLocal env.toHal).ipDest b.key) = some ifindex)
    (isNew : Bool) :
    ∃ out, pathTransit env s info b.addr isNew =
      rsvpFrrAutoAssociate
        { s with
          psbs := s.psbs.modify b.addr fun x =>
            { x with ero := b.body.ero.popLocal env.toHal, ifindexOut := ifindex }
          out := out } b.addr := by
  have here : (⟨b.addr, b.key, { b.body with ero := b.body.ero.popLocal env.toHal }⟩ : Psb) ∈
      (s.modPsb b.addr fun x => { x with ero := b.body.ero.popLocal env.toHal }).psbs :=
    s.mem_modPsb mem _
  obtain ⟨out, sent⟩ := sendPathDownstream_eq here popped route
  have memT := s.mem_modPsb mem fun x =>
    { x with ero := b.body.ero.popLocal env.toHal, ifindexOut := ifindex }
  refine ⟨out, ?_⟩
  have both : (s.modPsb b.addr fun x => { x with ero := b.body.ero.popLocal env.toHal }).psbs.modify
      b.addr (fun x => { x with ifindexOut := ifindex }) = s.psbs.modify b.addr fun x =>
        { x with ero := b.body.ero.popLocal env.toHal, ifindexOut := ifindex } := by
    dsimp only [Node.modPsb]
    rw [Table.modify_modify]
    rfl
  rw [both] at sent
  have got := Table.get_of_mem memT
  unfold pathTransit
  rw [Table.get_of_mem mem]
  dsimp only [resolvePathNextHop]
  rw [route]
  dsimp only
  rw [sent]
  dsimp only [Node.modPsb] at got ⊢
  rw [got]
  dsimp only
  split
  · rfl
  · rename_i guard
    exact (@rsvpFrrAutoAssociate_of_guard { s with psbs := _, out := out } _ memT guard).symm

/-! ## RESV -/

/-- What a RESV stores in its RSB unless it is blockaded. -/
def resvStored (info : MessageInfo) (isIngress : Bool) (rsb : RsbState) : RsbState :=
  resvStore info isIngress (resvUpdate info rsb)

theorem resvStored_keeps (info : MessageInfo) (isIngress : Bool) (rsb : RsbState) :
    rsb.Keeps (resvStored info isIngress rsb) := by
  have keeps := (resvUpdate_keeps info rsb).1
  exact ⟨keeps.labelIn, keeps.associatedPsb⟩

/-- The RESV is for a new RSB, or names another label or next hop than the RSB holds. -/
def ResvChanges (info : MessageInfo) (isNew : Bool) (rsb : RsbState) : Prop :=
  isNew = true ∨ info.labelValue ≠ rsb.labelOut ∨
    info.hop.neighborAddr ≠ rsb.nextHop.neighborAddr

instance (info : MessageInfo) (isNew : Bool) (rsb : RsbState) :
    Decidable (ResvChanges info isNew rsb) := inferInstanceAs (Decidable (_ ∨ _ ∨ _))

/-- Any other repeats the label and the next hop. -/
theorem repeats_of_not_resvChanges {isNew : Bool} {rsb : RsbState}
    (unchanged : ¬ ResvChanges info isNew rsb) :
    info.labelValue = rsb.labelOut ∧ info.hop.neighborAddr = rsb.nextHop.neighborAddr := by
  simp only [ResvChanges, not_or, not_not] at unchanged
  exact unchanged.2

section Resv

variable {b : Psb} {r : Rsb} {isNew : Bool}

theorem psbOf_tied (memb : b ∈ s.psbs) (tied : r.body.associatedPsb = some b.addr) :
    s.psbOf r.body = some b := by
  rw [Node.psbOf, tied]
  exact Table.get_of_mem memb

theorem get_modRsb (memr : r ∈ s.rsbs) (f : RsbState → RsbState) :
    (s.modRsb r.addr f).rsbs.get r.addr = some { r with body := f r.body } :=
  Table.get_of_mem (s.mem_modRsb memr f)

/-- A RESV against a blockade: its specification is stored, and a new RSB is dropped. -/
theorem resvArrived_blockaded (memr : r ∈ s.rsbs) (tied : r.body.associatedPsb = some b.addr)
    (key : r.key = info.key) (blockaded : resvBlockaded s info r.body = true) :
    resvArrived env s info r.addr isNew =
      if isNew then
        { s with
          psbs := s.psbs.modify b.addr fun x => { x with associatedRsb := none }
          rsbs := s.rsbs.unlink r.addr }
      else s.modRsb r.addr (resvUpdate info) := by
  have here := s.mem_modRsb memr (resvUpdate info)
  have keeps := (resvUpdate_keeps info r.body).1
  have tied' : (resvUpdate info r.body).associatedPsb = some b.addr :=
    keeps.associatedPsb.trans tied
  have refused : rsvpIsBlockaded (s.modRsb r.addr (resvUpdate info))
      ⟨r.addr, r.key, resvUpdate info r.body⟩ = true := key ▸ blockaded
  unfold resvArrived
  dsimp only
  rw [get_modRsb memr]
  dsimp only
  rw [refused, if_pos rfl, tied']
  cases isNew with
  | false => rfl
  | true =>
    have cut := @rsvpRsbDelete_cut (s.modRsb r.addr (resvUpdate info)) b _ here tied'
    dsimp only at cut ⊢
    rw [if_pos rfl, if_pos rfl, cut]
    dsimp only [Node.modRsb]
    rw [Table.unlink_modify]

/-- A RESV that is admitted: its label and hop are stored, and it is programmed or passed on. -/
theorem resvArrived_admitted (memb : b ∈ s.psbs) (memr : r ∈ s.rsbs)
    (tied : r.body.associatedPsb = some b.addr) (key : r.key = info.key)
    (admitted : resvBlockaded s info r.body = false) :
    resvArrived env s info r.addr isNew =
      if ResvChanges info isNew r.body then
        resvProgram env (s.modRsb r.addr (resvStored info b.body.isIngress)) info b
          { r with body := resvStored info b.body.isIngress r.body } isNew
          (info.labelValue ≠ r.body.labelOut)
      else
        resvRefresh env (s.modRsb r.addr (resvStored info b.body.isIngress))
          { r with body := resvStored info b.body.isIngress r.body } := by
  obtain ⟨keeps, labelOut, nextHop⟩ := resvUpdate_keeps info r.body
  have tied' : (resvUpdate info r.body).associatedPsb = some b.addr :=
    keeps.associatedPsb.trans tied
  have passed : rsvpIsBlockaded (s.modRsb r.addr (resvUpdate info))
      ⟨r.addr, r.key, resvUpdate info r.body⟩ = false := key ▸ admitted
  have psb : (s.modRsb r.addr (resvUpdate info)).psbOf (resvUpdate info r.body) = some b :=
    psbOf_tied (r := ⟨r.addr, r.key, _⟩) memb tied'
  have both : (s.modRsb r.addr (resvUpdate info)).modRsb r.addr
      (resvStore info b.body.isIngress) = s.modRsb r.addr (resvStored info b.body.isIngress) := by
    dsimp only [Node.modRsb]
    rw [Table.modify_modify]
    rfl
  have psb' : (s.modRsb r.addr (resvStored info b.body.isIngress)).psbOf
      (resvStore info b.body.isIngress (resvUpdate info r.body)) = some b := psb
  unfold resvArrived
  dsimp only
  rw [get_modRsb memr]
  dsimp only
  rw [passed, if_neg Bool.false_ne_true, resvAccepted]
  dsimp only
  rw [psb, Option.any_some, both, psb', labelOut, nextHop]
  simp only [decide_eq_true_eq]
  rfl

/-- A RESV is passed on with the label the RSB has or with one it takes now. -/
theorem resvRefresh_cases (pool : s.labels.Wf) (memb : b ∈ s.psbs) (memr : r ∈ s.rsbs)
    (tied : r.body.associatedPsb = some b.addr) :
    ((r.body.labelIn = 0 → b.body.prevHop.neighborAddr ≠ 0 → b.body.isIngress = false →
        (labelMgrAlloc s.labels).1 = 0) ∧
      ∃ out, resvRefresh env s r = { s with out := out }) ∨
    (r.body.labelIn = 0 ∧ b.body.prevHop.neighborAddr ≠ 0 ∧ b.body.isIngress = false) ∧
      ∃ label labels out, labelMgrAlloc s.labels = (label, labels) ∧
      s.labels.Allocates label labels ∧ resvRefresh env s r =
        { s with
          labels := labels
          rsbs := s.rsbs.modify r.addr fun x => { x with labelIn := label }
          out := out } := by
  unfold resvRefresh
  rw [psbOf_tied memb tied]
  dsimp only
  by_cases upstream : b.body.prevHop.neighborAddr ≠ 0 ∧ b.body.isIngress = false
  · rw [if_pos upstream]
    rcases @sendResvUpstream_cases env s pool b r memr (psbOf_tied memb tied) with
      ⟨none, sent⟩ | ⟨bare, taken⟩
    · exact .inl ⟨fun bare _ _ => none bare, sent⟩
    · exact .inr ⟨⟨bare, upstream⟩, taken⟩
  · rw [if_neg upstream]
    exact .inl ⟨fun _ transit foreign => absurd ⟨transit, foreign⟩ upstream, s.out, rfl⟩

/-- The RSB has its label: it had it, or it took it for a swap. -/
inductive Labelled (s : Node) (b : Psb) (r : Rsb) : UInt32 → LabelMgr → Prop
  | kept : (b.body.prevHop.neighborAddr ≠ 0 → r.body.labelIn ≠ 0) →
    Labelled s b r r.body.labelIn s.labels
  | taken {label : UInt32} {labels : LabelMgr} : b.body.prevHop.neighborAddr ≠ 0 →
    r.body.labelIn = 0 → labelMgrAlloc s.labels = (label, labels) →
    s.labels.Allocates label labels → Labelled s b r label labels

/-- The node with the entry of a RESV: a swap, or a push without a previous hop. -/
def Node.programmed (s : Node) (b : Psb) (r : Rsb) (label : UInt32) (labels : LabelMgr)
    (out : List Output) : Node :=
  { s with
    labels := labels
    rsbs := s.rsbs.modify r.addr fun x => { x with labelIn := label }
    fwd := Function.update s.fwd
      (fwdKey (if b.body.prevHop.neighborAddr = 0 then 0 else label) b.key.session.destAddr)
      (some ⟨r.body.labelOut, ntohl r.body.nextHop.logicalInterface, r.body.nextHop.neighborAddr⟩)
    out := out }

theorem Labelled.ne_zero {label : UInt32} {labels : LabelMgr} (pool : s.labels.Wf)
    (labelled : Labelled s b r label labels) (transit : b.body.prevHop.neighborAddr ≠ 0) :
    label ≠ 0 := by
  cases labelled with
  | kept label => exact label transit
  | taken _ _ _ takes => exact pool.ne_zero takes.inRange

theorem Labelled.wf_programmed {label : UInt32} {labels : LabelMgr}
    (labelled : Labelled s b r label labels) (wf : s.Wf) (memr : r ∈ s.rsbs) (out : List Output) :
    (s.programmed b r label labels out).Wf := by
  have pool : labels.Wf := by
    cases labelled with
    | kept => exact wf.labels
    | taken _ _ _ takes => exact takes.wf
  have labelIn := wf.modRsb memr (f := fun x => { x with labelIn := label }) rfl
  exact labelIn.congr rfl rfl wf.bsbKeyed pool

/-- A RESV is programmed, or refused for want of a label. -/
theorem resvProgram_cases (pool : s.labels.Wf) (memb : b ∈ s.psbs) (memr : r ∈ s.rsbs)
    (tied : r.body.associatedPsb = some b.addr) (labelChanged : Bool) :
    (b.body.prevHop.neighborAddr ≠ 0 ∧ r.body.labelIn = 0 ∧ (labelMgrAlloc s.labels).1 = 0 ∧
      ∃ out, resvProgram env s info b r isNew labelChanged =
        { (if isNew then rsvpRsbCleanup env s r.addr false else s : Node) with out := out }) ∨
    ∃ label labels out, Labelled s b r label labels ∧
      resvProgram env s info b r isNew labelChanged =
        resvFollowUp env (s.programmed b r label labels out) b isNew labelChanged := by
  have kept : s.rsbs.modify r.addr (fun x => { x with labelIn := r.body.labelIn }) = s.rsbs := by
    rw [Table.modify_eq_self_iff memr]
  -- A RESV for an RSB with a label is only sent.
  have passed : ∀ (t : Node) (x : Rsb), t.labels.Wf → t.psbs = s.psbs → x ∈ t.rsbs →
      x.addr = r.addr → x.body.labelIn ≠ 0 → x.body.associatedPsb = some b.addr →
      ∃ out, sendResvUpstream env t r.addr = { t with out := out } := by
    intro t x pool psbs mem addr label tied
    have psb : t.psbOf x.body = some b := psbOf_tied (psbs ▸ memb) tied
    rcases @sendResvUpstream_cases env t pool b x mem psb with ⟨-, sent⟩ | ⟨bare, -⟩
    · exact addr ▸ sent
    · exact absurd bare label
  unfold resvProgram
  dsimp only
  by_cases transit : b.body.prevHop.neighborAddr = 0
  · rw [if_neg (not_not_intro transit)]
    refine .inr ⟨_, _, s.out ++ [.mplsInstall 0 r.body.labelOut
      (ntohl r.body.nextHop.logicalInterface) r.body.nextHop.neighborAddr b.key.session.destAddr],
      .kept fun pos => absurd transit pos, ?_⟩
    rw [Node.programmed, kept, if_pos transit]
    rfl
  · rw [if_pos transit]
    by_cases bare : r.body.labelIn = 0
    · rw [if_pos bare]
      rcases labelMgrAlloc_cases pool with failed | ⟨label, labels, allocated, takes⟩
      · left
        rw [failed]
        refine ⟨transit, bare, rfl, ?_⟩
        rw [bare] at kept
        obtain ⟨sent, eq⟩ := sendResvErr_out env info protoErrAdmissionControl 0
        simp only [Node.modRsb, kept, if_true, eq]
        exact ⟨_, rfl⟩
      · right
        have pos : label ≠ 0 := pool.ne_zero takes.inRange
        have here := Node.mem_modRsb { s with labels := labels } memr fun x =>
          { x with labelIn := label }
        obtain ⟨out, sent⟩ := passed ((({ s with labels := labels } : Node).modRsb r.addr fun x =>
          { x with labelIn := label }).halMplsInstall label r.body.labelOut
            (ntohl r.body.nextHop.logicalInterface) r.body.nextHop.neighborAddr
            b.key.session.destAddr) _ takes.wf rfl here rfl pos tied
        refine ⟨label, labels, out, .taken transit bare allocated takes, ?_⟩
        rw [allocated]
        dsimp only
        rw [if_neg pos, sent, Node.programmed, if_neg transit]
        rfl
    · right
      rw [if_neg bare]
      obtain ⟨out, sent⟩ := passed (s.halMplsInstall r.body.labelIn r.body.labelOut
        (ntohl r.body.nextHop.logicalInterface) r.body.nextHop.neighborAddr
        b.key.session.destAddr) r pool rfl memr rfl bare tied
      refine ⟨_, _, out, .kept fun _ => bare, ?_⟩
      rw [sent, Node.programmed, kept, if_neg transit]
      rfl

/-- A first RESV that finds no label for its swap: its RSB is released. -/
theorem resvArrived_unlabelled (pool : s.labels.Wf) (memb : b ∈ s.psbs) (memr : r ∈ s.rsbs)
    (tied : r.body.associatedPsb = some b.addr) (key : r.key = info.key)
    (admitted : resvBlockaded s info r.body = false) (transit : b.body.prevHop.neighborAddr ≠ 0)
    (bare : r.body.labelIn = 0) (none : (labelMgrAlloc s.labels).1 = 0) :
    ∃ out, resvArrived env s info r.addr true =
      (s.modRsb r.addr (resvStored info b.body.isIngress)).released b
        { r with body := resvStored info b.body.isIngress r.body } out := by
  have keeps := resvStored_keeps info b.body.isIngress r.body
  have here := s.mem_modRsb memr (resvStored info b.body.isIngress)
  have tied' : (resvStored info b.body.isIngress r.body).associatedPsb = some b.addr :=
    keeps.associatedPsb.trans tied
  rw [resvArrived_admitted memb memr tied key admitted, if_pos (.inl rfl)]
  rcases @resvProgram_cases env (s.modRsb r.addr (resvStored info b.body.isIngress)) info b
    { r with body := resvStored info b.body.isIngress r.body } true pool memb here tied'
    (info.labelValue ≠ r.body.labelOut) with
    ⟨-, -, -, out, result⟩ | ⟨label, labels, out, labelled, -⟩
  · rw [result, if_pos rfl]
    obtain ⟨out', cleaned⟩ := @rsvpRsbCleanup_eq env
      (s.modRsb r.addr (resvStored info b.body.isIngress)) b
      { r with body := resvStored info b.body.isIngress r.body } memb here tied' false
    rw [cleaned]
    exact ⟨out, rfl⟩
  · cases labelled with
    | kept label => exact absurd (keeps.labelIn.trans bare) (label transit)
    | taken _ _ allocated takes =>
      have zero := congrArg Prod.fst allocated
      exact absurd (zero.symm.trans none) (pool.ne_zero takes.inRange)

end Resv

end Rsvp
