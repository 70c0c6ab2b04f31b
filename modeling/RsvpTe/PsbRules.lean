import RsvpTe.EventCases
import RsvpTe.ResvRefresh

/-!
# Invariants of single PSBs

A property of PSBs that every update of the source keeps holds of every PSB after every event.
Updates that any event may make are in `PsbRule`; `Event.Admits` adds those of one event, with the
blocks it creates.
-/

namespace Rsvp

open Words

variable {env : Env} {s s' : Node} {info : MessageInfo} {P : Psb → Prop}

/-- The updates of routing and bookkeeping. -/
structure PsbRule (P : Psb → Prop) : Prop where
  pop : ∀ (b : Psb) (hal : Hal), P b →
    P (b.update fun x => { x with ero := x.ero.popLocal hal })
  out : ∀ (b : Psb) (ifindex : UInt32), P b →
    P (b.update fun x => { x with ifindexOut := ifindex })
  spare : ∀ (b : Psb) (a : Option Ptr) (refresh : Bool), P b →
    P (b.update fun x => { x with associatedRsb := a, refreshTimer := refresh })

/-- The PSB of an LSP that starts here. -/
def ingressState (env : Env) (lspName : Option Bytes) (ero : List EroSubobj) (requestFrr : Bool) :
    PsbState :=
  { PsbState.zero with
    refreshMs := rsvpRefreshMs
    isIngress := true
    lspName := lspName.bind env.strdup
    ero := .orElse ero .empty
    frrMode := if requestFrr then .facility else .none
    refreshTimer := true }

/-- The PSB of a bypass tunnel. -/
def bypassState (env : Env) (name : Option Bytes) (ero : List EroSubobj)
    (protectedIfindex : UInt32) : PsbState :=
  { ingressState env name ero false with
    isBypassTunnel := true
    frrProtectedIfindex := protectedIfindex }

/-- The updates and the new PSBs of a message. -/
structure MessageInfo.Admits (P : Psb → Prop) (env : Env) (info : MessageInfo) : Prop where
  arm : ∀ (b : Psb) (p : Ptr) (tunnelId : UInt16), b.body.bypassPsb = none → P b →
    P (b.update fun x => { x with bypassPsb := some p, bypassTunnelId := tunnelId })
  done : ∀ b : Psb, P b → P (b.update fun x => { x with isMbbPending := false, mbbOldLspId := 0 })
  path : info.commonHdr.msgType = msgPath → ∀ b : Psb, b.key = info.key → P b →
    P (b.update (pathUpdate env info))
  new : info.commonHdr.msgType = msgPath → ∀ p,
    P ⟨p, info.key, { PsbState.zero with refreshMs := rsvpRefreshMs }⟩

/-- The updates and the new PSBs of an event. -/
def Event.Admits (P : Psb → Prop) (env : Env) (s : Node) : Event → Prop
  | .recv packet => ∀ info, Receives env packet info → info.Admits P env
  | .initiatePath src dest tunnelId lspName ero requestFrr => ∀ p,
    P ⟨p, ingressKey src dest tunnelId s.nextLspId, ingressState env lspName ero requestFrr⟩
  | .initiateBypass src dest tunnelId name ero protectedIfindex => ∀ p,
    P ⟨p, ingressKey src dest tunnelId s.nextLspId, bypassState env name ero protectedIfindex⟩
  | .frrEnable _ _ frrMode bypassTunnelId => ∀ b c : Psb, P b → c ∈ s.psbs →
    c.body.isBypassTunnel = true → P (b.update fun x => { x with
      frrMode := frrMode
      bypassTunnelId := bypassTunnelId
      bypassPsb := some c.addr })
  | .frrTrigger _ => ∀ (b : Psb) (ifindex : UInt32), P b → b.body.bypassPsb ≠ none →
    P (b.update fun x => { x with frrActive := true, ifindexOut := ifindex })
  | .frrRevert _ => ∀ (b : Psb) (ifindex : UInt32), P b →
    P (b.update fun x => { x with ifindexOut := ifindex, frrActive := false })
  | .mbbStart _ oldLspId newLspId newEro => ∀ (old : Psb) (p : Ptr), P old →
    P ⟨p, { old.key with sender := { old.key.sender with lspId := htons newLspId } },
      mbbClone env old.body oldLspId newEro .zero⟩
  | _ => True

/-- What a message must leave to the property at the least: `done` is for the PSB of a RESV, and a
new PSB has an address that is `fresh`. -/
structure MessageInfo.Permits (P : Psb → Prop) (env : Env) (fresh : Ptr → Prop)
    (info : MessageInfo) : Prop where
  arm : ∀ (b : Psb) (p : Ptr) (tunnelId : UInt16), b.body.bypassPsb = none → P b →
    P (b.update fun x => { x with bypassPsb := some p, bypassTunnelId := tunnelId })
  done : info.commonHdr.msgType = msgResv → ∀ b : Psb, b.key = info.key → P b →
    P (b.update fun x => { x with isMbbPending := false, mbbOldLspId := 0 })
  path : info.commonHdr.msgType = msgPath → ∀ b : Psb, b.key = info.key → P b →
    P (b.update (pathUpdate env info))
  new : info.commonHdr.msgType = msgPath → ∀ p, fresh p →
    P ⟨p, info.key, { PsbState.zero with refreshMs := rsvpRefreshMs }⟩

/-- The same for an event. -/
def Event.Permits (P : Psb → Prop) (env : Env) (fresh : Ptr → Prop) (s : Node) : Event → Prop
  | .recv packet => ∀ info, Receives env packet info → info.Permits P env fresh
  | .initiatePath src dest tunnelId lspName ero requestFrr => ∀ p, fresh p →
    P ⟨p, ingressKey src dest tunnelId s.nextLspId, ingressState env lspName ero requestFrr⟩
  | .initiateBypass src dest tunnelId name ero protectedIfindex => ∀ p, fresh p →
    P ⟨p, ingressKey src dest tunnelId s.nextLspId, bypassState env name ero protectedIfindex⟩
  | .mbbStart _ oldLspId newLspId newEro => ∀ (old : Psb) (p : Ptr), fresh p → P old →
    P ⟨p, { old.key with sender := { old.key.sender with lspId := htons newLspId } },
      mbbClone env old.body oldLspId newEro .zero⟩
  | ev => ev.Admits P env s

theorem MessageInfo.Admits.permits (admits : info.Admits P env) (fresh : Ptr → Prop) :
    info.Permits P env fresh where
  arm := admits.arm
  done := fun _ b _ => admits.done b
  path := admits.path
  new := fun path p _ => admits.new path p

theorem Event.Admits.permits {ev : Event} (admits : ev.Admits P env s) (fresh : Ptr → Prop) :
    ev.Permits P env fresh s := by
  cases ev with
  | recv => exact fun info received => (admits info received).permits fresh
  | initiatePath => exact fun p _ => admits p
  | initiateBypass => exact fun p _ => admits p
  | mbbStart => exact fun old p _ => admits old p
  | _ => exact admits

/-- Every PSB has the property. -/
def Node.AllPsbs (P : Psb → Prop) (s : Node) : Prop := ∀ b ∈ s.psbs, P b

namespace Node.AllPsbs

theorem congr (all : s.AllPsbs P) (psbs : s'.psbs = s.psbs) : s'.AllPsbs P := by
  unfold Node.AllPsbs
  rw [psbs]
  exact all

theorem modPsb (all : s.AllPsbs P) (p : Ptr) {f : PsbState → PsbState}
    (keeps : ∀ b ∈ s.psbs, b.addr = p → P (b.update f)) : (s.modPsb p f).AllPsbs P := by
  intro b mem
  rcases Table.mem_modify.mp mem with ⟨old, -⟩ | ⟨c, memc, here, rfl⟩
  · exact all b old
  · exact keeps c memc here

theorem unlink (all : s.AllPsbs P) (p : Ptr) :
    ({ s with psbs := s.psbs.unlink p } : Node).AllPsbs P := fun b mem =>
  all b (Table.mem_unlink.mp mem).1

/-- A new PSB after its first update. -/
theorem create (all : s.AllPsbs P) {mem : Option Ptr} {key : PathKey} {p : Ptr}
    {psbs : Table PathKey PsbState} {f : PsbState → PsbState}
    (made : s.psbs.create rsvpKeyHash mem key .zero = some (p, psbs)) (new : P ⟨p, key, f .zero⟩) :
    ({ s with psbs := psbs.modify p f } : Node).AllPsbs P := by
  intro b mem
  rcases (Table.mem_modify_create made).mp mem with rfl | old
  · exact new
  · exact all b old

end Node.AllPsbs

/-! ## What leaves the PSBs alone -/

theorem handlePathErr_eq (s : Node) : ∃ out, handlePathErr env s info = { s with out := out } := by
  unfold handlePathErr
  split
  · exact ⟨s.out, rfl⟩
  · dsimp only
    split
    · exact ⟨s.out, rfl⟩
    · obtain ⟨sent, eq⟩ := rsvpSendPacket_out _ _ _ _
      exact ⟨_, eq s⟩

theorem handleResvErr_eq (s : Node) :
    ∃ bsbs out, handleResvErr env s info = { s with bsbs := bsbs, out := out } := by
  obtain ⟨bsbs, blocked, -⟩ := @resvErrBlockade_eq env s info
  unfold handleResvErr
  rw [blocked]
  dsimp only
  split
  · exact ⟨bsbs, s.out, rfl⟩
  · split
    · exact ⟨bsbs, s.out, rfl⟩
    · unfold propagateResvErr
      split
      · exact ⟨bsbs, s.out, rfl⟩
      · dsimp only
        split
        · exact ⟨bsbs, s.out, rfl⟩
        · obtain ⟨sent, eq⟩ := rsvpSendPacket_out _ _ _ _
          rw [eq]
          exact ⟨bsbs, _, rfl⟩

theorem resvRefresh_psbs (s : Node) (r : Rsb) : (resvRefresh env s r).psbs = s.psbs := by
  unfold resvRefresh
  split
  · rfl
  · split
    · exact sendResvUpstream_psbs s _
    · rfl

/-! ## Senders and teardown -/

section Rule

variable (rule : PsbRule P)
include rule

theorem PsbRule.associate {b : Psb} (holds : P b) (a : Option Ptr) :
    P (b.update fun x => { x with associatedRsb := a }) :=
  rule.spare b a b.body.refreshTimer holds

theorem PsbRule.popped (all : s.AllPsbs P) {b : Psb} (mem : b ∈ s.psbs) (hal : Hal) :
    (s.modPsb b.addr fun x => { x with ero := b.body.ero.popLocal hal }).AllPsbs P := by
  refine all.modPsb _ fun c memc here => ?_
  rw [Table.eq_of_addr_eq memc mem here]
  exact rule.pop b hal (all b mem)

theorem sendPathDownstream_all (all : s.AllPsbs P) (p : Ptr) :
    (sendPathDownstream env s p).AllPsbs P := by
  unfold sendPathDownstream
  split
  · exact all
  · rename_i b found
    obtain ⟨mem, rfl⟩ := Table.get_eq_some.mp found
    have popped := rule.popped all mem env.toHal
    dsimp only [resolvePathNextHop]
    split
    · exact popped
    · rename_i ifindex _
      obtain ⟨sent, eq⟩ := rsvpSendPacket_out _ _ _ _
      rw [eq]
      exact popped.modPsb b.addr fun c memc _ => rule.out c ifindex (popped c memc)

theorem propagatePathTear_all (all : s.AllPsbs P) (p : Ptr) :
    (propagatePathTear env s p).AllPsbs P := by
  unfold propagatePathTear
  split
  · exact all
  · rename_i b found
    obtain ⟨mem, rfl⟩ := Table.get_eq_some.mp found
    have popped := rule.popped all mem env.toHal
    dsimp only [resolvePathNextHop]
    split
    · exact popped
    · obtain ⟨sent, eq⟩ := rsvpSendPacket_out _ _ _ _
      rw [eq]
      exact popped

theorem rsvpRsbCleanup_all (wf : s.Wf) (all : s.AllPsbs P) {r : Rsb} (mem : r ∈ s.rsbs)
    (propagate : Bool) : (rsvpRsbCleanup env s r.addr propagate).AllPsbs P := by
  obtain ⟨b, memb, -, tied, -⟩ := wf.owned r mem
  obtain ⟨out, eq⟩ := @rsvpRsbCleanup_eq env s b r memb mem tied propagate
  rw [eq]
  exact all.modPsb b.addr fun c memc _ => rule.associate (all c memc) none

omit rule in
theorem rsvpPsbDelete_all (all : s.AllPsbs P) (p : Ptr) : (s.rsvpPsbDelete p).AllPsbs P := by
  unfold Node.rsvpPsbDelete
  split
  · exact all
  · dsimp only
    split
    · exact all.unlink p
    · exact all.unlink p

theorem rsvpPsbCleanup_all (wf : s.Wf) (all : s.AllPsbs P) {b : Psb} (mem : b ∈ s.psbs)
    (propagate : Bool) : (rsvpPsbCleanup env s b.addr propagate).AllPsbs P := by
  obtain ⟨t, c, told, removed⟩ := @rsvpPsbCleanup_cases env s wf b mem propagate
  have allT : t.AllPsbs P := by
    rcases told.origin with rfl | rfl
    · exact all
    · exact propagatePathTear_all rule all b.addr
  rcases removed with ⟨-, eq⟩ | ⟨r, memr, -, -, eq⟩
  · rw [eq]
    exact rsvpPsbDelete_all allT b.addr
  · rw [eq]
    exact rsvpPsbDelete_all
      (rsvpRsbCleanup_all rule (told.wf wf) allT (told.rsbs ▸ memr) false) b.addr

/-! ## Messages -/

omit rule in
/-- The key of a block never changes. -/
theorem identity_rule (p : Ptr) (key : PathKey) : PsbRule fun c => c.addr = p → c.key = key where
  pop := fun _ _ => id
  out := fun _ _ => id
  spare := fun _ _ _ => id

section Message

variable {fresh : Ptr → Prop} (permits : info.Permits P env fresh)
include permits

omit rule in
theorem rsvpFrrAutoAssociate_all (all : s.AllPsbs P) (p : Ptr) :
    (rsvpFrrAutoAssociate s p).AllPsbs P := by
  unfold rsvpFrrAutoAssociate
  split
  · exact all
  · rename_i b found
    obtain ⟨mem, rfl⟩ := Table.get_eq_some.mp found
    split
    · exact all
    · rename_i guard
      split
      · exact all
      · refine all.modPsb _ fun c memc here => ?_
        rw [Table.eq_of_addr_eq memc mem here]
        refine permits.arm b _ _ ?_ (all b mem)
        by_contra armed
        exact guard (.inr (.inl armed))

theorem resvFollowUp_all (resv : info.commonHdr.msgType = msgResv) (wf : s.Wf)
    (all : s.AllPsbs P) {b : Psb} (mem : b ∈ s.psbs) (key : b.key = info.key)
    (isNew labelChanged : Bool) : (resvFollowUp env s b isNew labelChanged).AllPsbs P := by
  have armed : ∀ i, (rsvpFrrAutoAssociateAll s i).AllPsbs P := fun i =>
    rsvpFrrAutoAssociateAll_induct all i fun t p allT => rsvpFrrAutoAssociate_all permits allT p
  have cleared : ∀ t : Node, (∀ c ∈ t.psbs, c.addr = b.addr → c.key = b.key) → t.AllPsbs P →
      (t.modPsb b.addr fun x =>
        { x with isMbbPending := false, mbbOldLspId := 0 }).AllPsbs P := fun t here allT =>
    allT.modPsb _ fun c memc same => permits.done resv c ((here c memc same).trans key) (allT c memc)
  have here : s.AllPsbs fun c => c.addr = b.addr → c.key = b.key := fun c memc same =>
    congrArg Block.key (Table.eq_of_addr_eq memc mem same)
  unfold resvFollowUp
  dsimp only
  by_cases bypass : b.body.isBypassTunnel = true ∧ (isNew = true ∨ labelChanged = true)
  · have plain : ¬ (b.body.isMbbPending = true ∧ isNew = true) := by
      intro completes
      rcases completes with ⟨pending, -⟩
      rw [(wf.pending b mem pending).1] at bypass
      exact Bool.false_ne_true bypass.1
    rw [if_pos bypass, if_neg plain]
    exact armed _
  · rw [if_neg bypass]
    split
    · unfold rsvpMbbComplete
      rw [Table.get_of_mem mem]
      dsimp only
      cases scanned : s.rsvpPsbFindById (ntohs b.key.session.tunnelId) b.body.mbbOldLspId with
      | none => exact cleared s here all
      | some old =>
        have memOld : old ∈ s.psbs := List.mem_of_find?_eq_some scanned
        exact cleared _ (rsvpPsbCleanup_all (identity_rule b.addr b.key) wf here memOld true)
          (rsvpPsbCleanup_all rule wf all memOld true)
    · exact all

theorem resvArrived_all (resv : info.commonHdr.msgType = msgResv) (wf : s.Wf)
    (all : s.AllPsbs P) {b : Psb} {r : Rsb} (memb : b ∈ s.psbs) (memr : r ∈ s.rsbs)
    (tied : r.body.associatedPsb = some b.addr) (keyB : b.key = info.key) (key : r.key = info.key)
    (isNew : Bool) : (resvArrived env s info r.addr isNew).AllPsbs P := by
  cases blockaded : resvBlockaded s info r.body with
  | true =>
    rw [resvArrived_blockaded memr tied key blockaded]
    split
    · exact all.modPsb b.addr fun c memc _ => rule.associate (all c memc) none
    · exact all
  | false =>
    have keeps := resvStored_keeps info b.body.isIngress r.body
    have here := s.mem_modRsb memr (resvStored info b.body.isIngress)
    have tied' : (resvStored info b.body.isIngress r.body).associatedPsb = some b.addr :=
      keeps.associatedPsb.trans tied
    have wfU := wf.modRsb memr keeps.associatedPsb
    rw [resvArrived_admitted memb memr tied key blockaded]
    split
    · rcases @resvProgram_cases env (s.modRsb r.addr (resvStored info b.body.isIngress)) info b
        ⟨r.addr, r.key, resvStored info b.body.isIngress r.body⟩ isNew wf.labels memb here tied' _
        with ⟨-, -, -, out, result⟩ | ⟨label, labels, out, labelled, result⟩
      · rw [result]
        split
        · exact @rsvpRsbCleanup_all env _ P rule wfU all _ here false
        · exact all
      · rw [result]
        exact resvFollowUp_all rule permits resv (labelled.wf_programmed wfU here out) all memb
          keyB _ _
    · rcases @resvRefresh_cases env (s.modRsb r.addr (resvStored info b.body.isIngress)) b
        ⟨r.addr, r.key, resvStored info b.body.isIngress r.body⟩ wf.labels memb here tied' with
        ⟨-, out, sent⟩ | ⟨-, label, labels, out, -, -, sent⟩
      · rw [sent]
        exact all
      · rw [sent]
        exact all

theorem handleResvMessage_all (resv : info.commonHdr.msgType = msgResv) (wf : s.Wf)
    (all : s.AllPsbs P) : (handleResvMessage env s info).AllPsbs P := by
  have turn := @handleResvMessage_turn env s info wf
  generalize handleResvMessage env s info = t at turn ⊢
  cases turn with
  | refused sent _ => exact all
  | found _ memb keyB memr keyR tied =>
    exact resvArrived_all rule permits resv wf all memb memr tied keyB keyR false
  | noMemory => exact all
  | @first b r rsbs _ first =>
    have allT : (s.withRsb b r rsbs).AllPsbs P :=
      all.modPsb b.addr fun c memc _ => rule.associate (all c memc) (some r)
    exact @resvArrived_all env _ info P rule fresh permits resv (first.does.wf wf) allT (b.linked r)
      (b.newRsb r) first.mem_linked first.mem_new rfl first.key first.key true

omit permits in
theorem pathEgress_all (all : s.AllPsbs P) (p : Ptr) :
    (pathEgress env s info p).AllPsbs P := by
  unfold pathEgress
  dsimp only
  split
  · exact all
  · split
    · exact all
    · rename_i r t made
      obtain ⟨rsbs, created, rfl⟩ := Node.rsvpRsbCreate_eq_some made
      refine Node.AllPsbs.congr (s := s.modPsb p fun x => { x with associatedRsb := some r })
        ?_ (sendResvUpstream_psbs _ r)
      exact all.modPsb p fun c memc _ => rule.associate (all c memc) (some r)

theorem pathTransit_all (all : s.AllPsbs P) (p : Ptr) (isNew : Bool) :
    (pathTransit env s info p isNew).AllPsbs P := by
  unfold pathTransit
  split
  · exact all
  · rename_i b found
    obtain ⟨mem, rfl⟩ := Table.get_eq_some.mp found
    have popped := rule.popped all mem env.toHal
    dsimp only [resolvePathNextHop]
    split
    · obtain ⟨sent, eq⟩ := sendPathErr_out env info protoErrRoutingProblem 0
      rw [eq]
      split
      · apply rsvpPsbDelete_all
        exact popped
      · exact popped
    · have sent := @sendPathDownstream_all env _ P rule popped b.addr
      split
      · exact sent
      · split
        · exact rsvpFrrAutoAssociate_all permits sent b.addr
        · exact sent

theorem pathArrived_all (path : info.commonHdr.msgType = msgPath) (all : s.AllPsbs P) {b : Psb}
    (mem : b ∈ s.psbs) (key : b.key = info.key) (isNew : Bool) :
    (pathArrived env s info b.addr isNew).AllPsbs P := by
  have updated : (s.modPsb b.addr (pathUpdate env info)).AllPsbs P := by
    refine all.modPsb _ fun c memc here => ?_
    rw [Table.eq_of_addr_eq memc mem here]
    exact permits.path path b key (all b mem)
  unfold pathArrived
  dsimp only
  split
  · exact pathEgress_all rule updated b.addr
  · split
    · exact updated
    · exact pathTransit_all rule permits updated b.addr isNew

theorem handlePathMessage_all (path : info.commonHdr.msgType = msgPath)
    (unused : ∀ p, (∀ b ∈ s.psbs, b.addr ≠ p) → fresh p) (all : s.AllPsbs P) :
    (handlePathMessage env s info).AllPsbs P := by
  unfold handlePathMessage
  dsimp only
  split
  · rename_i err _ _
    obtain ⟨sent, eq⟩ := sendPathErr_out env info _ _
    rw [eq]
    exact all
  · split
    · rename_i b found
      obtain ⟨mem, key⟩ := Table.find_eq_some found
      exact pathArrived_all rule permits path all mem key false
    · split
      · exact all
      · rename_i p t made
        obtain ⟨psbs, created, rfl⟩ := Node.rsvpPsbCreate_eq_some made
        have new := all.create (f := fun b => { b with refreshMs := rsvpRefreshMs }) created
          (permits.new path p (unused p (Table.create_eq_some created).2.1))
        exact @pathArrived_all env _ info P rule fresh permits path new ⟨p, info.key, _⟩
          ((Table.mem_modify_create created).mpr (.inl rfl)) rfl true

theorem rsvpHandleMessage_all (wf : s.Wf) (unused : ∀ p, (∀ b ∈ s.psbs, b.addr ≠ p) → fresh p)
    (all : s.AllPsbs P) : (rsvpHandleMessage env s info).AllPsbs P := by
  have unblocked : ∀ t : Node, t.AllPsbs P → (bsbRemove t info.key).AllPsbs P := by
    intro t allT
    unfold bsbRemove
    split <;> exact allT
  unfold rsvpHandleMessage
  dsimp only
  split
  · rename_i path
    exact handlePathMessage_all rule permits path unused all
  split
  · rename_i resv
    exact handleResvMessage_all rule permits resv wf all
  split
  · unfold handlePathTear
    apply unblocked
    split
    · exact all
    · rename_i b found
      exact rsvpPsbCleanup_all rule wf all (Table.find_eq_some found).1 true
  split
  · unfold handleResvTear
    apply unblocked
    split
    · exact all
    · rename_i r found
      exact rsvpRsbCleanup_all rule wf all (Table.find_eq_some found).1 true
  split
  · obtain ⟨out, told⟩ := @handlePathErr_eq env info s
    rw [told]
    exact all
  split
  · obtain ⟨bsbs, out, told⟩ := @handleResvErr_eq env info s
    rw [told]
    exact all
  · exact all

end Message

/-! ## Events -/

/-- A PSB that is created, set and announced. -/
theorem originated_all (all : s.AllPsbs P) {key : PathKey} {p : Ptr} {t : Node}
    {f : PsbState → PsbState} (made : s.rsvpPsbCreate env key = some (p, t))
    (new : (∀ b ∈ s.psbs, b.addr ≠ p) → P ⟨p, key, f .zero⟩) :
    (sendPathDownstream env (t.modPsb p f) p).AllPsbs P := by
  obtain ⟨psbs, created, rfl⟩ := Node.rsvpPsbCreate_eq_some made
  have fresh := (Table.create_eq_some created).2.1
  exact sendPathDownstream_all rule (all.create created (new fresh)) p

omit rule in
theorem foldl_all {f : Node → Ptr → Node} (each : ∀ t p, t.AllPsbs P → (f t p).AllPsbs P)
    (all : s.AllPsbs P) (l : List Ptr) : (l.foldl f s).AllPsbs P := by
  induction l generalizing s with
  | nil => exact all
  | cons p l ih => exact ih (each s p all)

/-- A mark on the PSB at `p`, and a PATH for it. -/
theorem marked_all (all : s.AllPsbs P) {b : Psb} (mem : b ∈ s.psbs) {f : PsbState → PsbState}
    (marked : P (b.update f)) : (sendPathDownstream env (s.modPsb b.addr f) b.addr).AllPsbs P := by
  refine sendPathDownstream_all rule (all.modPsb _ fun c memc here => ?_) b.addr
  rw [Table.eq_of_addr_eq memc mem here]
  exact marked

theorem frrTriggerOne_all
    (trigger : ∀ (b : Psb) (ifindex : UInt32), P b → b.body.bypassPsb ≠ none →
      P (b.update fun x => { x with frrActive := true, ifindexOut := ifindex }))
    (ifindex : UInt32) (all : s.AllPsbs P) (p : Ptr) :
    (frrTriggerOne env ifindex s p).AllPsbs P := by
  unfold frrTriggerOne
  split
  · exact all
  · rename_i b found
    obtain ⟨mem, rfl⟩ := Table.get_eq_some.mp found
    split
    · exact all
    · rename_i armed
      split
      · dsimp only
        split
        · exact all
        · split
          · exact all
          · have kept : b.body.bypassPsb ≠ none := by rw [armed]; rintro ⟨⟩
            split
            · exact marked_all rule all mem (trigger b _ (all b mem) kept)
            · exact @marked_all env (s.halMplsInstall _ _ _ _ _) P rule all b mem _
                (trigger b _ (all b mem) kept)
      · exact all

theorem frrRevertOne_all
    (revert : ∀ (b : Psb) (ifindex : UInt32), P b →
      P (b.update fun x => { x with ifindexOut := ifindex, frrActive := false }))
    (ifindex : UInt32) (all : s.AllPsbs P) (p : Ptr) :
    (frrRevertOne env ifindex s p).AllPsbs P := by
  unfold frrRevertOne
  split
  · exact all
  · rename_i b found
    obtain ⟨mem, rfl⟩ := Table.get_eq_some.mp found
    split
    · exact all
    · split
      · split
        · exact all
        · exact @marked_all env (s.halMplsInstall _ _ _ _ _) P rule all b mem _
            (revert b _ (all b mem))
      · exact all

/-- What an event permits, it keeps. -/
theorem Node.step_permits (wf : s.Wf) {fresh : Ptr → Prop} {ev : Event}
    (permits : ev.Permits P env fresh s) (unused : ∀ p, (∀ b ∈ s.psbs, b.addr ≠ p) → fresh p)
    (all : s.AllPsbs P) : (s.step env ev).AllPsbs P := by
  have restarted : ∀ (t : Node) p, t.AllPsbs P →
      (t.modPsb p fun x => { x with refreshTimer := true }).AllPsbs P := fun t p allT =>
    allT.modPsb p fun c memc _ => rule.spare c c.body.associatedRsb true (allT c memc)
  have numbered : s.numbered.AllPsbs P := all
  have takes := s.step_takes env ev
  generalize s.step env ev = s' at takes ⊢
  cases takes with
  | idle => exact all
  | message received => exact rsvpHandleMessage_all rule (permits _ received) wf unused all
  | refreshed mem due => exact restarted _ _ (sendPathDownstream_all rule all _)
  | restarted mem => exact restarted s _ all
  | psbExpired mem => exact rsvpPsbCleanup_all rule wf all mem true
  | @resvRefreshed r mem => exact Node.AllPsbs.congr all (resvRefresh_psbs s r)
  | rsbExpired mem => exact rsvpRsbCleanup_all rule wf all mem true
  | bsbExpired => exact all
  | pathFailed => exact numbered
  | pathAgain mem key => exact sendPathDownstream_all rule numbered _
  | pathStarted absent made =>
    exact originated_all rule numbered made fun fresh => permits _ (unused _ fresh)
  | bypassFailed => exact numbered
  | bypassStarted absent made =>
    exact originated_all rule numbered made fun fresh => permits _ (unused _ fresh)
  | enabled scanned mem tunnel bypass =>
    exact all.modPsb _ fun c memc _ => permits c _ (all c memc) mem bypass
  | triggered =>
    exact foldl_all (fun t p allT => @frrTriggerOne_all env t P rule permits _ allT p) all _
  | reverted =>
    exact foldl_all (fun t p allT => @frrRevertOne_all env t P rule permits _ allT p) all _
  | tornDown scanned =>
    exact rsvpPsbCleanup_all rule wf all (List.mem_of_find?_eq_some scanned) true
  | mbbStarted scanned absent made =>
    exact originated_all rule all made fun fresh =>
      permits _ _ (unused _ fresh) (all _ (List.mem_of_find?_eq_some scanned))

/-- What an event admits, it keeps. -/
theorem Node.step_all (wf : s.Wf) {ev : Event} (admits : ev.Admits P env s) (all : s.AllPsbs P) :
    (s.step env ev).AllPsbs P :=
  Node.step_permits rule wf (admits.permits fun _ => True) (fun _ _ => trivial) all

end Rule

end Rsvp
