import RsvpTe.Rerouting

/-!
# Messages beside LSPs on their bypass

A RESV writes the forwarding entry of its LSP without a look at `frr_active`, and stores a label
that the LSPs of a bypass do not follow.  `ResvClear` says that a RESV which programs something
concerns no LSP on its bypass, and the handlers of RESV and PATH keep such LSPs there if that is so.
-/

namespace Rsvp

open Words

variable {env : Env} {s s' : Node} {info : MessageInfo}

theorem labelsApart_of_sound (sound : s.ledger.Sound) : s.LabelsApart := fun _ memr _ memx =>
  Ledger.Sound.rsb_eq sound memr memx

/-! ## RESV -/

/-- The push entry for `dest` is that of an LSP on its bypass. -/
def Node.PushDiverted (s : Node) (dest : InAddr) : Prop :=
  ∃ b r c x, Routed s b r c x ∧ b.body.frrActive = true ∧ r.body.labelIn = 0 ∧
    r.key.session.destAddr = dest

/-- What the RESV programs for PSB `b` concerns no LSP on its bypass: neither the RSB it is for, nor
the push entry it writes or removes, nor that of the LSP it replaces. -/
structure ResvClear (s : Node) (info : MessageInfo) (b : Psb) (isNew : Bool) : Prop where
  lsp : ∀ p c, ¬ Disturbs s (· = info.key) (· = info.key) p c
  push : b.body.prevHop.neighborAddr = 0 ∨
      isNew = true ∧ b.body.isIngress = true ∧ (labelMgrAlloc s.labels).1 = 0 →
    ¬ s.PushDiverted b.key.session.destAddr
  incumbent : isNew = true → b.body.isMbbPending = true → ∀ old,
    s.rsvpPsbFindById (ntohs b.key.session.tunnelId) b.body.mbbOldLspId = some old →
    ∀ r ∈ s.rsbs, r.key = old.key → s.SparesPush old r

section Resv

variable {b : Psb} {r : Rsb} {isNew : Bool}

/-- RSBs of other keys stay when one is updated. -/
theorem other_of_mem_modify (memr : r ∈ s.rsbs) (key : r.key = info.key) {f : RsbState → RsbState}
    {y : Rsb} (mem : y ∈ s.rsbs.modify r.addr f) : y.key = info.key ∨ y ∈ s.rsbs := by
  rcases Table.mem_modify.mp mem with ⟨old, -⟩ | ⟨z, memz, here, rfl⟩
  · exact .inr old
  · rw [Table.eq_of_addr_eq memz memr here]
    exact .inl key

/-- Only RSBs of the key of the message change, and no entry of an LSP on its bypass. -/
theorem keepsDiverted_of_key (psbs : PsbsTraced s s')
    (rsbs : ∀ y ∈ s'.rsbs, y.key = info.key ∨ y ∈ s.rsbs)
    (clear : ∀ p c, ¬ Disturbs s (· = info.key) (· = info.key) p c)
    (fwd : ∀ p y c x, Routed s p y c x → p.body.frrActive = true → y.key ≠ info.key →
      s'.fwd (Rsb.entryKey y) = s.fwd (Rsb.entryKey y)) : KeepsDiverted s s' := by
  refine keepsDiverted_of psbs (fun y mem => ?_) (fun y mem => ?_) clear
    fun p y c x routed active other _ _ => fwd p y c x routed active other
  · exact (rsbs y mem).imp_right fun old => ⟨y, old, rfl, rfl⟩
  · exact (rsbs y mem).imp_right fun old => ⟨y, old, rfl, rfl, rfl⟩

/-- The entry a RESV writes is that of no other LSP on its bypass. -/
theorem programmed_entry (wf : s.Wf) (sound : s.ledger.Sound) (memr : r ∈ s.rsbs)
    (key : r.key = info.key)
    (push : b.body.prevHop.neighborAddr = 0 → ¬ s.PushDiverted b.key.session.destAddr)
    {f : RsbState → RsbState} (keeps : (f r.body).labelIn = r.body.labelIn) {label : UInt32}
    {labels : LabelMgr} (labelled : Labelled (s.modRsb r.addr f) b (r.update f) label labels)
    {p c : Psb} {y x : Rsb} (routed : Routed s p y c x) (active : p.body.frrActive = true)
    (other : y.key ≠ info.key) :
    Rsb.entryKey y ≠ fwdKey (if b.body.prevHop.neighborAddr = 0 then 0 else label)
      b.key.session.destAddr := by
  intro same
  obtain ⟨labelY, dest⟩ := fwdKey_eq_iff.mp same
  by_cases transit : b.body.prevHop.neighborAddr = 0
  · rw [if_pos transit] at labelY
    exact push transit ⟨p, y, c, x, routed, active, labelY, dest labelY⟩
  · rw [if_neg transit] at labelY
    have pos : label ≠ 0 := labelled.ne_zero (s := s.modRsb r.addr f) wf.labels transit
    cases labelled with
    | kept _ =>
      have same := Ledger.Sound.rsb_eq sound routed.memr memr (labelY ▸ pos) (labelY.trans keeps)
      exact other (same ▸ key)
    | taken _ _ _ takes =>
      refine takes.free ((sound.taken_iff label).mpr ⟨y.addr, pos, y, routed.memr, rfl, labelY⟩)

theorem programmed_keepsDiverted (wf : s.Wf) (sound : s.ledger.Sound) (memr : r ∈ s.rsbs)
    (key : r.key = info.key) (clear : ResvClear s info b isNew) {f : RsbState → RsbState}
    (keeps : (f r.body).labelIn = r.body.labelIn) {label : UInt32} {labels : LabelMgr}
    (labelled : Labelled (s.modRsb r.addr f) b (r.update f) label labels) (out : List Output) :
    KeepsDiverted s ((s.modRsb r.addr f).programmed b (r.update f) label labels out) := by
  have others : ∀ y ∈ ((s.modRsb r.addr f).programmed b (r.update f) label labels out).rsbs,
      y.key = info.key ∨ y ∈ s.rsbs := by
    intro y mem
    change y ∈ (s.rsbs.modify r.addr f).modify r.addr _ at mem
    rw [Table.modify_modify] at mem
    exact other_of_mem_modify memr key mem
  refine keepsDiverted_of_key (.of_same rfl) others clear.lsp
    fun p y c x routed active other => ?_
  exact Function.update_of_ne (programmed_entry wf sound memr key
    (fun zero => clear.push (.inl zero)) keeps labelled routed active other) _ _

/-- Labels stay apart when a RESV takes one. -/
theorem programmed_labelsApart (sound : s.ledger.Sound) (memr : r ∈ s.rsbs)
    {f : RsbState → RsbState} (keeps : (f r.body).labelIn = r.body.labelIn) {label : UInt32}
    {labels : LabelMgr} (labelled : Labelled (s.modRsb r.addr f) b (r.update f) label labels)
    (out : List Output) :
    ((s.modRsb r.addr f).programmed b (r.update f) label labels out).LabelsApart := by
  -- No other RSB has the label.
  have alone : label ≠ 0 → ∀ y ∈ s.rsbs, y.body.labelIn = label → y.addr = r.addr := by
    intro pos y memy labelY
    cases labelled with
    | kept _ =>
      exact congrArg Block.addr
        (Ledger.Sound.rsb_eq sound memy memr (labelY ▸ pos) (labelY.trans keeps))
    | taken _ _ _ takes =>
      exact absurd ((sound.taken_iff label).mpr ⟨y.addr, pos, y, memy, rfl, labelY⟩) takes.free
  have cases : ∀ y ∈ ((s.modRsb r.addr f).programmed b (r.update f) label labels out).rsbs,
      (y ∈ s.rsbs ∧ y.addr ≠ r.addr) ∨ y.addr = r.addr ∧ y.body.labelIn = label := by
    intro y mem
    change y ∈ (s.rsbs.modify r.addr f).modify r.addr _ at mem
    rw [Table.modify_modify] at mem
    rcases Table.mem_modify.mp mem with old | ⟨z, -, here, rfl⟩
    · exact .inl old
    · exact .inr ⟨here, rfl⟩
  intro y memy z memz pos same
  rcases cases y memy with ⟨oldY, awayY⟩ | ⟨hereY, labelY⟩
  · rcases cases z memz with ⟨oldZ, -⟩ | ⟨-, labelZ⟩
    · exact Ledger.Sound.rsb_eq sound oldY oldZ pos same
    · exact absurd (alone (labelZ ▸ same ▸ pos) y oldY (same.trans labelZ)) awayY
  · rcases cases z memz with ⟨oldZ, awayZ⟩ | ⟨hereZ, -⟩
    · exact absurd (alone (labelY ▸ pos) z oldZ (same.symm.trans labelY)) awayZ
    · exact Table.eq_of_addr_eq memy memz (hereY.trans hereZ.symm)

theorem resvFollowUp_keepsDiverted (wf : s.Wf) (apart : s.LabelsApart)
    (refers : s.AllPsbs Psb.Referring) (mem : b ∈ s.psbs) {labelChanged : Bool}
    (incumbent : isNew = true → b.body.isMbbPending = true → ∀ old,
      s.rsvpPsbFindById (ntohs b.key.session.tunnelId) b.body.mbbOldLspId = some old →
      ∀ r ∈ s.rsbs, r.key = old.key → s.SparesPush old r) :
    KeepsDiverted s (resvFollowUp env s b isNew labelChanged) := by
  have cleared : ∀ t : Node, KeepsDiverted t (t.modPsb b.addr fun x =>
      { x with isMbbPending := false, mbbOldLspId := 0 }) := fun t =>
    .modPsb b.addr (fun _ => rfl) fun _ => rfl
  unfold resvFollowUp
  dsimp only
  by_cases bypass : b.body.isBypassTunnel = true ∧ (isNew = true ∨ labelChanged = true)
  · have plain : ¬ (b.body.isMbbPending = true ∧ isNew = true) := by
      intro completes
      rcases completes with ⟨pending, -⟩
      rw [(wf.pending b mem pending).1] at bypass
      exact Bool.false_ne_true bypass.1
    rw [if_pos bypass, if_neg plain]
    exact rsvpFrrAutoAssociateAll_keepsDiverted refers _
  · rw [if_neg bypass]
    split
    · rename_i replaces
      unfold rsvpMbbComplete
      rw [Table.get_of_mem mem]
      dsimp only
      cases scanned : s.rsvpPsbFindById (ntohs b.key.session.tunnelId) b.body.mbbOldLspId with
      | none => exact cleared s
      | some old =>
        have memOld : old ∈ s.psbs := List.mem_of_find?_eq_some scanned
        exact (rsvpPsbCleanup_keepsDiverted wf apart memOld
          (incumbent replaces.2 replaces.1 old scanned) true).trans (cleared _)
    · exact .refl s

/-- The LSP that a pending one replaces is another one. -/
theorem incumbent_key_ne (wf : s.Wf) (mem : b ∈ s.psbs) (pending : b.body.isMbbPending = true)
    {old : Psb} (scanned :
      s.rsvpPsbFindById (ntohs b.key.session.tunnelId) b.body.mbbOldLspId = some old) :
    old.key ≠ b.key := by
  intro same
  have found := List.find?_some scanned
  simp only [decide_eq_true_eq] at found
  rw [same] at found
  exact (wf.pending b mem pending).2 found.2.symm

/-- A RESV that names another label or hop, or a first one. -/
theorem resvProgram_keepsDiverted (wf : s.Wf) (sound : s.ledger.Sound)
    (refers : s.AllPsbs Psb.Referring) (memb : b ∈ s.psbs) (memr : r ∈ s.rsbs)
    (tied : r.body.associatedPsb = some b.addr) (key : r.key = info.key)
    (clear : ResvClear s info b isNew) (labelChanged : Bool) :
    KeepsDiverted s (resvProgram env (s.modRsb r.addr (resvStored info b.body.isIngress)) info b
      (r.update (resvStored info b.body.isIngress)) isNew labelChanged) := by
  have keeps := resvStored_keeps info b.body.isIngress r.body
  have here := s.mem_modRsb memr (resvStored info b.body.isIngress)
  have tied' : (resvStored info b.body.isIngress r.body).associatedPsb = some b.addr :=
    keeps.associatedPsb.trans tied
  have wfU := wf.modRsb memr keeps.associatedPsb
  have keyB : b.key = info.key := (wf.psb_of_rsb memb memr tied).1.trans key
  have stored : ∀ y ∈ (s.modRsb r.addr (resvStored info b.body.isIngress)).rsbs,
      y.key = info.key ∨ y ∈ s.rsbs := fun y mem => other_of_mem_modify memr key mem
  rcases @resvProgram_cases env (s.modRsb r.addr (resvStored info b.body.isIngress)) info b
    (r.update (resvStored info b.body.isIngress)) isNew wf.labels memb here tied' labelChanged
    with ⟨-, bare, failed, out, result⟩ | ⟨label, labels, out, labelled, result⟩
  · rw [result]
    cases isNew with
    | false =>
      rw [if_neg Bool.false_ne_true]
      exact keepsDiverted_of_key (.of_same rfl) stored clear.lsp fun _ _ _ _ _ _ _ => rfl
    | true =>
      rw [if_pos rfl]
      obtain ⟨out', cleaned⟩ := @rsvpRsbCleanup_eq env
        (s.modRsb r.addr (resvStored info b.body.isIngress)) b
        (r.update (resvStored info b.body.isIngress)) memb here tied' false
      have addr : (r.update (resvStored info b.body.isIngress)).addr = r.addr := rfl
      rw [addr] at cleaned ⊢
      rw [cleaned]
      have cut : PsbsTraced s (s.modPsb b.addr fun x => { x with associatedRsb := none }) :=
        .modPsb b.addr fun _ _ _ active => ⟨active, rfl⟩
      refine keepsDiverted_of_key ⟨cut.active, cut.placed⟩
        (fun y mem => stored y (Table.mem_unlink.mp mem).1) clear.lsp ?_
      intro p y c x routed active _
      -- Without a label the release removes at most the push entry.
      change (s.modRsb r.addr _).releasedFwd b _ (Rsb.entryKey y) = _
      unfold Node.releasedFwd
      rw [bare]
      split
      · rfl
      · rename_i owns
        have ingress : b.body.isIngress = true :=
          Bool.eq_true_of_not_eq_false fun transit => owns ⟨rfl, transit⟩
        refine Function.update_of_ne (fun same => ?_) _ _
        obtain ⟨labelY, dest⟩ := fwdKey_eq_iff.mp same
        exact clear.push (.inr ⟨rfl, ingress, failed⟩)
          ⟨p, y, c, x, routed, active, labelY, dest labelY⟩
  · rw [result]
    have programmed := programmed_keepsDiverted wf sound memr key clear keeps.labelIn labelled out
    refine programmed.trans (resvFollowUp_keepsDiverted (labelled.wf_programmed wfU here out)
      (programmed_labelsApart sound memr keeps.labelIn labelled out) refers memb ?_)
    intro new pending old scanned ro memRo keyRo
    change ro ∈ (s.rsbs.modify r.addr _).modify r.addr _ at memRo
    rw [Table.modify_modify] at memRo
    rcases other_of_mem_modify memr key memRo with same | oldRo
    · exact absurd (keyRo.symm.trans (same.trans keyB.symm)) (incumbent_key_ne wf memb pending scanned)
    · exact (clear.incumbent new pending old scanned ro oldRo keyRo).congr programmed rfl rfl

/-- The RSB of the LSP takes its incoming label when the RESV is passed on. -/
structure TakesLabel (s : Node) (b : Psb) (r : Rsb) : Prop where
  bare : r.body.labelIn = 0
  transit : b.body.prevHop.neighborAddr ≠ 0
  foreign : b.body.isIngress = false
  available : (labelMgrAlloc s.labels).1 ≠ 0

/-- A RESV is passed on, with a label that its RSB may take now. -/
theorem resvRefresh_keepsDiverted (pool : s.labels.Wf) (memb : b ∈ s.psbs) (memr : r ∈ s.rsbs)
    (tied : r.body.associatedPsb = some b.addr)
    (clear : TakesLabel s b r → ∀ p c, ¬ Disturbs s (· = r.key) (fun _ => False) p c) :
    KeepsDiverted s (resvRefresh env s r) := by
  rcases @resvRefresh_cases env s b r pool memb memr tied with
    ⟨-, out, sent⟩ | ⟨⟨bare, transit, foreign⟩, label, labels, out, allocated, takes, sent⟩
  · rw [sent]
    exact .of_same rfl rfl rfl
  · rw [sent]
    have available : (labelMgrAlloc s.labels).1 ≠ 0 := by
      rw [allocated]
      exact pool.ne_zero takes.inRange
    refine keepsDiverted_of (.of_same rfl) (fun y mem => ?_) (fun y mem => ?_)
      (clear ⟨bare, transit, foreign, available⟩) fun _ _ _ _ _ _ _ _ _ => rfl
    · rcases Table.mem_modify.mp mem with ⟨old, -⟩ | ⟨z, memz, here, rfl⟩
      · exact .inr ⟨y, old, rfl, rfl⟩
      · have same : z = r := Table.eq_of_addr_eq memz memr here
        subst same
        exact .inl rfl
    · rcases Table.mem_modify.mp mem with ⟨old, -⟩ | ⟨z, memz, -, rfl⟩
      · exact .inr ⟨y, old, rfl, rfl, rfl⟩
      · exact .inr ⟨z, memz, rfl, rfl, rfl⟩

theorem resvArrived_keepsDiverted (wf : s.Wf) (sound : s.ledger.Sound)
    (refers : s.AllPsbs Psb.Referring) (memb : b ∈ s.psbs) (memr : r ∈ s.rsbs)
    (tied : r.body.associatedPsb = some b.addr) (key : r.key = info.key)
    (clear : resvBlockaded s info r.body = false → ResvChanges info isNew r.body →
      ResvClear s info b isNew)
    (quiet : resvBlockaded s info r.body = false → ¬ ResvChanges info isNew r.body →
      TakesLabel s b r → ∀ p c, ¬ Disturbs s (· = info.key) (fun _ => False) p c) :
    KeepsDiverted s (resvArrived env s info r.addr isNew) := by
  cases blockaded : resvBlockaded s info r.body with
  | true =>
    rw [resvArrived_blockaded memr tied key blockaded]
    split
    · have cut : PsbsTraced s (s.modPsb b.addr fun x => { x with associatedRsb := none }) :=
        .modPsb b.addr fun _ _ _ active => ⟨active, rfl⟩
      exact .of_psbs ⟨cut.active, cut.placed⟩ rfl fun y mem =>
        ⟨y, (Table.mem_unlink.mp mem).1, rfl, rfl, rfl, rfl⟩
    · exact .modRsb s r.addr (fun x => (resvUpdate_keeps info x).1.labelIn)
        (fun x => (resvUpdate_keeps info x).2.1) fun x => (resvUpdate_keeps info x).2.2
  | false =>
    have keeps := resvStored_keeps info b.body.isIngress r.body
    have here := s.mem_modRsb memr (resvStored info b.body.isIngress)
    rw [resvArrived_admitted memb memr tied key blockaded]
    split
    · rename_i changes
      exact resvProgram_keepsDiverted wf sound refers memb memr tied key (clear blockaded changes) _
    · rename_i unchanged
      have same := repeats_of_not_resvChanges unchanged
      have stored : KeepsDiverted s (s.modRsb r.addr (resvStored info b.body.isIngress)) := by
        refine keepsDiverted_of (.of_same rfl) (fun y mem => ?_) (fun y mem => ?_)
          not_disturbs_nothing fun _ _ _ _ _ _ _ _ _ => rfl
        · rcases Table.mem_modify.mp mem with ⟨old, -⟩ | ⟨z, memz, -, rfl⟩
          · exact .inr ⟨y, old, rfl, rfl⟩
          · exact .inr ⟨z, memz, rfl, (resvStored_keeps info _ z.body).labelIn.symm⟩
        · rcases Table.mem_modify.mp mem with ⟨old, -⟩ | ⟨z, memz, site, rfl⟩
          · exact .inr ⟨y, old, rfl, rfl, rfl⟩
          · rw [Table.eq_of_addr_eq memz memr site]
            exact .inr ⟨r, memr, rfl, same.1.symm, same.2.symm⟩
      refine stored.trans (@resvRefresh_keepsDiverted env
        (s.modRsb r.addr (resvStored info b.body.isIngress)) b
        ⟨r.addr, r.key, resvStored info b.body.isIngress r.body⟩ wf.labels memb here
        (keeps.associatedPsb.trans tied) fun takes p c disturbs => ?_)
      have old : ∀ y ∈ (s.modRsb r.addr (resvStored info b.body.isIngress)).rsbs,
          ∃ z ∈ s.rsbs, z.key = y.key := by
        intro y mem
        rcases Table.mem_modify.mp mem with ⟨old, -⟩ | ⟨z, memz, -, rfl⟩
        · exact ⟨y, old, rfl⟩
        · exact ⟨z, memz, rfl⟩
      dsimp only at disturbs
      rw [key] at disturbs
      have traced : PsbsTraced s (s.modRsb r.addr (resvStored info b.body.isIngress)) :=
        .of_same rfl
      obtain ⟨p₀, c₀, before⟩ := disturbs.back traced (fun y mem => .inr (old y mem))
        fun y mem => .inr (old y mem)
      exact quiet blockaded unchanged ⟨keeps.labelIn.symm.trans takes.bare, takes.transit,
        takes.foreign, takes.available⟩ p₀ c₀ before

end Resv

/-- The RESV, if it is accepted, programs nothing that concerns an LSP on its bypass, and gives none
a label. -/
structure MessageInfo.ResvSpares (s : Node) (info : MessageInfo) : Prop where
  stored : rsvpValidateResvMessage s info = none →
    ∀ b ∈ s.psbs, b.key = info.key → ∀ r ∈ s.rsbs, r.key = info.key →
    resvBlockaded s info r.body = false → ResvChanges info false r.body →
    ResvClear s info b false
  first : rsvpValidateResvMessage s info = none →
    ∀ b ∈ s.psbs, b.key = info.key → s.rsvpRsbFind info.key = none →
    resvBlockaded s info (newResvState b) = false → ResvClear s info b true
  passed : rsvpValidateResvMessage s info = none →
    ∀ b ∈ s.psbs, b.key = info.key → ∀ r ∈ s.rsbs, r.key = info.key →
    resvBlockaded s info r.body = false → ¬ ResvChanges info false r.body → TakesLabel s b r →
    ∀ p c, ¬ Disturbs s (· = info.key) (fun _ => False) p c

section NewRsb

variable {b : Psb} {r : Ptr} {rsbs : Table PathKey RsbState}

theorem withRsb_traced (s : Node) (b : Psb) (r : Ptr) (rsbs : Table PathKey RsbState) :
    PsbsTraced s (s.withRsb b r rsbs) := by
  have linked : PsbsTraced s (s.modPsb b.addr fun x => { x with associatedRsb := some r }) :=
    .modPsb b.addr fun _ _ _ active => ⟨active, rfl⟩
  exact ⟨linked.active, linked.placed⟩

/-- What a first RESV concerns is the same once its RSB is there. -/
theorem ResvClear.withRsb (wf : s.Wf) (memb : b ∈ s.psbs) (key : b.key = info.key)
    (created : s.rsbs.create rsvpKeyHash env.rsbMem b.key .zero = some (r, rsbs))
    (clear : ResvClear s info b true) :
    KeepsDiverted s (s.withRsb b r rsbs) ∧
      ResvClear (s.withRsb b r rsbs) info
        ⟨b.addr, b.key, { b.body with associatedRsb := some r }⟩ true := by
  have traced := withRsb_traced s b r rsbs
  have old : ∀ y ∈ (s.withRsb b r rsbs).rsbs, y.key = info.key ∨ y ∈ s.rsbs := by
    intro y mem
    rcases (mem_withRsb created).mp mem with rfl | old
    · exact .inl key
    · exact .inr old
  have keeps : KeepsDiverted s (s.withRsb b r rsbs) :=
    keepsDiverted_of_key traced old clear.lsp fun _ _ _ _ _ _ _ => rfl
  refine ⟨keeps, fun p' c' disturbs => ?_, fun due pushed => ?_, ?_⟩
  · have known : ∀ y ∈ (s.withRsb b r rsbs).rsbs, y.key = info.key ∨ ∃ z ∈ s.rsbs, z.key = y.key :=
      fun y mem => (old y mem).imp_right fun mem => ⟨y, mem, rfl⟩
    obtain ⟨p, c, before⟩ := disturbs.back traced known known
    exact clear.lsp p c before
  · obtain ⟨p', y', c', x', routed', active', label', dest'⟩ := pushed
    obtain ⟨p, y, c, x, routed, active, ⟨keyY, label⟩, -, -⟩ := keeps p' y' c' x' routed' active'
    exact clear.push due ⟨p, y, c, x, routed, active, label.trans label',
      (congrArg (·.session.destAddr) keyY).trans dest'⟩
  · intro new pending old' scanned y memy keyY
    -- The scan reads only keys.
    have moved := rsvpPsbFindById_modPsb s b.addr (fun x => { x with associatedRsb := some r })
      (ntohs b.key.session.tunnelId) b.body.mbbOldLspId
    have scannedT : (s.modPsb b.addr fun x => { x with associatedRsb := some r }).rsvpPsbFindById
        (ntohs b.key.session.tunnelId) b.body.mbbOldLspId = some old' := scanned
    rw [moved] at scannedT
    obtain ⟨old₀, found, image⟩ := Option.map_eq_some_iff.mp scannedT
    have same : old'.key = old₀.key ∧ old'.body.isIngress = old₀.body.isIngress := by
      rw [← image]
      split <;> exact ⟨rfl, rfl⟩
    have other := incumbent_key_ne wf memb pending found
    rcases (mem_withRsb created).mp memy with rfl | oldY
    · exact absurd (keyY.trans same.1).symm other
    · exact (clear.incumbent new pending old₀ found y oldY (keyY.trans same.1)).congr keeps same.2
        same.1

end NewRsb

theorem handleResvMessage_keepsDiverted (wf : s.Wf) (sound : s.ledger.Sound)
    (refers : s.AllPsbs Psb.Referring) (spares : info.ResvSpares s) :
    KeepsDiverted s (handleResvMessage env s info) := by
  have turn := @handleResvMessage_turn env s info wf
  generalize handleResvMessage env s info = t at turn ⊢
  cases turn with
  | refused sent _ => exact .of_same rfl rfl rfl
  | @found b r valid memb keyB memr keyR tied =>
    exact resvArrived_keepsDiverted wf sound refers memb memr tied keyR
      (spares.stored valid b memb keyB r memr keyR) (spares.passed valid b memb keyB r memr keyR)
  | noMemory => exact .refl s
  | @first b r rsbs valid first =>
    cases blockaded : resvBlockaded s info (newResvState b) with
    | true =>
      rw [first.dropped blockaded]
      have cut : PsbsTraced (s.withRsb b r rsbs) ((s.withRsb b r rsbs).modPsb b.addr fun x =>
          { x with associatedRsb := none }) :=
        .modPsb b.addr fun _ _ _ active => ⟨active, rfl⟩
      refine .of_psbs ((withRsb_traced s b r rsbs).trans ⟨cut.active, cut.placed⟩) rfl
        fun y mem => ?_
      obtain ⟨memy, away⟩ := Table.mem_unlink.mp mem
      rcases (mem_withRsb first.created).mp memy with rfl | old
      · exact absurd rfl away
      · exact ⟨y, old, rfl, rfl, rfl, rfl⟩
    | false =>
      have refersT : (s.withRsb b r rsbs).AllPsbs Psb.Referring :=
        refers.modPsb b.addr fun c memc _ => refers c memc
      obtain ⟨keeps, clear⟩ := (spares.first valid b first.memb first.key first.absent
        blockaded).withRsb wf first.memb first.key first.created
      exact keeps.trans (@resvArrived_keepsDiverted env (s.withRsb b r rsbs) info (b.linked r)
        (b.newRsb r) true (first.does.wf wf) (first.sound wf sound) refersT first.mem_linked
        first.mem_new rfl first.key (fun _ _ => clear) fun _ unchanged => absurd (.inl rfl) unchanged)

/-! ## PATH -/

theorem sendPathDownstream_keepsDiverted (s : Node) (p : Ptr) :
    KeepsDiverted s (sendPathDownstream env s p) := by
  cases found : s.psbs.get p with
  | none =>
    rw [sendPathDownstream, found]
    exact .refl s
  | some b =>
    obtain ⟨mem, rfl⟩ := Table.get_eq_some.mp found
    obtain ⟨out, sent⟩ := @sendPathDownstream_leaves env s b mem
    have moved : PsbsTraced s (s.modPsb b.addr fun x =>
        { x with
          ero := b.body.ero.popLocal env.toHal
          ifindexOut := leavesBy env b.key b.body }) :=
      .modPsb b.addr fun _ _ _ active => ⟨active, rfl⟩
    rw [sent]
    exact .of_same_rsbs ⟨moved.active, moved.placed⟩ rfl rfl

/-- Passing a RESV on touches its RSB, the label pool and the log. -/
theorem sendResvUpstream_eq (s : Node) (r : Ptr) :
    ∃ f labels out, sendResvUpstream env s r =
      { s with rsbs := s.rsbs.modify r f, labels := labels, out := out } := by
  have sent : ∀ (t : Node) (b : Psb) (x : Rsb), ∃ out, sendResv env t b x = { t with out := out } := by
    intro t b x
    unfold sendResv
    obtain ⟨sent, eq⟩ := rsvpSendPacket_out _ _ _ _
    exact ⟨_, eq _⟩
  have kept : ∀ out, ∃ f labels out', ({ s with out := out } : Node) =
      { s with rsbs := s.rsbs.modify r f, labels := labels, out := out' } := fun out =>
    ⟨id, s.labels, out, by rw [Table.modify_id]⟩
  unfold sendResvUpstream
  split
  · exact kept s.out
  · split
    · exact kept s.out
    · rename_i b _
      split
      · dsimp only
        split
        · exact ⟨_, _, s.out, rfl⟩
        · obtain ⟨out, eq⟩ := sent _ b _
          rw [eq]
          exact ⟨fun x => { x with labelIn := (labelMgrAlloc s.labels).1 },
            (labelMgrAlloc s.labels).2, out, rfl⟩
      · obtain ⟨out, eq⟩ := sent s b _
        rw [eq]
        exact kept out

/-- At the egress a first PATH makes an RSB, which must not be that of an LSP on its bypass or of its
tunnel. -/
theorem pathEgress_keepsDiverted (p : Ptr)
    (clear : s.rsvpRsbFind info.key = none →
      ∀ b c, ¬ Disturbs s (· = info.key) (· = info.key) b c) :
    KeepsDiverted s (pathEgress env s info p) := by
  unfold pathEgress
  dsimp only
  split
  · exact .modRsb s _ (fun _ => rfl) (fun _ => rfl) fun _ => rfl
  · rename_i absent
    split
    · exact .refl s
    · rename_i r t made
      obtain ⟨rsbs, created, rfl⟩ := Node.rsvpRsbCreate_eq_some made
      have linked : PsbsTraced s (s.modPsb p fun x => { x with associatedRsb := some r }) :=
        .modPsb p fun _ _ _ active => ⟨active, rfl⟩
      obtain ⟨f, labels, out, sent⟩ := @sendResvUpstream_eq env _ r
      rw [sent]
      refine keepsDiverted_of_key ⟨linked.active, linked.placed⟩ (fun y mem => ?_) (clear absent)
        fun _ _ _ _ _ _ _ => rfl
      dsimp only [Node.modRsb, Node.modPsb] at mem
      rw [Table.modify_modify] at mem
      rcases (Table.mem_modify_create created).mp mem with rfl | old
      · exact .inl rfl
      · exact .inr old

theorem referring_rule : PsbRule Psb.Referring where
  pop := fun _ _ refers => refers
  out := fun _ _ refers => refers
  spare := fun _ _ _ refers => refers

theorem pathTransit_keepsDiverted (refers : s.AllPsbs Psb.Referring) (p : Ptr) (isNew : Bool) :
    KeepsDiverted s (pathTransit env s info p isNew) := by
  unfold pathTransit
  split
  · exact .refl s
  · rename_i b found
    obtain ⟨mem, rfl⟩ := Table.get_eq_some.mp found
    have popped : KeepsDiverted s (s.modPsb b.addr fun x =>
        { x with ero := b.body.ero.popLocal env.toHal }) := .modPsb b.addr (fun _ => rfl) fun _ => rfl
    dsimp only [resolvePathNextHop]
    split
    · obtain ⟨sent, eq⟩ := sendPathErr_out env info protoErrRoutingProblem 0
      rw [eq]
      have told : ∀ out, KeepsDiverted s { (s.modPsb b.addr fun x =>
          { x with ero := b.body.ero.popLocal env.toHal } : Node) with out := out } := fun _ =>
        popped.trans (.of_same rfl rfl rfl)
      split
      · exact (told _).trans (rsvpPsbDelete_keepsDiverted _ b.addr)
      · exact told _
    · have sent := popped.trans (@sendPathDownstream_keepsDiverted env _ b.addr)
      have refersT := @sendPathDownstream_all env _ _ referring_rule
        (referring_rule.popped refers mem env.toHal) b.addr
      split
      · exact sent
      · split
        · exact sent.trans (rsvpFrrAutoAssociate_keepsDiverted refersT b.addr).1
        · exact sent

theorem pathArrived_keepsDiverted (refers : s.AllPsbs Psb.Referring) (p : Ptr) (isNew : Bool)
    (clear : env.isLocalAddr info.key.session.destAddr = true → s.rsvpRsbFind info.key = none →
      ∀ b c, ¬ Disturbs s (· = info.key) (· = info.key) b c) :
    KeepsDiverted s (pathArrived env s info p isNew) := by
  have active : ∀ x, (pathUpdate env info x).frrActive = x.frrActive := by
    intro x
    rw [pathUpdate_eq]
  have bypass : ∀ x, (pathUpdate env info x).bypassPsb = x.bypassPsb := fun x =>
    (pathUpdate_spared env info x).bypassPsb
  have updated : KeepsDiverted s (s.modPsb p (pathUpdate env info)) := .modPsb p active bypass
  have refersU : (s.modPsb p (pathUpdate env info)).AllPsbs Psb.Referring := by
    refine refers.modPsb p fun c memc _ on => ?_
    exact (bypass c.body).symm ▸ refers c memc ((active c.body).symm.trans on)
  unfold pathArrived
  dsimp only
  split
  · rename_i egress
    refine updated.trans (pathEgress_keepsDiverted p fun absent b c disturbs => ?_)
    have traced : PsbsTraced s (s.modPsb p (pathUpdate env info)) :=
      .modPsb p fun x _ _ on => ⟨(active x.body).symm.trans on, bypass x.body⟩
    obtain ⟨b₀, c₀, before⟩ := disturbs.back traced (fun y mem => .inr ⟨y, mem, rfl⟩)
      fun y mem => .inr ⟨y, mem, rfl⟩
    exact clear egress absent b₀ c₀ before
  · split
    · exact updated
    · exact updated.trans (pathTransit_keepsDiverted refersU p isNew)

/-- At the egress, a first PATH is not for an LSP on its bypass or its tunnel, and its PSB is not put
where the bypass reference of such an LSP leads. -/
def MessageInfo.PathSpares (env : Env) (s : Node) (info : MessageInfo) : Prop :=
  env.isLocalAddr info.key.session.destAddr = true → s.rsvpRsbFind info.key = none →
    (∀ b c, ¬ Disturbs s (· = info.key) (· = info.key) b c) ∧
    (s.rsvpPsbFind info.key = none → ∀ b ∈ s.psbs, b.body.frrActive = true →
      b.body.bypassPsb = env.psbMem → ∀ r ∈ s.rsbs, r.key ≠ b.key)

section NewPsb

variable {key : PathKey} {mem : Option Ptr} {p : Ptr} {psbs : Table PathKey PsbState}
  {f : PsbState → PsbState} (fresh : ∀ b ∈ s.psbs, b.key ≠ key)
  (created : s.psbs.create rsvpKeyHash mem key .zero = some (p, psbs))
  (inactive : (f .zero).frrActive = false)
include fresh created inactive

/-- A new PSB has no RSB and is not active. -/
theorem created_keepsDiverted (wf : s.Wf) :
    KeepsDiverted s { s with psbs := psbs.modify p f } := by
  intro b r c x routed active
  have oldB : b ∈ s.psbs := by
    rcases (Table.mem_modify_create created).mp routed.memb with rfl | old
    · exact absurd (inactive.symm.trans active) Bool.false_ne_true
    · exact old
  have oldC : c ∈ s.psbs := by
    rcases (Table.mem_modify_create created).mp routed.memc with rfl | old
    · obtain ⟨d, memd, keyD, -⟩ := wf.owned x routed.memx
      exact absurd (keyD.trans routed.keyX) (fresh d memd)
    · exact old
  exact ⟨b, r, c, x, ⟨oldB, routed.memr, routed.keyR, oldC, routed.bypass, routed.memx,
    routed.keyX⟩, active, ⟨rfl, rfl⟩, ⟨rfl, rfl, rfl⟩, rfl⟩

/-- It can only stand in for a tunnel that is gone. -/
theorem created_not_disturbs
    (away : ∀ b ∈ s.psbs, b.body.frrActive = true → b.body.bypassPsb = mem →
      ∀ r ∈ s.rsbs, r.key ≠ b.key) (b c : Psb) :
    ¬ Disturbs { s with psbs := psbs.modify p f } (· = key) (· = key) b c := by
  intro disturbs
  have oldB : b ∈ s.psbs := by
    rcases (Table.mem_modify_create created).mp disturbs.memb with rfl | old
    · exact absurd (inactive.symm.trans disturbs.active) Bool.false_ne_true
    · exact old
  have keyB := fresh b oldB
  rcases (Table.mem_modify_create created).mp disturbs.memc with rfl | oldC
  · obtain ⟨r, memr, keyR⟩ := disturbs.lsp.resolve_left keyB
    refine away b oldB disturbs.active ?_ r memr keyR
    rw [disturbs.bypass, (Table.create_eq_some created).1]
  · exact disturbs.concerned.elim keyB (fresh c oldC)

end NewPsb

theorem handlePathMessage_keepsDiverted (wf : s.Wf) (refers : s.AllPsbs Psb.Referring)
    (spares : info.PathSpares env s) : KeepsDiverted s (handlePathMessage env s info) := by
  unfold handlePathMessage
  dsimp only
  split
  · obtain ⟨sent, eq⟩ := sendPathErr_out env info _ _
    rw [eq]
    exact .of_same rfl rfl rfl
  · split
    · exact pathArrived_keepsDiverted refers _ false fun egress absent => (spares egress absent).1
    · rename_i absent
      split
      · exact .refl s
      · rename_i p t made
        obtain ⟨psbs, created, rfl⟩ := Node.rsvpPsbCreate_eq_some made
        have fresh := Table.find_eq_none.mp absent
        have new := created_keepsDiverted (f := fun b => { b with refreshMs := rsvpRefreshMs })
          fresh created rfl wf
        have refersT := refers.create (f := fun b => { b with refreshMs := rsvpRefreshMs }) created
          (fun active => by cases active)
        refine new.trans (@pathArrived_keepsDiverted env (s.withPsb p psbs) info refersT p true
          fun egress missing b c => ?_)
        exact created_not_disturbs fresh created rfl ((spares egress missing).2 absent) b c

end Rsvp
