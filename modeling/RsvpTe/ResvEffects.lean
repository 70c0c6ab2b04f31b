import RsvpTe.HandlerEffects

/-!
# The actions of a RESV

The RESV handler is the one with the most outcomes: it may create and reject an RSB, take a
label, program the forwarding plane, arm protection and complete a make-before-break.  The
guards of the outcomes that endanger an invariant are stated on the state before the RESV:
`resvAdvertises` (a label is taken without an entry for it) and `mbbCompletes` (an incumbent is
torn down).
-/

namespace Rsvp

open Words

variable {env : Env} {ok : Act → Prop} {s : Node} {info : MessageInfo}

/-- The blockade test of a RESV, for an RSB that holds `rsb`. -/
def resvBlockaded (s : Node) (info : MessageInfo) (rsb : RsbState) : Bool :=
  rsvpIsBlockaded s ⟨0, info.key, resvUpdate info rsb⟩

/-- A RESV that changes nothing but finds its RSB without a label: a label is allocated for the
refresh upstream. -/
structure ResvAdvertises (s : Node) (info : MessageInfo) (b : Psb) (r : Rsb) : Prop where
  bare : r.body.labelIn = 0
  sameLabel : info.labelValue = r.body.labelOut
  sameHop : info.hop.neighborAddr = r.body.nextHop.neighborAddr
  admitted : resvBlockaded s info r.body = false
  prevHop : b.body.prevHop.neighborAddr ≠ 0
  transit : b.body.isIngress = false
  label : (labelMgrAlloc s.labels).1 ≠ 0

/-- The first RESV of a pending PSB that gets as far as the end of the handler. -/
structure MbbCompletes (env : Env) (s : Node) (info : MessageInfo) (b : Psb) : Prop where
  valid : rsvpValidateResvMessage s info = none
  pending : b.body.isMbbPending = true
  first : s.rsvpRsbFind info.key = none
  memory : s.rsvpRsbCreate env info.key ≠ none
  admitted : resvBlockaded s info .zero = false
  label : b.body.prevHop.neighborAddr ≠ 0 → (labelMgrAlloc s.labels).1 ≠ 0

/-- What a RESV may do. -/
structure ResvOk (ok : Act → Prop) (env : Env) (s : Node) (info : MessageInfo) : Prop where
  benign : ∀ act, act.Benign → ok act
  newRsb : ok (.newRsb info.key)
  store : ok (.store info.key info.labelValue)
  swap : ok (.swap info.key info.labelValue (ntohl info.hop.logicalInterface))
  install : ok (.install info.key info.labelValue (ntohl info.hop.logicalInterface))
  resv : ok (.resv info.key)
  reject : s.rsvpRsbFind info.key = none →
    s.rsvpBsbFind info.key ≠ none ∨ (labelMgrAlloc s.labels).1 = 0 → ok (.dropRsb info.key 0)
  advertise : ∀ b r, s.rsvpPsbFind info.key = some b → s.rsvpRsbFind info.key = some r →
    ResvAdvertises s info b r → ok (.advertise info.key)
  arm : ∀ b, s.rsvpPsbFind info.key = some b → b.body.isBypassTunnel = true → ok .arm
  mbb : ∀ b old, s.rsvpPsbFind info.key = some b → MbbCompletes env s info b →
    s.rsvpPsbFindById (ntohs b.key.session.tunnelId) b.body.mbbOldLspId = some old →
    (∀ label, ok (.dropRsb old.key label)) ∧ ok (.dropPsb old.addr)

/-! ## Programming -/

theorem resvUpdate_keeps (info : MessageInfo) (rsb : RsbState) :
    rsb.Keeps (resvUpdate info rsb) ∧ (resvUpdate info rsb).labelOut = rsb.labelOut ∧
      (resvUpdate info rsb).nextHop = rsb.nextHop := by
  unfold resvUpdate
  cases info.objs .timeValues <;> cases info.objs .flowspec <;> cases info.objs .style <;>
    exact ⟨⟨rfl, rfl⟩, rfl, rfl⟩

/-- Only the flowspec of an RSB enters the blockade test. -/
theorem resvBlockaded_congr (s : Node) (info : MessageInfo) {a b : RsbState}
    (same : a.flowspec = b.flowspec) : resvBlockaded s info a = resvBlockaded s info b := by
  have updated : (resvUpdate info a).flowspec = (resvUpdate info b).flowspec := by
    unfold resvUpdate
    cases info.objs .timeValues <;> cases info.objs .flowspec <;> cases info.objs .style <;>
      first | exact same | rfl
  rw [resvBlockaded, resvBlockaded, rsvpIsBlockaded, rsvpIsBlockaded]
  simp only [updated]

theorem sendResvUpstream_psbs (s : Node) (r : Ptr) : (sendResvUpstream env s r).psbs = s.psbs := by
  have sent : ∀ (t : Node) (b : Psb) (x : Rsb), (sendResv env t b x).psbs = t.psbs := by
    intro t b x
    unfold sendResv
    rcases rsvpSendPacket_cases _ _ _ _ _ with same | sent
    · rw [same]
    · rw [sent]
      rfl
  unfold sendResvUpstream
  split
  · rfl
  · split
    · rfl
    · split
      · simp only
        split
        · rfl
        · exact sent _ _ _
      · exact sent _ _ _

/-- The end of the handler: a bypass that came up, or a make-before-break, but never both. -/
theorem resvFollowUp_runs (benign : ∀ act, act.Benign → ok act) (wf : s.Wf) {b : Psb}
    (mem : b ∈ s.psbs) {isNew labelChanged : Bool} (arm : b.body.isBypassTunnel = true → ok .arm)
    (mbb : b.body.isMbbPending = true → isNew = true → ∀ old,
      s.rsvpPsbFindById (ntohs b.key.session.tunnelId) b.body.mbbOldLspId = some old →
        (∀ label, ok (.dropRsb old.key label)) ∧ ok (.dropPsb old.addr)) :
    Runs env.toHal ok s (resvFollowUp env s b isNew labelChanged) := by
  unfold resvFollowUp
  simp only
  by_cases bypass : b.body.isBypassTunnel = true
  · have settled : ¬ (b.body.isMbbPending = true ∧ isNew = true) := by
      rintro ⟨waits, -⟩
      rw [(wf.pending b mem waits).1] at bypass
      cases bypass
    rw [if_neg settled]
    split
    · exact rsvpFrrAutoAssociateAll_runs (arm bypass) s _
    · exact .refl s
  · have plain : ¬ (b.body.isBypassTunnel = true ∧ (isNew = true ∨ labelChanged = true)) :=
      fun due => bypass due.1
    rw [if_neg plain]
    split
    · rename_i due
      exact rsvpMbbComplete_runs benign wf mem (mbb due.1 due.2)
    · exact .refl s

/-- What `resvProgram` may do, for an RSB `r` of PSB `b`. -/
structure ProgramOk (ok : Act → Prop) (s : Node) (info : MessageInfo) (b : Psb) (r : Rsb)
    (isNew : Bool) : Prop where
  benign : ∀ act, act.Benign → ok act
  swap : ok (.swap r.key r.body.labelOut (ntohl r.body.nextHop.logicalInterface))
  install : ok (.install r.key r.body.labelOut (ntohl r.body.nextHop.logicalInterface))
  resv : ok (.resv r.key)
  reject : isNew = true → (labelMgrAlloc s.labels).1 = 0 → ok (.dropRsb r.key 0)
  arm : b.body.isBypassTunnel = true → ok .arm
  mbb : b.body.isMbbPending = true → isNew = true →
    (b.body.prevHop.neighborAddr ≠ 0 → r.body.labelIn = 0 → (labelMgrAlloc s.labels).1 ≠ 0) →
    ∀ old, s.rsvpPsbFindById (ntohs b.key.session.tunnelId) b.body.mbbOldLspId = some old →
      (∀ label, ok (.dropRsb old.key label)) ∧ ok (.dropPsb old.addr)

/-- After the entry of an RSB with a label is installed the RESV goes upstream and the handler
ends. -/
theorem resvPassedOn_runs (benign : ∀ act, act.Benign → ok act) (wf : s.Wf) {b : Psb} {r : Rsb}
    (memb : b ∈ s.psbs) (memr : r ∈ s.rsbs) (resv : ok (.resv r.key)) (label : r.body.labelIn ≠ 0)
    {isNew labelChanged : Bool} (arm : b.body.isBypassTunnel = true → ok .arm)
    (mbb : b.body.isMbbPending = true → isNew = true → ∀ old,
      s.rsvpPsbFindById (ntohs b.key.session.tunnelId) b.body.mbbOldLspId = some old →
        (∀ label, ok (.dropRsb old.key label)) ∧ ok (.dropPsb old.addr)) :
    Runs env.toHal ok s
      (resvFollowUp env (sendResvUpstream env s r.addr) b isNew labelChanged) := by
  have sent : Runs env.toHal ok s (sendResvUpstream env s r.addr) :=
    sendResvUpstream_runs benign wf memr resv fun bare _ => absurd bare label
  have still := @sendResvUpstream_psbs env s r.addr
  refine sent.trans (resvFollowUp_runs benign (sent.wf wf) (still ▸ memb) arm ?_)
  intro waits new old scanned
  rw [Node.rsvpPsbFindById, still] at scanned
  exact mbb waits new old scanned

theorem resvProgram_runs {b : Psb} {r : Rsb} {isNew labelChanged : Bool}
    (allowed : ProgramOk ok s info b r isNew) (wf : s.Wf) (memb : b ∈ s.psbs) (memr : r ∈ s.rsbs)
    (key : b.key = r.key) :
    Runs env.toHal ok s (resvProgram env s info b r isNew labelChanged) := by
  unfold resvProgram
  simp only
  split
  · split
    · rename_i bare
      rcases labelMgrAlloc_cases wf.labels with none | ⟨label, labels, some, takes⟩
      · simp only [none, if_true]
        have does : Does env.toHal .tuneRsb s (s.modRsb r.addr fun x => { x with labelIn := 0 }) :=
          .tuneRsb memr ⟨bare.symm, rfl⟩ rfl
        have here := s.mem_modRsb memr fun x => { x with labelIn := 0 }
        have labelled := Runs.one (allowed.benign .tuneRsb trivial) does
        split
        · rename_i new
          have dropped := @rsvpRsbCleanup_runs env ok _ allowed.benign (does.wf wf) _ here
            (allowed.reject new (congrArg Prod.fst none)) false
          exact (labelled.trans dropped).trans (sendResvErr_runs allowed.benign info _ _)
        · exact labelled.trans (sendResvErr_runs allowed.benign info _ _)
      · have pos : label ≠ 0 := wf.labels.ne_zero takes.inRange
        simp only [some, if_neg pos]
        have does : Does env.toHal (.swap r.key r.body.labelOut
            (ntohl r.body.nextHop.logicalInterface)) s
            (({ s with labels := labels }.modRsb r.addr fun x => { x with labelIn := label }
              ).halMplsInstall label r.body.labelOut (ntohl r.body.nextHop.logicalInterface)
                r.body.nextHop.neighborAddr b.key.session.destAddr) := by
          rw [key]
          exact .swap memr bare takes
        refine .trans (.one allowed.swap does) ?_
        have here := Node.mem_modRsb { s with labels := labels } memr fun x =>
          { x with labelIn := label }
        refine resvPassedOn_runs allowed.benign (does.wf wf) memb here allowed.resv pos allowed.arm
          fun waits new => allowed.mbb waits new fun _ _ => ?_
        rw [some]
        exact pos
    · rename_i label
      have does : Does env.toHal (.install r.key r.body.labelOut
          (ntohl r.body.nextHop.logicalInterface)) s
          (s.halMplsInstall r.body.labelIn r.body.labelOut
            (ntohl r.body.nextHop.logicalInterface) r.body.nextHop.neighborAddr
            b.key.session.destAddr) := by
        rw [key]
        exact .install fun _ => ⟨r, memr, rfl, rfl⟩
      refine .trans (.one allowed.install does) ?_
      exact resvPassedOn_runs allowed.benign (does.wf wf) memb memr allowed.resv label allowed.arm
        fun waits new => allowed.mbb waits new fun _ bare => absurd bare label
  · rename_i ingress
    have does : Does env.toHal (.install r.key r.body.labelOut
        (ntohl r.body.nextHop.logicalInterface)) s
        (s.halMplsInstall 0 r.body.labelOut (ntohl r.body.nextHop.logicalInterface)
          r.body.nextHop.neighborAddr b.key.session.destAddr) := by
      rw [key]
      exact .install fun pos => absurd rfl pos
    refine .trans (.one allowed.install does) ?_
    refine resvFollowUp_runs allowed.benign (does.wf wf) memb allowed.arm ?_
    exact fun waits new => allowed.mbb waits new fun transit => absurd transit ingress

theorem resvRefresh_runs (benign : ∀ act, act.Benign → ok act) (wf : s.Wf) {b : Psb} {r : Rsb}
    (memb : b ∈ s.psbs) (memr : r ∈ s.rsbs) (tied : r.body.associatedPsb = some b.addr)
    (resv : ok (.resv r.key))
    (advertise : r.body.labelIn = 0 → b.body.prevHop.neighborAddr ≠ 0 →
      b.body.isIngress = false → (labelMgrAlloc s.labels).1 ≠ 0 → ok (.advertise r.key)) :
    Runs env.toHal ok s (resvRefresh env s r) := by
  have psb : s.psbOf r.body = some b := by
    rw [Node.psbOf, tied]
    exact Table.get_of_mem memb
  unfold resvRefresh
  simp only [psb]
  split
  · rename_i due
    exact sendResvUpstream_runs benign wf memr resv fun bare => advertise bare due.1 due.2
  · exact .refl s

/-! ## The handler -/

/-- What a RESV may do once its RSB `r` of PSB `b` is at hand. -/
structure ArrivedOk (ok : Act → Prop) (s : Node) (info : MessageInfo) (b : Psb) (r : Rsb)
    (isNew : Bool) : Prop where
  benign : ∀ act, act.Benign → ok act
  store : ok (.store info.key info.labelValue)
  swap : ok (.swap info.key info.labelValue (ntohl info.hop.logicalInterface))
  install : ok (.install info.key info.labelValue (ntohl info.hop.logicalInterface))
  resv : ok (.resv info.key)
  reject : isNew = true → s.rsvpBsbFind info.key ≠ none ∨ (labelMgrAlloc s.labels).1 = 0 →
    ok (.dropRsb info.key 0)
  advertise : isNew = false → ResvAdvertises s info b r → ok (.advertise info.key)
  arm : b.body.isBypassTunnel = true → ok .arm
  mbb : b.body.isMbbPending = true → isNew = true → resvBlockaded s info r.body = false →
    (b.body.prevHop.neighborAddr ≠ 0 → (labelMgrAlloc s.labels).1 ≠ 0) →
    ∀ old, s.rsvpPsbFindById (ntohs b.key.session.tunnelId) b.body.mbbOldLspId = some old →
      (∀ label, ok (.dropRsb old.key label)) ∧ ok (.dropPsb old.addr)

theorem resvAccepted_runs {b : Psb} {r : Rsb} {isNew : Bool}
    (allowed : ArrivedOk ok s info b r isNew) (admitted : resvBlockaded s info r.body = false)
    (bare : isNew = true → r.body.labelIn = 0) {t : Node} (wf : t.Wf) (psbs : t.psbs = s.psbs)
    (labels : t.labels = s.labels) (memb : b ∈ s.psbs)
    (memr : { r with body := resvUpdate info r.body } ∈ t.rsbs)
    (tied : r.body.associatedPsb = some b.addr) (key : r.key = info.key) :
    Runs env.toHal ok t
      (resvAccepted env t info { r with body := resvUpdate info r.body } isNew) := by
  obtain ⟨keeps, labelOut, nextHop⟩ := resvUpdate_keeps info r.body
  have does : ∀ isIngress, Does env.toHal (.store info.key info.labelValue) t
      (t.modRsb r.addr (resvStore info isIngress)) := by
    intro isIngress
    rw [← key]
    exact .store (r := { r with body := resvUpdate info r.body })
      (f := resvStore info isIngress) memr ⟨rfl, rfl⟩
  have stored := fun isIngress => Runs.one allowed.store (does isIngress)
  have here := fun isIngress => t.mem_modRsb memr (resvStore info isIngress)
  have tied' := keeps.associatedPsb.trans tied
  unfold resvAccepted
  simp only
  split
  · have psb : ∀ isIngress, (t.modRsb r.addr (resvStore info isIngress)).psbOf
        (resvStore info isIngress (resvUpdate info r.body)) = some b := by
      intro isIngress
      change (resvUpdate info r.body).associatedPsb.bind t.psbs.get = some b
      rw [tied', psbs]
      exact Table.get_of_mem memb
    have keyB : b.key = r.key := (wf.psb_of_rsb (psbs ▸ memb) memr tied').1
    rw [psb]
    refine (stored _).trans (resvProgram_runs ?_ ((does _).wf wf) (psbs ▸ memb) (here _) keyB)
    refine ⟨allowed.benign, key ▸ allowed.swap, key ▸ allowed.install, key ▸ allowed.resv, ?_,
      allowed.arm, ?_⟩
    · intro new full
      rw [key]
      exact allowed.reject new (.inr (labels ▸ full))
    · intro waits new pool old scanned
      refine allowed.mbb waits new admitted (fun transit => ?_) old ?_
      · exact labels ▸ pool transit (keeps.labelIn.trans (bare new))
      · change t.psbs.blocks.find? _ = some old at scanned
        rw [psbs] at scanned
        exact scanned
  · rename_i same
    rw [not_or, not_or] at same
    obtain ⟨old, sameLabel, sameHop⟩ := same
    refine (stored _).trans (resvRefresh_runs allowed.benign ((does _).wf wf) (psbs ▸ memb) (here _)
      tied' (key ▸ allowed.resv) fun bare prevHop transit label => ?_)
    rw [key]
    apply allowed.advertise (Bool.eq_false_iff.mpr old)
    refine ⟨keeps.labelIn.symm.trans bare, ?_, ?_, admitted, prevHop, transit, labels ▸ label⟩
    · rw [labelOut] at sameLabel
      simpa using sameLabel
    · rw [nextHop] at sameHop
      simpa using sameHop

theorem resvArrived_runs {b : Psb} {r : Rsb} {isNew : Bool}
    (allowed : ArrivedOk ok s info b r isNew) (bare : isNew = true → r.body.labelIn = 0)
    (wf : s.Wf) (memb : b ∈ s.psbs) (memr : r ∈ s.rsbs)
    (tied : r.body.associatedPsb = some b.addr) (key : r.key = info.key) :
    Runs env.toHal ok s (resvArrived env s info r.addr isNew) := by
  obtain ⟨keeps, labelOut, -⟩ := resvUpdate_keeps info r.body
  have does : Does env.toHal .tuneRsb s (s.modRsb r.addr (resvUpdate info)) :=
    .tuneRsb memr keeps labelOut
  have updated := Runs.one (allowed.benign .tuneRsb trivial) does
  have here := s.mem_modRsb memr (resvUpdate info)
  have blockade : rsvpIsBlockaded (s.modRsb r.addr (resvUpdate info))
      { r with body := resvUpdate info r.body } = resvBlockaded s info r.body := by
    rw [resvBlockaded, ← key]
    rfl
  unfold resvArrived
  simp only [Table.get_of_mem here, blockade]
  split
  · rename_i blocked
    have held : s.rsvpBsbFind info.key ≠ none := by
      intro missing
      rw [resvBlockaded, rsvpIsBlockaded, missing] at blocked
      cases blocked
    split
    · rename_i new
      have tied' := keeps.associatedPsb.trans tied
      simp only [tied']
      have cut := rsvpRsbDelete_cut here tied'
      have zero : (resvUpdate info r.body).labelIn = 0 := keeps.labelIn.trans (bare new)
      have release : Released (s.modRsb r.addr (resvUpdate info))
          (((s.modRsb r.addr (resvUpdate info)).modPsb b.addr fun x =>
            { x with associatedRsb := none }).rsvpRsbDelete r.addr) b
          { r with body := resvUpdate info r.body } := by
        rw [cut]
        refine ⟨rfl, rfl, (if_pos zero).symm, fun label pos => ?_, fun _ _ => id, rfl, [],
          (List.append_nil _).symm, fun _ inRemoved => by cases inRemoved⟩
        rw [if_neg (fun same => pos (same.trans zero))]
      have memb' : b ∈ (s.modRsb r.addr (resvUpdate info)).psbs := memb
      have drops : Does env.toHal (.dropRsb r.key (resvUpdate info r.body).labelIn)
          (s.modRsb r.addr (resvUpdate info)) _ := .dropRsb memb' here tied' release
      rw [key, zero] at drops
      exact updated.snoc (allowed.reject new (.inl held)) drops
    · exact updated
  · rename_i admitted
    exact updated.trans (resvAccepted_runs allowed (Bool.eq_false_iff.mpr admitted) bare
      (does.wf wf) rfl rfl memb here tied key)

/-- The PSB found for a key and the RSB found for it belong together. -/
theorem Node.Wf.found_tied (wf : s.Wf) {key : PathKey} {b : Psb} {r : Rsb}
    (foundB : s.rsvpPsbFind key = some b) (foundR : s.rsvpRsbFind key = some r) :
    r.body.associatedPsb = some b.addr := by
  obtain ⟨memb, keyB⟩ := Table.find_eq_some foundB
  obtain ⟨memr, keyR⟩ := Table.find_eq_some foundR
  obtain ⟨c, memc, keyC, tied, -⟩ := wf.owned r memr
  rw [wf.psbKeyed b memb c memc (keyB.trans (keyC.trans keyR).symm)]
  exact tied

/-- The scan by identifiers sees only keys. -/
theorem rsvpPsbFindById_modPsb (s : Node) (p : Ptr) (f : PsbState → PsbState)
    (tunnelId lspId : UInt16) :
    (s.modPsb p f).rsvpPsbFindById tunnelId lspId =
      (s.rsvpPsbFindById tunnelId lspId).map fun b =>
        if b.addr = p then { b with body := f b.body } else b :=
  s.psbs.find?_modify p f fun key =>
    ntohs key.session.tunnelId = tunnelId ∧ ntohs key.sender.lspId = lspId

/-- The node with a new RSB `r` for PSB `b`. -/
def Node.withRsb (s : Node) (b : Psb) (r : Ptr) (rsbs : Table PathKey RsbState) : Node :=
  { s with
    rsbs := rsbs.modify r fun x =>
      { x with associatedPsb := some b.addr, refreshMs := b.body.refreshMs }
    psbs := s.psbs.modify b.addr fun x => { x with associatedRsb := some r } }

theorem resvLink_eq {key : PathKey} {b : Psb} (found : s.rsvpPsbFind key = some b)
    (rsbs : Table PathKey RsbState) (r : Ptr) :
    resvLink { s with rsbs := rsbs } key r = s.withRsb b r rsbs := by
  have here : ({ s with rsbs := rsbs } : Node).rsvpPsbFind key = some b := found
  rw [resvLink, here]
  rfl

theorem withRsb_does {hal : Hal} {b : Psb} {mem : Option Ptr} {r : Ptr}
    {rsbs : Table PathKey RsbState} (memb : b ∈ s.psbs) (fresh : ∀ x ∈ s.rsbs, x.key ≠ b.key)
    (created : s.rsbs.create rsvpKeyHash mem b.key .zero = some (r, rsbs)) :
    Does hal (.newRsb b.key) s (s.withRsb b r rsbs) :=
  .newRsb memb fresh created
    (f := fun x => { x with associatedPsb := some b.addr, refreshMs := b.body.refreshMs })
    rfl rfl rfl

/-- The new RSB of `withRsb`. -/
def newResvState (b : Psb) : RsbState :=
  { RsbState.zero with associatedPsb := some b.addr, refreshMs := b.body.refreshMs }

abbrev Psb.newRsb (b : Psb) (r : Ptr) : Rsb := ⟨r, b.key, newResvState b⟩

/-- A PSB tied to its new RSB. -/
abbrev Psb.linked (b : Psb) (r : Ptr) : Psb :=
  b.update fun x => { x with associatedRsb := some r }

theorem mem_withRsb {b : Psb} {mem : Option Ptr} {r : Ptr} {rsbs : Table PathKey RsbState}
    (created : s.rsbs.create rsvpKeyHash mem b.key .zero = some (r, rsbs)) {x : Rsb} :
    x ∈ (s.withRsb b r rsbs).rsbs ↔ x = ⟨r, b.key, newResvState b⟩ ∨ x ∈ s.rsbs :=
  Table.mem_modify_create created

theorem handleResvMessage_runs (allowed : ResvOk ok env s info) (wf : s.Wf) :
    Runs env.toHal ok s (handleResvMessage env s info) := by
  unfold handleResvMessage
  split
  · exact sendResvErr_runs allowed.benign info _ _
  · rename_i valid
    obtain ⟨b, foundB⟩ : ∃ b, s.rsvpPsbFind info.key = some b := by
      rw [← Option.ne_none_iff_exists']
      intro missing
      rw [rsvpValidateResvMessage, if_pos missing] at valid
      cases valid
    obtain ⟨memb, keyB⟩ := Table.find_eq_some foundB
    split
    · rename_i r foundR
      obtain ⟨memr, keyR⟩ := Table.find_eq_some foundR
      refine resvArrived_runs ?_ (fun new => by cases new) wf memb memr (wf.found_tied foundB foundR)
        keyR
      refine ⟨allowed.benign, allowed.store, allowed.swap, allowed.install, allowed.resv,
        (fun new => by cases new), fun _ => allowed.advertise b r foundB foundR,
        allowed.arm b foundB, fun _ new => by cases new⟩
    · rename_i absent
      split
      · exact .refl s
      · rename_i r t made
        have memory : s.rsvpRsbCreate env info.key ≠ none := by
          rw [made]
          exact Option.some_ne_none _
        obtain ⟨rsbs, created, rfl⟩ := Node.rsvpRsbCreate_eq_some made
        have fresh : ∀ x ∈ s.rsbs, x.key ≠ b.key := keyB ▸ Table.find_eq_none.mp absent
        rw [← keyB] at created
        have does : Does env.toHal (.newRsb b.key) s (s.withRsb b r rsbs) :=
          withRsb_does memb fresh created
        rw [resvLink_eq foundB]
        refine .trans (.one (keyB ▸ allowed.newRsb) does) ?_
        have memr := (mem_withRsb created).mpr (.inl rfl)
        have memb' := s.mem_modPsb memb fun x => { x with associatedRsb := some r }
        refine resvArrived_runs (b := { b with body := { b.body with associatedRsb := some r } })
          (r := ⟨r, b.key, newResvState b⟩) ?_ (fun _ => rfl) (does.wf wf) memb' memr rfl keyB
        refine ⟨allowed.benign, allowed.store, allowed.swap, allowed.install, allowed.resv,
          fun _ => allowed.reject absent, (fun old => by cases old), allowed.arm b foundB, ?_⟩
        intro waits _ admitted pool old scanned
        change (s.modPsb b.addr _).rsvpPsbFindById _ _ = some old at scanned
        rw [rsvpPsbFindById_modPsb] at scanned
        obtain ⟨old', here, rfl⟩ := Option.map_eq_some_iff.mp scanned
        have blank : resvBlockaded s info (newResvState b) = resvBlockaded s info .zero :=
          resvBlockaded_congr s info rfl
        have completes : MbbCompletes env s info b :=
          ⟨valid, waits, absent, memory, blank.symm.trans admitted, pool⟩
        have drops := allowed.mbb b old' foundB completes here
        split
        · exact drops
        · exact drops

end Rsvp
