import RsvpTe.PathRefresh

/-!
# Repeated RESVs

A RESV that is handled twice finds, the second time, an RSB that holds its label and hop: it is
passed on and nothing is programmed.  A first RESV that is refused leaves no RSB and is refused
again.
-/

namespace Rsvp

open Words

variable {env : Env} {s s' s'' t : Node} {info : MessageInfo} {key : PathKey}

/-! ## The consequences of a programmed RESV -/

/-- The LSP of `key` keeps its RSB, its blockade state and the role of its PSB. -/
structure KeepsLsp (key : PathKey) (s s' : Node) : Prop where
  psb : ∀ b ∈ s.psbs, b.key = key → ∃ c ∈ s'.psbs, c.key = key ∧
    c.body.prevHop = b.body.prevHop ∧ c.body.isIngress = b.body.isIngress
  rsbs : ∀ r : Rsb, r.key = key → r ∈ s.rsbs → r ∈ s'.rsbs
  bsbs : ∀ b : Bsb, b.key = key → (b ∈ s'.bsbs ↔ b ∈ s.bsbs)

namespace KeepsLsp

theorem refl (s : Node) : KeepsLsp key s s :=
  ⟨fun b mem same => ⟨b, mem, same, rfl, rfl⟩, fun _ _ => id, fun _ _ => Iff.rfl⟩

theorem trans (first : KeepsLsp key s s') (second : KeepsLsp key s' s'') :
    KeepsLsp key s s'' where
  psb := by
    intro b mem same
    obtain ⟨c, memc, keyC, hop, ingress⟩ := first.psb b mem same
    obtain ⟨d, memd, keyD, hop', ingress'⟩ := second.psb c memc keyC
    exact ⟨d, memd, keyD, hop'.trans hop, ingress'.trans ingress⟩
  rsbs := fun r same mem => second.rsbs r same (first.rsbs r same mem)
  bsbs := fun b same => (second.bsbs b same).trans (first.bsbs b same)

/-- An update of a PSB that keeps its role. -/
theorem modPsb (s : Node) (p : Ptr) {f : PsbState → PsbState}
    (hop : ∀ x, (f x).prevHop = x.prevHop) (ingress : ∀ x, (f x).isIngress = x.isIngress) :
    KeepsLsp key s (s.modPsb p f) where
  psb := by
    intro b mem same
    by_cases here : b.addr = p
    · subst here
      exact ⟨_, s.mem_modPsb mem f, same, hop _, ingress _⟩
    · exact ⟨b, Table.mem_modify.mpr (.inl ⟨mem, here⟩), same, rfl, rfl⟩
  rsbs := fun _ _ => id
  bsbs := fun _ _ => Iff.rfl

theorem of_confined {other : PathKey} (confined : Confined other s s') (ne : key ≠ other) :
    KeepsLsp key s s' where
  psb := fun b mem same =>
    ⟨b, (confined.psbs b (same ▸ ne)).mpr mem, same, rfl, rfl⟩
  rsbs := fun r same mem => (confined.rsbs r (same ▸ ne)).mpr mem
  bsbs := fun b same => confined.bsbs b (same ▸ ne)

end KeepsLsp

theorem rsvpFrrAutoAssociate_keepsLsp (s : Node) (p : Ptr) :
    KeepsLsp key s (rsvpFrrAutoAssociate s p) := by
  unfold rsvpFrrAutoAssociate
  split
  · exact .refl s
  · split
    · exact .refl s
    · split
      · exact .refl s
      · exact .modPsb s p (fun _ => rfl) fun _ => rfl

theorem rsvpFrrAutoAssociateAll_keepsLsp (s : Node) (ifindex : UInt32) :
    KeepsLsp key s (rsvpFrrAutoAssociateAll s ifindex) :=
  rsvpFrrAutoAssociateAll_induct (P := KeepsLsp key s) (.refl s) ifindex fun t p kept =>
    kept.trans (rsvpFrrAutoAssociate_keepsLsp t p)

/-- A pending PSB and the incumbent it replaces have different keys. -/
theorem rsvpMbbComplete_keepsLsp (wf : s.Wf) {b : Psb} (mem : b ∈ s.psbs)
    (pending : b.body.isMbbPending = true) : KeepsLsp b.key s (rsvpMbbComplete env s b.addr) := by
  have cleared : ∀ t : Node, KeepsLsp b.key t
      (t.modPsb b.addr fun x => { x with isMbbPending := false, mbbOldLspId := 0 }) :=
    fun t => .modPsb t b.addr (fun _ => rfl) fun _ => rfl
  unfold rsvpMbbComplete
  rw [Table.get_of_mem mem]
  dsimp only
  cases scanned : s.rsvpPsbFindById (ntohs b.key.session.tunnelId) b.body.mbbOldLspId with
  | none => exact cleared s
  | some old =>
    have memOld : old ∈ s.psbs := List.mem_of_find?_eq_some scanned
    have ids := List.find?_some scanned
    simp only [decide_eq_true_eq] at ids
    have other : b.key ≠ old.key := by
      intro same
      rw [← same] at ids
      exact (wf.pending b mem pending).2 ids.2.symm
    exact (KeepsLsp.of_confined (rsvpPsbCleanup_confined wf memOld true) other).trans (cleared _)

theorem resvFollowUp_keepsLsp (wf : s.Wf) {b : Psb} (mem : b ∈ s.psbs) (isNew labelChanged : Bool) :
    KeepsLsp b.key s (resvFollowUp env s b isNew labelChanged) := by
  unfold resvFollowUp
  dsimp only
  by_cases bypass : b.body.isBypassTunnel = true ∧ (isNew = true ∨ labelChanged = true)
  · have plain : ¬ (b.body.isMbbPending = true ∧ isNew = true) := by
      intro completes
      rcases completes with ⟨pending, -⟩
      rw [(wf.pending b mem pending).1] at bypass
      exact Bool.false_ne_true bypass.1
    rw [if_pos bypass, if_neg plain]
    exact rsvpFrrAutoAssociateAll_keepsLsp s _
  · rw [if_neg bypass]
    split
    · rename_i waits
      exact rsvpMbbComplete_keepsLsp wf mem waits.1
    · exact .refl s

/-! ## An RSB that holds its RESV -/

theorem resvUpdate_resvUpdate (info : MessageInfo) (rsb : RsbState) :
    resvUpdate info (resvUpdate info rsb) = resvUpdate info rsb := by
  unfold resvUpdate
  cases info.objs .timeValues <;> cases info.objs .flowspec <;> cases info.objs .style <;> rfl

/-- A RESV does not read what was stored of it after the blockade test. -/
theorem resvUpdate_resvStored (info : MessageInfo) (isIngress : Bool) (rsb : RsbState) :
    resvUpdate info (resvStored info isIngress rsb) = resvStored info isIngress rsb := by
  unfold resvStored resvStore resvUpdate
  cases info.objs .timeValues <;> cases info.objs .flowspec <;> cases info.objs .style <;> rfl

theorem resvStored_resvStored (info : MessageInfo) (isIngress : Bool) (rsb : RsbState) :
    resvStored info isIngress (resvStored info isIngress rsb) = resvStored info isIngress rsb := by
  have updated := resvUpdate_resvStored info isIngress rsb
  rw [resvStored, updated]
  rfl

/-- The label of the RSB is not part of the RESV. -/
theorem resvStored_labelIn (info : MessageInfo) (isIngress : Bool) (rsb : RsbState)
    (label : UInt32) : resvStored info isIngress { rsb with labelIn := label } =
      { resvStored info isIngress rsb with labelIn := label } := by
  unfold resvStored resvStore resvUpdate
  cases info.objs .timeValues <;> cases info.objs .flowspec <;> cases info.objs .style <;> rfl

/-- PSB `b` and RSB `r` hold what the RESV leaves, and no label is left to take. -/
structure ResvSettled (info : MessageInfo) (t : Node) (b : Psb) (r : Rsb) : Prop where
  psb : t.rsvpPsbFind info.key = some b
  rsb : t.rsvpRsbFind info.key = some r
  updated : resvUpdate info r.body = r.body
  stored : resvBlockaded t info r.body = false →
    resvStored info b.body.isIngress r.body = r.body ∧
      (r.body.labelIn = 0 → b.body.prevHop.neighborAddr ≠ 0 → b.body.isIngress = false →
        (labelMgrAlloc t.labels).1 = 0)

theorem handleResvMessage_found {r : Rsb} (valid : rsvpValidateResvMessage s info = none)
    (found : s.rsvpRsbFind info.key = some r) :
    handleResvMessage env s info = resvArrived env s info r.addr false := by
  rw [handleResvMessage, valid, found]

theorem ResvSettled.again {b : Psb} {r : Rsb} (settled : ResvSettled info t b r) (wf : t.Wf)
    (valid : rsvpValidateResvMessage t info = none) :
    SameState t (handleResvMessage env t info) := by
  obtain ⟨psb, rsb, updated, stored⟩ := settled
  obtain ⟨memb, -⟩ := Table.find_eq_some psb
  obtain ⟨memr, key⟩ := Table.find_eq_some rsb
  have tied := wf.found_tied psb rsb
  have kept : ∀ f : RsbState → RsbState, f r.body = r.body → t.modRsb r.addr f = t := by
    intro f same
    rw [Node.modRsb, (Table.modify_eq_self_iff memr f).mpr same]
  rw [handleResvMessage_found valid rsb]
  cases blockaded : resvBlockaded t info r.body with
  | true =>
    rw [resvArrived_blockaded memr tied key blockaded, if_neg Bool.false_ne_true, kept _ updated]
    exact ⟨rfl, rfl, rfl, rfl, rfl⟩
  | false =>
    obtain ⟨same, unlabelled⟩ := stored blockaded
    have unchanged : ¬ ResvChanges info false r.body := by
      intro changes
      rcases changes with new | label | hop
      · exact Bool.false_ne_true new
      · exact label (congrArg RsbState.labelOut same)
      · exact hop (congrArg (fun x : RsbState => x.nextHop.neighborAddr) same)
    rw [resvArrived_admitted memb memr tied key blockaded, if_neg unchanged, kept _ same, same]
    rcases @resvRefresh_cases env t b r wf.labels memb memr tied with
      ⟨-, out, sent⟩ | ⟨⟨bare, transit, foreign⟩, label, labels, out, allocated, takes, -⟩
    · rw [sent]
      exact .logged t out
    · have none := unlabelled bare transit foreign
      rw [allocated] at none
      exact absurd none (wf.labels.ne_zero takes.inRange)

/-! ## Handling a RESV settles it -/

/-- The RSB of `key` after an update. -/
theorem find_modRsb {r : Rsb} (found : s.rsvpRsbFind info.key = some r)
    (f : RsbState → RsbState) :
    (s.modRsb r.addr f).rsvpRsbFind info.key = some { r with body := f r.body } := by
  have moved := s.rsbs.find_modify r.addr f info.key
  unfold Node.rsvpRsbFind at found ⊢
  rw [found, Option.map_some, if_pos rfl] at moved
  exact moved

/-- An RSB in which the RESV was stored, whatever its label. -/
theorem ResvSettled.of_stored {c : Psb} {p : Ptr} {x : RsbState} {isIngress : Bool}
    (psb : t.rsvpPsbFind info.key = some c)
    (rsb : t.rsvpRsbFind info.key = some ⟨p, info.key, resvStored info isIngress x⟩)
    (ingress : c.body.isIngress = isIngress)
    (none : x.labelIn = 0 → c.body.prevHop.neighborAddr ≠ 0 → c.body.isIngress = false →
      (labelMgrAlloc t.labels).1 = 0) :
    ResvSettled info t c ⟨p, info.key, resvStored info isIngress x⟩ := by
  refine ⟨psb, rsb, resvUpdate_resvStored _ _ _, fun _ => ⟨?_, fun bare => none ?_⟩⟩
  · rw [ingress]
    exact resvStored_resvStored _ _ _
  · exact (resvStored_keeps info isIngress x).labelIn.symm.trans bare

/-- A RESV that is neither new nor refused leaves its RSB settled. -/
theorem resvArrived_settled (wf : s.Wf) {b : Psb} {r : Rsb} (psb : s.rsvpPsbFind info.key = some b)
    (rsb : s.rsvpRsbFind info.key = some r) {isNew : Bool}
    (accepted : isNew = true → resvBlockaded s info r.body = false ∧
      (b.body.prevHop.neighborAddr ≠ 0 → r.body.labelIn = 0 → (labelMgrAlloc s.labels).1 ≠ 0)) :
    ∃ c x, ResvSettled info (resvArrived env s info r.addr isNew) c x := by
  obtain ⟨memb, keyB⟩ := Table.find_eq_some psb
  obtain ⟨memr, key⟩ := Table.find_eq_some rsb
  have tied := wf.found_tied psb rsb
  cases blockaded : resvBlockaded s info r.body with
  | true =>
    have old : ¬ isNew = true := fun new =>
      Bool.false_ne_true ((accepted new).1.symm.trans blockaded)
    rw [resvArrived_blockaded memr tied key blockaded, if_neg old]
    refine ⟨b, _, psb, find_modRsb rsb _, resvUpdate_resvUpdate info _, fun passed => ?_⟩
    have again : resvBlockaded (s.modRsb r.addr (resvUpdate info)) info (resvUpdate info r.body) =
        resvBlockaded s info r.body := by
      unfold resvBlockaded
      rw [resvUpdate_resvUpdate]
      rfl
    rw [again, blockaded] at passed
    exact absurd passed.symm Bool.false_ne_true
  | false =>
    have keeps := resvStored_keeps info b.body.isIngress r.body
    have here := s.mem_modRsb memr (resvStored info b.body.isIngress)
    have tied' : (resvStored info b.body.isIngress r.body).associatedPsb = some b.addr :=
      keeps.associatedPsb.trans tied
    have found := find_modRsb rsb (resvStored info b.body.isIngress)
    rw [key] at found
    rw [resvArrived_admitted memb memr tied key blockaded]
    split
    · rcases @resvProgram_cases env (s.modRsb r.addr (resvStored info b.body.isIngress)) info b
        ⟨r.addr, r.key, resvStored info b.body.isIngress r.body⟩ isNew wf.labels memb here tied' _
        with ⟨transit, bare, none, out, result⟩ | ⟨label, labels, out, labelled, result⟩
      · have old : ¬ isNew = true := fun new =>
          (accepted new).2 transit (keeps.labelIn.symm.trans bare) none
        rw [result, if_neg old]
        exact ⟨b, _, .of_stored psb found rfl fun _ _ _ => none⟩
      · rw [result]
        have wfU := wf.modRsb memr keeps.associatedPsb
        have wfV := labelled.wf_programmed wfU here out
        have follows := @resvFollowUp_keepsLsp env _ wfV b memb isNew
          (info.labelValue ≠ r.body.labelOut)
        have wfT := (@resvFollowUp_runs env (fun _ => True) _ (fun _ _ => trivial) wfV b memb isNew
          (info.labelValue ≠ r.body.labelOut) (fun _ => trivial)
          fun _ _ _ _ => ⟨fun _ => trivial, trivial⟩).wf wfV
        obtain ⟨c, memc, keyC, hop, ingress⟩ := follows.psb b memb rfl
        have memv := Node.mem_modRsb _ here fun x => { x with labelIn := label }
        have memx := follows.rsbs _ (by exact key.trans keyB.symm) memv
        have psbT := wfT.psbKeyed.find_of_mem memc
        rw [keyC, keyB] at psbT
        have rsbT := wfT.rsbKeyed.find_of_mem memx
        have stored := resvStored_labelIn info b.body.isIngress r.body label
        dsimp only at rsbT
        rw [key] at rsbT
        dsimp only at stored
        rw [← stored] at rsbT
        refine ⟨c, _, .of_stored psbT rsbT ingress fun bare transit _ => ?_⟩
        rw [hop] at transit
        exact absurd bare (labelled.ne_zero wfU.labels transit)
    · rcases @resvRefresh_cases env (s.modRsb r.addr (resvStored info b.body.isIngress)) b
        ⟨r.addr, r.key, resvStored info b.body.isIngress r.body⟩ wf.labels memb here tied' with
        ⟨none, out, sent⟩ | ⟨-, label, labels, out, -, takes, sent⟩
      · rw [sent]
        exact ⟨b, _, .of_stored psb found rfl fun bare => none (keeps.labelIn.trans bare)⟩
      · rw [sent]
        have labelled := find_modRsb found fun x => { x with labelIn := label }
        have stored := resvStored_labelIn info b.body.isIngress r.body label
        dsimp only at labelled stored
        rw [← stored] at labelled
        refine ⟨b, _, .of_stored psb labelled rfl fun bare _ _ => ?_⟩
        exact absurd bare (wf.labels.ne_zero takes.inRange)

/-! ## A first RESV -/

/-- A first RESV is refused: its specification is blockaded, or a swap needs a label and there is
none. -/
def ResvRefused (s : Node) (info : MessageInfo) (b : Psb) : Prop :=
  resvBlockaded s info .zero = true ∨
    b.body.prevHop.neighborAddr ≠ 0 ∧ (labelMgrAlloc s.labels).1 = 0

/-- The forwarding table after a first RESV was refused: releasing the RSB of an ingress removes
the push entry. -/
def Node.refusedFwd (s : Node) (info : MessageInfo) (b : Psb) : FwdTable :=
  if resvBlockaded s info .zero = false ∧ b.body.isIngress = true then
    Function.update s.fwd (.push b.key.session.destAddr) none
  else s.fwd

theorem objs_of_valid (valid : rsvpValidateResvMessage s info = none) :
    (∃ b, s.rsvpPsbFind info.key = some b) ∧ info.objs .hopV4 ≠ none ∧ info.objs .label ≠ none := by
  unfold rsvpValidateResvMessage at valid
  split at valid
  · cases valid
  · rename_i present
    split at valid
    · cases valid
    · rename_i hop
      split at valid
      · cases valid
      · rename_i label
        exact ⟨Option.ne_none_iff_exists'.mp present, hop, label⟩

section First

variable {b : Psb} {r : Ptr} {rsbs : Table PathKey RsbState}

theorem handleResvMessage_new (valid : rsvpValidateResvMessage s info = none)
    (psb : s.rsvpPsbFind info.key = some b) (absent : s.rsvpRsbFind info.key = none)
    (created : s.rsbs.create rsvpKeyHash env.rsbMem info.key .zero = some (r, rsbs)) :
    handleResvMessage env s info = resvArrived env (s.withRsb b r rsbs) info r true := by
  rw [handleResvMessage, valid, absent, Node.rsvpRsbCreate, created]
  exact congrArg (resvArrived env · info r true) (resvLink_eq psb rsbs r)

/-- A RESV for `b` that makes the RSB at `r`. -/
structure FirstRsb (env : Env) (s : Node) (info : MessageInfo) (b : Psb) (r : Ptr)
    (rsbs : Table PathKey RsbState) : Prop where
  memb : b ∈ s.psbs
  key : b.key = info.key
  absent : s.rsvpRsbFind info.key = none
  created : s.rsbs.create rsvpKeyHash env.rsbMem b.key .zero = some (r, rsbs)

namespace FirstRsb

variable (first : FirstRsb env s info b r rsbs)
include first

theorem fresh : ∀ x ∈ s.rsbs, x.key ≠ b.key := first.key ▸ Table.find_eq_none.mp first.absent

theorem does : Does env.toHal (.newRsb b.key) s (s.withRsb b r rsbs) :=
  withRsb_does first.memb first.fresh first.created

theorem mem_new : b.newRsb r ∈ (s.withRsb b r rsbs).rsbs :=
  (mem_withRsb first.created).mpr (.inl rfl)

theorem mem_linked : b.linked r ∈ (s.withRsb b r rsbs).psbs :=
  s.mem_modPsb first.memb fun x => { x with associatedRsb := some r }

theorem sound (wf : s.Wf) (sound : s.ledger.Sound) : (s.withRsb b r rsbs).ledger.Sound := by
  have linking : Runs env.toHal (fun _ => True) s (s.withRsb b r rsbs) := .one trivial first.does
  exact linking.sound wf sound

/-- A blockaded RSB is dropped again. -/
theorem dropped (blockaded : resvBlockaded s info (newResvState b) = true) :
    resvArrived env (s.withRsb b r rsbs) info r true =
      { s with
        psbs := (s.withRsb b r rsbs).psbs.modify b.addr fun x => { x with associatedRsb := none }
        rsbs := (s.withRsb b r rsbs).rsbs.unlink r } :=
  @resvArrived_blockaded env (s.withRsb b r rsbs) info (b.linked r) (b.newRsb r) true first.mem_new
    rfl first.key blockaded

/-- Any other is programmed. -/
theorem programmed (admitted : resvBlockaded s info (newResvState b) = false) :
    resvArrived env (s.withRsb b r rsbs) info r true =
      resvProgram env ((s.withRsb b r rsbs).modRsb r (resvStored info b.body.isIngress)) info
        (b.linked r) ((b.newRsb r).update (resvStored info b.body.isIngress)) true
        (info.labelValue ≠ (newResvState b).labelOut) :=
  (@resvArrived_admitted env (s.withRsb b r rsbs) info (b.linked r) (b.newRsb r) true
    first.mem_linked first.mem_new rfl first.key admitted).trans (if_pos (.inl rfl))

end FirstRsb

/-- What a RESV comes to. -/
inductive ResvTurn (env : Env) (s : Node) (info : MessageInfo) : Node → Prop
  | refused (sent : List Output) : rsvpValidateResvMessage s info ≠ none →
    ResvTurn env s info { s with out := s.out ++ sent }
  | found {b : Psb} {r : Rsb} : rsvpValidateResvMessage s info = none → b ∈ s.psbs →
    b.key = info.key → r ∈ s.rsbs → r.key = info.key → r.body.associatedPsb = some b.addr →
    ResvTurn env s info (resvArrived env s info r.addr false)
  | noMemory : ResvTurn env s info s
  | first {b : Psb} {r : Ptr} {rsbs : Table PathKey RsbState} :
    rsvpValidateResvMessage s info = none → FirstRsb env s info b r rsbs →
    ResvTurn env s info (resvArrived env (s.withRsb b r rsbs) info r true)

theorem handleResvMessage_turn (wf : s.Wf) :
    ResvTurn env s info (handleResvMessage env s info) := by
  cases valid : rsvpValidateResvMessage s info with
  | some err =>
    obtain ⟨sent, eq⟩ := sendResvErr_out env info err.1 err.2
    rw [handleResvMessage, valid]
    dsimp only
    rw [eq]
    exact .refused sent (by rw [valid]; exact Option.some_ne_none err)
  | none =>
    obtain ⟨⟨b, psb⟩, -⟩ := objs_of_valid valid
    obtain ⟨memb, keyB⟩ := Table.find_eq_some psb
    cases rsb : s.rsvpRsbFind info.key with
    | some r =>
      obtain ⟨memr, keyR⟩ := Table.find_eq_some rsb
      rw [handleResvMessage_found valid rsb]
      exact .found valid memb keyB memr keyR (wf.found_tied psb rsb)
    | none =>
      cases created : s.rsbs.create rsvpKeyHash env.rsbMem info.key .zero with
      | none =>
        rw [handleResvMessage, valid, rsb, Node.rsvpRsbCreate, created]
        exact .noMemory
      | some made =>
        obtain ⟨r, rsbs⟩ := made
        rw [handleResvMessage_new valid psb rsb created]
        exact .first valid ⟨memb, keyB, rsb, keyB ▸ created⟩

/-- A PSB without an RSB points at none. -/
theorem Node.Wf.unassociated (wf : s.Wf) (psb : s.rsvpPsbFind info.key = some b)
    (absent : s.rsvpRsbFind info.key = none) : b.body.associatedRsb = none := by
  obtain ⟨memb, keyB⟩ := Table.find_eq_some psb
  cases assoc : b.body.associatedRsb with
  | none => rfl
  | some a =>
    obtain ⟨x, memx, -, tied⟩ := wf.linked b memb a assoc
    have key := (wf.psb_of_rsb memb memx tied).1
    exact absurd (key.symm.trans keyB) (Table.find_eq_none.mp absent x memx)

/-- Tying a PSB to an RSB and cutting it loose again. -/
theorem modify_associatedRsb (memb : b ∈ s.psbs) (alone : b.body.associatedRsb = none) (r : Ptr) :
    (s.psbs.modify b.addr fun x => { x with associatedRsb := some r }).modify b.addr
      (fun x => { x with associatedRsb := none }) = s.psbs := by
  rw [Table.modify_modify, Table.modify_eq_self_iff memb]
  dsimp only [Function.comp_apply]
  rw [← alone]

theorem handleResvMessage_refused (wf : s.Wf) (valid : rsvpValidateResvMessage s info = none)
    (psb : s.rsvpPsbFind info.key = some b) (absent : s.rsvpRsbFind info.key = none)
    (refused : ResvRefused s info b) :
    (handleResvMessage env s info).psbs = s.psbs ∧ (handleResvMessage env s info).rsbs = s.rsbs ∧
      (handleResvMessage env s info).bsbs = s.bsbs ∧
      (handleResvMessage env s info).labels = s.labels ∧
      (handleResvMessage env s info).fwd =
        if s.rsvpRsbCreate env info.key = none then s.fwd else s.refusedFwd info b := by
  obtain ⟨memb, keyB⟩ := Table.find_eq_some psb
  have alone := wf.unassociated psb absent
  cases created : s.rsbs.create rsvpKeyHash env.rsbMem info.key .zero with
  | none =>
    have missing : s.rsvpRsbCreate env info.key = none := by
      rw [Node.rsvpRsbCreate, created]
      rfl
    rw [handleResvMessage, valid, absent, missing, if_pos rfl]
    exact ⟨rfl, rfl, rfl, rfl, rfl⟩
  | some made =>
    obtain ⟨r, rsbs⟩ := made
    have made : s.rsvpRsbCreate env info.key ≠ none := by
      rw [Node.rsvpRsbCreate, created]
      exact Option.some_ne_none _
    rw [handleResvMessage_new valid psb absent created, if_neg made]
    rw [← keyB] at created
    have first : FirstRsb env s info b r rsbs := ⟨memb, keyB, absent, created⟩
    have blank : resvBlockaded (s.withRsb b r rsbs) info (newResvState b) =
        resvBlockaded s info .zero := resvBlockaded_congr s info rfl
    have psbs := modify_associatedRsb memb alone r
    cases blockaded : resvBlockaded s info .zero with
    | true =>
      rw [first.dropped (blank.trans blockaded), Node.refusedFwd, blockaded,
        if_neg (fun passed => by cases passed.1)]
      exact ⟨psbs, Table.unlink_modify_create created _, rfl, rfl, rfl⟩
    | false =>
      obtain ⟨transit, none⟩ := refused.resolve_left fun blocked =>
        Bool.false_ne_true (blockaded.symm.trans blocked)
      obtain ⟨out, arrived⟩ := @resvArrived_unlabelled env (s.withRsb b r rsbs) info (b.linked r)
        (b.newRsb r) wf.labels first.mem_linked first.mem_new rfl keyB (blank.trans blockaded) transit
        rfl none
      have bare := (resvStored_keeps info b.body.isIngress (newResvState b)).labelIn
      dsimp only at arrived
      rw [arrived]
      refine ⟨psbs, ?_, rfl, if_pos bare, ?_⟩
      · have twice := Table.unlink_modify (s.withRsb b r rsbs).rsbs r
          (resvStored info b.body.isIngress)
        exact twice.trans (Table.unlink_modify_create created _)
      · rw [Node.refusedFwd, blockaded]
        change (if (resvStored info b.body.isIngress (newResvState b)).labelIn = 0 ∧
            b.body.isIngress = false then s.fwd
          else Function.update s.fwd (fwdKey (resvStored info b.body.isIngress
            (newResvState b)).labelIn b.key.session.destAddr) Option.none) = _
        rw [bare]
        cases ingress : b.body.isIngress with
        | false =>
          rw [if_pos ⟨rfl, rfl⟩, if_neg (fun swap => by cases swap.2)]
        | true =>
          rw [if_neg (fun push => by cases push.2), if_pos ⟨rfl, rfl⟩]
          rfl

/-- A refused RESV is refused again and finds the push entry removed. -/
theorem handleResvMessage_refused_again {env' : Env} (wf : s.Wf)
    (valid : rsvpValidateResvMessage s info = none) (psb : s.rsvpPsbFind info.key = some b)
    (absent : s.rsvpRsbFind info.key = none) (memory : s.rsvpRsbCreate env info.key ≠ none)
    (refused : ResvRefused s info b) (wf' : (handleResvMessage env s info).Wf)
    (valid' : rsvpValidateResvMessage (handleResvMessage env s info) info = none) :
    SameState (handleResvMessage env s info)
      (handleResvMessage env' (handleResvMessage env s info) info) := by
  obtain ⟨psbs, rsbs, bsbs, labels, fwd⟩ :=
    @handleResvMessage_refused env s info b wf valid psb absent refused
  rw [if_neg memory] at fwd
  have same : resvBlockaded (handleResvMessage env s info) info .zero =
      resvBlockaded s info .zero := by
    unfold resvBlockaded rsvpIsBlockaded Node.rsvpBsbFind
    rw [bsbs]
  have refused' : ResvRefused (handleResvMessage env s info) info b := by
    unfold ResvRefused
    rw [same, labels]
    exact refused
  have psb' : (handleResvMessage env s info).rsvpPsbFind info.key = some b := by
    rw [Node.rsvpPsbFind, psbs]
    exact psb
  have absent' : (handleResvMessage env s info).rsvpRsbFind info.key = none := by
    rw [Node.rsvpRsbFind, rsbs]
    exact absent
  obtain ⟨psbs', rsbs', bsbs', labels', fwd'⟩ :=
    @handleResvMessage_refused env' _ info b wf' valid' psb' absent' refused'
  refine ⟨psbs', rsbs', bsbs', labels', fwd'.trans ?_⟩
  split
  · rfl
  · unfold Node.refusedFwd
    rw [same]
    split
    · rename_i removed
      rw [fwd, Node.refusedFwd, if_pos removed, Function.update_idem]
    · rfl

end First

theorem handleResvMessage_wf (wf : s.Wf) : (handleResvMessage env s info).Wf := by
  have allowed : ResvOk (fun _ => True) env s info :=
    ⟨fun _ _ => trivial, trivial, trivial, trivial, trivial, trivial, fun _ _ => trivial,
      fun _ _ _ _ _ => trivial, fun _ _ _ => trivial,
      fun _ _ _ _ _ => ⟨fun _ => trivial, trivial⟩⟩
  exact (handleResvMessage_runs allowed wf).wf wf

/-- A RESV that is handled again changes nothing. -/
theorem handleResvMessage_again {env' : Env} (wf : s.Wf)
    (valid : rsvpValidateResvMessage s info = none)
    (memory : s.rsvpRsbFind info.key = none → s.rsvpRsbCreate env info.key ≠ none) :
    SameState (handleResvMessage env s info)
      (handleResvMessage env' (handleResvMessage env s info) info) := by
  obtain ⟨⟨b, psb⟩, hop, label⟩ := objs_of_valid valid
  obtain ⟨memb, keyB⟩ := Table.find_eq_some psb
  have wf' : (handleResvMessage env s info).Wf := handleResvMessage_wf wf
  have still : ∀ {c : Psb}, (handleResvMessage env s info).rsvpPsbFind info.key = some c →
      rsvpValidateResvMessage (handleResvMessage env s info) info = none := by
    intro c found
    rw [rsvpValidateResvMessage, if_neg (by rw [found]; rintro ⟨⟩), if_neg hop, if_neg label]
  have again : (∃ c x, ResvSettled info (handleResvMessage env s info) c x) →
      SameState (handleResvMessage env s info)
        (handleResvMessage env' (handleResvMessage env s info) info) := by
    rintro ⟨c, x, settled⟩
    exact settled.again wf' (still settled.psb)
  cases rsb : s.rsvpRsbFind info.key with
  | some r =>
    apply again
    rw [handleResvMessage_found valid rsb]
    exact resvArrived_settled wf psb rsb (by rintro ⟨⟩)
  | none =>
    by_cases refused : ResvRefused s info b
    · have same := (@handleResvMessage_refused env s info b wf valid psb rsb refused).1
      have psb' : (handleResvMessage env s info).rsvpPsbFind info.key = some b := by
        rw [Node.rsvpPsbFind, same]
        exact psb
      exact handleResvMessage_refused_again wf valid psb rsb (memory rsb) refused wf' (still psb')
    · obtain ⟨⟨r, t⟩, made⟩ := Option.ne_none_iff_exists'.mp (memory rsb)
      obtain ⟨rsbs, created, rfl⟩ := Node.rsvpRsbCreate_eq_some made
      apply again
      rw [handleResvMessage_new valid psb rsb created]
      rw [← keyB] at created
      have first : FirstRsb env s info b r rsbs := ⟨memb, keyB, rsb, created⟩
      have wfT := first.does.wf wf
      have keyL : (b.linked r).key = info.key := keyB
      have foundR := wfT.rsbKeyed.find_of_mem first.mem_new
      have foundB := wfT.psbKeyed.find_of_mem first.mem_linked
      rw [show (b.newRsb r).key = info.key from keyB] at foundR
      rw [keyL] at foundB
      have blank : resvBlockaded (s.withRsb b r rsbs) info (newResvState b) =
          resvBlockaded s info .zero := resvBlockaded_congr s info rfl
      refine resvArrived_settled wfT foundB foundR fun _ => ⟨blank.trans ?_, fun transit _ none => ?_⟩
      · exact Bool.eq_false_iff.mpr fun blocked => refused (.inl blocked)
      · exact refused (.inr ⟨transit, none⟩)

end Rsvp
