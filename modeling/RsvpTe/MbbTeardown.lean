import RsvpTe.MbbHandover
import RsvpTe.Shutdown
import RsvpTe.SoftState

/-!
# What a make-before-break tears down

`rsvp_mbb_start` leaves only the LSP ID of the incumbent in the new PSB, and `rsvp_mbb_complete`
looks for it again by tunnel ID and LSP ID.  Other sessions may use the same pair, so the RESV that
completes removes whichever of these PSBs the walk over the buckets meets first.
-/

namespace Rsvp

open Words

variable {env : Env} {s : Node} {info : MessageInfo} {k k' : PathKey} {p : Ptr}
  {tunnelId oldLspId : UInt16}

/-! ## The scan by identifiers -/

/-- The tunnel ID and the LSP ID of a key, in host order. -/
def PathKey.HasIds (key : PathKey) (tunnelId lspId : UInt16) : Prop :=
  ntohs key.session.tunnelId = tunnelId ∧ ntohs key.sender.lspId = lspId

/-- The PSB with key `k` is the first in the buckets with these identifiers, or there is none with
them. -/
def Node.WalksFirst (s : Node) (k : PathKey) (tunnelId lspId : UInt16) : Prop :=
  (∃ front b back, s.psbs.blocks = front ++ b :: back ∧ b.key = k ∧
    ∀ c ∈ front, ¬ c.key.HasIds tunnelId lspId) ∨
  ∀ c ∈ s.psbs, ¬ c.key.HasIds tunnelId lspId

theorem rsvpPsbFindById_eq_none {tunnelId lspId : UInt16} :
    s.rsvpPsbFindById tunnelId lspId = none ↔ ∀ c ∈ s.psbs, ¬ c.key.HasIds tunnelId lspId := by
  rw [Node.rsvpPsbFindById, List.find?_eq_none]
  simp only [decide_eq_true_eq]
  exact Iff.rfl

theorem rsvpPsbFindById_mem {tunnelId lspId : UInt16} {b : Psb}
    (found : s.rsvpPsbFindById tunnelId lspId = some b) :
    b ∈ s.psbs ∧ b.key.HasIds tunnelId lspId := by
  have ids := List.find?_some found
  rw [decide_eq_true_eq] at ids
  exact ⟨List.mem_of_find?_eq_some found, ids⟩

/-- What the scan finds has key `k` exactly when `k` is walked first. -/
theorem walksFirst_iff {tunnelId lspId : UInt16} (ids : k.HasIds tunnelId lspId) :
    s.WalksFirst k tunnelId lspId ↔
      ∀ b, s.rsvpPsbFindById tunnelId lspId = some b → b.key = k := by
  constructor
  · intro first old found
    rcases first with ⟨front, b, back, blocks, rfl, others⟩ | none
    · have here : s.rsvpPsbFindById tunnelId lspId = some b := by
        rw [Node.rsvpPsbFindById, List.find?_eq_some_iff_append]
        refine ⟨decide_eq_true ids, front, back, blocks, fun c mem => ?_⟩
        rw [Bool.not_eq_true', decide_eq_false_iff_not]
        exact others c mem
      rw [here] at found
      rw [Option.some.inj found]
    · obtain ⟨mem, same⟩ := rsvpPsbFindById_mem found
      exact absurd same (none old mem)
  · intro named
    cases found : s.rsvpPsbFindById tunnelId lspId with
    | none => exact .inr (rsvpPsbFindById_eq_none.mp found)
    | some old =>
      have key := named old found
      rw [Node.rsvpPsbFindById, List.find?_eq_some_iff_append] at found
      obtain ⟨-, front, back, blocks, others⟩ := found
      refine .inl ⟨front, old, back, blocks, key, fun c mem same => ?_⟩
      have unlike := others c mem
      rw [Bool.not_eq_true', decide_eq_false_iff_not] at unlike
      exact unlike same

/-! ## Waiting for the first RESV -/

/-- A RESV that is accepted and not blockaded. -/
def MessageInfo.Passes (s : Node) (info : MessageInfo) : Prop :=
  rsvpValidateResvMessage s info = none ∧
    resvBlockaded s info ((s.rsvpRsbFind info.key).elim .zero (·.body)) = false

/-- The event is such a RESV for `key`. -/
def Event.ResvPasses (env : Env) (s : Node) (key : PathKey) : Event → Prop
  | .recv packet => ∃ info, Receives env packet info ∧ info.commonHdr.msgType = msgResv ∧
    info.key = key ∧ info.Passes s
  | _ => False

/-- The states after `rsvp_mbb_start` accepted the PSB with key `k` as the incumbent and created
the PSB `p` with key `k'`, as long as that PSB is there and no RESV for it has passed. -/
inductive MbbWaiting (labels : LabelMgr) (tunnelId oldLspId : UInt16) (k k' : PathKey) (p : Ptr) :
    Node → Prop
  | start {s s' : Node} (env : Env) (newLspId : UInt16) (newEro : List EroSubobj) {old : Psb} :
    Reachable labels s → s.rsvpPsbFindById tunnelId oldLspId = some old → old.key = k →
    k' = { k with sender := { k.sender with lspId := htons newLspId } } →
    rsvpMbbStart env s tunnelId oldLspId newLspId newEro = .ok s' →
    (∃ b ∈ s'.psbs, b.addr = p ∧ b.key = k') →
    MbbWaiting labels tunnelId oldLspId k k' p s'
  | step {s : Node} (env : Env) (ev : Event) :
    MbbWaiting labels tunnelId oldLspId k k' p s → ¬ ev.ResvPasses env s k' →
    (∃ b ∈ (s.step env ev).psbs, b.addr = p ∧ b.key = k') →
    MbbWaiting labels tunnelId oldLspId k k' p (s.step env ev)

/-- The PSB `p` with key `k'` waits to replace LSP `oldLspId`. -/
def Psb.Replaces (k' : PathKey) (p : Ptr) (oldLspId : UInt16) (b : Psb) : Prop :=
  b.key = k' → b.addr = p → b.body.isMbbPending = true ∧ b.body.mbbOldLspId = oldLspId

theorem replaces_rule : PsbRule (Psb.Replaces k' p oldLspId) where
  pop := fun _ _ => id
  out := fun _ _ => id
  spare := fun _ _ _ => id

/-- A RESV that does not pass leaves the PSBs alone. -/
theorem handleResvMessage_stopped (wf : s.Wf) (stopped : ¬ info.Passes s) :
    (handleResvMessage env s info).psbs = s.psbs := by
  cases valid : rsvpValidateResvMessage s info with
  | some err =>
    have refused : handleResvMessage env s info = sendResvErr env s info err.1 err.2 := by
      rw [handleResvMessage, valid]
    obtain ⟨sent, eq⟩ := sendResvErr_out env info err.1 err.2
    rw [refused, eq]
  | none =>
    obtain ⟨⟨b, psb⟩, -⟩ := objs_of_valid valid
    have blockaded := Bool.eq_true_of_not_eq_false fun admitted => stopped ⟨valid, admitted⟩
    cases rsb : s.rsvpRsbFind info.key with
    | some r =>
      obtain ⟨memr, key⟩ := Table.find_eq_some rsb
      rw [rsb, Option.elim_some] at blockaded
      rw [handleResvMessage_found valid rsb, resvArrived_blockaded memr (wf.found_tied psb rsb) key
        blockaded, if_neg Bool.false_ne_true]
      rfl
    | none =>
      rw [rsb, Option.elim_none] at blockaded
      exact (handleResvMessage_refused wf valid psb rsb (.inl blockaded)).1

/-- A new PSB takes another address than `p`, and a RESV for another key completes another
make-before-break. -/
theorem permits_replaces (other : info.commonHdr.msgType = msgResv → info.key ≠ k') :
    info.Permits (Psb.Replaces k' p oldLspId) env (· ≠ p) where
  arm := fun _ _ _ _ => id
  done := by
    intro resv b same _ key
    exact absurd (same.symm.trans key) (other resv)
  path := by
    intro _ b _ waits key addr
    obtain ⟨pending, old⟩ := waits key addr
    have update := pathUpdate_eq env info b.body
    constructor
    · exact (congrArg PsbState.isMbbPending update).trans pending
    · exact (congrArg PsbState.mbbOldLspId update).trans old
  new := fun _ _ away _ here => absurd here away

theorem Node.step_replaces (wf : s.Wf) {ev : Event} (quiet : ¬ ev.ResvPasses env s k')
    (held : ∃ b ∈ s.psbs, b.addr = p) (all : s.AllPsbs (Psb.Replaces k' p oldLspId)) :
    (s.step env ev).AllPsbs (Psb.Replaces k' p oldLspId) := by
  have unused : ∀ a, (∀ b ∈ s.psbs, b.addr ≠ a) → a ≠ p := by
    rintro a free rfl
    obtain ⟨b, mem, here⟩ := held
    exact free b mem here
  have permitted := fun permits =>
    @Node.step_permits env s _ replaces_rule wf (· ≠ p) ev permits unused all
  cases ev with
  | recv packet =>
    by_cases ours : ∃ info, Receives env packet info ∧ info.commonHdr.msgType = msgResv ∧
        info.key = k'
    · obtain ⟨info, received, resv, key⟩ := ours
      have stopped : ¬ info.Passes s := fun passes => quiet ⟨info, received, resv, key, passes⟩
      rw [received.step_eq, rsvpHandleMessage_resv resv]
      exact all.congr (handleResvMessage_stopped wf stopped)
    · exact permitted fun info received =>
        permits_replaces fun resv key => ours ⟨info, received, resv, key⟩
  | initiatePath => exact permitted fun _ away _ here => absurd here away
  | initiateBypass => exact permitted fun _ away _ here => absurd here away
  | mbbStart => exact permitted fun _ _ away _ _ here => absurd here away
  | frrEnable => exact permitted fun _ _ waits _ _ => waits
  | frrTrigger => exact permitted fun _ _ waits _ => waits
  | frrRevert => exact permitted fun _ _ => id
  | psbRefresh => exact permitted trivial
  | psbCleanup => exact permitted trivial
  | rsbRefresh => exact permitted trivial
  | rsbCleanup => exact permitted trivial
  | bsbCleanup => exact permitted trivial
  | teardown => exact permitted trivial

theorem rsvpMbbStart_eq_ok {newLspId : UInt16} {newEro : List EroSubobj} {old : Psb} {s' : Node}
    (scanned : s.rsvpPsbFindById tunnelId oldLspId = some old)
    (started : rsvpMbbStart env s tunnelId oldLspId newLspId newEro = .ok s') :
    s.rsvpPsbFind { old.key with sender := { old.key.sender with lspId := htons newLspId } } = none ∧
      ∃ p t, s.rsvpPsbCreate env { old.key with
          sender := { old.key.sender with lspId := htons newLspId } } = some (p, t) ∧
        s' = sendPathDownstream env (t.modPsb p (mbbClone env old.body oldLspId newEro)) p := by
  unfold rsvpMbbStart at started
  rw [scanned] at started
  dsimp only at started
  split at started
  · cases started
  · split at started
    · cases started
    · rename_i absent
      split at started
      · cases started
      · rename_i p t made
        exact ⟨absent, p, t, made, (Except.ok.inj started).symm⟩

/-- What holds while the new PSB waits. -/
theorem MbbWaiting.spec {labels : LabelMgr} (pool : labels.Wf)
    (waiting : MbbWaiting labels tunnelId oldLspId k k' p s) :
    Reachable labels s ∧ (k.HasIds tunnelId oldLspId ∧ k'.session = k.session) ∧
      (∃ b ∈ s.psbs, b.addr = p ∧ b.key = k') ∧ s.AllPsbs (Psb.Replaces k' p oldLspId) := by
  induction waiting with
  | @start s s' env newLspId newEro old reached scanned key clone started held =>
    subst key clone
    have ids := (rsvpPsbFindById_mem scanned).2
    obtain ⟨absent, a, t, made, rfl⟩ := rsvpMbbStart_eq_ok scanned started
    have event : s.step env (.mbbStart tunnelId oldLspId newLspId newEro) =
        sendPathDownstream env (t.modPsb a (mbbClone env old.body oldLspId newEro)) a := by
      change s.orSelf (rsvpMbbStart env s tunnelId oldLspId newLspId newEro) = _
      rw [started]
      rfl
    have none : s.AllPsbs (Psb.Replaces { old.key with
        sender := { old.key.sender with lspId := htons newLspId } } p oldLspId) :=
      fun b mem same _ => absurd same (Table.find_eq_none.mp absent b mem)
    refine ⟨event ▸ reached.step env _, ⟨ids, rfl⟩, held, ?_⟩
    exact originated_all replaces_rule none made fun _ _ _ => ⟨rfl, rfl⟩
  | @step s env ev _ quiet held ih =>
    obtain ⟨reached, ids, ⟨b, mem, here, -⟩, all⟩ := ih
    exact ⟨reached.step env ev, ids, held,
      Node.step_replaces (reached.wf pool) quiet ⟨b, mem, here⟩ all⟩

/-! ## The RESV that completes -/

/-- Where the RESV of a pending PSB does not complete, no PSB changes. -/
theorem handleResvMessage_incomplete (wf : s.Wf) {b : Psb}
    (found : s.rsvpPsbFind info.key = some b) (pending : b.body.isMbbPending = true)
    (passes : info.Passes s) (incomplete : ¬ MbbCompletes env s info b) :
    (handleResvMessage env s info).psbs = s.psbs := by
  obtain ⟨valid, admitted⟩ := passes
  obtain ⟨memb, -⟩ := Table.find_eq_some found
  have plain := (wf.pending b memb pending).1
  cases rsb : s.rsvpRsbFind info.key with
  | none =>
    rw [rsb, Option.elim_none] at admitted
    by_cases memory : s.rsvpRsbCreate env info.key = none
    · rw [handleResvMessage, valid, rsb, memory]
    · refine (handleResvMessage_refused wf valid found rsb (.inr ?_)).1
      by_contra labelled
      refine incomplete ⟨valid, pending, rsb, memory, admitted, fun transit none => ?_⟩
      exact labelled ⟨transit, none⟩
  | some r =>
    rw [rsb, Option.elim_some] at admitted
    obtain ⟨memr, key⟩ := Table.find_eq_some rsb
    have tied := wf.found_tied found rsb
    have keeps := resvStored_keeps info b.body.isIngress r.body
    have tied' : (resvStored info b.body.isIngress r.body).associatedPsb = some b.addr :=
      keeps.associatedPsb.trans tied
    have stored := s.mem_modRsb memr (resvStored info b.body.isIngress)
    rw [handleResvMessage_found valid rsb, resvArrived_admitted memb memr tied key admitted]
    split
    · rcases @resvProgram_cases env (s.modRsb r.addr (resvStored info b.body.isIngress)) info b
        ⟨r.addr, r.key, resvStored info b.body.isIngress r.body⟩ false wf.labels memb stored tied'
        (info.labelValue ≠ r.body.labelOut) with
        ⟨-, -, -, out, result⟩ | ⟨label, labels, out, -, result⟩
      · rw [result, if_neg Bool.false_ne_true]
        rfl
      · rw [result, resvFollowUp]
        simp only [plain, Bool.false_eq_true, false_and, and_false, if_false]
        rfl
    · rcases @resvRefresh_cases env (s.modRsb r.addr (resvStored info b.body.isIngress)) b
        ⟨r.addr, r.key, resvStored info b.body.isIngress r.body⟩ wf.labels memb stored tied' with
        ⟨-, out, sent⟩ | ⟨-, label, labels, out, -, -, sent⟩
      · rw [sent]
        rfl
      · rw [sent]
        rfl

/-- The key that the scan finds does not depend on what is stored in the PSBs. -/
theorem rsvpPsbFindById_key {t : Node} {f : PsbState → PsbState}
    (psbs : t.psbs = s.psbs.modify p f) (tunnelId lspId : UInt16) :
    (t.rsvpPsbFindById tunnelId lspId).map Block.key =
      (s.rsvpPsbFindById tunnelId lspId).map Block.key := by
  have scan := s.psbs.find?_modify p f fun key =>
    ntohs key.session.tunnelId = tunnelId ∧ ntohs key.sender.lspId = lspId
  rw [Node.rsvpPsbFindById, psbs, scan, Option.map_map]
  refine Option.map_congr fun c _ => ?_
  dsimp only [Function.comp_apply]
  split <;> rfl

/-- What is removed: the PSB that the scan finds, or none. -/
theorem rsvpMbbComplete_find (wf : s.Wf) {b c : Psb} (mem : b ∈ s.psbs) {key : PathKey}
    (memc : c ∈ s.psbs) (same : c.key = key) :
    (rsvpMbbComplete env s b.addr).rsvpPsbFind key = none ↔
      (s.rsvpPsbFindById (ntohs b.key.session.tunnelId) b.body.mbbOldLspId).map Block.key =
        some key := by
  subst same
  unfold rsvpMbbComplete
  rw [Table.get_of_mem mem]
  dsimp only
  cases scanned : s.rsvpPsbFindById (ntohs b.key.session.tunnelId) b.body.mbbOldLspId with
  | none =>
    dsimp only [Node.rsvpPsbFind, Node.modPsb]
    rw [Table.find_modify_eq_none, wf.psbKeyed.find_of_mem memc, Option.map_none]
    exact ⟨fun gone => absurd gone (Option.some_ne_none c),
      fun found => absurd found.symm (Option.some_ne_none c.key)⟩
  | some old =>
    have memOld := (rsvpPsbFindById_mem scanned).1
    dsimp only [Node.rsvpPsbFind, Node.modPsb]
    rw [Table.find_modify_eq_none, (rsvpPsbCleanup_drops wf memOld).1,
      wf.psbKeyed.find_unlink_eq_none memOld memc, Option.map_some, Option.some_inj]
    exact eq_comm

/-- Of the PSBs of `s` exactly the one with key `k`, if there is one, is missing in `s'`. -/
def Node.RemovesExactly (s s' : Node) (k : PathKey) : Prop :=
  ∀ c ∈ s.psbs, s'.rsvpPsbFind c.key = none ↔ c.key = k

/-- The first RESV of the new PSB that passes removes exactly the incumbent when it creates the RSB
and has a label to swap with, and the incumbent is walked first among the PSBs with its tunnel ID
and LSP ID; otherwise when no RSB is created and there is no incumbent any more. -/
theorem mbb_removes_iff {min max : UInt32} (low : 1 ≤ min) (ordered : min ≤ max)
    (high : max < 1048576)
    (waiting : MbbWaiting (labelMgrInit min max true) tunnelId oldLspId k k' p s)
    (same : info.key = k') (passes : info.Passes s) :
    ∃ b, s.rsvpPsbFind k' = some b ∧ (s.RemovesExactly (handleResvMessage env s info) k ↔
      MbbCompletes env s info b ∧ s.WalksFirst k tunnelId oldLspId ∨
      ¬ MbbCompletes env s info b ∧ ∀ c ∈ s.psbs, c.key ≠ k) := by
  subst same
  obtain ⟨pool, -⟩ := labelMgrInit_wf low ordered high
  obtain ⟨reached, ⟨ids, session⟩, ⟨b, mem, here, key⟩, all⟩ := waiting.spec pool
  have wf := reached.wf pool
  obtain ⟨pending, oldLsp⟩ := all b mem key here
  have found : s.rsvpPsbFind info.key = some b := key ▸ wf.psbKeyed.find_of_mem mem
  have tunnel : ntohs b.key.session.tunnelId = tunnelId := by
    rw [key, session]
    exact ids.1
  refine ⟨b, found, ?_⟩
  by_cases completes : MbbCompletes env s info b
  · obtain ⟨r, t, ⟨wfT, psbs, -, -⟩, handled⟩ := handleResvMessage_completes wf found completes
    have memT : { b with body := { b.body with associatedRsb := some r } } ∈ t.psbs := by
      rw [psbs]
      exact s.mem_modPsb mem fun x => { x with associatedRsb := some r }
    -- Which PSB is gone afterwards is decided by the scan before.
    have gone : ∀ c ∈ s.psbs, (handleResvMessage env s info).rsvpPsbFind c.key = none ↔
        (s.rsvpPsbFindById tunnelId oldLspId).map Block.key = some c.key := by
      intro c memc
      obtain ⟨d, memd, keyD⟩ : ∃ d ∈ t.psbs, d.key = c.key := by
        have held : t.psbs.find c.key ≠ none := by
          rw [psbs, ne_eq, Table.find_modify_eq_none, wf.psbKeyed.find_of_mem memc]
          exact Option.some_ne_none c
        obtain ⟨d, foundD⟩ := Option.ne_none_iff_exists'.mp held
        exact ⟨d, Table.find_eq_some foundD⟩
      rw [handled, ← rsvpPsbFindById_key psbs, ← tunnel, ← oldLsp]
      exact rsvpMbbComplete_find wfT memT memd keyD
    simp only [completes, true_and, not_true_eq_false, false_and, or_false]
    rw [walksFirst_iff ids]
    constructor
    · intro exactly old scanned
      have memOld := (rsvpPsbFindById_mem scanned).1
      refine (exactly old memOld).mp ((gone old memOld).mpr ?_)
      rw [scanned, Option.map_some]
    · intro first c memc
      rw [gone c memc, Option.map_eq_some_iff]
      constructor
      · intro found
        obtain ⟨old, scanned, keyC⟩ := found
        rw [← keyC]
        exact first old scanned
      · intro keyC
        -- The incumbent has the identifiers, so the scan finds a PSB.
        cases scanned : s.rsvpPsbFindById tunnelId oldLspId with
        | none => exact absurd (keyC ▸ ids) (rsvpPsbFindById_eq_none.mp scanned c memc)
        | some old => exact ⟨old, rfl, (first old scanned).trans keyC.symm⟩
  · have psbs := handleResvMessage_incomplete wf found pending passes completes
    simp only [completes, false_and, not_false_eq_true, true_and, false_or]
    constructor
    · intro exactly c memc gone
      have missing := (exactly c memc).mpr gone
      rw [Node.rsvpPsbFind, psbs, wf.psbKeyed.find_of_mem memc] at missing
      exact Option.some_ne_none c missing
    · intro absent c memc
      rw [Node.rsvpPsbFind, psbs, wf.psbKeyed.find_of_mem memc]
      exact ⟨fun gone => absurd gone (Option.some_ne_none c), fun gone => absurd gone (absent c memc)⟩

/-! ## LSP 5 replaces LSP 1 -/

/-- The RESV passes, creates the RSB of a pending ingress PSB, and `test` holds. -/
def Node.completesWith (env : Env) (s : Node) (info : MessageInfo) (test : Bool) : Bool :=
  (rsvpValidateResvMessage s info).isNone && (s.rsvpRsbFind info.key).isNone &&
    (s.rsvpRsbCreate env info.key).isSome && !resvBlockaded s info .zero &&
    (s.rsvpPsbFind info.key).all (fun b =>
      b.body.isMbbPending && b.body.prevHop.neighborAddr = 0) && test

theorem Node.completesWith_cases {test : Bool} (holds : s.completesWith env info test = true) :
    info.Passes s ∧ (∀ b, s.rsvpPsbFind info.key = some b → MbbCompletes env s info b) ∧
      test = true := by
  simp only [Node.completesWith, Bool.and_eq_true, Bool.not_eq_true',
    Option.isNone_iff_eq_none] at holds
  obtain ⟨⟨⟨⟨⟨valid, first⟩, memory⟩, admitted⟩, waits⟩, tested⟩ := holds
  refine ⟨⟨valid, ?_⟩, fun b found => ?_, tested⟩
  · rw [first, Option.elim_none]
    exact admitted
  · rw [found, Option.all_some, Bool.and_eq_true, decide_eq_true_eq] at waits
    obtain ⟨pending, ingress⟩ := waits
    exact ⟨valid, pending, first, Option.isSome_iff_ne_none.mp memory, admitted,
      fun transit => absurd ingress transit⟩

theorem waiting_sampleMbb :
    MbbWaiting (labelMgrInit 16 31 true) 1 1 (sampleKey 0x0300000A 1) (sampleKey 0x0300000A 5) 2
      sampleMbb := by
  generalize incumbent : ((Node.init (labelMgrInit 16 31 true)).step (sampleEnv (fun _ => false) 1)
    (.initiatePath 0x0900000A 0x0300000A 1 none [] false)).step (sampleEnv (fun _ => false) 1)
    (.recv (sampleResv 0x0300000A 1 100 7)) = t
  have up : (t.rsvpPsbFindById 1 1).any (·.key = sampleKey 0x0300000A 1) = true ∧
      (rsvpMbbStart (sampleEnv (fun _ => false) 2) t 1 1 5 []).isOk = true ∧
      sampleMbb.psbs.blocks.any
        (fun b => b.addr = 2 ∧ b.key = sampleKey 0x0300000A 5) = true := by
    rw [← incumbent]
    decide +kernel
  obtain ⟨scanned, started, held⟩ := up
  have reached : Reachable (labelMgrInit 16 31 true) t := incumbent ▸ .step _ _ (.step _ _ .init)
  have next : sampleMbb = t.step (sampleEnv (fun _ => false) 2) (.mbbStart 1 1 5 []) := by
    rw [← incumbent]
    rfl
  obtain ⟨old, found, key⟩ := (Option.any_eq_true _ _).mp scanned
  obtain ⟨b, mem, here⟩ := List.any_eq_true.mp held
  cases result : rsvpMbbStart (sampleEnv (fun _ => false) 2) t 1 1 5 [] with
  | error err =>
    rw [result] at started
    exact absurd started Bool.false_ne_true
  | ok s' =>
    have same : sampleMbb = s' := by
      rw [next]
      change t.orSelf (rsvpMbbStart (sampleEnv (fun _ => false) 2) t 1 1 5 []) = s'
      rw [result]
      rfl
    rw [same]
    exact .start _ 5 [] reached found (of_decide_eq_true key) rfl result
      ⟨b, same ▸ mem, of_decide_eq_true here⟩

/-- Alone with its tunnel ID and LSP ID, LSP 1 is removed. -/
theorem mbb_removes_iff_alone :
    ∃ info, rsvpParsePacket (sampleResv 0x0300000A 5 200 7) = .ok info ∧
      sampleMbb.RemovesExactly (handleResvMessage (sampleEnv (fun _ => false) 2) sampleMbb info)
        (sampleKey 0x0300000A 1) := by
  have up : (rsvpParsePacket (sampleResv 0x0300000A 5 200 7)).toOption.any (fun info =>
      sampleMbb.completesWith (sampleEnv (fun _ => false) 2) info
        (info.key = sampleKey 0x0300000A 5 ∧
          (sampleMbb.rsvpPsbFindById 1 1).all (·.key = sampleKey 0x0300000A 1))) = true := by
    decide +kernel
  obtain ⟨info, parsed, holds⟩ := ParseResult.exists_ok_of_any up
  obtain ⟨passes, completes, tested⟩ := Node.completesWith_cases holds
  obtain ⟨same, first⟩ := of_decide_eq_true tested
  obtain ⟨b, found, exactly⟩ := mbb_removes_iff (by decide) (by decide) (by decide)
    waiting_sampleMbb same passes
  refine ⟨info, parsed, exactly.mpr (.inl ⟨?_, ?_⟩)⟩
  · exact completes b (same ▸ found)
  · rw [walksFirst_iff ⟨by decide, by decide⟩]
    intro old scanned
    rw [scanned] at first
    exact of_decide_eq_true first

/-- While LSP 5 waits, an LSP 1 of a tunnel 1 to 10.0.0.4 passes through. -/
def sampleRival : Node :=
  sampleMbb.step (sampleEnv (fun _ => false) 3) (.recv (samplePath 0x0400000A 1 5))

theorem waiting_sampleRival :
    MbbWaiting (labelMgrInit 16 31 true) 1 1 (sampleKey 0x0300000A 1) (sampleKey 0x0300000A 5) 2
      sampleRival := by
  have up : (rsvpParsePacket ((samplePath 0x0400000A 1 5).take maxRsvpPacketSize)).toOption.all
        (·.commonHdr.msgType ≠ msgResv) = true ∧
      sampleRival.psbs.blocks.any
        (fun b => b.addr = 2 ∧ b.key = sampleKey 0x0300000A 5) = true := by
    decide +kernel
  obtain ⟨type, held⟩ := up
  obtain ⟨b, mem, here⟩ := List.any_eq_true.mp held
  have kept : ∃ b ∈ sampleRival.psbs, b.addr = 2 ∧ b.key = sampleKey 0x0300000A 5 :=
    ⟨b, Table.mem_def.mpr mem, of_decide_eq_true here⟩
  rw [sampleRival] at kept ⊢
  refine .step _ _ waiting_sampleMbb ?_ kept
  intro resv
  obtain ⟨info, received, same, -⟩ := resv
  rw [received.parsed] at type
  exact of_decide_eq_true type same

/-- Then the RESV for LSP 5 removes the LSP that passes through, and LSP 1 of 10.0.0.9 stays. -/
theorem exists_rival_removed :
    MbbWaiting (labelMgrInit 16 31 true) 1 1 (sampleKey 0x0300000A 1) (sampleKey 0x0300000A 5) 2
        sampleRival ∧
      ∃ info, rsvpParsePacket (sampleResv 0x0300000A 5 200 7) = .ok info ∧
        info.key = sampleKey 0x0300000A 5 ∧ info.Passes sampleRival ∧
        ¬ sampleRival.RemovesExactly
          (handleResvMessage (sampleEnv (fun _ => false) 3) sampleRival info)
          (sampleKey 0x0300000A 1) := by
  have up : (rsvpParsePacket (sampleResv 0x0300000A 5 200 7)).toOption.any (fun info =>
      sampleRival.completesWith (sampleEnv (fun _ => false) 3) info
        (info.key = sampleKey 0x0300000A 5 ∧
          sampleRival.psbs.blocks.any (·.key = sampleKey 0x0400000A 1) ∧
          ((handleResvMessage (sampleEnv (fun _ => false) 3) sampleRival info).rsvpPsbFind
            (sampleKey 0x0400000A 1)).isNone)) = true := by
    decide +kernel
  obtain ⟨info, parsed, holds⟩ := ParseResult.exists_ok_of_any up
  obtain ⟨passes, -, tested⟩ := Node.completesWith_cases holds
  obtain ⟨same, rival, gone⟩ := of_decide_eq_true tested
  obtain ⟨c, memc, key⟩ := List.any_eq_true.mp rival
  have key : c.key = sampleKey 0x0400000A 1 := of_decide_eq_true key
  refine ⟨waiting_sampleRival, info, parsed, same, passes,
    fun exactly => ?_⟩
  rw [← key, Option.isNone_iff_eq_none] at gone
  have incumbent := (exactly c memc).mp gone
  rw [key] at incumbent
  exact absurd incumbent (by decide)

end Rsvp
