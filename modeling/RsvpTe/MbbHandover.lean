import RsvpTe.MakeBeforeBreak
import RsvpTe.ResvRefresh

/-!
# Make-before-break and the push entry

The first RESV of a pending PSB installs the entry of the new LSP and then tears the incumbent down.
Both LSPs lead to one destination, so releasing the RSB of the incumbent removes the push entry that
was just installed.

The RESV handler goes by `prev_hop` and not by `is_ingress`.  An ingress PSB that has been given a
previous hop gets a swap, and the push entry is what it was.
-/

namespace Rsvp

open Words

variable {env : Env} {s t : Node} {info : MessageInfo} {b : Psb} {r : Ptr}

/-! ## The first RESV of a pending PSB -/

/-- The entry that the RESV installs. -/
def MessageInfo.entry (info : MessageInfo) : FwdEntry :=
  ⟨info.labelValue, ntohl info.hop.logicalInterface, info.hop.neighborAddr⟩

/-- The node `t` at the call of `rsvp_mbb_complete`, with the new RSB at `r`: its entry is a push, or
a swap if the PSB has a previous hop. -/
structure AtHandover (s : Node) (info : MessageInfo) (b : Psb) (r : Ptr) (t : Node) : Prop where
  wf : t.Wf
  psbs : t.psbs = s.psbs.modify b.addr fun x => { x with associatedRsb := some r }
  rsbs : ∀ x, x.body.associatedPsb ≠ some b.addr → (x ∈ t.rsbs ↔ x ∈ s.rsbs)
  fwd : ∃ label, (b.body.prevHop.neighborAddr ≠ 0 → label ≠ 0) ∧
    t.fwd = Function.update s.fwd (fwdKey (if b.body.prevHop.neighborAddr = 0 then 0 else label)
      b.key.session.destAddr) (some info.entry)

theorem handleResvMessage_completes (wf : s.Wf) (found : s.rsvpPsbFind info.key = some b)
    (completes : MbbCompletes env s info b) :
    ∃ r t, AtHandover s info b r t ∧ handleResvMessage env s info = rsvpMbbComplete env t b.addr := by
  obtain ⟨memb, keyB⟩ := Table.find_eq_some found
  obtain ⟨⟨r, t⟩, made⟩ := Option.ne_none_iff_exists'.mp completes.memory
  obtain ⟨rsbs, created, rfl⟩ := Node.rsvpRsbCreate_eq_some made
  have handled := @handleResvMessage_new env s info b r rsbs completes.valid found completes.first
    created
  rw [← keyB] at created
  have first : FirstRsb env s info b r rsbs := ⟨memb, keyB, completes.first, created⟩
  have wfT := first.does.wf wf
  have admitted : resvBlockaded (s.withRsb b r rsbs) info (newResvState b) = false := by
    have blank : resvBlockaded (s.withRsb b r rsbs) info (newResvState b) =
        resvBlockaded s info .zero := resvBlockaded_congr s info rfl
    exact blank.trans completes.admitted
  have keeps := resvStored_keeps info b.body.isIngress (newResvState b)
  have tied : (resvStored info b.body.isIngress (newResvState b)).associatedPsb = some b.addr :=
    keeps.associatedPsb
  have stored := Node.mem_modRsb _ first.mem_new (resvStored info b.body.isIngress)
  have plain : (b.linked r).body.isBypassTunnel = false := (wf.pending b memb completes.pending).1
  have pending : (b.linked r).body.isMbbPending = true := completes.pending
  rw [handled, first.programmed admitted]
  rcases @resvProgram_cases env ((s.withRsb b r rsbs).modRsb r (resvStored info b.body.isIngress))
    info (b.linked r) ((b.newRsb r).update (resvStored info b.body.isIngress)) true wfT.labels
    first.mem_linked stored tied
    (info.labelValue ≠ (newResvState b).labelOut) with
    ⟨transit, -, none, -⟩ | ⟨label, labels, out, labelled, result⟩
  · exact absurd none (completes.label transit)
  · have wfU := (wfT.modRsb first.mem_new keeps.associatedPsb)
    refine ⟨r, _, ⟨labelled.wf_programmed wfU stored out, rfl, fun x apart => ?_, label, fun transit =>
      @Labelled.ne_zero _ (b.linked r) _ _ _ wfU.labels labelled transit, rfl⟩, result.trans ?_⟩
    · -- the RSB at `r` is the new one, and is tied to `b`
      change x ∈ ((rsbs.modify r _).modify r _).modify r _ ↔ _
      rw [Table.modify_modify, Table.modify_modify, Table.mem_modify_create created]
      refine or_iff_right fun new => apart ?_
      rw [new]
      exact tied
    · unfold resvFollowUp
      simp only [plain, Bool.false_eq_true, false_and, if_false, pending, true_and, if_true]
      rfl

/-! ## The push entry afterwards -/

/-- The push entry of a destination has the label and the next hop of the RESV. -/
def Node.PushesAs (s : Node) (info : MessageInfo) (dest : InAddr) : Prop :=
  ∃ entry, s.fwd (.push dest) = some entry ∧ entry.outLabel = info.labelValue ∧
    entry.nextHop = info.hop.neighborAddr

/-- What `rsvp_mbb_complete` finds for `b` is an ingress LSP with the same destination and an
installed push: it shares its entry with the new LSP. -/
def Node.IncumbentPushes (s : Node) (b : Psb) : Prop :=
  ∃ old r, s.rsvpPsbFindById (ntohs b.key.session.tunnelId) b.body.mbbOldLspId = some old ∧
    old.body.isIngress = true ∧ old.key.session.destAddr = b.key.session.destAddr ∧
    s.rsvpRsbFind old.key = some r ∧ r.body.labelIn = 0

namespace AtHandover

variable (handover : AtHandover s info b r t)
include handover

/-- Without a previous hop the push entry is the new one, otherwise it is as it was. -/
theorem pushesAs_iff : t.PushesAs info b.key.session.destAddr ↔
    b.body.prevHop.neighborAddr = 0 ∨ s.PushesAs info b.key.session.destAddr := by
  obtain ⟨label, labelled, fwd⟩ := handover.fwd
  rw [Node.PushesAs, Node.PushesAs, fwd]
  by_cases head : b.body.prevHop.neighborAddr = 0
  · have key : fwdKey 0 b.key.session.destAddr = .push b.key.session.destAddr := if_pos rfl
    rw [if_pos head, key, Function.update_self]
    exact iff_of_true ⟨_, rfl, rfl, rfl⟩ (.inl head)
  · have key : fwdKey label b.key.session.destAddr = .label label := if_neg (labelled head)
    have other : FwdKey.push b.key.session.destAddr ≠ .label label := (by rintro ⟨⟩)
    rw [if_neg head, key, Function.update_of_ne other]
    exact (or_iff_right head).symm

theorem scan (tunnelId lspId : UInt16) : t.rsvpPsbFindById tunnelId lspId =
    (s.rsvpPsbFindById tunnelId lspId).map fun c =>
      if c.addr = b.addr then { c with body := { c.body with associatedRsb := some r } } else c := by
  have linked : t.rsvpPsbFindById tunnelId lspId = (s.modPsb b.addr fun x =>
      { x with associatedRsb := some r }).rsvpPsbFindById tunnelId lspId := by
    rw [Node.rsvpPsbFindById, handover.psbs]
    rfl
  exact linked.trans (rsvpPsbFindById_modPsb s b.addr _ _ _)

/-- The RSB of an incumbent is the one it had. -/
theorem incumbent_rsb_iff (wf : s.Wf) {old : Psb} (memOld : old ∈ s.psbs)
    (other : old.addr ≠ b.addr) :
    (∃ x ∈ t.rsbs, x.body.associatedPsb = some old.addr ∧ x.body.labelIn = 0) ↔
      ∃ x, s.rsvpRsbFind old.key = some x ∧ x.body.labelIn = 0 := by
  have away : ∀ x : Rsb, x.body.associatedPsb = some old.addr →
      x.body.associatedPsb ≠ some b.addr := fun x tied own =>
    other (Option.some.inj (tied.symm.trans own))
  constructor
  · rintro ⟨x, memx, tied, bare⟩
    have memx := (handover.rsbs x (away x tied)).mp memx
    refine ⟨x, ?_, bare⟩
    rw [(wf.psb_of_rsb memOld memx tied).1]
    exact wf.rsbKeyed.find_of_mem memx
  · rintro ⟨x, found, bare⟩
    obtain ⟨memx, key⟩ := Table.find_eq_some found
    obtain ⟨c, memc, keyC, tied, -⟩ := wf.owned x memx
    rw [wf.psbKeyed c memc old memOld (keyC.trans key)] at tied
    exact ⟨x, (handover.rsbs x (away x tied)).mpr memx, tied, bare⟩

/-- `rsvp_mbb_complete` removes the push entry if the incumbent shares it. -/
theorem complete_pushesAs_iff (wf : s.Wf) (memb : b ∈ s.psbs) (pending : b.body.isMbbPending = true) :
    (rsvpMbbComplete env t b.addr).PushesAs info b.key.session.destAddr ↔
      t.PushesAs info b.key.session.destAddr ∧ ¬ s.IncumbentPushes b := by
  have here : t.psbs.get b.addr =
      some { b with body := { b.body with associatedRsb := some r } } := by
    rw [handover.psbs]
    exact Table.get_of_mem (s.mem_modPsb memb fun x => { x with associatedRsb := some r })
  rw [rsvpMbbComplete, here]
  simp only [handover.scan]
  cases scanned : s.rsvpPsbFindById (ntohs b.key.session.tunnelId) b.body.mbbOldLspId with
  | none =>
    refine (and_iff_left ?_).symm
    rintro ⟨old, x, scanned', -⟩
    rw [scanned] at scanned'
    cases scanned'
  | some old =>
    have memOld : old ∈ s.psbs := List.mem_of_find?_eq_some scanned
    have ids := List.find?_some scanned
    simp only [decide_eq_true_eq] at ids
    have other : old.addr ≠ b.addr := by
      intro same
      rw [Table.eq_of_addr_eq memOld memb same] at ids
      exact (wf.pending b memb pending).2 ids.2.symm
    have memT : old ∈ t.psbs := handover.psbs ▸ Table.mem_modify.mpr (.inl ⟨memOld, other⟩)
    have lost := fun entry => @rsvpPsbCleanup_push env _ handover.wf old memT true
      b.key.session.destAddr entry
    have shares : s.IncumbentPushes b ↔ old.body.isIngress = true ∧
        old.key.session.destAddr = b.key.session.destAddr ∧
        ∃ x, s.rsvpRsbFind old.key = some x ∧ x.body.labelIn = 0 := by
      constructor
      · rintro ⟨old', x, scanned', ingress, dest, foundX, bare⟩
        rw [scanned] at scanned'
        cases scanned'
        exact ⟨ingress, dest, x, foundX, bare⟩
      · rintro ⟨ingress, dest, x, foundX, bare⟩
        exact ⟨old, x, scanned, ingress, dest, foundX, bare⟩
    rw [shares]
    simp only [Option.map_some, if_neg other, Node.PushesAs, Node.modPsb, lost,
      handover.incumbent_rsb_iff wf memOld other]
    constructor
    · rintro ⟨entry, ⟨held, kept⟩, carried⟩
      exact ⟨⟨entry, held, carried⟩, kept⟩
    · rintro ⟨⟨entry, held, carried⟩, kept⟩
      exact ⟨entry, ⟨held, kept⟩, carried⟩

end AtHandover

/-- The first RESV of a pending PSB leaves the push entry of the new LSP in place exactly when the
incumbent does not share it, and the PSB has no previous hop or the entry was there before. -/
theorem push_survives_iff {min max : UInt32} (low : 1 ≤ min) (ordered : min ≤ max)
    (high : max < 1048576) (run : Reachable (labelMgrInit min max true) s)
    (found : s.rsvpPsbFind info.key = some b) (completes : MbbCompletes env s info b) :
    (handleResvMessage env s info).PushesAs info b.key.session.destAddr ↔
      ¬ s.IncumbentPushes b ∧
        (b.body.prevHop.neighborAddr = 0 ∨ s.PushesAs info b.key.session.destAddr) := by
  have wf := run.wf (labelMgrInit_wf low ordered high).1
  obtain ⟨memb, -⟩ := Table.find_eq_some found
  obtain ⟨r, t, handover, handled⟩ := handleResvMessage_completes wf found completes
  rw [handled, handover.complete_pushesAs_iff wf memb completes.pending, handover.pushesAs_iff]
  exact and_comm

/-- LSP 1 of tunnel 1 is up at its ingress, and LSP 5 waits to replace it. -/
def sampleMbb : Node :=
  (((Node.init (labelMgrInit 16 31 true)).step (sampleEnv (fun _ => false) 1)
    (.initiatePath 0x0900000A 0x0300000A 1 none [] false)).step (sampleEnv (fun _ => false) 1)
    (.recv (sampleResv 0x0300000A 1 100 7))).step (sampleEnv (fun _ => false) 2)
    (.mbbStart 1 1 5 [])

/-- The first RESV for LSP 5 is stored and its entry is gone. -/
theorem exists_push_lost :
    Reachable (labelMgrInit 16 31 true) sampleMbb ∧
      (sampleMbb.rsvpPsbFind (sampleKey 0x0300000A 5)).any (fun b =>
        b.body.isMbbPending && b.body.mbbOldLspId = 1) = true ∧
      sampleMbb.fwd (.push 0x0300000A) = some ⟨100, 7, 0x0300000A⟩ ∧
      ((sampleMbb.step (sampleEnv (fun _ => false) 2)
        (.recv (sampleResv 0x0300000A 5 200 7))).rsvpRsbFind (sampleKey 0x0300000A 5)).any
          (·.body.labelOut = 200) = true ∧
      (sampleMbb.step (sampleEnv (fun _ => false) 2)
        (.recv (sampleResv 0x0300000A 5 200 7))).fwd (.push 0x0300000A) = none := by
  refine ⟨.step _ _ (.step _ _ (.step _ _ .init)), ?_⟩
  decide +kernel

/-- LSP 1 is torn down before LSP 5 has its RESV. -/
def sampleReplaced : Node :=
  ((((Node.init (labelMgrInit 16 31 true)).step (sampleEnv (fun _ => false) 1)
    (.initiatePath 0x0900000A 0x0300000A 1 none [] false)).step (sampleEnv (fun _ => false) 2)
    (.mbbStart 1 1 5 [])).step (sampleEnv (fun _ => false) 2) (.teardown 1 1))

theorem push_survives_iff_replaced :
    ∃ info b, rsvpParsePacket (sampleResv 0x0300000A 5 200 7) = .ok info ∧
      sampleReplaced.rsvpPsbFind info.key = some b ∧
      MbbCompletes (sampleEnv (fun _ => false) 2) sampleReplaced info b ∧
      (handleResvMessage (sampleEnv (fun _ => false) 2) sampleReplaced info).PushesAs info
        b.key.session.destAddr := by
  have run : Reachable (labelMgrInit 16 31 true) sampleReplaced :=
    .step _ _ (.step _ _ (.step _ _ .init))
  obtain ⟨info, parsed, -, key, -, hop, -, label, -⟩ := parse_resvMessage (sampleKey 0x0300000A 5)
    { RsbState.zero with labelIn := 200 } .zero 0x0300000A 7 0x0300000A 0x0100000A false
  have waiting : (sampleReplaced.rsvpPsbFind (sampleKey 0x0300000A 5).wire).any (fun b =>
      b.body.isMbbPending && b.body.prevHop.neighborAddr = 0 &&
        (sampleReplaced.rsvpPsbFindById (ntohs b.key.session.tunnelId)
          b.body.mbbOldLspId).isNone) = true := by
    decide +kernel
  obtain ⟨b, found, holds⟩ := (Option.any_eq_true _ _).mp waiting
  simp only [Bool.and_eq_true, decide_eq_true_eq, Option.isNone_iff_eq_none] at holds
  obtain ⟨⟨pending, head⟩, alone⟩ := holds
  have first : (sampleReplaced.rsvpRsbFind (sampleKey 0x0300000A 5).wire).isNone = true := by
    decide +kernel
  have memory : (sampleReplaced.rsvpRsbCreate (sampleEnv (fun _ => false) 2)
      (sampleKey 0x0300000A 5).wire).isSome = true := by
    decide +kernel
  have unblocked : sampleReplaced.bsbs.blocks.length = 0 := by decide +kernel
  rw [← key] at found first memory
  have admitted : resvBlockaded sampleReplaced info .zero = false := by
    have missing : sampleReplaced.rsvpBsbFind info.key = none := by
      apply Table.find_eq_none.mpr
      intro c mem
      rw [Table.mem_def, List.length_eq_zero_iff.mp unblocked] at mem
      cases mem
    rw [resvBlockaded, rsvpIsBlockaded, missing]
  have valid : rsvpValidateResvMessage sampleReplaced info = none := by
    rw [rsvpValidateResvMessage, if_neg (by rw [found]; rintro ⟨⟩), if_neg hop, if_neg label]
  have completes : MbbCompletes (sampleEnv (fun _ => false) 2) sampleReplaced info b :=
    ⟨valid, pending, Option.isNone_iff_eq_none.mp first, Option.isSome_iff_ne_none.mp memory,
      admitted, fun transit => absurd head transit⟩
  refine ⟨info, b, parsed, found, completes, ?_⟩
  apply (push_survives_iff (by decide) (by decide) (by decide) run found completes).mpr
  refine ⟨?_, .inl head⟩
  rintro ⟨old, r, scanned, -⟩
  rw [alone] at scanned
  cases scanned

/-- LSP 1 is torn down, and the PATH of LSP 5 comes back to its ingress. -/
def sampleLooped : Node :=
  sampleReplaced.step (sampleEnv (fun _ => false) 2) (.recv (samplePath 0x0300000A 5 5))

/-- Then its first RESV installs a swap, and there is no push entry. -/
example :
    (sampleLooped.rsvpPsbFind (sampleKey 0x0300000A 5)).any (fun b =>
        b.body.isMbbPending && b.body.isIngress && b.body.prevHop.neighborAddr ≠ 0) = true ∧
      ((sampleLooped.step (sampleEnv (fun _ => false) 2)
        (.recv (sampleResv 0x0300000A 5 200 7))).rsvpRsbFind (sampleKey 0x0300000A 5)).any
          (fun r => r.body.labelOut = 200 && r.body.labelIn ≠ 0) = true ∧
      (sampleLooped.step (sampleEnv (fun _ => false) 2)
        (.recv (sampleResv 0x0300000A 5 200 7))).fwd (.push 0x0300000A) = none := by
  decide +kernel

end Rsvp
