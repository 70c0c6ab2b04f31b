import RsvpTe.Advertised
import RsvpTe.ResvRefresh

/-!
# Blockade and the reservation in place

A BSB holds the specification that a node downstream could not admit, and a RESV that asks for as
much is not installed.  The test reads the specification from the RSB, so the RESV's own is stored
there first.  The label, the next hop and the entry of the earlier reservation stay, but its
specification is lost: the RSB is now blockaded itself, and the next RESV upstream asks for nothing.
-/

namespace Rsvp

open Words

variable {env : Env} {s : Node} {info : MessageInfo} {k : PathKey} {r : Rsb} {q : Bsb}

/-- The reservation that RSB `r` holds for key `k` is as it was, and so is what is asked for
upstream. -/
structure Spared (s s' : Node) (k : PathKey) (r : Rsb) : Prop where
  rsb : ∃ r', s'.rsvpRsbFind k = some r' ∧ r'.body.flowspec = r.body.flowspec ∧
    r'.body.labelOut = r.body.labelOut ∧ r'.body.nextHop = r.body.nextHop
  labels : s'.labels = s.labels
  fwd : s'.fwd = s.fwd
  merged : ∀ b b', s.rsvpPsbFind k = some b → s'.rsvpPsbFind k = some b' →
    rsvpComputeMergedFlowspec s' b'.body = rsvpComputeMergedFlowspec s b.body

theorem flowspec_resvUpdate {o : Obj} (spec : info.objs .flowspec = some o) (rsb : RsbState) :
    (resvUpdate info rsb).flowspec = tspecCopyAndNtoh (.ofBytes o.data) := by
  unfold resvUpdate
  rw [spec]
  cases info.objs .timeValues <;> cases info.objs .style <;> rfl

/-- A RESV of a key with a PSB is refused exactly when it lacks its hop or its label. -/
theorem rsvpValidateResvMessage_eq_none_iff {b : Psb} (psb : s.rsvpPsbFind info.key = some b) :
    rsvpValidateResvMessage s info = none ↔
      ¬ (info.objs .hopV4 = none ∨ info.objs .label = none) := by
  unfold rsvpValidateResvMessage
  rw [psb, if_neg (Option.some_ne_none b)]
  cases info.objs .hopV4 <;> cases info.objs .label <;> simp

section Above

variable {o : Obj} (wf : s.Wf) (found : s.rsvpRsbFind info.key = some r)
  (blockade : s.rsvpBsbFind info.key = some q) (spec : info.objs .flowspec = some o)
  (above : isFlowspecGte (tspecCopyAndNtoh (.ofBytes o.data)) q.body.flowspecQb = true)
include wf found blockade spec above

/-- A RESV at or above the blockade is not installed, but what it asks for is stored. -/
theorem handleResvMessage_above (valid : rsvpValidateResvMessage s info = none) :
    handleResvMessage env s info = s.modRsb r.addr (resvUpdate info) := by
  obtain ⟨memr, key⟩ := Table.find_eq_some found
  obtain ⟨b, -, -, tied, -⟩ := wf.owned r memr
  have blockaded : resvBlockaded s info r.body = true := by
    rw [resvBlockaded, rsvpIsBlockaded, blockade]
    dsimp only
    rw [flowspec_resvUpdate spec]
    exact above
  rw [handleResvMessage_found valid found, resvArrived_blockaded memr tied key blockaded,
    if_neg Bool.false_ne_true]

/-- The RSB is blockaded from then on, and upstream nothing is asked for. -/
theorem merged_handleResvMessage_above {b : Psb} (psb : s.rsvpPsbFind info.key = some b)
    (valid : rsvpValidateResvMessage s info = none) :
    rsvpComputeMergedFlowspec (handleResvMessage env s info) b.body = controlledLoad := by
  obtain ⟨memr, key⟩ := Table.find_eq_some found
  obtain ⟨-, back⟩ := wf.psb_of_rsb (Table.find_eq_some psb).1 memr (wf.found_tied psb found)
  rw [handleResvMessage_above wf found blockade spec above valid, rsvpComputeMergedFlowspec,
    Node.rsbOf, back, Option.bind_some, get_modRsb memr]
  have blockaded : rsvpIsBlockaded (s.modRsb r.addr (resvUpdate info))
      { r with body := resvUpdate info r.body } = true := by
    have here : (s.modRsb r.addr (resvUpdate info)).rsvpBsbFind r.key = some q :=
      key.symm ▸ blockade
    unfold rsvpIsBlockaded
    dsimp only
    rw [here]
    dsimp only
    rw [flowspec_resvUpdate spec]
    exact above
  dsimp only
  rw [blockaded, if_pos rfl]

end Above

/-- A RESV at or above the blockade spares the reservation in place exactly when it is refused
because it lacks its hop or its label. -/
theorem spared_iff_refused {min max : UInt32} (low : 1 ≤ min) (ordered : min ≤ max)
    (high : max < 1048576) (run : Reachable (labelMgrInit min max true) s)
    (found : s.rsvpRsbFind k = some r) (admitted : rsvpIsBlockaded s r = false)
    (blockade : s.rsvpBsbFind k = some q) (same : info.key = k) {o : Obj}
    (spec : info.objs .flowspec = some o)
    (above : isFlowspecGte (tspecCopyAndNtoh (.ofBytes o.data)) q.body.flowspecQb = true) :
    Spared s (handleResvMessage env s info) k r ↔
      info.objs .hopV4 = none ∨ info.objs .label = none := by
  subst same
  have wf := run.wf (labelMgrInit_wf low ordered high).1
  obtain ⟨memr, key⟩ := Table.find_eq_some found
  obtain ⟨b, memb, keyB, -⟩ := wf.owned r memr
  have psb : s.rsvpPsbFind info.key = some b := key ▸ keyB ▸ wf.psbKeyed.find_of_mem memb
  constructor
  · intro spared
    by_contra valid
    have valid := (rsvpValidateResvMessage_eq_none_iff psb).mpr valid
    obtain ⟨r', found', flowspec, -⟩ := spared.rsb
    -- The RSB holds the new specification, and the old one was below the blockade.
    rw [handleResvMessage_above wf found blockade spec above valid, Node.rsvpRsbFind, Node.modRsb,
      Table.find_modify] at found'
    change Option.map _ (s.rsvpRsbFind info.key) = _ at found'
    rw [found, Option.map_some, if_pos rfl] at found'
    cases found'
    rw [flowspec_resvUpdate spec] at flowspec
    rw [rsvpIsBlockaded, key, blockade] at admitted
    dsimp only at admitted
    rw [← flowspec, above] at admitted
    exact Bool.false_ne_true admitted.symm
  · intro refused
    have invalid := mt (rsvpValidateResvMessage_eq_none_iff psb).mp (not_not_intro refused)
    obtain ⟨err, answered⟩ := Option.ne_none_iff_exists'.mp invalid
    obtain ⟨sent, eq⟩ := sendResvErr_out env info err.1 err.2
    have unchanged : handleResvMessage env s info = { s with out := s.out ++ sent } := by
      rw [handleResvMessage, answered]
      exact eq s
    rw [unchanged]
    refine ⟨⟨r, found, rfl, rfl, rfl⟩, rfl, rfl, fun c c' foundC foundC' => ?_⟩
    cases foundC.symm.trans foundC'
    rfl

/-! ## A transit LSP -/

/-- One unit of rate and of size. -/
def sampleSpec : SenderTspec :=
  { SenderTspec.zero with tokenBucketRate := 0x3F800000, tokenBucketSize := 0x3F800000 }

/-- The ResvErr of 10.0.0.3: this much was not admitted. -/
def sampleNotAdmitted : Bytes :=
  rsvpPacket 0x0300000A 0x0100000A ((rsvpBuilderInit 1024 msgResvErr)
    |>.call (addSession (sampleKey 0x0300000A 1))
    |>.call (addErrorSpec ⟨0x0300000A, 0, protoErrAdmissionControl, 0⟩)
    |>.call (rsvpBuilderAddFlowspec · sampleSpec)
    |>.call (addSender classFilterSpec (sampleKey 0x0300000A 1))
    |>.finish) false

/-- The transit node with its reservation of nothing in place, and the blockade. -/
def sampleBlockade : Node :=
  sampleTransit.step (sampleEnv (fun _ => false) 1) (.recv sampleNotAdmitted)

/-- The RESV of 10.0.0.3 that asks for as much, with a LABEL or without one. -/
def sampleDemand (labelled : Bool) : Bytes :=
  rsvpPacket 0x0300000A 0x0100000A ((rsvpBuilderInit 1024 msgResv)
    |>.call (addSession (sampleKey 0x0300000A 1))
    |>.call (rsvpBuilderAddHopIpv4 · 0x0300000A 7)
    |>.call (rsvpBuilderAddStyle · styleFf)
    |>.call (rsvpBuilderAddFlowspec · sampleSpec)
    |>.call (addSender classFilterSpec (sampleKey 0x0300000A 1))
    |>.call (fun b => if labelled then rsvpBuilderAddLabelIpv4 b 100 else (0, b))
    |>.finish) false

/-- The RESV asks for as much as the blockade of a key whose RSB is installed and admitted. -/
def Node.demands (s : Node) (info : MessageInfo) (test : Rsb → Bool) : Bool :=
  (s.rsvpRsbFind info.key).any fun r => (s.rsvpBsbFind info.key).any fun q =>
    (info.objs .flowspec).any fun o => test r && !rsvpIsBlockaded s r &&
      isFlowspecGte (tspecCopyAndNtoh (.ofBytes o.data)) q.body.flowspecQb &&
      (s.fwd (fwdKey r.body.labelIn info.key.session.destAddr)).isSome

theorem Node.demands_cases {test : Rsb → Bool} (demands : s.demands info test = true) :
    ∃ r q o, s.rsvpRsbFind info.key = some r ∧ s.rsvpBsbFind info.key = some q ∧
      info.objs .flowspec = some o ∧ test r = true ∧ rsvpIsBlockaded s r = false ∧
      isFlowspecGte (tspecCopyAndNtoh (.ofBytes o.data)) q.body.flowspecQb = true ∧
      s.fwd (fwdKey r.body.labelIn info.key.session.destAddr) ≠ none := by
  obtain ⟨r, found, demands⟩ := (Option.any_eq_true _ _).mp demands
  obtain ⟨q, blockade, demands⟩ := (Option.any_eq_true _ _).mp demands
  obtain ⟨o, spec, demands⟩ := (Option.any_eq_true _ _).mp demands
  simp only [Bool.and_eq_true, Bool.not_eq_true'] at demands
  obtain ⟨⟨⟨tested, admitted⟩, above⟩, entry⟩ := demands
  exact ⟨r, q, o, found, blockade, spec, tested, admitted, above,
    Option.isSome_iff_ne_none.mp entry⟩

theorem reachable_sampleBlockade : Reachable (labelMgrInit 16 31 true) sampleBlockade :=
  .step _ _ (.step _ _ (.step _ _ .init))

/-- Without its LABEL the RESV is refused. -/
theorem spared_iff_refused_unlabelled :
    ∃ info r, rsvpParsePacket (sampleDemand false) = .ok info ∧
      Spared sampleBlockade
        (handleResvMessage (sampleEnv (fun _ => false) 1) sampleBlockade info) info.key r := by
  have up : (rsvpParsePacket (sampleDemand false)).toOption.any (fun info =>
      sampleBlockade.demands info (fun _ => (info.objs .label).isNone)) = true := by
    decide +kernel
  obtain ⟨info, parsed, demands⟩ := ParseResult.exists_ok_of_any up
  obtain ⟨r, q, o, found, blockade, spec, bare, admitted, above, -⟩ := Node.demands_cases demands
  refine ⟨info, r, parsed, ?_⟩
  exact (spared_iff_refused (by decide) (by decide) (by decide) reachable_sampleBlockade found
    admitted blockade rfl spec above).mpr (.inr (Option.isNone_iff_eq_none.mp bare))

/-- With it, the RSB is left with the specification that was not admitted. -/
theorem exists_killer_reservation :
    Reachable (labelMgrInit 16 31 true) sampleBlockade ∧ ∃ info r q o,
      rsvpParsePacket (sampleDemand true) = .ok info ∧
      sampleBlockade.rsvpRsbFind info.key = some r ∧
      sampleBlockade.fwd (fwdKey r.body.labelIn info.key.session.destAddr) ≠ none ∧
      rsvpIsBlockaded sampleBlockade r = false ∧
      sampleBlockade.rsvpBsbFind info.key = some q ∧ info.objs .flowspec = some o ∧
      isFlowspecGte (tspecCopyAndNtoh (.ofBytes o.data)) q.body.flowspecQb = true ∧
      ¬ Spared sampleBlockade
        (handleResvMessage (sampleEnv (fun _ => false) 1) sampleBlockade info) info.key r := by
  have up : (rsvpParsePacket (sampleDemand true)).toOption.any (fun info =>
      sampleBlockade.demands info fun r =>
        ((handleResvMessage (sampleEnv (fun _ => false) 1) sampleBlockade info).rsvpRsbFind
          info.key).all (·.body.flowspec ≠ r.body.flowspec)) = true := by
    decide +kernel
  obtain ⟨info, parsed, demands⟩ := ParseResult.exists_ok_of_any up
  obtain ⟨r, q, o, found, blockade, spec, lost, admitted, above, entry⟩ := Node.demands_cases demands
  refine ⟨reachable_sampleBlockade, info, r, q, o, parsed, found, entry,
    admitted, blockade, spec, above, fun spared => ?_⟩
  obtain ⟨r', found', same, -⟩ := spared.rsb
  rw [found', Option.all_some, decide_eq_true_eq] at lost
  exact lost same

end Rsvp
