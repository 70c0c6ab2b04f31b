import RsvpTe.EventCases
import RsvpTe.TransitEntries

/-!
# Runs of transit LSPs

`Event.Faithful` are the events that leave every swap what its RSB says; in a run of such events
(`FaithfulRun`) the swap of an LSP leads where its RESV says.  At the end the run in which a RESV
from another interface leaves the old entry.
-/

namespace Rsvp

open Words Scan

variable {env : Env} {s s' s'' : Node} {info : MessageInfo} {created : PathKey → Prop}

/-! ## Every event -/

structure MessageInfo.Faithful (s : Node) (created : PathKey → Prop) (info : MessageInfo) :
    Prop where
  resv : info.commonHdr.msgType = msgResv → rsvpValidateResvMessage s info = none →
    info.Repeats s created
  path : info.commonHdr.msgType = msgPath → ∀ b, s.rsvpPsbFind info.key = some b →
    rsvpValidatePathMessage info (some b) = none → info.Restores s created b.addr

/-- The event is no RESV with a new interface only for an LSP that swaps, it gives no LSP without a
previous hop one unless its swap is in place, and it takes no LSP back that has no label. -/
def Event.Faithful (env : Env) (s : Node) (created : PathKey → Prop) : Event → Prop
  | .recv packet => ∀ info, Receives env packet info → info.Faithful s created
  | .frrRevert ifindex => ∀ b ∈ s.psbs, ∀ q r, Reverts env s ifindex b q r → created b.key →
    b.body.prevHop.neighborAddr ≠ 0 → r.body.labelIn ≠ 0
  | _ => True

/-- The keys whose RSB a RESV has created, after the event. -/
def Event.createdAfter (env : Env) (s : Node) (created : PathKey → Prop) (ev : Event)
    (key : PathKey) : Prop :=
  (created key ∧ s.rsvpRsbFind key ≠ none) ∨ s.rsvpRsbFind key = none ∧
    ∃ packet info, ev = .recv packet ∧ Receives env packet info ∧
      info.commonHdr.msgType = msgResv ∧ info.key = key

theorem bsbRemove_keepsSwaps (s : Node) (key : PathKey) :
    KeepsSwaps created s (bsbRemove s key) := by
  unfold bsbRemove
  split
  · exact .refl s
  · exact .of_same rfl rfl rfl

theorem rsvpHandleMessage_keepsSwaps (wf : s.Wf) (sound : s.ledger.Sound)
    (labelled : ∀ b r, Swapping s b r → created r.key → r.body.labelIn ≠ 0)
    (faithful : info.Faithful s created)
    (absent : info.commonHdr.msgType = msgPath → s.rsvpRsbFind info.key = none →
      ¬ created info.key) : KeepsSwaps created s (rsvpHandleMessage env s info) := by
  have apart := labelsApart_of_sound sound
  unfold rsvpHandleMessage
  dsimp only
  split
  · rename_i path
    exact handlePathMessage_keepsSwaps wf (absent path) (faithful.path path)
  split
  · rename_i resv
    exact handleResvMessage_keepsSwaps wf sound labelled (faithful.resv resv)
  split
  · unfold handlePathTear
    refine KeepsSwaps.trans ?_ (bsbRemove_keepsSwaps _ info.key)
    split
    · exact .refl s
    · rename_i b found
      exact rsvpPsbCleanup_keepsSwaps wf apart (Table.find_eq_some found).1 true
  split
  · unfold handleResvTear
    refine KeepsSwaps.trans ?_ (bsbRemove_keepsSwaps _ info.key)
    split
    · exact .refl s
    · rename_i r found
      obtain ⟨mem, -⟩ := Table.find_eq_some found
      obtain ⟨b, memb, -, tied, -⟩ := wf.owned r mem
      exact rsvpRsbCleanup_keepsSwaps apart memb mem tied true
  split
  · obtain ⟨out, told⟩ := @handlePathErr_eq env info s
    rw [told]
    exact .of_same rfl rfl rfl
  split
  · obtain ⟨bsbs, out, told⟩ := @handleResvErr_eq env info s
    rw [told]
    exact .of_same rfl rfl rfl
  · exact .refl s

theorem originated_keepsSwaps (wf : s.Wf) {key : PathKey} (absent : s.rsvpPsbFind key = none)
    {p : Ptr} {t : Node} {f : PsbState → PsbState} (made : s.rsvpPsbCreate env key = some (p, t)) :
    KeepsSwaps created s (sendPathDownstream env (t.modPsb p f) p) := by
  obtain ⟨psbs, new, rfl⟩ := Node.rsvpPsbCreate_eq_some made
  exact (created_keepsSwaps wf (Table.find_eq_none.mp absent) new).trans
    (sendPathDownstream_keepsSwaps _ p)

theorem Node.step_keepsSwaps (wf : s.Wf) (sound : s.ledger.Sound)
    (labelled : ∀ b r, Swapping s b r → created r.key → r.body.labelIn ≠ 0) {ev : Event}
    (faithful : ev.Faithful env s created)
    (absent : ∀ packet info, ev = .recv packet → Receives env packet info →
      info.commonHdr.msgType = msgPath → s.rsvpRsbFind info.key = none → ¬ created info.key) :
    KeepsSwaps created s (s.step env ev) := by
  have apart := labelsApart_of_sound sound
  have numbered : KeepsSwaps created s s.numbered := .of_same rfl rfl rfl
  have wfT : s.numbered.Wf := wf.congr rfl rfl wf.bsbKeyed wf.labels
  have restarted : ∀ (t : Node) p, KeepsSwaps created t (t.modPsb p fun x =>
      { x with refreshTimer := true }) := fun t p => .modPsb t p (fun _ => rfl) fun _ => rfl
  have takes := s.step_takes env ev
  generalize s.step env ev = s' at takes ⊢
  cases takes with
  | idle => exact .refl s
  | message received =>
    exact rsvpHandleMessage_keepsSwaps wf sound labelled (faithful _ received)
      (absent _ _ rfl received)
  | refreshed mem due => exact (sendPathDownstream_keepsSwaps s _).trans (restarted _ _)
  | restarted mem => exact restarted s _
  | psbExpired mem => exact rsvpPsbCleanup_keepsSwaps wf apart mem true
  | @resvRefreshed r mem =>
    obtain ⟨b, memb, -, tied, -⟩ := wf.owned r mem
    exact (resvRefresh_keepsSwaps wf memb mem tied (labelled b r)).trans
      (.modRsb _ r.addr (fun _ => rfl) (fun _ => rfl) fun _ => rfl)
  | @rsbExpired r mem =>
    obtain ⟨b, memb, -, tied, -⟩ := wf.owned r mem
    exact rsvpRsbCleanup_keepsSwaps apart memb mem tied true
  | bsbExpired => exact .of_same rfl rfl rfl
  | pathFailed => exact numbered
  | pathAgain mem key => exact numbered.trans (sendPathDownstream_keepsSwaps _ _)
  | pathStarted missing made => exact numbered.trans (originated_keepsSwaps wfT missing made)
  | bypassFailed => exact numbered
  | bypassStarted missing made => exact numbered.trans (originated_keepsSwaps wfT missing made)
  | enabled scanned mem tunnel bypass => exact .modPsb s _ (fun _ => rfl) fun _ => rfl
  | triggered => exact rsvpFrrTrigger_keepsSwaps wf apart _
  | reverted => exact rsvpFrrRevert_keepsSwaps wf apart faithful
  | tornDown scanned =>
    exact rsvpPsbCleanup_keepsSwaps wf apart (List.mem_of_find?_eq_some scanned) true
  | mbbStarted scanned missing made => exact originated_keepsSwaps wf missing made

/-! ## Runs -/

/-- No entry is ever written under label 0. -/
theorem Does.unset {hal : Hal} {act : Act} (wf : s.Wf) (does : Does hal act s s')
    (unset : s.fwd (.label 0) = none) : s'.fwd (.label 0) = none := by
  refine Option.eq_none_iff_forall_not_mem.mpr fun e entry => ?_
  rcases does.entry_origin wf entry with old | ⟨key, push | ⟨r, -, -, pos, label⟩, -⟩
  · exact Option.some_ne_none e (old.symm.trans unset)
  · cases push
  · exact pos (FwdKey.label.inj label).symm

theorem Reachable.unset {labels : LabelMgr} (pool : labels.Wf) (reachable : Reachable labels s) :
    s.fwd (.label 0) = none := by
  induction reachable with
  | init => rfl
  | @step t env ev before ih =>
    have wf := before.wf pool
    exact ((@Node.step_runs env (fun _ => True) t wf ev fun _ _ => trivial).induct wf ih
      fun _ _ _ _ wfT unset does => does.unset wfT unset).2

theorem Node.SwapsReflect.labelled (reflect : s.SwapsReflect created)
    (unset : s.fwd (.label 0) = none) (b : Psb) (r : Rsb) (swapping : Swapping s b r)
    (here : created r.key) : r.body.labelIn ≠ 0 := by
  intro zero
  have entry := reflect b r swapping here
  unfold Node.Reflects at entry
  rw [zero, unset] at entry
  cases entry

/-- An RSB that outlives the event was created when it was created before. -/
theorem Event.createdAfter.of_mem {ev : Event} {r : Rsb} (mem : r ∈ s.rsbs)
    (after : ev.createdAfter env s created r.key) : created r.key := by
  rcases after with ⟨before, -⟩ | ⟨missing, -⟩
  · exact before
  · exact absurd rfl (Table.find_eq_none.mp missing r mem)

/-- Fewer keys ask less of an event. -/
theorem Event.Faithful.of_imp {ev : Event} {created' : PathKey → Prop}
    (faithful : ev.Faithful env s created)
    (imp : ∀ r ∈ s.rsbs, created' r.key → created r.key) : ev.Faithful env s created' := by
  cases ev with
  | recv packet =>
    intro info received
    have before := faithful info received
    refine ⟨fun resv valid b r swapping key here => ?_, fun path b found valid c memc at_ r memr key
      here => ?_⟩
    · exact before.resv resv valid b r swapping key (imp r swapping.memr here)
    · exact before.path path b found valid c memc at_ r memr key (imp r memr here)
  | frrRevert ifindex =>
    intro b memb q r now here
    obtain ⟨memr, key⟩ := Table.find_eq_some now.found
    exact faithful b memb q r now (key ▸ imp r memr (key ▸ here))
  | _ => trivial

/-- The states of the runs of faithful events, with the keys whose RSB a RESV has created. -/
inductive FaithfulRun (labels : LabelMgr) : (PathKey → Prop) → Node → Prop
  | init : FaithfulRun labels (fun _ => False) (Node.init labels)
  | step {created : PathKey → Prop} {s : Node} (env : Env) (ev : Event) :
    FaithfulRun labels created s → ev.Faithful env s created →
    FaithfulRun labels (ev.createdAfter env s created) (s.step env ev)

theorem FaithfulRun.reachable {labels : LabelMgr} (run : FaithfulRun labels created s) :
    Reachable labels s := by
  induction run with
  | init => exact .init
  | step env ev _ _ ih => exact ih.step env ev

theorem FaithfulRun.reflect {labels : LabelMgr} (pool : labels.Wf)
    (unused : ∀ label, ¬ labels.InUse label) (run : FaithfulRun labels created s) :
    s.SwapsReflect created := by
  induction run with
  | init => exact fun _ _ _ here => here.elim
  | @step created s env ev before faithful ih =>
    have reachable := before.reachable
    have reflect : s.SwapsReflect (ev.createdAfter env s created) := fun b r swapping here =>
      ih b r swapping (here.of_mem swapping.memr)
    refine (Node.step_keepsSwaps (reachable.wf pool) (reachable.sound pool unused)
      (reflect.labelled (reachable.unset pool)) (faithful.of_imp fun r mem here => here.of_mem mem)
      ?_).reflect reflect
    -- A PATH for a key without an RSB leaves nothing that a RESV has created.
    rintro packet info rfl received path missing (⟨-, held⟩ | ⟨-, packet', info', same, received',
      resv, -⟩)
    · exact held missing
    · cases same
      obtain rfl := received.unique received'
      exact absurd (path.symm.trans resv) (by decide)

/-- In a faithful run the swap of an LSP says what its RSB says, and a RESV that is a mere refresh
says so too. -/
theorem transit_entry_of_faithfulRun {min max : UInt32} (low : 1 ≤ min) (ordered : min ≤ max)
    (high : max < 1048576) (run : FaithfulRun (labelMgrInit min max true) created s) {b : Psb}
    {r : Rsb} (swapping : Swapping s b r) (here : created r.key) :
    s.fwd (.label r.body.labelIn) = some ⟨r.body.labelOut,
      ntohl r.body.nextHop.logicalInterface, r.body.nextHop.neighborAddr⟩ ∧
    ∀ info : MessageInfo, info.Repeats s created → info.key = r.key →
      resvBlockaded s info r.body = false → ¬ ResvChanges info false r.body →
      s.fwd (.label r.body.labelIn) = some ⟨info.labelValue, ntohl info.hop.logicalInterface,
        info.hop.neighborAddr⟩ := by
  obtain ⟨pool, unused⟩ := labelMgrInit_wf low ordered high
  have entry := run.reflect pool unused b r swapping here
  refine ⟨entry, fun info repeats key admitted unchanged => ?_⟩
  have same := repeats_of_not_resvChanges unchanged
  rw [same.1, same.2, repeats b r swapping key.symm here admitted unchanged]
  exact entry

/-- The node whose LSP a RESV has set up. -/
theorem exists_faithfulRun_sampleTransit : ∃ created,
    FaithfulRun (labelMgrInit 16 31 true) created sampleTransit ∧
      created (sampleKey 0x0300000A 1) := by
  have quiet : ∀ (created : PathKey → Prop) (t : Node) (packet : Bytes), t.rsbs.blocks.length = 0 →
      (Event.recv packet).Faithful (sampleEnv (fun _ => false) 1) t created := by
    intro created t packet empty info _
    have bare : ∀ r, r ∉ t.rsbs := fun r mem => by
      rw [Table.mem_def, List.length_eq_zero_iff.mp empty] at mem
      cases mem
    exact ⟨fun _ _ b r swapping => absurd swapping.memr (bare r),
      fun _ b _ _ c _ _ r mem => absurd mem (bare r)⟩
  have facts : ((Node.init (labelMgrInit 16 31 true)).step (sampleEnv (fun _ => false) 1)
      (.recv (samplePath 0x0300000A 1 5))).rsbs.blocks.length = 0 ∧
      ((rsvpParsePacket ((sampleResv 0x0300000A 1 100 7).take maxRsvpPacketSize)).toOption.map
        fun info => (info.commonHdr.msgType, info.key)) = some (msgResv, sampleKey 0x0300000A 1) := by
    decide +kernel
  obtain ⟨info, parsed, named⟩ := Option.map_eq_some_iff.mp facts.2
  obtain ⟨resv, key⟩ := Prod.mk.inj named
  have received : Receives (sampleEnv (fun _ => false) 1) (sampleResv 0x0300000A 1 100 7) info :=
    ⟨fun own => Bool.false_ne_true own.2, ParseResult.ok_of_toOption parsed⟩
  have first : FaithfulRun (labelMgrInit 16 31 true) _ ((Node.init (labelMgrInit 16 31 true)).step
      (sampleEnv (fun _ => false) 1) (.recv (samplePath 0x0300000A 1 5))) :=
    .step _ _ .init (quiet _ _ _ rfl)
  refine ⟨_, first.step (sampleEnv (fun _ => false) 1) (.recv (sampleResv 0x0300000A 1 100 7))
    (quiet _ _ _ facts.1), .inr ⟨?_, _, info, rfl, received, resv, key⟩⟩
  refine Table.find_eq_none.mpr fun r mem => ?_
  rw [Table.mem_def, List.length_eq_zero_iff.mp facts.1] at mem
  cases mem

theorem transit_entry_of_faithfulRun_up : ∃ b r, Swapping sampleTransit b r ∧
    sampleTransit.fwd (.label r.body.labelIn) = some ⟨100, 7, 0x0300000A⟩ := by
  obtain ⟨created, run, here⟩ := exists_faithfulRun_sampleTransit
  have facts : sampleTransit.psbs.blocks.map (fun b =>
        (b.key, decide (b.body.prevHop.neighborAddr = 0), b.body.frrActive)) =
        [(sampleKey 0x0300000A 1, false, false)] ∧
      sampleTransit.rsbs.blocks.map (fun r => (r.key, Rsb.entry r)) =
        [(sampleKey 0x0300000A 1, ⟨100, 7, 0x0300000A⟩)] := by
    decide +kernel
  obtain ⟨b, memb, psb⟩ := List.mem_map.mp (facts.1 ▸ List.mem_singleton.mpr rfl)
  obtain ⟨r, memr, rsb⟩ := List.mem_map.mp (facts.2 ▸ List.mem_singleton.mpr rfl)
  simp only [Prod.mk.injEq, decide_eq_false_iff_not] at psb rsb
  have swapping : Swapping sampleTransit b r :=
    ⟨memb, memr, rsb.1.trans psb.1.symm, psb.2.1, psb.2.2⟩
  have entry := (transit_entry_of_faithfulRun (by decide) (by decide) (by decide) run swapping
    (rsb.1.symm ▸ here)).1
  exact ⟨b, r, swapping, entry.trans (congrArg some rsb.2)⟩

/-- The next hop answers from another interface, with the label of before. -/
def sampleMoved : Node :=
  sampleTransit.step (sampleEnv (fun _ => false) 1) (.recv (sampleResv 0x0300000A 1 100 8))

/-- The RSB takes the new interface over, and the entry does not. -/
theorem exists_entry_stale : ∃ created, FaithfulRun (labelMgrInit 16 31 true) created sampleTransit ∧
    ∃ b r, Swapping sampleMoved b r ∧
      (Event.recv (sampleResv 0x0300000A 1 100 8)).createdAfter (sampleEnv (fun _ => false) 1)
        sampleTransit created r.key ∧
      sampleMoved.fwd (.label r.body.labelIn) ≠ some ⟨r.body.labelOut,
        ntohl r.body.nextHop.logicalInterface, r.body.nextHop.neighborAddr⟩ := by
  obtain ⟨created, run, here⟩ := exists_faithfulRun_sampleTransit
  have facts : (sampleTransit.rsvpRsbFind (sampleKey 0x0300000A 1)).isSome = true ∧
      sampleMoved.psbs.blocks.map (fun b =>
        (b.key, decide (b.body.prevHop.neighborAddr = 0), b.body.frrActive)) =
        [(sampleKey 0x0300000A 1, false, false)] ∧
      sampleMoved.rsbs.blocks.map (fun r =>
        (r.key, decide (sampleMoved.fwd (.label r.body.labelIn) = some (Rsb.entry r)))) =
        [(sampleKey 0x0300000A 1, false)] := by
    decide +kernel
  obtain ⟨held, psbs, rsbs⟩ := facts
  obtain ⟨b, memb, psb⟩ := List.mem_map.mp (psbs ▸ List.mem_singleton.mpr rfl)
  obtain ⟨r, memr, rsb⟩ := List.mem_map.mp (rsbs ▸ List.mem_singleton.mpr rfl)
  simp only [Prod.mk.injEq, decide_eq_false_iff_not] at psb rsb
  refine ⟨created, run, b, r, ⟨memb, memr, rsb.1.trans psb.1.symm, psb.2.1, psb.2.2⟩, .inl ?_,
    rsb.2⟩
  rw [rsb.1]
  exact ⟨here, Option.isSome_iff_ne_none.mp held⟩

end Rsvp
