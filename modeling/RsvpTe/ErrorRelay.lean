import RsvpTe.EventCases
import RsvpTe.Blockade
import RsvpTe.SentMessages

/-!
# Admission errors along a chain of nodes

A node that receives a ResvErr for an admission failure keeps the FLOWSPEC of the message as a
blockade and passes the error on downstream.  What it passes on names the key and carries the
ERROR_SPEC, but no FLOWSPEC, and without one the next node stores nothing.

So an `ErrorPassage` sets the blockade of its first node only.
-/

namespace Rsvp

open Words

variable {env : Env} {s : Node} {info : MessageInfo}

/-- The node holds a blockade for the key with specification `qb`. -/
def Node.Blockades (s : Node) (k : PathKey) (qb : SenderTspec) : Prop :=
  ∃ q, s.rsvpBsbFind k = some q ∧ q.body.flowspecQb = qb

theorem Node.blockades_congr {s s' : Node} (same : s'.bsbs = s.bsbs) {k : PathKey}
    {qb : SenderTspec} : s'.Blockades k qb ↔ s.Blockades k qb := by
  rw [Blockades, Node.rsvpBsbFind, same]
  exact Iff.rfl

/-! ## The blockade of one node -/

/-- An admission failure with a FLOWSPEC sets the blockade, unless there is no memory for one. -/
theorem resvErrBlockade_blockades {spec : ErrorSpec} {o : Obj} (error : info.errorSpec = some spec)
    (code : spec.errorCode = protoErrAdmissionControl) (carried : info.objs .flowspec = some o) :
    (resvErrBlockade env s info).Blockades info.key (tspecCopyAndNtoh (.ofBytes o.data)) ↔
      s.rsvpBsbFind info.key ≠ none ∨ s.rsvpBsbCreate env info.key ≠ none := by
  unfold resvErrBlockade
  rw [error, carried]
  dsimp only
  rw [if_pos code]
  cases found : s.rsvpBsbFind info.key with
  | some q =>
    refine iff_of_true ⟨⟨q.addr, q.key, ⟨_, true⟩⟩, ?_, rfl⟩ (.inl (Option.some_ne_none q))
    refine (Table.find_modify s.bsbs q.addr _ info.key).trans ?_
    change Option.map _ (s.rsvpBsbFind info.key) = _
    rw [found, Option.map_some, if_pos rfl]
    rfl
  | none =>
    cases made : s.rsvpBsbCreate env info.key with
    | none =>
      refine iff_of_false (fun blockades => ?_) (fun either => either.elim (· rfl) (· rfl))
      obtain ⟨q, found', -⟩ := blockades
      cases found.symm.trans found'
    | some pair =>
      obtain ⟨⟨a, bsbs⟩, create, rfl⟩ := Option.map_eq_some_iff.mp made
      exact iff_of_true ⟨_, Table.find_modify_create found create _, rfl⟩
        (.inr (Option.some_ne_none _))

/-- Without a FLOWSPEC nothing is stored. -/
theorem resvErrBlockade_bare (bare : info.objs .flowspec = none) :
    resvErrBlockade env s info = s := by
  unfold resvErrBlockade
  rw [bare]
  cases info.errorSpec <;> rfl

theorem resvErrBlockade_out : (resvErrBlockade env s info).out = s.out := by
  unfold resvErrBlockade
  split
  · dsimp only
    split
    · cases s.rsvpBsbFind info.key with
      | some q => rfl
      | none =>
        cases made : s.rsvpBsbCreate env info.key with
        | none => rfl
        | some pair =>
          obtain ⟨created, -, rfl⟩ := Option.map_eq_some_iff.mp made
          rfl
    · rfl
  · rfl

/-! ## What is passed on -/

/-- The packet is a ResvErr that a node passes on. -/
def IsErrorRelay (packet : Bytes) : Prop :=
  ∃ src dest key spec localAddr ifindex,
    packet = rsvpPacket src dest (resvErrRelay key (some spec) localAddr ifindex) false

/-- It carries an ERROR_SPEC and no FLOWSPEC. -/
theorem IsErrorRelay.received {packet : Bytes} (relay : IsErrorRelay packet)
    (received : Receives env packet info) :
    info.commonHdr.msgType = msgResvErr ∧ info.errorSpec ≠ none ∧ info.objs .flowspec = none := by
  obtain ⟨src, dest, key, spec, localAddr, ifindex, rfl⟩ := relay
  obtain ⟨-, -, -, -, -, fits⟩ := short_calls_fit key .zero spec (some spec) localAddr ifindex
  have parsed := received.parsed
  rw [resvErrRelay_eq, take_rsvpPacket_built _ _ _ _ fits (by decide)] at parsed
  have valid : ∀ c ∈ errorRelayCalls key (some spec) localAddr ifindex ++
      [styleCall styleFf, senderCall classFilterSpec key], c.Valid :=
    (Message.resvErrRelay key spec localAddr ifindex).valid
  have mandatory : ∀ k ∈ mandatorySlots msgResvErr,
      (firstCall (errorRelayCalls key (some spec) localAddr ifindex ++
        [styleCall styleFf, senderCall classFilterSpec key]) k).isSome = true := by
    intro k mem
    have slots : mandatorySlots msgResvErr = [.sessV4, .errorSpec] := by decide
    rw [slots, List.mem_cons, List.mem_singleton] at mem
    rcases mem with rfl | rfl
    · rfl
    · rfl
  obtain ⟨info', parsed', decodes, -⟩ := parse_built 255 fits (by decide) valid mandatory src dest
    false
  cases parsed'.symm.trans parsed
  obtain ⟨o, held, -⟩ := decodes.data_eq
    (rfl : firstCall (errorRelayCalls key (some spec) localAddr ifindex ++
      [styleCall styleFf, senderCall classFilterSpec key]) .errorSpec = some (errorCall spec))
  refine ⟨decodes.msgType, ?_, Option.map_eq_none_iff.mp (decodes.objs .flowspec)⟩
  rw [MessageInfo.errorSpec, held]
  exact Option.some_ne_none _

/-- The blockade aside, a ResvErr only makes a node pass it on. -/
theorem handleResvErr_passes (error : info.errorSpec ≠ none) :
    (handleResvErr env s info).bsbs = (resvErrBlockade env s info).bsbs ∧
      ∃ sent, (handleResvErr env s info).out = s.out ++ sent ∧
        ∀ dest useRao packet, .packet dest useRao packet ∈ sent → IsErrorRelay packet := by
  obtain ⟨spec, error⟩ := Option.ne_none_iff_exists'.mp error
  have silent : ∀ t : Node, t.out = s.out → ∃ sent, t.out = s.out ++ sent ∧
      ∀ dest useRao packet, .packet dest useRao packet ∈ sent → IsErrorRelay packet := by
    intro t same
    refine ⟨[], same.trans (List.append_nil _).symm, fun dest useRao packet mem => ?_⟩
    cases mem
  have kept := @resvErrBlockade_out env s info
  unfold handleResvErr
  dsimp only
  rw [error]
  split
  · exact ⟨rfl, silent _ kept⟩
  · split
    · exact ⟨rfl, silent _ kept⟩
    · unfold propagateResvErr
      split
      · exact ⟨rfl, silent _ kept⟩
      · dsimp only
        split
        · exact ⟨rfl, silent _ kept⟩
        · rename_i psb _ _ ifindex _
          obtain ⟨-, -, -, -, -, fits⟩ := short_calls_fit psb.key .zero spec (some spec)
            (env.localAddrOrZero ifindex) ifindex
          rw [resvErrRelay_eq, rsvpSendPacket_built _ _ _ _ _ fits (by decide), ← resvErrRelay_eq]
          refine ⟨rfl, [_], congrArg (· ++ [_]) kept, fun dest useRao packet mem => ?_⟩
          cases List.mem_singleton.mp mem
          exact ⟨_, _, _, _, _, _, rfl⟩

theorem rsvpHandleMessage_resvErr (type : info.commonHdr.msgType = msgResvErr) :
    rsvpHandleMessage env s info = handleResvErr env s info := by
  unfold rsvpHandleMessage
  dsimp only
  rw [type]
  rfl

/-- A packet that is not received changes nothing. -/
theorem step_recv (env : Env) (s : Node) (packet : Bytes) :
    s.step env (.recv packet) = s ∨ ∃ info, Receives env packet info := by
  have takes := s.step_takes env (.recv packet)
  generalize s.step env (.recv packet) = s' at takes ⊢
  cases takes with
  | idle => exact .inl rfl
  | message received => exact .inr ⟨_, received⟩

/-- A node that gets such a packet keeps its blockades and passes on another one, if anything. -/
theorem IsErrorRelay.step {packet : Bytes} (relay : IsErrorRelay packet) :
    (s.step env (.recv packet)).bsbs = s.bsbs ∧
      ∃ sent, (s.step env (.recv packet)).out = s.out ++ sent ∧
        ∀ dest useRao next, .packet dest useRao next ∈ sent → IsErrorRelay next := by
  rcases step_recv env s packet with same | ⟨info, received⟩
  · rw [same]
    exact ⟨rfl, [], (List.append_nil _).symm, fun _ _ _ mem => by cases mem⟩
  · obtain ⟨type, error, bare⟩ := relay.received received
    rw [received.step_eq, rsvpHandleMessage_resvErr type]
    obtain ⟨bsbs, passes⟩ := @handleResvErr_passes env s info error
    rw [resvErrBlockade_bare bare] at bsbs
    exact ⟨bsbs, passes⟩

/-! ## Passages -/

/-- The ResvErr `packet` reaches the first of the nodes, and what each node sends for it reaches the
next; the last list holds the nodes as they are then. -/
inductive ErrorPassage : List (Env × Node) → Bytes → List Node → Prop
  | last {env : Env} {s : Node} {packet : Bytes} :
    ErrorPassage [(env, s)] packet [s.step env (.recv packet)]
  | hop {env : Env} {s : Node} {packet next : Bytes} {sent : List Output} {dest : InAddr}
    {useRao : Bool} {nodes : List (Env × Node)} {after : List Node} :
    (s.step env (.recv packet)).out = s.out ++ sent → .packet dest useRao next ∈ sent →
    ErrorPassage nodes next after →
    ErrorPassage ((env, s) :: nodes) packet (s.step env (.recv packet) :: after)

/-- A ResvErr that was passed on changes no blockade. -/
theorem ErrorPassage.blockades_iff {nodes : List (Env × Node)} {packet : Bytes}
    {after : List Node} (passage : ErrorPassage nodes packet after) (relay : IsErrorRelay packet)
    (k : PathKey) (qb : SenderTspec) :
    (∀ s ∈ after, s.Blockades k qb) ↔ ∀ node ∈ nodes, node.2.Blockades k qb := by
  induction passage with
  | @last env s packet =>
    simp only [List.mem_singleton, forall_eq]
    exact Node.blockades_congr (@IsErrorRelay.step env s packet relay).1
  | @hop env s packet next sent dest useRao nodes after logged mem _ ih =>
    obtain ⟨bsbs, sent', logged', passes⟩ := @IsErrorRelay.step env s packet relay
    cases List.append_cancel_left (logged'.symm.trans logged)
    rw [List.forall_mem_cons, List.forall_mem_cons, ih (passes dest useRao next mem),
      Node.blockades_congr bsbs]

/-- An admission error with FLOWSPEC `o` leaves all nodes it passes with that blockade iff the first
one has a BSB for the key, or memory for one, and the others had this very blockade before. -/
theorem passage_blockades_iff {packet : Bytes} {spec : ErrorSpec} {o : Obj}
    {nodes : List (Env × Node)} {after : List Node} (received : Receives env packet info)
    (type : info.commonHdr.msgType = msgResvErr) (error : info.errorSpec = some spec)
    (code : spec.errorCode = protoErrAdmissionControl) (carried : info.objs .flowspec = some o)
    (passage : ErrorPassage ((env, s) :: nodes) packet after) :
    (∀ s' ∈ after, s'.Blockades info.key (tspecCopyAndNtoh (.ofBytes o.data))) ↔
      (s.rsvpBsbFind info.key ≠ none ∨ s.rsvpBsbCreate env info.key ≠ none) ∧
        ∀ node ∈ nodes, node.2.Blockades info.key (tspecCopyAndNtoh (.ofBytes o.data)) := by
  have stepped : s.step env (.recv packet) = handleResvErr env s info := by
    rw [received.step_eq, rsvpHandleMessage_resvErr type]
  obtain ⟨bsbs, sent, logged, passes⟩ := @handleResvErr_passes env s info
    (error ▸ Option.some_ne_none spec)
  rw [← stepped] at bsbs logged
  have first := (Node.blockades_congr bsbs).trans
    (@resvErrBlockade_blockades env s info spec o error code carried)
  cases passage with
  | last =>
    simp only [List.mem_singleton, forall_eq, List.not_mem_nil, false_imp_iff, implies_true,
      and_true]
    exact first
  | @hop _ _ _ next sent' dest useRao _ after logged' mem passage =>
    cases List.append_cancel_left (logged'.symm.trans logged)
    rw [List.forall_mem_cons, first, passage.blockades_iff (passes dest useRao next mem)]

/-! ## A transit node and its egress -/

theorem sampleNotAdmitted_received : ∃ info spec o,
    Receives (sampleEnv (fun _ => false) 1) sampleNotAdmitted info ∧
    info.commonHdr.msgType = msgResvErr ∧ info.errorSpec = some spec ∧
    spec.errorCode = protoErrAdmissionControl ∧ info.objs .flowspec = some o ∧
    info.key = sampleKey 0x0300000A 1 := by
  have up : (rsvpParsePacket (sampleNotAdmitted.take maxRsvpPacketSize)).toOption.any (fun info =>
      info.commonHdr.msgType = msgResvErr ∧
      info.errorSpec.map ErrorSpec.errorCode = some protoErrAdmissionControl ∧
      (info.objs .flowspec).isSome = true ∧ info.key = sampleKey 0x0300000A 1) = true := by
    decide +kernel
  obtain ⟨info, parsed, holds⟩ := ParseResult.exists_ok_of_any up
  obtain ⟨type, code, carried, key⟩ := of_decide_eq_true holds
  obtain ⟨spec, error, code⟩ := Option.map_eq_some_iff.mp code
  obtain ⟨o, carried⟩ := Option.isSome_iff_exists.mp carried
  exact ⟨info, spec, o, ⟨fun own => Bool.false_ne_true own.2, parsed⟩,
    type, error, code, carried, key⟩

/-- The transit node passes the error on. -/
theorem sampleNotAdmitted_passes (env : Env) (s : Node) :
    ErrorPassage [(sampleEnv (fun _ => false) 1, sampleTransit), (env, s)] sampleNotAdmitted
      [sampleBlockade, s.step env (.recv sampleBlockade.lastPacket)] := by
  have logged : sampleBlockade.out =
      sampleTransit.out ++ [.packet 0x0300000A false sampleBlockade.lastPacket] := by
    decide +kernel
  exact .hop logged (List.mem_singleton.mpr rfl) .last

/-- A second node that has the blockade already. -/
theorem passage_blockades_iff_second : ∃ info o,
    Receives (sampleEnv (fun _ => false) 1) sampleNotAdmitted info ∧
    info.objs .flowspec = some o ∧
    (sampleBlockade.step (sampleEnv (fun _ => false) 1) (.recv sampleBlockade.lastPacket)).Blockades
      info.key (tspecCopyAndNtoh (.ofBytes o.data)) := by
  obtain ⟨info, spec, o, received, type, error, code, carried, key⟩ := sampleNotAdmitted_received
  have memory : sampleTransit.rsvpBsbCreate (sampleEnv (fun _ => false) 1) info.key ≠ none := by
    rw [key]
    decide +kernel
  have stored : sampleBlockade.Blockades info.key (tspecCopyAndNtoh (.ofBytes o.data)) := by
    have some : info.errorSpec ≠ none := by
      rw [error]
      exact Option.some_ne_none spec
    have passed := (@handleResvErr_passes (sampleEnv (fun _ => false) 1) sampleTransit info some).1
    rw [sampleBlockade, received.step_eq, rsvpHandleMessage_resvErr type,
      Node.blockades_congr passed]
    exact (resvErrBlockade_blockades error code carried).mpr (.inr memory)
  have second : ∀ node ∈ [(sampleEnv (fun _ => false) 1, sampleBlockade)],
      node.2.Blockades info.key (tspecCopyAndNtoh (.ofBytes o.data)) := by
    rw [List.forall_mem_singleton]
    dsimp only
    exact stored
  have all := (passage_blockades_iff received type error code carried
    (sampleNotAdmitted_passes (sampleEnv (fun _ => false) 1) sampleBlockade)).mpr
    ⟨.inr memory, second⟩
  rw [List.forall_mem_cons, List.forall_mem_singleton] at all
  exact ⟨info, o, received, carried, all.2⟩

/-- The egress of a chain of two that both hold a reservation is told of the error and stores no
blockade. -/
theorem exists_unblockaded_egress : ∃ info spec o after,
    Receives (sampleEnv (fun _ => false) 1) sampleNotAdmitted info ∧
    info.commonHdr.msgType = msgResvErr ∧ info.errorSpec = some spec ∧
    spec.errorCode = protoErrAdmissionControl ∧ info.objs .flowspec = some o ∧
    Reachable (labelMgrInit 16 31 true) sampleTransit ∧
    Reachable (labelMgrInit 16 31 true) sampleEgress ∧
    sampleTransit.rsvpRsbFind info.key ≠ none ∧ sampleEgress.rsvpRsbFind info.key ≠ none ∧
    sampleTransit.rsvpBsbCreate (sampleEnv (fun _ => false) 1) info.key ≠ none ∧
    ErrorPassage [(sampleEnv (fun _ => false) 1, sampleTransit),
      (sampleEnv (· = 0x0300000A) 1, sampleEgress)] sampleNotAdmitted after ∧
    ∃ s' ∈ after, s'.rsvpBsbFind info.key = none := by
  obtain ⟨info, spec, o, received, type, error, code, carried, key⟩ := sampleNotAdmitted_received
  have facts : sampleTransit.rsvpRsbFind (sampleKey 0x0300000A 1) ≠ none ∧
      sampleEgress.rsvpRsbFind (sampleKey 0x0300000A 1) ≠ none ∧
      sampleTransit.rsvpBsbCreate (sampleEnv (fun _ => false) 1) (sampleKey 0x0300000A 1) ≠ none ∧
      (sampleEgress.step (sampleEnv (· = 0x0300000A) 1)
        (.recv sampleBlockade.lastPacket)).rsvpBsbFind (sampleKey 0x0300000A 1) = none := by
    decide +kernel
  rw [← key] at facts
  obtain ⟨transit, egress, memory, none⟩ := facts
  have last : ∀ first second : Node, second ∈ [first, second] := fun first second =>
    List.mem_cons_of_mem first (List.mem_singleton_self second)
  exact ⟨info, spec, o, _, received, type, error, code, carried, .step _ _ (.step _ _ .init),
    .step _ _ .init, transit, egress, memory, sampleNotAdmitted_passes _ _,
    _, last _ _, none⟩

end Rsvp
