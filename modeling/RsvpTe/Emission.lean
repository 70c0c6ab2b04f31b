import RsvpTe.EventCases
import RsvpTe.SentMessages
import RsvpTe.Daemon
import RsvpTe.EventEffects
import RsvpTe.KeyStability

/-!
# The packets of a daemon

Every packet in the log of a daemon is a `Message` behind an IP header (`Node.Speaks`), whatever
packets and commands it has served.
-/

namespace Rsvp

open Words

/-- Every packet of the log is a message behind an IP header. -/
def Node.Speaks (s : Node) : Prop :=
  ∀ dest useRao bytes, .packet dest useRao bytes ∈ s.out →
    ∃ (m : Message) (src : InAddr), bytes = rsvpPacket src dest m.bytes useRao

namespace Node.Speaks

variable {env : Env} {s : Node}

theorem send (speaks : s.Speaks) {m : Message} {msg : Bytes} (said : m.bytes = msg)
    (src dest : InAddr) (useRao : Bool) : (rsvpSendPacket s src dest msg useRao).Speaks := by
  rcases rsvpSendPacket_cases s src dest msg useRao with dropped | sent
  · rw [dropped]
    exact speaks
  · rw [sent]
    intro dest' useRao' bytes mem
    rcases List.mem_append.mp mem with old | new
    · exact speaks dest' useRao' bytes old
    · cases List.mem_singleton.mp new
      exact ⟨m, src, by rw [said]⟩

theorem install (speaks : s.Speaks) (inLabel outLabel outIfindex : UInt32) (nextHop dest : InAddr) :
    (s.halMplsInstall inLabel outLabel outIfindex nextHop dest).Speaks := by
  intro dest' useRao' bytes mem
  rcases List.mem_append.mp mem with old | new
  · exact speaks dest' useRao' bytes old
  · cases List.mem_singleton.mp new

theorem remove (speaks : s.Speaks) (inLabel : UInt32) (dest : Option InAddr) :
    (s.halMplsRemove inLabel dest).Speaks := by
  unfold Node.halMplsRemove
  intro dest' useRao' bytes mem
  rcases List.mem_append.mp mem with old | new
  · exact speaks dest' useRao' bytes old
  · cases List.mem_singleton.mp new

end Node.Speaks

variable {env : Env} {s : Node} {info : MessageInfo}

theorem sendPathDownstream_speaks (speaks : s.Speaks) (p : Ptr) :
    (sendPathDownstream env s p).Speaks := by
  unfold sendPathDownstream
  split
  · exact speaks
  · dsimp only
    split
    · exact speaks
    · refine Node.Speaks.send ?_ (Message.bytes_path ..) _ _ _
      exact speaks

theorem sendResv_speaks (speaks : s.Speaks) (b : Psb) (r : Rsb) :
    (sendResv env s b r).Speaks :=
  speaks.send (Message.bytes_resv ..) _ _ _

theorem sendResvUpstream_speaks (speaks : s.Speaks) (a : Ptr) :
    (sendResvUpstream env s a).Speaks := by
  unfold sendResvUpstream
  split
  · exact speaks
  · split
    · exact speaks
    · split
      · dsimp only
        split
        · exact speaks
        · refine sendResv_speaks ?_ _ _
          exact speaks
      · exact sendResv_speaks speaks _ _

theorem propagatePathTear_speaks (speaks : s.Speaks) (p : Ptr) :
    (propagatePathTear env s p).Speaks := by
  unfold propagatePathTear
  split
  · exact speaks
  · dsimp only
    split
    · exact speaks
    · refine Node.Speaks.send ?_ (Message.bytes_pathTear ..) _ _ _
      exact speaks

theorem propagateResvTear_speaks (speaks : s.Speaks) (a : Ptr) :
    (propagateResvTear env s a).Speaks := by
  unfold propagateResvTear
  split
  · exact speaks
  · split
    · exact speaks
    · dsimp only
      split
      · exact speaks
      · exact speaks.send (Message.bytes_resvTear ..) _ _ _

theorem sendPathErr_speaks (speaks : s.Speaks) (errorCode : UInt8) (errorValue : UInt16) :
    (sendPathErr env s info errorCode errorValue).Speaks :=
  speaks.send (Message.bytes_pathErr ..) _ _ _

theorem sendResvErr_speaks (speaks : s.Speaks) (errorCode : UInt8) (errorValue : UInt16) :
    (sendResvErr env s info errorCode errorValue).Speaks :=
  speaks.send (Message.bytes_resvErr ..) _ _ _

/-- A relayed error carries the ERROR_SPEC that it came with. -/
theorem propagateResvErr_speaks (speaks : s.Speaks) (r : Rsb) {spec : Option ErrorSpec}
    (held : spec ≠ none) : (propagateResvErr env s r spec).Speaks := by
  obtain ⟨e, rfl⟩ := Option.ne_none_iff_exists'.mp held
  unfold propagateResvErr
  split
  · exact speaks
  · dsimp only
    split
    · exact speaks
    · exact speaks.send (Message.bytes_resvErrRelay ..) _ _ _

/-! ### Removal -/

theorem rsvpPsbDelete_speaks (speaks : s.Speaks) (p : Ptr) : (s.rsvpPsbDelete p).Speaks := by
  unfold Node.rsvpPsbDelete
  split
  · exact speaks
  · dsimp only
    split
    · exact speaks
    · exact speaks

theorem rsvpRsbDelete_speaks (speaks : s.Speaks) (a : Ptr) : (s.rsvpRsbDelete a).Speaks := by
  unfold Node.rsvpRsbDelete
  split
  · exact speaks
  · dsimp only
    split
    · exact speaks
    · exact speaks

theorem rsbCleanupResources_speaks (speaks : s.Speaks) (a : Ptr) :
    (rsbCleanupResources s a).Speaks := by
  unfold rsbCleanupResources
  split
  · exact speaks
  · dsimp only
    split
    · exact speaks.remove _ _
    · split
      · exact speaks.remove _ _
      · exact speaks

theorem rsvpRsbCleanup_speaks (speaks : s.Speaks) (a : Ptr) (propagate : Bool) :
    (rsvpRsbCleanup env s a propagate).Speaks := by
  unfold rsvpRsbCleanup
  split
  · exact speaks
  · rename_i r found
    dsimp only
    have told : (if propagate = true ∧ ((s.psbOf r.body).any (·.body.isIngress)) = false then
        propagateResvTear env s a else s).Speaks := by
      split
      · exact propagateResvTear_speaks speaks a
      · exact speaks
    have released := rsbCleanupResources_speaks told a
    split
    · exact rsvpRsbDelete_speaks released a
    · exact rsvpRsbDelete_speaks (s := Node.modPsb _ _ _) released a

theorem rsvpPsbCleanup_speaks (speaks : s.Speaks) (p : Ptr) (propagate : Bool) :
    (rsvpPsbCleanup env s p propagate).Speaks := by
  unfold rsvpPsbCleanup
  split
  · exact speaks
  · rename_i b found
    dsimp only
    have told : (if propagate = true ∧ env.isLocalAddr b.key.session.destAddr = false then
        propagatePathTear env s p else s).Speaks := by
      split
      · exact propagatePathTear_speaks speaks p
      · exact speaks
    split
    · exact rsvpPsbDelete_speaks told p
    · exact rsvpPsbDelete_speaks (rsvpRsbCleanup_speaks told _ false) p

/-! ### Protection and make-before-break -/

theorem rsvpFrrAutoAssociate_speaks (speaks : s.Speaks) (p : Ptr) :
    (rsvpFrrAutoAssociate s p).Speaks := by
  unfold rsvpFrrAutoAssociate
  split
  · exact speaks
  · split
    · exact speaks
    · split
      · exact speaks
      · exact speaks

/-- A scan that speaks in each turn speaks. -/
theorem foldl_speaks {f : Node → Ptr → Node} (each : ∀ t p, t.Speaks → (f t p).Speaks)
    (speaks : s.Speaks) (ps : List Ptr) : (ps.foldl f s).Speaks := by
  induction ps generalizing s with
  | nil => exact speaks
  | cons p ps ih => exact ih (each s p speaks)

theorem rsvpFrrAutoAssociateAll_speaks (speaks : s.Speaks) (ifindex : UInt32) :
    (rsvpFrrAutoAssociateAll s ifindex).Speaks := by
  refine foldl_speaks (fun t p kept => ?_) speaks _
  split
  · exact kept
  · split_ifs
    · exact kept
    · exact kept
    · exact kept
    · exact kept
    · exact rsvpFrrAutoAssociate_speaks kept p

theorem rsvpMbbComplete_speaks (speaks : s.Speaks) (p : Ptr) :
    (rsvpMbbComplete env s p).Speaks := by
  unfold rsvpMbbComplete
  split
  · exact speaks
  · dsimp only
    split
    · exact speaks
    · exact rsvpPsbCleanup_speaks speaks _ true

theorem frrTriggerOne_speaks (speaks : s.Speaks) (ifindex : UInt32) (p : Ptr) :
    (frrTriggerOne env ifindex s p).Speaks := by
  unfold frrTriggerOne
  split
  · exact speaks
  · split
    · exact speaks
    · split
      · dsimp only
        split
        · exact speaks
        · split
          · exact speaks
          · refine sendPathDownstream_speaks ?_ p
            split
            · exact speaks
            · exact speaks.install _ _ _ _ _
      · exact speaks

theorem frrRevertOne_speaks (speaks : s.Speaks) (ifindex : UInt32) (p : Ptr) :
    (frrRevertOne env ifindex s p).Speaks := by
  unfold frrRevertOne
  split
  · exact speaks
  · split
    · exact speaks
    · split
      · split
        · exact speaks
        · refine sendPathDownstream_speaks ?_ p
          exact speaks.install _ _ _ _ _
      · exact speaks

theorem rsvpFrrTrigger_speaks (speaks : s.Speaks) (ifindex : UInt32) :
    (rsvpFrrTrigger env s ifindex).Speaks :=
  foldl_speaks (fun _ p kept => frrTriggerOne_speaks kept ifindex p) speaks _

theorem rsvpFrrRevert_speaks (speaks : s.Speaks) (ifindex : UInt32) :
    (rsvpFrrRevert env s ifindex).Speaks :=
  foldl_speaks (fun _ p kept => frrRevertOne_speaks kept ifindex p) speaks _

/-! ### PATH -/

theorem pathEgress_speaks (speaks : s.Speaks) (p : Ptr) : (pathEgress env s info p).Speaks := by
  unfold pathEgress
  dsimp only
  split
  · exact speaks
  · split
    · exact speaks
    · rename_i r t made
      obtain ⟨rsbs, -, rfl⟩ := Node.rsvpRsbCreate_eq_some made
      refine sendResvUpstream_speaks ?_ r
      exact speaks

theorem pathTransit_speaks (speaks : s.Speaks) (p : Ptr) (isNew : Bool) :
    (pathTransit env s info p isNew).Speaks := by
  unfold pathTransit
  split
  · exact speaks
  · dsimp only
    split
    · have told : ∀ f, (sendPathErr env (s.modPsb p f) info protoErrRoutingProblem 0).Speaks :=
        fun f => sendPathErr_speaks (s := s.modPsb p f) speaks _ _
      split
      · exact rsvpPsbDelete_speaks (told _) p
      · exact told _
    · have sent : ∀ f, (sendPathDownstream env (s.modPsb p f) p).Speaks :=
        fun f => sendPathDownstream_speaks (s := s.modPsb p f) speaks p
      split
      · exact sent _
      · split
        · exact rsvpFrrAutoAssociate_speaks (sent _) p
        · exact sent _

theorem pathArrived_speaks (speaks : s.Speaks) (p : Ptr) (isNew : Bool) :
    (pathArrived env s info p isNew).Speaks := by
  unfold pathArrived
  dsimp only
  split
  · exact pathEgress_speaks (s := s.modPsb p (pathUpdate env info)) speaks p
  · split
    · exact speaks
    · exact pathTransit_speaks (s := s.modPsb p (pathUpdate env info)) speaks p isNew

theorem handlePathMessage_speaks (speaks : s.Speaks) : (handlePathMessage env s info).Speaks := by
  unfold handlePathMessage
  dsimp only
  split
  · exact sendPathErr_speaks speaks _ _
  · split
    · exact pathArrived_speaks speaks _ false
    · split
      · exact speaks
      · rename_i p t made
        obtain ⟨psbs, -, rfl⟩ := Node.rsvpPsbCreate_eq_some made
        refine pathArrived_speaks ?_ p true
        exact speaks

/-! ### RESV -/

theorem resvFollowUp_speaks (speaks : s.Speaks) (b : Psb) (isNew labelChanged : Bool) :
    (resvFollowUp env s b isNew labelChanged).Speaks := by
  unfold resvFollowUp
  dsimp only
  have armed : (if b.body.isBypassTunnel = true ∧ (isNew = true ∨ labelChanged = true) then
      rsvpFrrAutoAssociateAll s b.body.frrProtectedIfindex else s).Speaks := by
    split
    · exact rsvpFrrAutoAssociateAll_speaks speaks _
    · exact speaks
  split
  · exact rsvpMbbComplete_speaks armed b.addr
  · exact armed

theorem resvProgram_speaks (speaks : s.Speaks) (b : Psb) (r : Rsb) (isNew labelChanged : Bool) :
    (resvProgram env s info b r isNew labelChanged).Speaks := by
  unfold resvProgram
  dsimp only
  split
  · split
    · split
      · refine sendResvErr_speaks ?_ _ _
        split
        · refine rsvpRsbCleanup_speaks ?_ r.addr false
          exact speaks
        · exact speaks
      · refine resvFollowUp_speaks (sendResvUpstream_speaks (Node.Speaks.install ?_ _ _ _ _ _) _) b _ _
        exact speaks
    · exact resvFollowUp_speaks (sendResvUpstream_speaks (speaks.install _ _ _ _ _) _) b _ _
  · exact resvFollowUp_speaks (speaks.install _ _ _ _ _) b _ _

theorem resvRefresh_speaks (speaks : s.Speaks) (r : Rsb) : (resvRefresh env s r).Speaks := by
  unfold resvRefresh
  split
  · exact speaks
  · split
    · exact sendResvUpstream_speaks speaks r.addr
    · exact speaks

theorem resvAccepted_speaks (speaks : s.Speaks) (r : Rsb) (isNew : Bool) :
    (resvAccepted env s info r isNew).Speaks := by
  unfold resvAccepted
  dsimp only
  split
  · split
    · exact speaks
    · refine resvProgram_speaks ?_ _ _ _ _
      exact speaks
  · refine resvRefresh_speaks ?_ _
    exact speaks

theorem resvArrived_speaks (speaks : s.Speaks) (a : Ptr) (isNew : Bool) :
    (resvArrived env s info a isNew).Speaks := by
  unfold resvArrived
  dsimp only
  split
  · exact speaks
  · split
    · split
      · refine rsvpRsbDelete_speaks ?_ a
        split
        · exact speaks
        · exact speaks
      · exact speaks
    · refine resvAccepted_speaks ?_ _ isNew
      exact speaks

theorem handleResvMessage_speaks (speaks : s.Speaks) : (handleResvMessage env s info).Speaks := by
  unfold handleResvMessage
  split
  · exact sendResvErr_speaks speaks _ _
  · split
    · exact resvArrived_speaks speaks _ false
    · split
      · exact speaks
      · rename_i a t made
        obtain ⟨rsbs, -, rfl⟩ := Node.rsvpRsbCreate_eq_some made
        refine resvArrived_speaks ?_ a true
        unfold resvLink
        split
        · exact speaks
        · exact speaks

/-! ### Tears and errors -/

theorem bsbRemove_speaks (speaks : s.Speaks) (key : PathKey) : (bsbRemove s key).Speaks := by
  unfold bsbRemove
  split
  · exact speaks
  · exact speaks

theorem handlePathTear_speaks (speaks : s.Speaks) : (handlePathTear env s info).Speaks := by
  unfold handlePathTear
  refine bsbRemove_speaks ?_ info.key
  split
  · exact speaks
  · exact rsvpPsbCleanup_speaks speaks _ true

theorem handleResvTear_speaks (speaks : s.Speaks) : (handleResvTear env s info).Speaks := by
  unfold handleResvTear
  refine bsbRemove_speaks ?_ info.key
  split
  · exact speaks
  · exact rsvpRsbCleanup_speaks speaks _ true

theorem handlePathErr_speaks (speaks : s.Speaks) (held : info.errorSpec ≠ none) :
    (handlePathErr env s info).Speaks := by
  obtain ⟨e, spec⟩ := Option.ne_none_iff_exists'.mp held
  unfold handlePathErr
  split
  · exact speaks
  · dsimp only
    split
    · exact speaks
    · rw [spec]
      exact speaks.send (Message.bytes_pathErrRelay ..) _ _ _

theorem handleResvErr_speaks (speaks : s.Speaks) (held : info.errorSpec ≠ none) :
    (handleResvErr env s info).Speaks := by
  obtain ⟨bsbs, same, -⟩ := @resvErrBlockade_eq env s info
  have blocked : (resvErrBlockade env s info).Speaks := by
    rw [same]
    exact speaks
  unfold handleResvErr
  dsimp only
  split
  · exact blocked
  · split
    · exact blocked
    · exact propagateResvErr_speaks blocked _ held

/-- The parser has made sure of the ERROR_SPEC of an error. -/
theorem errorSpec_held {buffer : Bytes} (parsed : rsvpParsePacket buffer = .ok info)
    (error : info.commonHdr.msgType = msgPathErr ∨ info.commonHdr.msgType = msgResvErr) :
    info.errorSpec ≠ none := by
  have mandatory : .errorSpec ∈ mandatorySlots info.commonHdr.msgType := by
    rcases error with type | type
    · rw [type]
      decide
    · rw [type]
      decide
  obtain ⟨o, held⟩ := objs_ne_none_of_mandatory parsed mandatory
  rw [MessageInfo.errorSpec, held]
  exact Option.some_ne_none _

/-! ### Events -/

theorem rsvpHandleMessage_speaks (speaks : s.Speaks) {packet : Bytes} {info : MessageInfo}
    (received : Receives env packet info) : (rsvpHandleMessage env s info).Speaks := by
  unfold rsvpHandleMessage
  dsimp only
  split
  · exact handlePathMessage_speaks speaks
  split
  · exact handleResvMessage_speaks speaks
  split
  · exact handlePathTear_speaks speaks
  split
  · exact handleResvTear_speaks speaks
  split
  · rename_i error
    exact handlePathErr_speaks speaks (errorSpec_held received.parsed (.inl error))
  split
  · rename_i error
    exact handleResvErr_speaks speaks (errorSpec_held received.parsed (.inr error))
  · exact speaks

/-- An LSP that is set up is announced. -/
theorem originated_speaks (speaks : s.Speaks) {key : PathKey} {p : Ptr} {t : Node}
    (made : s.rsvpPsbCreate env key = some (p, t)) (f : PsbState → PsbState) :
    (sendPathDownstream env (t.modPsb p f) p).Speaks := by
  obtain ⟨psbs, -, rfl⟩ := Node.rsvpPsbCreate_eq_some made
  refine sendPathDownstream_speaks ?_ p
  exact speaks

theorem Node.Speaks.step (speaks : s.Speaks) (ev : Event) : (s.step env ev).Speaks := by
  have numbered : s.numbered.Speaks := speaks
  have takes := s.step_takes env ev
  generalize s.step env ev = s' at takes ⊢
  cases takes with
  | idle => exact speaks
  | message received => exact rsvpHandleMessage_speaks speaks received
  | refreshed mem due => exact sendPathDownstream_speaks speaks _
  | restarted mem => exact speaks
  | psbExpired mem => exact rsvpPsbCleanup_speaks speaks _ true
  | resvRefreshed mem => exact resvRefresh_speaks speaks _
  | rsbExpired mem => exact rsvpRsbCleanup_speaks speaks _ true
  | bsbExpired => exact speaks
  | pathFailed => exact numbered
  | pathAgain mem key => exact sendPathDownstream_speaks numbered _
  | pathStarted absent made => exact originated_speaks numbered made _
  | bypassFailed => exact numbered
  | bypassStarted absent made => exact originated_speaks numbered made _
  | enabled scanned mem tunnel bypass => exact speaks
  | triggered => exact rsvpFrrTrigger_speaks speaks _
  | reverted => exact rsvpFrrRevert_speaks speaks _
  | tornDown scanned => exact rsvpPsbCleanup_speaks speaks _ true
  | mbbStarted scanned absent made => exact originated_speaks speaks made _

/-! ### The daemon -/

theorem bytes_hello (n : Neighbor) (answer : Bool) : (Message.hello n answer).bytes =
    helloMessage n (if answer then helloCtypeAck else helloCtypeRequest) := by
  rw [Message.bytes_eq]
  rfl

/-- The HELLO module hands out messages only. -/
theorem hello_sends {t : HelloTable} {ev : HelloEvent} {src dest : InAddr} {msg : Bytes}
    (sent : .sendPacket src dest msg ∈ (t.step ev).2) : ∃ m : Message, m.bytes = msg := by
  have hello : ∀ (n : Neighbor) (answer : Bool), .sendPacket src dest msg ∈
      sendHello n (if answer then helloCtypeAck else helloCtypeRequest) →
      ∃ m : Message, m.bytes = msg := by
    intro n answer mem
    rw [sendHello_eq, List.mem_singleton] at mem
    cases mem
    exact ⟨.hello n answer, bytes_hello n answer⟩
  cases ev with
  | add => cases sent
  | deadTimer addr =>
    dsimp only [HelloTable.step, HelloTable.deadTimerCb] at sent
    split at sent
    · cases sent
    · cases List.mem_singleton.mp sent
  | helloTimer addr =>
    dsimp only [HelloTable.step, HelloTable.helloTimerCb] at sent
    split at sent
    · cases sent
    · exact hello _ false sent
  | recv from_ x y cType rand =>
    rcases HelloTable.recv_calls_cases rand t from_ x y cType with ⟨n, -, calls⟩ | ⟨-, -, calls⟩
    · rw [calls] at sent
      rcases List.mem_append.mp sent with trigger | answer
      · split at trigger
        · cases List.mem_singleton.mp trigger
        · cases trigger
      · split at answer
        · exact hello _ true answer
        · cases answer
    · rw [calls] at sent
      cases sent

theorem Daemon.hello_speaks {d : Daemon} (speaks : d.node.Speaks) (ev : HelloEvent) :
    (d.hello env ev).node.Speaks := by
  have each : ∀ (calls : List HelloCall) (t : Node), t.Speaks →
      (∀ src dest msg, .sendPacket src dest msg ∈ calls → ∃ m : Message, m.bytes = msg) →
      (calls.foldl (Node.perform env) t).Speaks := by
    intro calls
    induction calls with
    | nil => exact fun _ kept _ => kept
    | cons c calls ih =>
      intro t kept said
      refine ih _ ?_ fun src dest msg mem => said src dest msg (List.mem_cons_of_mem c mem)
      cases c with
      | sendPacket src dest msg =>
        obtain ⟨m, bytes⟩ := said src dest msg List.mem_cons_self
        exact kept.send bytes src dest false
      | frrTrigger ifindex => exact rsvpFrrTrigger_speaks kept ifindex
  exact each _ _ speaks fun _ _ _ mem => hello_sends mem

theorem Daemon.step_speaks {d : Daemon} (speaks : d.node.Speaks) (ev : DaemonEvent) :
    (d.step env ev).node.Speaks := by
  cases ev with
  | packet bytes rand =>
    have handled : (d.node.step env (.recv bytes)).Speaks := speaks.step _
    unfold Daemon.step
    dsimp only
    split
    · exact handled
    · exact Daemon.hello_speaks handled _
  | lsp ev => exact speaks.step ev
  | addNeighbor addr localAddr ifindex rand => exact Daemon.hello_speaks speaks _
  | helloTimer addr => exact Daemon.hello_speaks speaks _
  | deadTimer addr => exact Daemon.hello_speaks speaks _

theorem Daemon.Reachable.speaks {labels : LabelMgr} {d : Daemon}
    (run : Daemon.Reachable labels d) : d.node.Speaks := by
  induction run with
  | init => exact fun _ _ _ mem => by cases mem
  | step env ev _ ih => exact Daemon.step_speaks ih ev

/-- Every packet a daemon has emitted is the message of a sender none of whose builder calls failed
for lack of space; the parser accepts it, and the handler finds the objects it asks for. -/
theorem emitted_accepted {labels : LabelMgr} {d : Daemon} (run : Daemon.Reachable labels d)
    {dest : InAddr} {useRao : Bool} {bytes : Bytes}
    (emitted : .packet dest useRao bytes ∈ d.node.out) :
    ∃ (m : Message) (src : InAddr), bytes = rsvpPacket src dest m.bytes useRao ∧
      m.start.HasRoom m.adds ∧ ∃ info, rsvpParsePacket bytes = .ok info ∧
        info.commonHdr.msgType = m.msgType ∧
        ∀ k ∈ handlerSlots m.msgType, info.objs k ≠ none := by
  obtain ⟨m, src, rfl⟩ := run.speaks dest useRao bytes emitted
  exact ⟨m, src, rfl, m.hasRoom, m.accepted src dest useRao⟩

/-- An egress that has received the first PATH of an LSP. -/
def sampleDaemon : Daemon :=
  Daemon.step (sampleEnv (· = 0x0300000A) 1) ⟨Node.init (labelMgrInit 16 31 true), []⟩
    (.packet (samplePath 0x0300000A 1 5) ⟨fun _ => 1, 0, by decide⟩)

theorem emitted_accepted_egress : ∃ dest useRao bytes info,
    .packet dest useRao bytes ∈ sampleDaemon.node.out ∧ rsvpParsePacket bytes = .ok info ∧
      info.commonHdr.msgType = msgResv := by
  have run : Daemon.Reachable (labelMgrInit 16 31 true) sampleDaemon := .step _ _ .init
  have types : sampleDaemon.node.out.map Output.msgType = [some msgResv] := by
    decide +kernel
  obtain ⟨o, mem, type⟩ := List.mem_map.mp (types ▸ List.mem_singleton.mpr rfl)
  cases o with
  | packet dest useRao bytes =>
    obtain ⟨m, src, -, -, info, parsed, -⟩ := emitted_accepted run mem
    obtain ⟨objs, -, rfl⟩ := Accepted.of_ok parsed
    exact ⟨dest, useRao, bytes, _, mem, parsed, Option.some.inj type⟩
  | mplsInstall => cases type
  | mplsRemove => cases type

end Rsvp
