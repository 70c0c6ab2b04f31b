import RsvpTe.Emission

/-!
# The writes of the state machine

Seen from its tables every handler is a sequence of few kinds of writes.  `Write` lists them, with
what a handler always has at hand when it makes one: a packet that it sends is a message behind
an IP header, a label that it takes is the allocator's, and a label that it programs or gives back is
that of an RSB.  `Daemon.step_writes` says that nothing else happens, so that what every write keeps
holds in every run.
-/

namespace Rsvp

/-- A label that is zero or the label of an RSB. -/
def Node.Labels (s : Node) (label : UInt32) : Prop := label = 0 ∨ ∃ r ∈ s.rsbs, r.body.labelIn = label

/-- A message of the state machine. -/
def Message.OfLsp : Message → Prop
  | .hello .. => False
  | _ => True

theorem Message.OfLsp.msgType_ne {m : Message} (lsp : m.OfLsp) : m.msgType ≠ msgHello := by
  cases m with
  | hello => exact lsp.elim
  | _ =>
    dsimp only [Message.msgType]
    decide

/-- One write, by someone who sends the messages in `sends`. -/
inductive Write (sends : Message → Prop) : Node → Node → Prop
  | psbs {s : Node} (psbs : Table PathKey PsbState) : Write sends s { s with psbs := psbs }
  | bsbs {s : Node} (bsbs : Table PathKey BsbState) : Write sends s { s with bsbs := bsbs }
  | nextLspId {s : Node} (nextLspId : UInt16) : Write sends s { s with nextLspId := nextLspId }
  | packet {s : Node} {m : Message} (src dest : InAddr) (useRao : Bool) : sends m →
    Write sends s (s.emit (.packet dest useRao (rsvpPacket src dest m.bytes useRao)))
  | rsb {s : Node} (r : Ptr) (f : RsbState → RsbState) : (∀ x, (f x).labelIn = x.labelIn) →
    Write sends s (s.modRsb r f)
  | newRsb {s : Node} {mem : Option Ptr} {key : PathKey} {r : Ptr} {rsbs : Table PathKey RsbState} :
    s.rsbs.create rsvpKeyHash mem key .zero = some (r, rsbs) → Write sends s { s with rsbs := rsbs }
  | dropRsb {s : Node} (r : Ptr) : Write sends s { s with rsbs := s.rsbs.unlink r }
  | take {s : Node} (r : Ptr) :
    Write sends s ({ s with labels := (labelMgrAlloc s.labels).2 }.modRsb r
      fun x => { x with labelIn := (labelMgrAlloc s.labels).1 })
  | free {s : Node} (r : Ptr) (label : UInt32) :
    Write sends s ({ s with labels := labelMgrFree s.labels label }.modRsb r fun x =>
      { x with labelIn := 0 })
  | install {s : Node} {inLabel : UInt32} (outLabel outIfindex : UInt32) (nextHop dest : InAddr) :
    s.Labels inLabel → Write sends s (s.halMplsInstall inLabel outLabel outIfindex nextHop dest)
  | remove {s : Node} {inLabel : UInt32} (dest : Option InAddr) :
    s.Labels inLabel → Write sends s (s.halMplsRemove inLabel dest)

/-- A sequence of writes of the state machine. -/
def Writes : Node → Node → Prop := Relation.ReflTransGen (Write Message.OfLsp)

/-- A sequence of writes of the daemon, whose HELLO module sends too. -/
def DaemonWrites : Node → Node → Prop := Relation.ReflTransGen (Write fun _ => True)

variable {env : Env} {s t : Node} {info : MessageInfo}

theorem Write.mono {sends heard : Message → Prop} (every : ∀ m, sends m → heard m)
    (write : Write sends s t) : Write heard s t := by
  cases write with
  | psbs psbs => exact .psbs psbs
  | bsbs bsbs => exact .bsbs bsbs
  | nextLspId nextLspId => exact .nextLspId nextLspId
  | packet src dest useRao said => exact .packet src dest useRao (every _ said)
  | rsb r f keeps => exact .rsb r f keeps
  | newRsb created => exact .newRsb created
  | dropRsb r => exact .dropRsb r
  | take r => exact .take r
  | free r label => exact .free r label
  | install outLabel outIfindex nextHop dest labels =>
    exact .install outLabel outIfindex nextHop dest labels
  | remove dest labels => exact .remove dest labels

namespace Writes

theorem refl (s : Node) : Writes s s := Relation.ReflTransGen.refl

theorem snoc {u : Node} (writes : Writes s t) (write : Write Message.OfLsp t u) : Writes s u :=
  Relation.ReflTransGen.tail writes write

theorem psbs (writes : Writes s t) (psbs : Table PathKey PsbState) :
    Writes s { t with psbs := psbs } := writes.snoc (.psbs psbs)

theorem modPsb (writes : Writes s t) (p : Ptr) (f : PsbState → PsbState) :
    Writes s (t.modPsb p f) := writes.psbs (t.psbs.modify p f)

theorem modRsb (writes : Writes s t) (r : Ptr) {f : RsbState → RsbState}
    (keeps : ∀ x, (f x).labelIn = x.labelIn) : Writes s (t.modRsb r f) :=
  writes.snoc (.rsb r f keeps)

theorem send (writes : Writes s t) {m : Message} {msg : Bytes} (said : m.bytes = msg)
    (lsp : m.OfLsp) (src dest : InAddr) (useRao : Bool) :
    Writes s (rsvpSendPacket t src dest msg useRao) := by
  rcases rsvpSendPacket_cases t src dest msg useRao with dropped | sent
  · rw [dropped]
    exact writes
  · rw [sent, ← said]
    exact writes.snoc (.packet src dest useRao lsp)

end Writes

/-! ## Senders -/

theorem sendPathDownstream_writes (writes : Writes s t) (p : Ptr) :
    Writes s (sendPathDownstream env t p) := by
  unfold sendPathDownstream
  split
  · exact writes
  · dsimp only
    split
    · exact writes.modPsb _ _
    · exact ((writes.modPsb _ _).modPsb _ _).send (Message.bytes_path ..) trivial _ _ _

/-- A RESV is sent. -/
theorem sendResv_writes (writes : Writes s t) (b : Psb) (r : Rsb) : Writes s (sendResv env t b r) :=
  writes.send (Message.bytes_resv ..) trivial _ _ _

theorem sendResvUpstream_writes (writes : Writes s t) (a : Ptr) :
    Writes s (sendResvUpstream env t a) := by
  unfold sendResvUpstream
  split
  · exact writes
  · split
    · exact writes
    · split
      · have taken := writes.snoc (.take a)
        dsimp only
        split
        · exact taken
        · exact sendResv_writes taken _ _
      · exact sendResv_writes writes _ _

theorem propagatePathTear_writes (writes : Writes s t) (p : Ptr) :
    Writes s (propagatePathTear env t p) := by
  unfold propagatePathTear
  split
  · exact writes
  · dsimp only
    split
    · exact writes.modPsb _ _
    · exact (writes.modPsb _ _).send (Message.bytes_pathTear ..) trivial _ _ _

theorem propagateResvTear_writes (writes : Writes s t) (a : Ptr) :
    Writes s (propagateResvTear env t a) := by
  unfold propagateResvTear
  split
  · exact writes
  · split
    · exact writes
    · dsimp only
      split
      · exact writes
      · exact writes.send (Message.bytes_resvTear ..) trivial _ _ _

theorem sendPathErr_writes (writes : Writes s t) (errorCode : UInt8) (errorValue : UInt16) :
    Writes s (sendPathErr env t info errorCode errorValue) :=
  writes.send (Message.bytes_pathErr ..) trivial _ _ _

theorem sendResvErr_writes (writes : Writes s t) (errorCode : UInt8) (errorValue : UInt16) :
    Writes s (sendResvErr env t info errorCode errorValue) :=
  writes.send (Message.bytes_resvErr ..) trivial _ _ _

/-- A relayed error carries the ERROR_SPEC that it came with. -/
theorem propagateResvErr_writes (writes : Writes s t) (r : Rsb) {spec : Option ErrorSpec}
    (held : spec ≠ none) : Writes s (propagateResvErr env t r spec) := by
  obtain ⟨e, rfl⟩ := Option.ne_none_iff_exists'.mp held
  unfold propagateResvErr
  split
  · exact writes
  · dsimp only
    split
    · exact writes
    · exact writes.send (Message.bytes_resvErrRelay ..) trivial _ _ _

/-! ## Removal -/

theorem rsvpPsbDelete_writes (writes : Writes s t) (p : Ptr) : Writes s (t.rsvpPsbDelete p) := by
  unfold Node.rsvpPsbDelete
  split
  · exact writes
  · dsimp only
    split
    · exact writes.psbs _
    · exact (writes.psbs _).modRsb _ fun _ => rfl

theorem rsvpRsbDelete_writes (writes : Writes s t) (a : Ptr) : Writes s (t.rsvpRsbDelete a) := by
  unfold Node.rsvpRsbDelete
  split
  · exact writes
  · dsimp only
    split
    · exact writes.snoc (.dropRsb a)
    · exact (writes.snoc (.dropRsb a)).modPsb _ _

theorem rsbCleanupResources_writes (writes : Writes s t) (a : Ptr) :
    Writes s (rsbCleanupResources t a) := by
  unfold rsbCleanupResources
  split
  · exact writes
  · rename_i r found
    have held : t.Labels r.body.labelIn := .inr ⟨r, (Table.get_eq_some.mp found).1, rfl⟩
    dsimp only
    split
    · have removed := writes.snoc (.remove ((t.psbOf r.body).map (·.key.session.destAddr)) held)
      exact (removed.snoc (.free a r.body.labelIn)).modRsb _ fun _ => rfl
    · split
      · exact (writes.snoc (.remove _ (.inl rfl))).modRsb _ fun _ => rfl
      · exact writes.modRsb _ fun _ => rfl

theorem rsvpRsbCleanup_writes (writes : Writes s t) (a : Ptr) (propagate : Bool) :
    Writes s (rsvpRsbCleanup env t a propagate) := by
  unfold rsvpRsbCleanup
  split
  · exact writes
  · rename_i r found
    dsimp only
    have told : Writes s (if propagate = true ∧ ((t.psbOf r.body).any (·.body.isIngress)) = false then
        propagateResvTear env t a else t) := by
      split
      · exact propagateResvTear_writes writes a
      · exact writes
    have released := rsbCleanupResources_writes told a
    split
    · exact rsvpRsbDelete_writes released a
    · exact rsvpRsbDelete_writes (released.modPsb _ _) a

theorem rsvpPsbCleanup_writes (writes : Writes s t) (p : Ptr) (propagate : Bool) :
    Writes s (rsvpPsbCleanup env t p propagate) := by
  unfold rsvpPsbCleanup
  split
  · exact writes
  · rename_i b found
    dsimp only
    have told : Writes s (if propagate = true ∧ env.isLocalAddr b.key.session.destAddr = false then
        propagatePathTear env t p else t) := by
      split
      · exact propagatePathTear_writes writes p
      · exact writes
    split
    · exact rsvpPsbDelete_writes told p
    · exact rsvpPsbDelete_writes (rsvpRsbCleanup_writes told _ false) p

/-! ## Protection and make-before-break -/

theorem rsvpFrrAutoAssociate_writes (writes : Writes s t) (p : Ptr) :
    Writes s (rsvpFrrAutoAssociate t p) := by
  unfold rsvpFrrAutoAssociate
  split
  · exact writes
  · split
    · exact writes
    · split
      · exact writes
      · exact writes.modPsb _ _

/-- A scan whose turns write. -/
theorem foldl_writes {f : Node → Ptr → Node} (each : ∀ t p, Writes s t → Writes s (f t p))
    (writes : Writes s t) (ps : List Ptr) : Writes s (ps.foldl f t) := by
  induction ps generalizing t with
  | nil => exact writes
  | cons p ps ih => exact ih (each t p writes)

theorem rsvpFrrAutoAssociateAll_writes (writes : Writes s t) (ifindex : UInt32) :
    Writes s (rsvpFrrAutoAssociateAll t ifindex) := by
  refine foldl_writes (fun t p writes => ?_) writes _
  split
  · exact writes
  · split_ifs
    · exact writes
    · exact writes
    · exact writes
    · exact writes
    · exact rsvpFrrAutoAssociate_writes writes p

theorem rsvpMbbComplete_writes (writes : Writes s t) (p : Ptr) :
    Writes s (rsvpMbbComplete env t p) := by
  unfold rsvpMbbComplete
  split
  · exact writes
  · dsimp only
    split
    · exact writes.modPsb _ _
    · exact (rsvpPsbCleanup_writes writes _ true).modPsb _ _

theorem frrTriggerOne_writes (writes : Writes s t) (ifindex : UInt32) (p : Ptr) :
    Writes s (frrTriggerOne env ifindex t p) := by
  unfold frrTriggerOne
  split
  · exact writes
  · split
    · exact writes
    · split
      · dsimp only
        split
        · exact writes
        · split
          · exact writes
          · refine sendPathDownstream_writes (Writes.modPsb ?_ _ _) p
            split
            · exact writes
            · rename_i r found
              exact writes.snoc (.install _ _ _ _ (.inr ⟨r, (Table.find_eq_some found).1, rfl⟩))
      · exact writes

theorem frrRevertOne_writes (writes : Writes s t) (ifindex : UInt32) (p : Ptr) :
    Writes s (frrRevertOne env ifindex t p) := by
  unfold frrRevertOne
  split
  · exact writes
  · split
    · exact writes
    · split
      · split
        · exact writes
        · rename_i r found
          refine sendPathDownstream_writes (Writes.modPsb ?_ _ _) p
          exact writes.snoc (.install _ _ _ _ (.inr ⟨r, (Table.find_eq_some found).1, rfl⟩))
      · exact writes

theorem rsvpFrrTrigger_writes (writes : Writes s t) (ifindex : UInt32) :
    Writes s (rsvpFrrTrigger env t ifindex) :=
  foldl_writes (fun _ p writes => frrTriggerOne_writes writes ifindex p) writes _

theorem rsvpFrrRevert_writes (writes : Writes s t) (ifindex : UInt32) :
    Writes s (rsvpFrrRevert env t ifindex) :=
  foldl_writes (fun _ p writes => frrRevertOne_writes writes ifindex p) writes _

/-! ## PATH -/

theorem pathEgress_writes (writes : Writes s t) (p : Ptr) : Writes s (pathEgress env t info p) := by
  unfold pathEgress
  dsimp only
  split
  · exact writes.modRsb _ fun _ => rfl
  · split
    · exact writes
    · rename_i r u made
      obtain ⟨rsbs, created, rfl⟩ := Node.rsvpRsbCreate_eq_some made
      refine sendResvUpstream_writes (Writes.modPsb ?_ _ _) r
      exact (writes.snoc (.newRsb created)).modRsb r fun _ => rfl

theorem pathTransit_writes (writes : Writes s t) (p : Ptr) (isNew : Bool) :
    Writes s (pathTransit env t info p isNew) := by
  unfold pathTransit
  split
  · exact writes
  · dsimp only
    have popped := fun f => writes.modPsb p f
    split
    · split
      · exact rsvpPsbDelete_writes (sendPathErr_writes (popped _) _ _) p
      · exact sendPathErr_writes (popped _) _ _
    · have sent : ∀ f, Writes s (sendPathDownstream env (t.modPsb p f) p) := fun f =>
        sendPathDownstream_writes (popped f) p
      split
      · exact sent _
      · split
        · exact rsvpFrrAutoAssociate_writes (sent _) p
        · exact sent _

theorem pathArrived_writes (writes : Writes s t) (p : Ptr) (isNew : Bool) :
    Writes s (pathArrived env t info p isNew) := by
  have updated := writes.modPsb p (pathUpdate env info)
  unfold pathArrived
  dsimp only
  split
  · exact pathEgress_writes updated p
  · split
    · exact updated
    · exact pathTransit_writes updated p isNew

theorem handlePathMessage_writes (writes : Writes s t) : Writes s (handlePathMessage env t info) := by
  unfold handlePathMessage
  dsimp only
  split
  · exact sendPathErr_writes writes _ _
  · split
    · exact pathArrived_writes writes _ false
    · split
      · exact writes
      · rename_i p u made
        obtain ⟨psbs, -, rfl⟩ := Node.rsvpPsbCreate_eq_some made
        exact pathArrived_writes ((writes.psbs psbs).modPsb _ _) p true

/-! ## RESV -/

theorem resvFollowUp_writes (writes : Writes s t) (b : Psb) (isNew labelChanged : Bool) :
    Writes s (resvFollowUp env t b isNew labelChanged) := by
  unfold resvFollowUp
  dsimp only
  have armed : Writes s (if b.body.isBypassTunnel = true ∧ (isNew = true ∨ labelChanged = true) then
      rsvpFrrAutoAssociateAll t b.body.frrProtectedIfindex else t) := by
    split
    · exact rsvpFrrAutoAssociateAll_writes writes _
    · exact writes
  split
  · exact rsvpMbbComplete_writes armed b.addr
  · exact armed

theorem resvProgram_writes (writes : Writes s t) (b : Psb) {r : Rsb} (mem : r ∈ t.rsbs)
    (isNew labelChanged : Bool) : Writes s (resvProgram env t info b r isNew labelChanged) := by
  have taken := writes.snoc (.take r.addr)
  unfold resvProgram
  dsimp only
  split
  · split
    · split
      · refine sendResvErr_writes ?_ _ _
        split
        · exact rsvpRsbCleanup_writes taken r.addr false
        · exact taken
      · have here := Node.mem_modRsb { t with labels := (labelMgrAlloc t.labels).2 } mem fun x =>
          { x with labelIn := (labelMgrAlloc t.labels).1 }
        have installed := fun outLabel outIfindex nextHop dest =>
          taken.snoc (.install outLabel outIfindex nextHop dest (.inr ⟨_, here, rfl⟩))
        exact resvFollowUp_writes (sendResvUpstream_writes (installed _ _ _ _) _) b _ _
    · refine resvFollowUp_writes (sendResvUpstream_writes ?_ _) b _ _
      exact writes.snoc (.install _ _ _ _ (.inr ⟨r, mem, rfl⟩))
  · exact resvFollowUp_writes (writes.snoc (.install _ _ _ _ (.inl rfl))) b _ _

theorem resvRefresh_writes (writes : Writes s t) (r : Rsb) : Writes s (resvRefresh env t r) := by
  unfold resvRefresh
  split
  · exact writes
  · split
    · exact sendResvUpstream_writes writes r.addr
    · exact writes

theorem resvAccepted_writes (writes : Writes s t) {r : Rsb} (mem : r ∈ t.rsbs) (isNew : Bool) :
    Writes s (resvAccepted env t info r isNew) := by
  have stored := fun isIngress =>
    writes.modRsb (f := resvStore info isIngress) r.addr fun _ => rfl
  unfold resvAccepted
  dsimp only
  split
  · split
    · exact stored _
    · exact resvProgram_writes (stored _) _ (t.mem_modRsb mem _) _ _
  · exact resvRefresh_writes (stored _) _

theorem resvArrived_writes (writes : Writes s t) (a : Ptr) (isNew : Bool) :
    Writes s (resvArrived env t info a isNew) := by
  have updated := writes.modRsb (f := resvUpdate info) a fun x =>
    (resvUpdate_keeps info x).1.labelIn
  unfold resvArrived
  dsimp only
  split
  · exact updated
  · rename_i r found
    split
    · split
      · refine rsvpRsbDelete_writes ?_ a
        split
        · exact updated
        · exact updated.modPsb _ _
      · exact updated
    · exact resvAccepted_writes updated (Table.get_eq_some.mp found).1 isNew

theorem handleResvMessage_writes (writes : Writes s t) : Writes s (handleResvMessage env t info) := by
  unfold handleResvMessage
  split
  · exact sendResvErr_writes writes _ _
  · split
    · exact resvArrived_writes writes _ false
    · split
      · exact writes
      · rename_i a u made
        obtain ⟨rsbs, created, rfl⟩ := Node.rsvpRsbCreate_eq_some made
        have new := writes.snoc (.newRsb created)
        refine resvArrived_writes ?_ a true
        unfold resvLink
        split
        · exact new.modRsb _ fun _ => rfl
        · refine Writes.modPsb ?_ _ _
          exact new.modRsb _ fun _ => rfl

/-! ## Tears and errors -/

theorem bsbRemove_writes (writes : Writes s t) (key : PathKey) : Writes s (bsbRemove t key) := by
  unfold bsbRemove
  split
  · exact writes
  · exact writes.snoc (.bsbs _)

theorem handlePathTear_writes (writes : Writes s t) : Writes s (handlePathTear env t info) := by
  unfold handlePathTear
  refine bsbRemove_writes ?_ info.key
  split
  · exact writes
  · exact rsvpPsbCleanup_writes writes _ true

theorem handleResvTear_writes (writes : Writes s t) : Writes s (handleResvTear env t info) := by
  unfold handleResvTear
  refine bsbRemove_writes ?_ info.key
  split
  · exact writes
  · exact rsvpRsbCleanup_writes writes _ true

theorem handlePathErr_writes (writes : Writes s t) (held : info.errorSpec ≠ none) :
    Writes s (handlePathErr env t info) := by
  obtain ⟨e, spec⟩ := Option.ne_none_iff_exists'.mp held
  unfold handlePathErr
  split
  · exact writes
  · dsimp only
    split
    · exact writes
    · rw [spec]
      exact writes.send (Message.bytes_pathErrRelay ..) trivial _ _ _

theorem handleResvErr_writes (writes : Writes s t) (held : info.errorSpec ≠ none) :
    Writes s (handleResvErr env t info) := by
  obtain ⟨bsbs, same, -⟩ := @resvErrBlockade_eq env t info
  have blocked : Writes s (resvErrBlockade env t info) := by
    rw [same]
    exact writes.snoc (.bsbs bsbs)
  unfold handleResvErr
  dsimp only
  split
  · exact blocked
  · split
    · exact blocked
    · exact propagateResvErr_writes blocked _ held

theorem rsvpHandleMessage_writes (writes : Writes s t) {packet : Bytes}
    (received : Receives env packet info) : Writes s (rsvpHandleMessage env t info) := by
  unfold rsvpHandleMessage
  dsimp only
  split
  · exact handlePathMessage_writes writes
  split
  · exact handleResvMessage_writes writes
  split
  · exact handlePathTear_writes writes
  split
  · exact handleResvTear_writes writes
  split
  · rename_i error
    exact handlePathErr_writes writes (errorSpec_held received.parsed (.inl error))
  split
  · rename_i error
    exact handleResvErr_writes writes (errorSpec_held received.parsed (.inr error))
  · exact writes

/-! ## Events -/

theorem originated_writes (writes : Writes s t) {key : PathKey} {p : Ptr} {u : Node}
    (made : t.rsvpPsbCreate env key = some (p, u)) (f : PsbState → PsbState) :
    Writes s (sendPathDownstream env (u.modPsb p f) p) := by
  obtain ⟨psbs, -, rfl⟩ := Node.rsvpPsbCreate_eq_some made
  exact sendPathDownstream_writes ((writes.psbs psbs).modPsb p f) p

theorem Node.step_writes (env : Env) (s : Node) (ev : Event) : Writes s (s.step env ev) := by
  have writes := Writes.refl s
  have numbered : Writes s s.numbered := writes.snoc (.nextLspId _)
  have takes := s.step_takes env ev
  generalize s.step env ev = s' at takes ⊢
  cases takes with
  | idle => exact writes
  | message received => exact rsvpHandleMessage_writes writes received
  | refreshed => exact (sendPathDownstream_writes writes _).modPsb _ _
  | restarted => exact writes.modPsb _ _
  | psbExpired => exact rsvpPsbCleanup_writes writes _ true
  | resvRefreshed => exact (resvRefresh_writes writes _).modRsb _ fun _ => rfl
  | rsbExpired => exact rsvpRsbCleanup_writes writes _ true
  | bsbExpired => exact writes.snoc (.bsbs _)
  | pathFailed => exact numbered
  | pathAgain => exact sendPathDownstream_writes numbered _
  | pathStarted _ made => exact originated_writes numbered made _
  | bypassFailed => exact numbered
  | bypassStarted _ made => exact originated_writes numbered made _
  | enabled => exact writes.modPsb _ _
  | triggered => exact rsvpFrrTrigger_writes writes _
  | reverted => exact rsvpFrrRevert_writes writes _
  | tornDown => exact rsvpPsbCleanup_writes writes _ true
  | mbbStarted _ _ made => exact originated_writes writes made _

/-! ## The daemon -/

theorem Writes.daemon (writes : Writes s t) : DaemonWrites s t := by
  induction writes with
  | refl => exact .refl
  | tail _ last ih => exact ih.tail (last.mono fun _ _ => trivial)

theorem Daemon.hello_writes {d : Daemon} (writes : DaemonWrites s d.node) (ev : HelloEvent) :
    DaemonWrites s (d.hello env ev).node := by
  have each : ∀ (calls : List HelloCall) (t : Node), DaemonWrites s t →
      (∀ src dest msg, .sendPacket src dest msg ∈ calls → ∃ m : Message, m.bytes = msg) →
      DaemonWrites s (calls.foldl (Node.perform env) t) := by
    intro calls
    induction calls with
    | nil => exact fun _ kept _ => kept
    | cons c calls ih =>
      intro t kept said
      refine ih _ ?_ fun src dest msg mem => said src dest msg (List.mem_cons_of_mem c mem)
      cases c with
      | sendPacket src dest msg =>
        obtain ⟨m, rfl⟩ := said src dest msg List.mem_cons_self
        dsimp only [Node.perform]
        rcases rsvpSendPacket_cases t src dest m.bytes false with dropped | sent
        · rw [dropped]
          exact kept
        · rw [sent]
          exact kept.tail (.packet src dest false trivial)
      | frrTrigger ifindex => exact kept.trans (rsvpFrrTrigger_writes (.refl t) ifindex).daemon
  exact each _ _ writes fun _ _ _ mem => hello_sends mem

/-- What the daemon does to its node is a sequence of writes. -/
theorem Daemon.step_writes (env : Env) (d : Daemon) (ev : DaemonEvent) :
    DaemonWrites d.node (d.step env ev).node := by
  cases ev with
  | packet bytes rand =>
    have handled := (d.node.step_writes env (.recv bytes)).daemon
    unfold Daemon.step
    dsimp only
    split
    · exact handled
    · exact Daemon.hello_writes handled _
  | lsp ev => exact (d.node.step_writes env ev).daemon
  | addNeighbor => exact Daemon.hello_writes .refl _
  | helloTimer => exact Daemon.hello_writes .refl _
  | deadTimer => exact Daemon.hello_writes .refl _

end Rsvp
