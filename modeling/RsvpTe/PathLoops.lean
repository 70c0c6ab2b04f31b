import RsvpTe.PathRejection

/-!
# PATHs that run in circles

A transit node stores the TTL of a PATH and sends it on with one less, so a PATH that is routed in
a circle uses up its TTL; only `forwardTtl` turns a TTL of 0 into 255 and the circle starts afresh.

A `FlightRun` follows one injected PATH and what is forwarded on its account through any number
of nodes with any routes, whatever else these nodes do in between.
-/

namespace Rsvp

open Words

/-! ## What a transit node sends -/

/-- The TTL of the RSVP header that a receiver reads. -/
def ttlOf (packet : Bytes) : UInt8 := (rsvpHdr (packet.take maxRsvpPacketSize)).ttl

variable {env : Env} {s : Node} {info : MessageInfo}

theorem Receives.ttl {packet : Bytes} (received : Receives env packet info) :
    info.commonHdr.ttl = ttlOf packet := by
  obtain ⟨objs, -, rfl⟩ := Accepted.of_ok received.parsed
  rfl

/-- The packet of a PATH carries one TTL less than its PSB. -/
theorem pathOutput_ttl {hal : Hal} {key : PathKey} {psb : PsbState} {ipDest dest : InAddr}
    {ifindex : UInt32} {useRao : Bool} {bytes : Bytes}
    (sent : Output.packet dest useRao bytes = pathOutput hal key psb ipDest ifindex) :
    ttlOf bytes = forwardTtl psb.ttl ∧
      Output.msgType (.packet dest useRao bytes) = some msgPath := by
  cases sent
  have fits := pathCalls_fit key psb ((hal.getLocalAddr ifindex).getD key.sender.sourceAddr) ifindex
  rw [ttlOf, pathMessage_eq, take_rsvpPacket_built _ _ _ _ fits (Nat.le_refl 1500)]
  obtain ⟨image, -⟩ := image_built msgPath (forwardTtl psb.ttl) fits
  obtain ⟨sum, hdr⟩ := image.rsvpHdr_finish (ipHeader_isHeader
    ((hal.getLocalAddr ifindex).getD key.sender.sourceAddr) ipDest _ _ true)
  exact ⟨congrArg CommonHdr.ttl hdr, msgType_built _ _ fits _ _ _⟩

/-- The node forwards the PATH: it is accepted, and there is a route both when the handler looks
for one and when the sender does, which may pop another hop. -/
structure PathForwarded (env : Env) (s : Node) (info : MessageInfo) : Prop
    extends PathAccepted env s info where
  route : env.getEgressIf (((info.eroOr ((s.rsvpPsbFind info.key).elim .empty
    (·.body.ero))).popLocal env.toHal).ipDest info.key) ≠ none
  again : env.getEgressIf ((((info.eroOr ((s.rsvpPsbFind info.key).elim .empty
    (·.body.ero))).popLocal env.toHal).popLocal env.toHal).ipDest info.key) ≠ none

/-- `sendPathDownstream` logs one PATH, or nothing without a route. -/
theorem sendPathDownstream_out {b : Psb} (mem : b ∈ s.psbs) :
    (sendPathDownstream env s b.addr).out = s.out ++
      (env.getEgressIf ((b.body.ero.popLocal env.toHal).ipDest b.key)).elim [] fun ifindex =>
        [pathOutput env.toHal b.key
          { b.body with ero := b.body.ero.popLocal env.toHal, ifindexOut := ifindex }
          ((b.body.ero.popLocal env.toHal).ipDest b.key) ifindex] := by
  rw [sendPathDownstream, Table.get_of_mem mem]
  simp only [resolvePathNextHop]
  cases env.getEgressIf ((b.body.ero.popLocal env.toHal).ipDest b.key) with
  | none =>
    rw [Option.elim_none, List.append_nil]
    rfl
  | some ifindex =>
    simp only [Option.elim_some]
    rw [pathMessage_eq, rsvpSendPacket_built _ _ _ _ _ (pathCalls_fit b.key _ _ ifindex)
      (Nat.le_refl 1500), pathOutput, pathMessage_eq]
    rfl

theorem rsvpFrrAutoAssociate_out (s : Node) (p : Ptr) : (rsvpFrrAutoAssociate s p).out = s.out := by
  rw [rsvpFrrAutoAssociate]
  split
  · rfl
  · split
    · rfl
    · split <;> rfl

theorem rsvpPsbDelete_out (s : Node) (p : Ptr) : (s.rsvpPsbDelete p).out = s.out := by
  rw [Node.rsvpPsbDelete]
  split
  · rfl
  · dsimp only
    split <;> rfl

theorem sendPathErr_logs (s : Node) (errCode : UInt8) (errVal : UInt16) :
    ∃ o, (sendPathErr env s info errCode errVal).out = s.out ++ [o] ∧
      o.msgType = some msgPathErr := by
  obtain ⟨-, -, fits, -⟩ := short_calls_fit info.key .zero
    (localError env.toHal errCode errVal) none 0 0
  rw [sendPathErr, pathErrMessage_eq, rsvpSendPacket_built _ _ _ _ _ fits (by decide)]
  exact ⟨_, rfl, msgType_built _ _ fits _ _ _⟩

/-- What a PATH is sent on from: `old` with what the received PATH wrote, and the ERO and interface
as the sender leaves them. -/
def MessageInfo.passedOn (env : Env) (info : MessageInfo) (old : PsbState) (ifindex : UInt32) :
    PsbState :=
  { pathUpdate env info old with
    ero := ((info.eroOr old.ero).popLocal env.toHal).popLocal env.toHal
    ifindexOut := ifindex }

theorem MessageInfo.passedOn_ttl (env : Env) (info : MessageInfo) (old : PsbState)
    (ifindex : UInt32) : (info.passedOn env old ifindex).ttl = info.commonHdr.ttl := by
  rw [passedOn, pathUpdate_eq]

/-- What the PATH for a key starts from: the PSB of the key, or a new one. -/
def Node.pathStart (s : Node) (key : PathKey) : PsbState :=
  (s.rsvpPsbFind key).elim { PsbState.zero with refreshMs := rsvpRefreshMs } (·.body)

/-- The ERO that the handler looks a route up for, and the one that the sender does. -/
def MessageInfo.handlerEro (env : Env) (info : MessageInfo) (kept : Route) : Route :=
  (info.eroOr kept).popLocal env.toHal

def MessageInfo.senderEro (env : Env) (info : MessageInfo) (kept : Route) : Route :=
  (info.handlerEro env kept).popLocal env.toHal

/-- What is sent for a PATH whose PSB holds `old`: a PathErr without a route, nothing where only the
sender finds none, and else one PATH. -/
inductive PathPassed (env : Env) (info : MessageInfo) (old : PsbState) : List Output → Prop
  | refused {o : Output} :
    env.getEgressIf ((info.handlerEro env old.ero).ipDest info.key) = none →
    o.msgType = some msgPathErr → PathPassed env info old [o]
  | dropped :
    env.getEgressIf ((info.handlerEro env old.ero).ipDest info.key) ≠ none →
    env.getEgressIf ((info.senderEro env old.ero).ipDest info.key) = none →
    PathPassed env info old []
  | forwarded {ifindex : UInt32} :
    env.getEgressIf ((info.handlerEro env old.ero).ipDest info.key) ≠ none →
    env.getEgressIf ((info.senderEro env old.ero).ipDest info.key) = some ifindex →
    PathPassed env info old [pathOutput env.toHal info.key (info.passedOn env old ifindex)
      ((info.senderEro env old.ero).ipDest info.key) ifindex]

/-- What a node in transit sends for a PATH. -/
inductive PathAnswer (env : Env) (s : Node) (info : MessageInfo) : List Output → Prop
  | invalid {o : Output} :
    rsvpValidatePathMessage info (s.rsvpPsbFind info.key) ≠ none →
    o.msgType = some msgPathErr → PathAnswer env s info [o]
  | noMemory :
    s.rsvpPsbFind info.key = none → s.rsvpPsbCreate env info.key = none →
    PathAnswer env s info []
  | accepted {sent : List Output} :
    PathAccepted env s info → PathPassed env info (s.pathStart info.key) sent →
    PathAnswer env s info sent

/-- A PATH that has its PSB is passed on, or not sent at all. -/
theorem pathArrived_out {c : Psb} (mem : c ∈ s.psbs) (key : c.key = info.key) (isNew : Bool)
    (transit : env.isLocalAddr info.key.session.destAddr = false)
    (foreign : env.isLocalAddr info.key.sender.sourceAddr = false) :
    ∃ sent, (pathArrived env s info c.addr isNew).out = s.out ++ sent ∧
      PathPassed env info c.body sent := by
  have updated : (s.modPsb c.addr (pathUpdate env info)).psbs.get c.addr =
      some ⟨c.addr, c.key, pathUpdate env info c.body⟩ :=
    Table.get_of_mem (s.mem_modPsb mem (pathUpdate env info))
  have stored : (pathUpdate env info c.body).ero.popLocal env.toHal =
      info.handlerEro env c.body.ero := by
    rw [pathUpdate_eq]
    rfl
  rw [pathArrived]
  simp only [transit, foreign, Bool.false_eq_true, if_false]
  rw [pathTransit, updated]
  simp only [resolvePathNextHop, stored, key]
  cases route : env.getEgressIf ((info.handlerEro env c.body.ero).ipDest info.key) with
  | none =>
    obtain ⟨o, told, error⟩ := @sendPathErr_logs env info
      ((s.modPsb c.addr (pathUpdate env info)).modPsb c.addr fun b =>
        { b with ero := info.handlerEro env c.body.ero })
      protoErrRoutingProblem 0
    refine ⟨[o], ?_, .refused route error⟩
    dsimp only
    split
    · rw [rsvpPsbDelete_out]
      exact told
    · exact told
  | some first =>
    have found : env.getEgressIf ((info.handlerEro env c.body.ero).ipDest info.key) ≠ none := by
      rw [route]
      exact Option.some_ne_none first
    have here := Node.mem_modPsb _ (s.mem_modPsb mem (pathUpdate env info)) fun b =>
      { b with ero := info.handlerEro env c.body.ero }
    have sent := @sendPathDownstream_out env _ _ here
    dsimp only at sent ⊢
    rw [key] at sent
    change _ = _ ++ (env.getEgressIf ((info.senderEro env c.body.ero).ipDest info.key)).elim [] _
      at sent
    refine ⟨_, Eq.trans ?_ sent, ?_⟩
    · split
      · rfl
      · split
        · exact rsvpFrrAutoAssociate_out _ _
        · rfl
    · cases again : env.getEgressIf ((info.senderEro env c.body.ero).ipDest info.key) with
      | none => exact .dropped found again
      | some second => exact .forwarded found again

/-- A node in transit answers a PATH with a PathErr, with one PATH that passes it on, or not. -/
theorem handlePathMessage_answer
    (transit : env.isLocalAddr info.key.session.destAddr = false)
    (foreign : env.isLocalAddr info.key.sender.sourceAddr = false) :
    ∃ sent, (handlePathMessage env s info).out = s.out ++ sent ∧ PathAnswer env s info sent := by
  -- Once the PATH is accepted, what is left is the case split of `pathArrived_out`.
  have arrived : ∀ {t : Node} {c : Psb} {isNew : Bool}, PathAccepted env s info → c ∈ t.psbs →
      c.key = info.key → t.out = s.out → s.pathStart info.key = c.body →
      ∃ sent, (pathArrived env t info c.addr isNew).out = s.out ++ sent ∧
        PathAnswer env s info sent := by
    intro t c isNew accepted mem key out start
    obtain ⟨sent, logged, passed⟩ := @pathArrived_out env t info c mem key isNew transit foreign
    rw [← start] at passed
    rw [← out]
    exact ⟨sent, logged, .accepted accepted passed⟩
  rw [handlePathMessage]
  cases valid : rsvpValidatePathMessage info (s.rsvpPsbFind info.key) with
  | some err =>
    obtain ⟨o, told, error⟩ := @sendPathErr_logs env info s err.1 err.2
    refine ⟨[o], told, .invalid ?_ error⟩
    rw [valid]
    exact Option.some_ne_none err
  | none =>
    dsimp only
    cases found : s.rsvpPsbFind info.key with
    | some b =>
      obtain ⟨mem, key⟩ := Table.find_eq_some found
      have start : s.pathStart info.key = b.body := by
        rw [Node.pathStart, found]
        rfl
      refine arrived ⟨valid, fun none => ?_⟩ mem key rfl start
      rw [found] at none
      cases none
    | none =>
      cases made : s.rsvpPsbCreate env info.key with
      | none => exact ⟨[], (List.append_nil _).symm, .noMemory found made⟩
      | some pair =>
        obtain ⟨p, t⟩ := pair
        have accepted : PathAccepted env s info := ⟨valid, fun _ none => by cases made.symm.trans none⟩
        obtain ⟨⟨q, psbs⟩, create, eq⟩ := Option.map_eq_some_iff.mp made
        cases eq
        have here := (Table.mem_modify_create create (f := fun b =>
          { b with refreshMs := rsvpRefreshMs })).mpr (.inl rfl)
        refine @arrived (({ s with psbs } : Node).modPsb p fun b =>
          { b with refreshMs := rsvpRefreshMs }) _ true accepted here rfl rfl ?_
        rw [Node.pathStart, found]
        rfl

/-- The route that the PATH for a key starts from. -/
theorem Node.pathStart_ero (s : Node) (key : PathKey) :
    (s.pathStart key).ero = (s.rsvpPsbFind key).elim .empty (·.body.ero) := by
  rw [pathStart]
  cases s.rsvpPsbFind key <;> rfl

/-- It forwards exactly what `PathForwarded` says, and any other answer is no PATH. -/
theorem handlePathMessage_out
    (transit : env.isLocalAddr info.key.session.destAddr = false)
    (foreign : env.isLocalAddr info.key.sender.sourceAddr = false) :
    ∃ sent, (handlePathMessage env s info).out = s.out ++ sent ∧
      ((PathForwarded env s info ∧
          ∃ ipDest ifindex, sent = [pathOutput env.toHal info.key
            (info.passedOn env (s.pathStart info.key) ifindex) ipDest ifindex]) ∨
        (¬ PathForwarded env s info ∧ ∀ o ∈ sent, o.msgType ≠ some msgPath)) := by
  have error : ∀ {o : Output}, o.msgType = some msgPathErr →
      ∀ o' ∈ [o], o'.msgType ≠ some msgPath := by
    intro o error o' mem
    rw [List.mem_singleton.mp mem, error]
    decide
  obtain ⟨sent, logged, answer⟩ := @handlePathMessage_answer env s info transit foreign
  refine ⟨sent, logged, ?_⟩
  cases answer with
  | invalid refused type => exact .inr ⟨fun forwarded => refused forwarded.valid, error type⟩
  | noMemory found none =>
    exact .inr ⟨fun forwarded => forwarded.memory found none, List.forall_mem_nil _⟩
  | accepted accepted passed =>
    generalize start : s.pathStart info.key = old at passed
    have stored : old.ero = (s.rsvpPsbFind info.key).elim .empty (·.body.ero) := by
      rw [← start]
      exact s.pathStart_ero info.key
    cases passed with
    | refused noRoute type =>
      rw [stored] at noRoute
      exact .inr ⟨fun forwarded => forwarded.route noRoute, error type⟩
    | dropped route noRoute =>
      rw [stored] at noRoute
      exact .inr ⟨fun forwarded => forwarded.again noRoute, List.forall_mem_nil _⟩
    | forwarded route again =>
      rw [stored] at route again
      have second := again ▸ Option.some_ne_none _
      exact .inl ⟨{ accepted with route := route, again := second }, _, _, rfl⟩

theorem forwardTtl_lt_iff {ttl : UInt8} : forwardTtl ttl < ttl ↔ ttl ≠ 0 := by
  rw [forwardTtl]
  split
  · rename_i positive
    have pos : 0 < ttl.toNat := UInt8.lt_iff_toNat_lt.mp positive
    refine ⟨fun _ zero => ?_, fun _ => ?_⟩
    · rw [zero] at pos
      cases pos
    · have one : 1 ≤ ttl := UInt8.le_iff_toNat_le.mpr pos
      rw [UInt8.lt_iff_toNat_lt, UInt8.toNat_sub_of_le _ _ one]
      exact Nat.sub_lt pos Nat.one_pos
  · rename_i zero
    have none : ttl = 0 := by
      refine UInt8.toNat_inj.mp (Nat.eq_zero_of_not_pos fun pos => zero ?_)
      exact UInt8.lt_iff_toNat_lt.mpr pos
    rw [none]
    decide

/-- The PATHs that a transit node sends on for a PATH have a smaller TTL iff that has any left, or
the node does not forward it. -/
theorem forwarded_ttl_lt_iff
    (transit : env.isLocalAddr info.key.session.destAddr = false)
    (foreign : env.isLocalAddr info.key.sender.sourceAddr = false) {sent : List Output}
    (logged : (handlePathMessage env s info).out = s.out ++ sent) :
    (∀ dest useRao bytes, .packet dest useRao bytes ∈ sent →
      Output.msgType (.packet dest useRao bytes) = some msgPath →
      ttlOf bytes < info.commonHdr.ttl) ↔
    info.commonHdr.ttl ≠ 0 ∨ ¬ PathForwarded env s info := by
  obtain ⟨sent', logged', split⟩ := @handlePathMessage_out env s info transit foreign
  have same : sent' = sent := List.append_cancel_left (logged'.symm.trans logged)
  subst same
  rcases split with ⟨forwarded, ipDest, ifindex, rfl⟩ | ⟨held, none⟩
  · have ttl := info.passedOn_ttl env (s.pathStart info.key) ifindex
    generalize info.passedOn env (s.pathStart info.key) ifindex = psb at ttl logged ⊢
    have packet : ∃ dest useRao bytes, pathOutput env.toHal info.key psb ipDest ifindex =
        .packet dest useRao bytes := ⟨_, _, _, rfl⟩
    obtain ⟨dest, useRao, bytes, packet⟩ := packet
    obtain ⟨lower, type⟩ := pathOutput_ttl packet.symm
    rw [packet, ttl] at *
    constructor
    · intro smaller
      have less := smaller dest useRao bytes List.mem_cons_self type
      rw [lower, ttl] at less
      exact .inl (forwardTtl_lt_iff.mp less)
    · intro either dest' useRao' bytes' mem _
      cases List.mem_singleton.mp mem
      rw [lower, ttl]
      exact forwardTtl_lt_iff.mpr (either.resolve_right fun held => held forwarded)
  · constructor
    · exact fun _ => .inr held
    · intro _ dest useRao bytes mem type
      exact absurd type (none _ mem)

/-! ## Runs -/

/-- Nodes, and the PATHs on their way to them. -/
structure PathFlight (ι : Type) : Type where
  nodes : ι → Node
  inFlight : List (ι × Bytes)

/-- A packet that is a PATH travels to the node that the routing of its sender names. -/
def travels {ι : Type} (next : Bytes → Option ι) (o : Output) : Option (ι × Bytes) :=
  match o with
  | .packet _ _ bytes =>
    if o.msgType = some msgPath then (next bytes).map fun j => (j, bytes) else none
  | _ => none

section Runs

variable {ι : Type} {dest src : InAddr}

/-- A PATH from `src` to `dest`, for whoever receives it. -/
def CarriesPath (dest src : InAddr) (packet : Bytes) : Prop :=
  ∀ env info, Receives env packet info → info.commonHdr.msgType = msgPath ∧
    info.key.session.destAddr = dest ∧ info.key.sender.sourceAddr = src

/-- The TTLs of the PATHs in flight together. -/
def ttlSum (inFlight : List (ι × Bytes)) : Nat := (inFlight.map fun (_, p) => (ttlOf p).toNat).sum

/-- A PATH in flight reaches the PATH handler of a transit node. -/
theorem CarriesPath.step {packet : Bytes} (carries : CarriesPath dest src packet)
    (received : Receives env packet info)
    (away : env.isLocalAddr dest = false ∧ env.isLocalAddr src = false) :
    s.step env (.recv packet) = handlePathMessage env s info ∧
      env.isLocalAddr info.key.session.destAddr = false ∧
      env.isLocalAddr info.key.sender.sourceAddr = false := by
  obtain ⟨type, toDest, fromSrc⟩ := carries env info received
  rw [toDest, fromSrc, received.step_eq, rsvpHandleMessage, if_pos type]
  exact ⟨rfl, away⟩

/-- What a handled PATH leaves in flight: one TTL less for each PATH sent on. -/
theorem travels_le {next : Bytes → Option ι} {sent : List Output}
    (transit : env.isLocalAddr info.key.session.destAddr = false)
    (foreign : env.isLocalAddr info.key.sender.sourceAddr = false)
    (logged : (handlePathMessage env s info).out = s.out ++ sent)
    (left : info.commonHdr.ttl ≠ 0 ∨ ¬ PathForwarded env s info) :
    sent.countP (·.msgType = some msgPath) + ttlSum (sent.filterMap (travels next)) ≤
        info.commonHdr.ttl.toNat ∧
      ∀ entry ∈ sent.filterMap (travels next),
        CarriesPath info.key.session.destAddr info.key.sender.sourceAddr entry.2 := by
  obtain ⟨sent', logged', split⟩ := @handlePathMessage_out env s info transit foreign
  have same : sent' = sent := List.append_cancel_left (logged'.symm.trans logged)
  subst same
  rcases split with ⟨forwarded, ipDest, ifindex, rfl⟩ | ⟨-, none⟩
  · have ttl := info.passedOn_ttl env (s.pathStart info.key) ifindex
    generalize info.passedOn env (s.pathStart info.key) ifindex = psb at ttl ⊢
    have lower := forwardTtl_lt_iff.mpr (left.resolve_right fun held => held forwarded)
    have packet : ∃ dest useRao bytes, pathOutput env.toHal info.key psb ipDest ifindex =
        .packet dest useRao bytes := ⟨_, _, _, rfl⟩
    obtain ⟨dest, useRao, bytes, packet⟩ := packet
    obtain ⟨less, type⟩ := pathOutput_ttl packet.symm
    rw [ttl] at less
    rw [packet, List.countP_singleton, if_pos (decide_eq_true type)]
    have moved : [Output.packet dest useRao bytes].filterMap (travels next) =
        (next bytes).toList.map fun j => (j, bytes) := by
      rw [List.filterMap_cons, travels, if_pos type]
      cases next bytes <;> rfl
    rw [moved]
    constructor
    · have one : ttlSum ((next bytes).toList.map fun j => (j, bytes)) ≤ (ttlOf bytes).toNat := by
        cases next bytes
        · exact Nat.zero_le _
        · exact Nat.le_refl _
      have smaller := UInt8.lt_iff_toNat_lt.mp lower
      rw [less] at one
      omega
    · intro entry mem
      obtain ⟨j, -, rfl⟩ := List.mem_map.mp mem
      intro env' info' received
      obtain ⟨type', key, -⟩ := pathOutput_received packet.symm received
      rw [key]
      exact ⟨type', rfl, rfl⟩
  · have gone : sent'.filterMap (travels next) = [] := by
      rw [List.filterMap_eq_nil_iff]
      intro o mem
      cases o with
      | packet dest useRao bytes => exact if_neg (none _ mem)
      | mplsInstall => rfl
      | mplsRemove => rfl
    rw [gone, List.countP_eq_zero.mpr fun o mem => by simpa using none o mem]
    exact ⟨Nat.zero_le _, List.forall_mem_nil _⟩

theorem mem_of_mem_rest {front back : List (ι × Bytes)} {taken entry : ι × Bytes}
    (mem : entry ∈ front ++ back) : entry ∈ front ++ taken :: back :=
  ((List.sublist_cons_self taken back).append_left front).subset mem

variable [DecidableEq ι]

/-- Runs from `start` in which `k` PATHs have been sent on in response to the PATHs in flight.  A
PATH is handled only with a TTL left, or where it is not forwarded; `owns` are the addresses of
each node and `next` the routing among them. -/
inductive FlightRun (owns : ι → InAddr → Bool) (next : ι → Bytes → Option ι)
    (start : PathFlight ι) : Nat → PathFlight ι → Prop
  | start : FlightRun owns next start 0 start
  | handle {k : Nat} {c : PathFlight ι} {front back : List (ι × Bytes)} {i : ι} {packet : Bytes}
      {env : Env} {info : MessageInfo} {sent : List Output} :
    FlightRun owns next start k c → c.inFlight = front ++ (i, packet) :: back →
    env.isLocalAddr = owns i → Receives env packet info →
    info.commonHdr.ttl ≠ 0 ∨ ¬ PathForwarded env (c.nodes i) info →
    (c.nodes i |>.step env (.recv packet)).out = (c.nodes i).out ++ sent →
    FlightRun owns next start (k + sent.countP (·.msgType = some msgPath))
      ⟨Function.update c.nodes i (c.nodes i |>.step env (.recv packet)),
        front ++ back ++ sent.filterMap (travels (next i))⟩
  | lose {k : Nat} {c : PathFlight ι} {front back : List (ι × Bytes)} {lost : ι × Bytes} :
    FlightRun owns next start k c → c.inFlight = front ++ lost :: back →
    FlightRun owns next start k ⟨c.nodes, front ++ back⟩
  | other {k : Nat} {c : PathFlight ι} {i : ι} (s : Node) :
    FlightRun owns next start k c →
    FlightRun owns next start k ⟨Function.update c.nodes i s, c.inFlight⟩

variable {owns : ι → InAddr → Bool} {next : ι → Bytes → Option ι} {start c : PathFlight ι} {k : Nat}

/-- Every run trades TTL for forwarded PATHs. -/
theorem FlightRun.ttlSum_le (away : ∀ i, owns i dest = false ∧ owns i src = false)
    (paths : ∀ entry ∈ start.inFlight, CarriesPath dest src entry.2)
    (run : FlightRun owns next start k c) :
    k + ttlSum c.inFlight ≤ ttlSum start.inFlight ∧
      ∀ entry ∈ c.inFlight, CarriesPath dest src entry.2 := by
  induction run with
  | start => exact ⟨by omega, paths⟩
  | @handle k c front back i packet env info sent _ flight local' received left logged ih =>
    obtain ⟨sum, carry⟩ := ih
    rw [flight] at sum carry
    have carries := carry (i, packet) (List.mem_append_right _ List.mem_cons_self)
    have foreign := away i
    rw [← local'] at foreign
    obtain ⟨stepped, transit, own⟩ :=
      @CarriesPath.step env (c.nodes i) info _ _ _ carries received foreign
    rw [stepped] at logged
    obtain ⟨-, toDest, fromSrc⟩ := carries env info received
    obtain ⟨less, onward⟩ := @travels_le env (c.nodes i) info ι (next i) sent transit own logged left
    rw [received.ttl] at less
    rw [toDest, fromSrc] at onward
    constructor
    · simp only [ttlSum, List.map_append, List.map_cons, List.sum_append, List.sum_cons] at sum less ⊢
      omega
    · intro entry mem
      rcases List.mem_append.mp mem with old | new
      · exact carry entry (mem_of_mem_rest old)
      · exact onward entry new
  | @lose k c front back lost _ flight ih =>
    obtain ⟨sum, carry⟩ := ih
    rw [flight] at sum carry
    constructor
    · simp only [ttlSum, List.map_append, List.map_cons, List.sum_append, List.sum_cons] at sum ⊢
      omega
    · exact fun entry mem => carry entry (mem_of_mem_rest mem)
  | other s _ ih => exact ih

/-- One injected PATH causes at most as many forwarded PATHs as its TTL, and each node answers a
PATH in flight only with PATHs of smaller TTL, as long as no PATH without TTL is forwarded. -/
theorem forwards_le_ttl {i₀ : ι} {packet₀ : Bytes} (single : start.inFlight = [(i₀, packet₀)])
    (path : CarriesPath dest src packet₀)
    (away : ∀ i, owns i dest = false ∧ owns i src = false)
    (run : FlightRun owns next start k c) :
    k ≤ (ttlOf packet₀).toNat ∧
      ∀ i packet env info sent, (i, packet) ∈ c.inFlight → env.isLocalAddr = owns i →
        Receives env packet info →
        (c.nodes i |>.step env (.recv packet)).out = (c.nodes i).out ++ sent →
        ((∀ dest useRao bytes, .packet dest useRao bytes ∈ sent →
          Output.msgType (.packet dest useRao bytes) = some msgPath →
          ttlOf bytes < ttlOf packet) ↔
        ttlOf packet ≠ 0 ∨ ¬ PathForwarded env (c.nodes i) info) := by
  have paths : ∀ entry ∈ start.inFlight, CarriesPath dest src entry.2 := by
    intro entry mem
    rw [single] at mem
    rw [List.mem_singleton.mp mem]
    exact path
  obtain ⟨sum, carry⟩ := run.ttlSum_le away paths
  constructor
  · rw [single] at sum
    simp only [ttlSum, List.map_cons, List.map_nil, List.sum_cons, List.sum_nil] at sum
    omega
  · intro i packet env info sent mem local' received logged
    have foreign := away i
    rw [← local'] at foreign
    obtain ⟨stepped, transit, own⟩ :=
      @CarriesPath.step env (c.nodes i) info _ _ _ (carry _ mem) received foreign
    rw [stepped] at logged
    rw [← received.ttl]
    exact forwarded_ttl_lt_iff transit own logged

end Runs

/-- A node that its own routing sends every PATH back to handles the first PATH of an LSP. -/
theorem forwards_le_ttl_first :
    ∃ k c, FlightRun (fun (_ : Unit) _ => false) (fun _ _ => some ())
        ⟨fun _ => .init (labelMgrInit 16 31 true), [((), samplePath 0x0300000A 1 5)]⟩ k c ∧
      (c.nodes ()).psbs.blocks.length = 1 ∧ k ≤ 255 := by
  have received : ∃ info, Receives (sampleEnv (fun _ => false) 1) (samplePath 0x0300000A 1 5) info := by
    obtain ⟨info, parsed, -⟩ := parse_pathMessage (sampleKey 0x0300000A 1) .zero 0x0900000A 5
      0x0900000A 0x0300000A true
    refine ⟨info, ⟨fun own => Bool.false_ne_true own.2, ?_⟩⟩
    rw [samplePath, pathMessage_eq, take_rsvpPacket_built _ _ _ _
      (pathCalls_fit _ _ _ _) (Nat.le_refl 1500), ← pathMessage_eq]
    exact parsed
  have carries : CarriesPath 0x0300000A 0x0900000A (samplePath 0x0300000A 1 5) := by
    intro env info received
    obtain ⟨type, key, -⟩ := @pathOutput_received ⟨fun _ => false, fun _ => none, fun _ => none⟩ env
      (sampleKey 0x0300000A 1) .zero 0x0300000A _ 5 _ _ rfl info received
    rw [key]
    exact ⟨type, rfl, rfl⟩
  have ttl : ttlOf (samplePath 0x0300000A 1 5) = 255 := by decide +kernel
  obtain ⟨info, received⟩ := received
  obtain ⟨stepped, transit, foreign⟩ := carries.step (s := .init (labelMgrInit 16 31 true)) received
    ⟨rfl, rfl⟩
  obtain ⟨sent, logged, -⟩ := handlePathMessage_out transit foreign
  rw [← stepped] at logged
  have left : info.commonHdr.ttl ≠ 0 := by
    rw [received.ttl, ttl]
    decide
  have split : [((), samplePath 0x0300000A 1 5)] = [] ++ ((), samplePath 0x0300000A 1 5) :: [] := rfl
  have run : FlightRun (fun (_ : Unit) _ => false) (fun _ _ => some ())
      ⟨fun _ => .init (labelMgrInit 16 31 true), [((), samplePath 0x0300000A 1 5)]⟩ _ _ :=
    .handle .start split rfl received (.inl left) logged
  have bound := (forwards_le_ttl rfl carries (fun _ => ⟨rfl, rfl⟩) run).1
  rw [ttl] at bound
  refine ⟨_, _, run, ?_, bound⟩
  dsimp only
  rw [Function.update_self]
  decide +kernel

/-- A transit node receives the first PATH of an LSP with TTL 0 and sends it on with 255. -/
theorem exists_ttl_restarted :
    ∃ packet dest bytes, ttlOf packet = 0 ∧
      ((Node.init (labelMgrInit 16 31 true)).step (sampleEnv (fun _ => false) 1)
        (.recv packet)).out = [.packet dest true bytes] ∧
      Output.msgType (.packet dest true bytes) = some msgPath ∧ ttlOf bytes = 255 := by
  refine ⟨rsvpPacket 0x0900000A 0x0300000A (pathMessage (sampleKey 0x0300000A 1)
    { PsbState.zero with ttl := 1 } 0x0900000A 5) true, 0x0300000A,
    ((Node.init (labelMgrInit 16 31 true)).step (sampleEnv (fun _ => false) 1)
      (.recv (rsvpPacket 0x0900000A 0x0300000A (pathMessage (sampleKey 0x0300000A 1)
        { PsbState.zero with ttl := 1 } 0x0900000A 5) true))).lastPacket, ?_⟩
  decide +kernel

end Rsvp
