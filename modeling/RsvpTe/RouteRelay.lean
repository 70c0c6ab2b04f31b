import RsvpTe.LocalAddrs
import RsvpTe.PathRelay

/-!
# Routes that are passed on

A node in transit reads the subobjects of an ERO and of an RRO into arrays of `maxHops`, pops a hop
of the ERO that is the node itself, and encodes both routes again, the RRO with its own address at
the end.

Both loops stop where the arrays are full.  So a route that fits is passed on hop by hop, and of a
longer ERO the first `maxHops` subobjects are.  The handler and the sender each resolve the next hop,
and the results below are about an ERO that this pops one hop of at most.
-/

namespace Rsvp

open Words

/-! ## Subobjects -/

/-- A subobject with an IPv4 address; the first bit of its type tells loose hops from strict ones. -/
def EroSubobj.IsIpv4 (hop : EroSubobj) : Prop := hop.type &&& 0x7F = eroIpv4 ∧ hop.length = 8

theorem EroSubobj.ofBytes_bytes_append (hop : EroSubobj) (rest : Bytes) :
    ofBytes (hop.bytes ++ rest) = hop := by
  have addr : u32At (hop.bytes ++ rest) 2 = hop.addr := le32_bytes hop.addr
  change EroSubobj.mk hop.type hop.length (u32At (hop.bytes ++ rest) 2) hop.prefixLen hop.res = hop
  rw [addr]

/-- The loop reads every subobject for which there is room. -/
theorem readHops_flatMap {hops : List EroSubobj} (ipv4 : ∀ hop ∈ hops, hop.IsIpv4) {steps : Nat}
    (enough : hops.length ≤ steps) (room : Nat) :
    readHops steps room (hops.flatMap EroSubobj.bytes) = hops.take room := by
  induction hops generalizing steps room with
  | nil =>
    rw [List.take_nil]
    cases steps with
    | zero => rfl
    | succ steps => exact if_pos (.inl (by decide))
  | cons hop rest ih =>
    obtain ⟨steps, rfl⟩ := Nat.exists_eq_add_one_of_ne_zero
      (Nat.ne_zero_of_lt (Nat.lt_of_lt_of_le (Nat.succ_pos rest.length) enough))
    cases room with
    | zero => exact if_pos (.inr rfl)
    | succ room =>
      obtain ⟨type, length⟩ := ipv4 hop List.mem_cons_self
      have whole : ((hop :: rest).flatMap EroSubobj.bytes).length = 8 * rest.length + 8 :=
        length_flatMap_bytes (hop :: rest)
      have second : (u8At ((hop :: rest).flatMap EroSubobj.bytes) 1).toNat = 8 := by
        change hop.length.toNat = 8
        rw [length]
        rfl
      have first : u8At ((hop :: rest).flatMap EroSubobj.bytes) 0 &&& 0x7F = eroIpv4 := type
      have behind : ((hop :: rest).flatMap EroSubobj.bytes).drop 8 =
          rest.flatMap EroSubobj.bytes := List.drop_left' hop.length_bytes
      rw [readHops, if_neg (by omega)]
      dsimp only
      rw [second, if_neg (by omega), if_pos ⟨first, rfl⟩, behind, Nat.add_sub_cancel,
        ih (fun other mem => ipv4 other (List.mem_cons_of_mem hop mem))
          (Nat.le_of_succ_le_succ enough),
        List.flatMap_cons, EroSubobj.ofBytes_bytes_append]
      rfl

theorem Route.ofBytes_flatMap {hops : List EroSubobj} (ipv4 : ∀ hop ∈ hops, hop.IsIpv4) :
    (Route.ofBytes (hops.flatMap EroSubobj.bytes)).hops = hops.take maxHops :=
  readHops_flatMap ipv4 (by rw [length_flatMap_bytes]; omega) maxHops

/-! ## What is received and what is sent -/

/-- The hops of a received ERO or RRO. -/
def MessageInfo.hops (info : MessageInfo) (k : Slot) : List EroSubobj :=
  (info.objs k).elim [] fun o => (Route.ofBytes o.data).hops

/-- The payload of the object is a sequence of IPv4 subobjects; without the object, the route is the
one that the node has kept. -/
structure RouteGiven (info : MessageInfo) (k : Slot) (kept : Route) (hops : List EroSubobj) :
    Prop where
  ipv4 : ∀ hop ∈ hops, hop.IsIpv4
  held : ∀ o, info.objs k = some o → o.data = hops.flatMap EroSubobj.bytes
  absent : info.objs k = none → hops = kept.hops

/-- The route that the PSB holds afterwards. -/
theorem RouteGiven.stored {info : MessageInfo} {k : Slot} {kept : Route} {hops : List EroSubobj}
    (given : RouteGiven info k kept hops) :
    ((info.objs k).elim kept fun o => .ofBytes o.data).hops = hops.take maxHops := by
  cases object : info.objs k with
  | none =>
    rw [given.absent object]
    exact (List.take_of_length_le kept.short).symm
  | some o =>
    rw [Option.elim_some, given.held o object]
    exact Route.ofBytes_flatMap given.ipv4

/-- The route without its first hop, if that is `addr`. -/
def popHead (addr : InAddr) : List EroSubobj → List EroSubobj
  | [] => []
  | hop :: rest => if hop.addr = addr then rest else hop :: rest

theorem Route.popLocal_hops (hal : Hal) (ero : Route) :
    (ero.popLocal hal).hops = popHead (hal.localAddrOrZero 0) ero.hops := by
  cases cons : ero.hops with
  | nil => rw [popLocal_nil cons, cons, popHead]
  | cons hop rest =>
    rw [popHead]
    split
    · exact popLocal_own cons ‹_›
    · rw [popLocal_foreign cons ‹_›, cons]

theorem popHead_suffix (addr : InAddr) (hops : List EroSubobj) : popHead addr hops <:+ hops := by
  cases hops with
  | nil => exact List.suffix_refl []
  | cons hop rest =>
    rw [popHead]
    split
    · exact List.suffix_cons hop rest
    · exact List.suffix_refl _

theorem popHead_eq_self {addr : InAddr} {hops : List EroSubobj}
    (foreign : ∀ hop ∈ hops.head?, hop.addr ≠ addr) : popHead addr hops = hops := by
  cases hops with
  | nil => rfl
  | cons hop rest => exact if_neg (foreign hop rfl)

/-- The hop that is left at the head is not `addr` again. -/
def PoppedOnce (addr : InAddr) (hops : List EroSubobj) : Prop :=
  ∀ hop ∈ (popHead addr hops).head?, hop.addr ≠ addr

theorem PoppedOnce.take {addr : InAddr} {hops : List EroSubobj} (once : PoppedOnce addr hops)
    (n : Nat) : popHead addr (popHead addr (hops.take n)) = popHead addr (hops.take n) := by
  refine popHead_eq_self fun hop head => ?_
  cases hops with
  | nil =>
    rw [List.take_nil] at head
    cases head
  | cons first rest =>
    cases n with
    | zero => cases head
    | succ n =>
      rw [PoppedOnce, popHead] at once
      rw [List.take_succ_cons, popHead] at head
      split at head
      · rw [if_pos ‹_›] at once
        rw [List.head?_take] at head
        split at head
        · cases head
        · exact once hop head
      · rw [if_neg ‹_›] at once
        exact once hop head

theorem Route.eq_of_hops {a b : Route} (same : a.hops = b.hops) : a = b := by
  cases a
  cases b
  cases same
  rfl

/-- Then the sender finds the ERO as the handler has left it. -/
theorem RouteGiven.senderEro_eq {env : Env} {info : MessageInfo} {kept : Route}
    {hops : List EroSubobj} (given : RouteGiven info .ero kept hops)
    (once : PoppedOnce (env.localAddrOrZero 0) hops) :
    info.senderEro env kept = info.handlerEro env kept := by
  have stored : (info.handlerEro env kept).hops =
      popHead (env.localAddrOrZero 0) (hops.take maxHops) := by
    rw [← given.stored]
    exact Route.popLocal_hops _ _
  have same : (info.senderEro env kept).hops = (info.handlerEro env kept).hops := by
    rw [MessageInfo.senderEro, Route.popLocal_hops, stored]
    exact once.take maxHops
  exact Route.eq_of_hops same

/-- A route of the sender is read as it was written. -/
theorem Decodes.hops_eq {info : MessageInfo} {msgType ttl : UInt8} {calls : List AddCall}
    (decodes : Decodes info msgType ttl calls) {k : Slot} {classNum : UInt8}
    {hops : List EroSubobj} (first : firstCall calls k = (routeCalls classNum hops).head?)
    (ipv4 : ∀ hop ∈ hops, hop.IsIpv4) (short : hops.length ≤ maxHops) : info.hops k = hops := by
  rw [MessageInfo.hops]
  by_cases empty : hops = []
  · rw [routeCalls, if_pos empty] at first
    have object := decodes.objs k
    rw [first] at object
    rw [Option.map_eq_none_iff.mp object, empty]
    rfl
  · rw [routeCalls, if_neg empty] at first
    obtain ⟨o, object, data⟩ := decodes.data_eq first
    rw [object, Option.elim_some, data, Route.ofBytes_flatMap ipv4]
    exact List.take_of_length_le short

/-! ## One node -/

/-- The subobject that a node adds to the RRO. -/
def ownHop (hal : Hal) (key : PathKey) (ifindex : UInt32) : EroSubobj :=
  ⟨eroIpv4, 8, ownAddr hal key ifindex, 32, 0⟩

/-- The PATH that is sent on carries the first `maxHops` hops of the ERO, without the one at its head
that is the node itself, and the whole RRO with the node's own hop, if that fits. -/
structure RoutesRelayed (env : Env) (key : PathKey) (ifindex : UInt32)
    (ero rro : List EroSubobj) (info' : MessageInfo) : Prop where
  explicit : info'.hops .ero = popHead (env.localAddrOrZero 0) (ero.take maxHops)
  recorded : rro.length < maxHops → info'.hops .rro = rro ++ [ownHop env.toHal key ifindex]
  full : maxHops ≤ rro.length → info'.hops .rro = []

theorem pathOutput_routes {env : Env} {info : MessageInfo} {old : PsbState}
    {ero rro : List EroSubobj} (eroGiven : RouteGiven info .ero old.ero ero)
    (rroGiven : RouteGiven info .rro old.rro rro) (once : PoppedOnce (env.localAddrOrZero 0) ero)
    (ipDest : InAddr) (ifindex : UInt32) :
    ∃ bytes info', pathOutput env.toHal info.key (info.passedOn env old ifindex) ipDest ifindex =
        .packet ipDest true bytes ∧
      rsvpParsePacket bytes = .ok info' ∧ info'.commonHdr.msgType = msgPath ∧
      RoutesRelayed env info.key ifindex ero rro info' := by
  obtain ⟨info', parsed, decodes, -⟩ := parse_pathCalls info.key (info.passedOn env old ifindex)
    (ownAddr env.toHal info.key ifindex) ifindex (ownAddr env.toHal info.key ifindex) ipDest true
  refine ⟨_, info', rfl, parsed, decodes.msgType, ?_⟩
  have sentEro : (info.passedOn env old ifindex).ero.hops =
      popHead (env.localAddrOrZero 0) (ero.take maxHops) := by
    change (info.senderEro env old.ero).hops = _
    rw [eroGiven.senderEro_eq once, ← eroGiven.stored]
    exact Route.popLocal_hops _ _
  have storedRro : (info.passedOn env old ifindex).rro.hops = rro.take maxHops := by
    rw [MessageInfo.passedOn, pathUpdate_eq]
    exact rroGiven.stored
  have readEro := decodes.hops_eq (firstCall_pathCalls_ero info.key
    (info.passedOn env old ifindex) (ownAddr env.toHal info.key ifindex) ifindex)
  have readRro := decodes.hops_eq (firstCall_pathCalls_rro info.key
    (info.passedOn env old ifindex) (ownAddr env.toHal info.key ifindex) ifindex)
  rw [pathRro, storedRro] at readRro
  constructor
  · have kept := popHead_suffix (env.localAddrOrZero 0) (ero.take maxHops)
    rw [readEro (fun hop mem => ?_) (info.passedOn env old ifindex).ero.short, sentEro]
    rw [sentEro] at mem
    exact eroGiven.ipv4 hop (List.mem_of_mem_take (kept.subset mem))
  · intro room
    have whole : rro.take maxHops = rro := List.take_of_length_le (Nat.le_of_lt room)
    rw [whole, if_pos room] at readRro
    refine readRro (fun hop mem => ?_) ?_
    · rcases List.mem_append.mp mem with old' | own
      · exact rroGiven.ipv4 hop old'
      · rw [List.mem_singleton.mp own]
        exact ⟨(by decide : eroIpv4 &&& 0x7F = eroIpv4), rfl⟩
    · rw [List.length_append]
      exact room
  · intro full
    have cut : (rro.take maxHops).length = maxHops := List.length_take_of_le full
    rw [cut, if_neg (Nat.lt_irrefl maxHops)] at readRro
    exact readRro (List.forall_mem_nil _) (Nat.zero_le _)

/-- A node in transit that has a PSB for a PATH, or can allocate one, answers the PATH with a PathErr
or passes its routes on. -/
theorem routes_relayed {env : Env} {s : Node} {info : MessageInfo} {ero rro : List EroSubobj}
    (transit : env.isLocalAddr info.key.session.destAddr = false)
    (foreign : env.isLocalAddr info.key.sender.sourceAddr = false)
    (memory : s.rsvpPsbFind info.key = none → s.rsvpPsbCreate env info.key ≠ none)
    (eroGiven : RouteGiven info .ero (s.pathStart info.key).ero ero)
    (rroGiven : RouteGiven info .rro (s.pathStart info.key).rro rro)
    (once : PoppedOnce (env.localAddrOrZero 0) ero) :
    (∃ o, (handlePathMessage env s info).out = s.out ++ [o] ∧ o.msgType = some msgPathErr) ∨
      ∃ dest ifindex bytes info',
        (handlePathMessage env s info).out = s.out ++ [.packet dest true bytes] ∧
        dest = (info.handlerEro env (s.pathStart info.key).ero).ipDest info.key ∧
        env.getEgressIf dest = some ifindex ∧
        rsvpParsePacket bytes = .ok info' ∧ info'.commonHdr.msgType = msgPath ∧
        RoutesRelayed env info.key ifindex ero rro info' := by
  obtain ⟨sent, logged, answer⟩ := @handlePathMessage_answer env s info transit foreign
  rw [logged]
  cases answer with
  | invalid _ error => exact .inl ⟨_, rfl, error⟩
  | noMemory found none => exact absurd none (memory found)
  | accepted _ passed =>
    have again := eroGiven.senderEro_eq once
    cases passed with
    | refused _ error => exact .inl ⟨_, rfl, error⟩
    | dropped found none =>
      rw [again] at none
      exact absurd none found
    | @forwarded ifindex _ route =>
      obtain ⟨bytes, info', packet, parsed, type, relayed⟩ :=
        pathOutput_routes eroGiven rroGiven once
          ((info.senderEro env (s.pathStart info.key).ero).ipDest info.key) ifindex
      refine .inr ⟨_, ifindex, bytes, info', ?_, ?_, route, parsed, type, relayed⟩
      · rw [packet]
      · rw [again]

/-! ## A route that does not fit -/

/-- The hops 11.0.0.1 and on. -/
def longRoute : List EroSubobj :=
  (List.range 33).map fun i => ⟨eroIpv4, 8, UInt32.ofNat (11 + (i + 1) * 2 ^ 24), 32, 0⟩

def longRoutePath : Bytes :=
  rsvpPacket 0x0900000A 0x0200000A
    (built 1500 msgPath 64
      ([sessionCall (sampleKey 0x0200000A 1), hopCall 0x0900000A 5] ++
        routeCalls classExplicitRoute longRoute ++
        [labelReqCall, senderCall classSenderTemplate (sampleKey 0x0200000A 1)])) true

theorem longRoutePath_given : ∃ info, rsvpParsePacket longRoutePath = .ok info ∧
    PathForwarded (sampleEnv (fun _ => false) 100) (.init (labelMgrInit 16 31 true)) info ∧
    RouteGiven info .ero .empty longRoute ∧ RouteGiven info .rro .empty [] := by
  have up : (rsvpParsePacket longRoutePath).toOption.any (fun info =>
      (info.objs .ero).map Obj.data = some (longRoute.flatMap EroSubobj.bytes) ∧
      (info.objs .rro).isNone = true ∧
      (rsvpValidatePathMessage info none).isNone = true) = true := by
    decide +kernel
  obtain ⟨info, parsed, holds⟩ := ParseResult.exists_ok_of_any up
  obtain ⟨ero, rro, valid⟩ := of_decide_eq_true holds
  obtain ⟨o, object, data⟩ := Option.map_eq_some_iff.mp ero
  have absent := Option.isNone_iff_eq_none.mp rro
  refine ⟨info, parsed, pathForwarded_sample (Option.isNone_iff_eq_none.mp valid),
    ⟨?_, fun o' held => ?_, fun none => ?_⟩,
    ⟨List.forall_mem_nil _, fun o' held => ?_, fun _ => rfl⟩⟩
  · exact List.forall_mem_map.mpr fun i _ => ⟨(by decide : eroIpv4 &&& 0x7F = eroIpv4), rfl⟩
  · cases object.symm.trans held
    exact data
  · cases none.symm.trans object
  · cases absent.symm.trans held

theorem longRoute_once {env : Env} (owns : env.localAddrOrZero 0 = 0x0100000A) :
    PoppedOnce (env.localAddrOrZero 0) longRoute := by
  intro hop head
  have first : (popHead (env.localAddrOrZero 0) longRoute).head? =
      some ⟨eroIpv4, 8, 0x0100000B, 32, 0⟩ := by
    rw [owns]
    decide +kernel
  rw [first] at head
  cases head
  rw [owns]
  decide

theorem longRoute_passed {env : Env} (owns : env.localAddrOrZero 0 = 0x0100000A) :
    popHead (env.localAddrOrZero 0) (longRoute.take maxHops) = longRoute.take 32 := by
  rw [owns]
  decide +kernel

theorem routes_relayed_long : ∃ info dest bytes info', rsvpParsePacket longRoutePath = .ok info ∧
    (handlePathMessage (sampleEnv (fun _ => false) 100) (.init (labelMgrInit 16 31 true)) info).out =
      [.packet dest true bytes] ∧ rsvpParsePacket bytes = .ok info' ∧
    info'.hops .ero = longRoute.take 32 ∧ info'.hops .rro = [⟨eroIpv4, 8, 0x0100000A, 32, 0⟩] := by
  obtain ⟨info, parsed, forwarded, eroGiven, rroGiven⟩ := longRoutePath_given
  rcases @routes_relayed (sampleEnv (fun _ => false) 100) (.init (labelMgrInit 16 31 true)) info _ _
    rfl rfl forwarded.memory eroGiven rroGiven (longRoute_once rfl) with
    ⟨o, one, error⟩ | ⟨dest, ifindex, bytes, info', one, -, -, parsed', -, relayed⟩
  · -- A PATH that is forwarded is not answered with a PathErr.
    obtain ⟨sent, logged, split⟩ := @handlePathMessage_out (sampleEnv (fun _ => false) 100)
      (.init (labelMgrInit 16 31 true)) info rfl rfl
    cases List.append_cancel_left (logged.symm.trans one)
    rcases split with ⟨-, ipDest, ifindex, same⟩ | ⟨held, -⟩
    · rw [(List.cons_eq_cons.mp same).1] at error
      have path := (pathOutput_msgType _ _ _ _ _).symm.trans error
      exact absurd (Option.some.inj path) (by decide)
    · exact absurd forwarded held
  · refine ⟨info, dest, bytes, info', parsed, one, parsed', ?_, relayed.recorded (by decide)⟩
    rw [relayed.explicit]
    exact longRoute_passed rfl

/-- The last hop of an ERO of 33 is dropped without a PathErr. -/
theorem exists_route_cut : ∃ env s info dest bytes info', rsvpParsePacket longRoutePath = .ok info ∧
    RouteGiven info .ero (s.pathStart info.key).ero longRoute ∧
    (∀ addr, env.isLocalAddr addr = false) ∧
    (handlePathMessage env s info).out = s.out ++ [.packet dest true bytes] ∧
    rsvpParsePacket bytes = .ok info' ∧ info'.commonHdr.msgType = msgPath ∧
    info'.hops .ero = longRoute.take 32 ∧ info'.hops .ero ≠ longRoute ∧
    info'.hops .ero ≠ longRoute.tail := by
  obtain ⟨info, parsed, forwarded, eroGiven, rroGiven⟩ := longRoutePath_given
  obtain ⟨sent, logged, split⟩ := @handlePathMessage_out (sampleEnv (fun _ => false) 100)
    (.init (labelMgrInit 16 31 true)) info rfl rfl
  rcases split with ⟨-, ipDest, ifindex, rfl⟩ | ⟨held, -⟩
  · obtain ⟨bytes, info', packet, parsed', type, relayed⟩ :=
      @pathOutput_routes (sampleEnv (fun _ => false) 100) info
        ((Node.init (labelMgrInit 16 31 true)).pathStart info.key) _ _ eroGiven rroGiven
        (longRoute_once rfl) ipDest ifindex
    have passed : info'.hops .ero = longRoute.take 32 :=
      relayed.explicit.trans (longRoute_passed rfl)
    rw [packet] at logged
    refine ⟨sampleEnv (fun _ => false) 100, .init (labelMgrInit 16 31 true), info, ipDest, bytes,
      info', parsed, eroGiven, fun _ => rfl, logged, parsed', type, passed, ?_, ?_⟩
    · rw [passed]
      decide +kernel
    · rw [passed]
      decide +kernel
  · exact absurd forwarded held

end Rsvp
