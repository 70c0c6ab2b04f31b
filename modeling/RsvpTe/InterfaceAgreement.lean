import RsvpTe.Adjacency
import RsvpTe.KeyStability

/-!
# Interface numbers between neighbours

The RSVP_HOP of a PATH carries the number of the interface it leaves through, in the numbering of
its sender, and the receiver stores it with the address.  The RESV that goes back carries the
number of the receiver's own interface toward that address, and the stored one only when the
receiver has no route.  The first node installs the number it finds in the RESV.

`Holds` are the states of the downstream node from the arrival of a PATH on, and `Node.Tracks`
is what they keep: the previous hop of the LSP and the interface in every RESV sent to it.
-/

namespace Rsvp

open Words

variable {hal : Hal} {key : PathKey} {hop : HopIpv4} {log : List Output} {s s' : Node} {env : Env}

/-- Every PSB of the LSP has the previous hop `hop`, or none yet. -/
def Node.HopKept (key : PathKey) (hop : HopIpv4) (s : Node) : Prop :=
  ∀ b ∈ s.psbs, b.key.wire = key → b.body.prevHop = hop ∨ b.body.prevHop = ⟨0, 0⟩

/-- A RESV of the LSP to `hop` names the interface of the sender's route to it, or without a
route the one in `hop`. -/
def Output.Echoes (hal : Hal) (key : PathKey) (hop : HopIpv4) (o : Output) : Prop :=
  ∀ bytes env info, o = .packet hop.neighborAddr false bytes → o.msgType = some msgResv →
    Receives env bytes info → info.key = key →
    ntohl info.hop.logicalInterface =
      (hal.getEgressIf hop.neighborAddr).getD (ntohl hop.logicalInterface)

/-- What a node keeps of a PATH that came from `hop` when its log was `log`. -/
structure Node.Tracks (hal : Hal) (key : PathKey) (hop : HopIpv4) (log : List Output)
    (s : Node) : Prop where
  kept : s.HopKept key hop
  echoes : ∃ sent, s.out = log ++ sent ∧ ∀ o ∈ sent, o.Echoes hal key hop

/-- Every RESV that an action logs echoes the previous hop. -/
theorem Does.echoes {act : Act} (wf : s.Wf) (set : hop.neighborAddr ≠ 0)
    (kept : s.HopKept key hop) (does : Does hal act s s') :
    ∃ new, s'.out = s.out ++ new ∧ ∀ o ∈ new, o.Echoes hal key hop := by
  obtain ⟨new, out, kinds⟩ := does.log
  refine ⟨new, out, fun o mem bytes env info packet type received named => ?_⟩
  rcases kinds o mem with minor | ⟨-, sends⟩ | ⟨k, -, sends⟩
  · exact absurd type minor.2
  · obtain ⟨b, -, psb, ipDest, ifindex, -, rfl⟩ := sends
    rw [pathOutput_msgType] at type
    cases type
  · obtain ⟨b, memb, r, memr, merged, -, tied, -, rfl⟩ := sends
    obtain ⟨-, keyEq, interface, -⟩ := resvOutput_received packet.symm received
    have nbr : b.body.prevHop.neighborAddr = hop.neighborAddr := (Output.packet.inj packet).1
    have prevHop : b.body.prevHop = hop := by
      rcases kept b memb (keyEq.symm.trans named) with same | blank
      · exact same
      · rw [blank] at nbr
        exact absurd nbr.symm set
    have arrived := wf.arrived b memb
    rw [PsbState.Arrived, prevHop] at arrived
    rw [interface, nbr, arrived, ntohl, htonl, bswap32_bswap32]

/-- An action that writes no other previous hop for the LSP. -/
theorem Does.hopKept {act : Act} (does : Does hal act s s')
    (origin : ∀ k h, act = .hop k h → k.wire = key → h = hop) (kept : s.HopKept key hop) :
    s'.HopKept key hop := by
  intro c mem named
  rcases does.psb_origin mem with ⟨b, memb, same, -, unwritten | wrote⟩ | ⟨-, blank⟩
  · rw [unwritten]
    exact kept b memb (same ▸ named)
  · exact .inl (origin _ _ wrote named)
  · exact .inr blank

theorem Runs.tracks {ok : Act → Prop} (runs : Runs hal ok s s') (wf : s.Wf)
    (set : hop.neighborAddr ≠ 0) (origin : ∀ k h, ok (.hop k h) → k.wire = key → h = hop)
    (tracks : s.Tracks hal key hop log) : s'.Tracks hal key hop log := by
  apply (runs.induct wf tracks _).2
  intro t t' act allowed wfT held does
  rcases held with ⟨kept, sent, out, echoes⟩
  obtain ⟨new, out', echoes'⟩ := does.echoes wfT set kept
  refine ⟨does.hopKept (fun k h same => origin k h (same ▸ allowed)) kept, sent ++ new,
    by rw [out', out, List.append_assoc], fun o mem => ?_⟩
  rcases List.mem_append.mp mem with old | fresh
  · exact echoes o old
  · exact echoes' o fresh

/-! ## The downstream node -/

/-- A PATH of the LSP that the event brings comes from `hop`. -/
def Event.Upholds (env : Env) (key : PathKey) (hop : HopIpv4) (ev : Event) : Prop :=
  ∀ packet info, ev = .recv packet → Receives env packet info →
    info.commonHdr.msgType = msgPath → info.key.wire = key → info.hop = hop

/-- The states of a node with HAL `hal` from the arrival of the PATH `packet` on, as long as no
other previous hop sends a PATH of the LSP.  The node had logged `log` before. -/
inductive Holds (hal : Hal) (key : PathKey) (hop : HopIpv4) (packet : Bytes) :
    List Output → Node → Prop
  | arrive {s : Node} {env : Env} {info : MessageInfo} : s.Wf → env.toHal = hal →
    Receives env packet info → (∀ b ∈ s.psbs, b.key.wire = key → b.key = key) →
    Holds hal key hop packet s.out (s.step env (.recv packet))
  | step {log : List Output} {s : Node} {env : Env} {ev : Event} :
    Holds hal key hop packet log s → env.toHal = hal → ev.Upholds env key hop →
    Holds hal key hop packet log (s.step env ev)

theorem MessageInfo.Allows.hop_eq {info : MessageInfo} {k : PathKey} {h : HopIpv4}
    (allows : info.Allows env s (.hop k h)) :
    info.commonHdr.msgType = msgPath ∧ k = info.key ∧ h = info.hop := by
  cases allows with
  | benign quiet => cases quiet
  | pathHop type => exact ⟨type, rfl, rfl⟩

/-- The PATH itself: its hop is stored before anything else happens. -/
theorem handlePathMessage_tracks {info : MessageInfo} (wf : s.Wf) (set : info.hop.neighborAddr ≠ 0)
    (type : info.commonHdr.msgType = msgPath)
    (valid : rsvpValidatePathMessage info none = none)
    (alone : ∀ b ∈ s.psbs, b.key.wire = info.key → b.key = info.key) :
    (handlePathMessage env s info).Tracks env.toHal info.key info.hop s.out := by
  have origin : ∀ k h, info.Allows env s (.hop k h) → k.wire = info.key → h = info.hop :=
    fun k h allows _ => allows.hop_eq.2.2
  have unsent : ∃ sent, s.out = s.out ++ sent ∧
      ∀ o ∈ sent, o.Echoes env.toHal info.key info.hop :=
    ⟨[], (List.append_nil _).symm, fun _ mem => by cases mem⟩
  cases found : s.rsvpPsbFind info.key with
  | none =>
    have runs := @rsvpHandleMessage_runs env (info.Allows env s) s info wf fun _ allows => allows
    unfold rsvpHandleMessage at runs
    simp only [type, if_true] at runs
    refine runs.tracks wf set origin ⟨fun b mem named => ?_, unsent⟩
    exact absurd (alone b mem named) (Table.find_eq_none.mp found b mem)
  | some b =>
    obtain ⟨mem, keyB⟩ := Table.find_eq_some found
    have accepted := rsvpValidatePathMessage_refresh valid (some b)
    have held : info.objs .hopV4 ≠ none := by
      intro missing
      rw [rsvpValidatePathMessage, if_pos missing] at accepted
      cases accepted
    have allowed : PathOk (info.Allows env s) env s.rsbs s.labels info :=
      ⟨fun _ => .benign, .pathArm type, .pathHop type, .pathNewPsb type, .pathNewRsb type,
        .pathResv type, .pathAdvertise type ⟨by rw [found]; exact accepted,
          fun absent => by rw [found] at absent; cases absent⟩⟩
    have updated : Does env.toHal (.hop info.key info.hop) s
        (s.modPsb b.addr (pathUpdate env info)) := pathUpdate_does held mem keyB
    have rest : Runs env.toHal (info.Allows env s) (s.modPsb b.addr (pathUpdate env info))
        (pathArrived env s info b.addr false) :=
      pathUpdated_runs allowed held wf mem keyB fun new => by cases new
    unfold handlePathMessage
    simp only [found, accepted]
    refine rest.tracks (updated.wf wf) set origin ⟨fun c memc named => ?_, unsent⟩
    rcases Table.mem_modify.mp memc with ⟨old, away⟩ | ⟨d, memd, here, rfl⟩
    · have same := wf.psbKeyed c old b mem ((alone c old named).trans keyB.symm)
      exact absurd (congrArg Block.addr same) away
    · exact .inl (pathUpdate_hop env held d.body).1

theorem Event.Upholds.origin {ev : Event} (upholds : ev.Upholds env key hop) (k : PathKey)
    (h : HopIpv4) (allows : ev.Allows env s (.hop k h)) (named : k.wire = key) : h = hop := by
  cases allows with
  | benign quiet => cases quiet
  | recv received allows =>
    obtain ⟨type, rfl, rfl⟩ := allows.hop_eq
    exact upholds _ _ rfl received type named

theorem Holds.tracks {packet : Bytes} (holds : Holds hal key hop packet log s)
    (set : hop.neighborAddr ≠ 0)
    (names : ∀ env info, Receives env packet info → info.commonHdr.msgType = msgPath ∧
      info.key = key ∧ info.hop = hop ∧ rsvpValidatePathMessage info none = none) :
    s.Wf ∧ s.Tracks hal key hop log := by
  induction holds with
  | @arrive s env info wf sameHal received alone =>
    obtain ⟨type, rfl, rfl, valid⟩ := names env info received
    refine ⟨wf.step env _, ?_⟩
    rw [received.step_eq, ← sameHal, rsvpHandleMessage]
    simp only [type, if_true]
    exact handlePathMessage_tracks wf set type valid alone
  | @step log s env ev _ sameHal upholds ih =>
    obtain ⟨wf, tracks⟩ := ih
    refine ⟨wf.step env ev, ?_⟩
    have runs := @Node.step_runs env (ev.Allows env s) s wf ev fun _ allows => allows
    rw [sameHal] at runs
    exact runs.tracks wf set upholds.origin tracks

/-! ## The exchange -/

/-- The PATH that a node logs names the interface it stores in its PSB. -/
theorem sendPathDownstream_sent {n : Node} {b b' : Psb} (mem : b ∈ n.psbs) {ipDest : InAddr}
    {path : Bytes}
    (sent : (sendPathDownstream env n b.addr).out = n.out ++ [.packet ipDest true path])
    (stored : (sendPathDownstream env n b.addr).psbs.get b.addr = some b') :
    ∃ psb, .packet ipDest true path =
      pathOutput env.toHal b.key psb ipDest b'.body.ifindexOut := by
  unfold sendPathDownstream at sent stored
  rw [Table.get_of_mem mem] at sent stored
  simp only at sent stored
  split at sent
  · have grown := congrArg List.length sent
    rw [List.length_append, List.length_singleton] at grown
    exact absurd grown (Nat.ne_of_lt (Nat.lt_succ_self n.out.length))
  · rename_i ifindex route
    rw [route] at stored
    simp only at stored
    rw [pathMessage_eq, rsvpSendPacket_built _ _ _ _ _ (pathCalls_fit b.key _ _ ifindex)
      (Nat.le_refl 1500)] at sent stored
    have here := Node.mem_modPsb _ (n.mem_modPsb mem fun x =>
      { x with ero := (resolvePathNextHop env.toHal b.key b.body).2.2 })
      fun x => { x with ifindexOut := ifindex }
    cases (Table.get_of_mem here).symm.trans stored
    have packet := List.append_cancel_left sent
    rw [List.singleton_inj] at packet
    injection packet with dest rao bytes
    refine ⟨{ b.body with
      ero := (resolvePathNextHop env.toHal b.key b.body).2.2
      ifindexOut := ifindex }, ?_⟩
    rw [pathOutput, pathMessage_eq, ← bytes, ← dest]

/-- After N sends the PATH of `b` and M answers it, an entry that N installs for M's RESV leads
out of the interface of the PATH if and only if M has no route to N or M's own number for its
interface toward N is that number. -/
theorem install_ifindex_eq_iff {envN : Env} {n : Node} {b b' : Psb} (mem : b ∈ n.psbs)
    {ipDest addr : InAddr} {path : Bytes}
    (sent : (sendPathDownstream envN n b.addr).out = n.out ++ [.packet ipDest true path])
    (stored : (sendPathDownstream envN n b.addr).psbs.get b.addr = some b')
    (own : addr = (envN.getLocalAddr b'.body.ifindexOut).getD b.key.sender.sourceAddr)
    (set : addr ≠ 0) {halM : Hal} {m : Node}
    (holds : Holds halM b.key.wire ⟨addr, htonl b'.body.ifindexOut⟩ path log m)
    {resv : Bytes} (answered : ∃ replies, m.out = log ++ replies ∧
      .packet addr false resv ∈ replies)
    (type : (Output.packet addr false resv).msgType = some msgResv) {envN' : Env} {n' : Node}
    {info : MessageInfo} (wf : n'.Wf) (received : Receives envN' resv info)
    (named : info.key = b.key.wire) :
    ∃ new, (n'.step envN' (.recv resv)).out = n'.out ++ new ∧
      ∀ inLabel outLabel outIfindex nextHop dest,
        .mplsInstall inLabel outLabel outIfindex nextHop dest ∈ new →
        (outIfindex = b'.body.ifindexOut ↔
          halM.getEgressIf addr = none ∨ halM.getEgressIf addr = some b'.body.ifindexOut) := by
  obtain ⟨psb, packet⟩ := sendPathDownstream_sent mem sent stored
  have names : ∀ env info, Receives env path info → info.commonHdr.msgType = msgPath ∧
      info.key = b.key.wire ∧ info.hop = ⟨addr, htonl b'.body.ifindexOut⟩ ∧
      rsvpValidatePathMessage info none = none := by
    intro env info received
    rw [own]
    exact pathOutput_received packet received
  obtain ⟨-, -, replies', out', echoes⟩ := holds.tracks set names
  obtain ⟨replies, out, reply⟩ := answered
  cases List.append_cancel_left (out.symm.trans out')
  have echoed := echoes _ reply resv envN' info rfl type received named
  obtain ⟨new, out, installed⟩ := n'.step_installs wf received
  refine ⟨new, out, fun inLabel outLabel outIfindex nextHop dest entry => ?_⟩
  rw [installed _ _ _ _ _ entry, echoed]
  change (halM.getEgressIf addr).getD (bswap32 (bswap32 b'.body.ifindexOut)) = _ ↔ _
  rw [bswap32_bswap32]
  cases halM.getEgressIf addr with
  | none => exact ⟨fun _ => .inl rfl, fun _ => rfl⟩
  | some i =>
    rw [Option.getD_some]
    constructor
    · intro same
      exact .inr (congrArg some same)
    · intro agrees
      rcases agrees with missing | same
      · cases missing
      · exact Option.some.inj same

/-! ## Two nodes -/

/-- The upstream node: 10.0.0.1, with its interface 2 toward everything. -/
def upstreamEnv (mem : Ptr) : Env := sampleEnv (· = 0x0100000A) mem

/-- The downstream node: 10.0.0.3, with its interface `ifindex` toward everything. -/
def downstreamEnv (ifindex : UInt32) : Env :=
  { sampleEnv (· = 0x0300000A) 1 with
    getLocalAddr := fun _ => some 0x0300000A
    getEgressIf := fun _ => some ifindex }

/-- The upstream node has originated an LSP to 10.0.0.3. -/
def upstreamNode : Node :=
  (Node.init (labelMgrInit 16 31 true)).step (upstreamEnv 1)
    (.initiatePath 0x0100000A 0x0300000A 1 none [] false)

def upstreamKey : PathKey := ingressKey 0x0100000A 0x0300000A 1 1

/-- The PATH of its next refresh. -/
def refreshPath : Bytes := (sendPathDownstream (upstreamEnv 1) upstreamNode 1).lastPacket

/-- The downstream node has received it. -/
def downstreamNode (ifindex : UInt32) : Node :=
  (Node.init (labelMgrInit 16 31 true)).step (downstreamEnv ifindex) (.recv refreshPath)

/-- The upstream node sends the PATH out of interface 2, the downstream node, for which 10.0.0.1
is behind interface 7, answers it, and the upstream node installs interface 7. -/
theorem exists_foreign_ifindex_installed :
    Reachable (labelMgrInit 16 31 true) upstreamNode ∧
      (sendPathDownstream (upstreamEnv 1) upstreamNode 1).out =
        upstreamNode.out ++ [.packet 0x0300000A true refreshPath] ∧
      (sendPathDownstream (upstreamEnv 1) upstreamNode 1).psbs.blocks.map (·.body.ifindexOut) =
        [2] ∧
      (downstreamNode 7).out = [.packet 0x0100000A false (downstreamNode 7).lastPacket] ∧
      (upstreamNode.step (upstreamEnv 2) (.recv (downstreamNode 7).lastPacket)).out =
        upstreamNode.out ++ [.mplsInstall 0 16 7 0x0300000A 0x0300000A] := by
  refine ⟨.step _ _ .init, ?_⟩
  decide +kernel

/-- Where both nodes give the link the number 2, the upstream node installs interface 2. -/
theorem install_ifindex_eq_iff_numbered :
    ∃ new, (upstreamNode.step (upstreamEnv 2) (.recv (downstreamNode 2).lastPacket)).out =
        upstreamNode.out ++ new ∧ .mplsInstall 0 16 2 0x0300000A 0x0300000A ∈ new ∧
      ∀ inLabel outLabel outIfindex nextHop dest,
        .mplsInstall inLabel outLabel outIfindex nextHop dest ∈ new → outIfindex = 2 := by
  obtain ⟨pool, -⟩ : (labelMgrInit 16 31 true).Wf ∧ _ :=
    labelMgrInit_wf (by decide) (by decide) (by decide)
  have run : Reachable (labelMgrInit 16 31 true) upstreamNode := .step _ _ .init
  obtain ⟨b, found, keyB⟩ : ∃ b, upstreamNode.psbs.get 1 = some b ∧ b.key = upstreamKey := by
    have held : (upstreamNode.psbs.get 1).any (·.key = upstreamKey) = true := by decide +kernel
    obtain ⟨b, found, key⟩ := (Option.any_eq_true _ _).mp held
    exact ⟨b, found, of_decide_eq_true key⟩
  obtain ⟨mem, addr⟩ := Table.get_eq_some.mp found
  obtain ⟨b', stored, out⟩ : ∃ b',
      (sendPathDownstream (upstreamEnv 1) upstreamNode b.addr).psbs.get b.addr = some b' ∧
        b'.body.ifindexOut = 2 := by
    have held : ((sendPathDownstream (upstreamEnv 1) upstreamNode 1).psbs.get 1).any
        (·.body.ifindexOut = 2) = true := by
      decide +kernel
    obtain ⟨b', stored, out⟩ := (Option.any_eq_true _ _).mp held
    rw [addr]
    exact ⟨b', stored, of_decide_eq_true out⟩
  have sent : (sendPathDownstream (upstreamEnv 1) upstreamNode b.addr).out =
      upstreamNode.out ++ [.packet 0x0300000A true refreshPath] := by
    rw [addr]
    decide +kernel
  have path : parsedKey (refreshPath.take maxRsvpPacketSize) = some upstreamKey := by
    decide +kernel
  have reply : parsedKey ((downstreamNode 2).lastPacket.take maxRsvpPacketSize) =
      some upstreamKey := by
    decide +kernel
  obtain ⟨infoM, parsedM, -⟩ := ok_of_parsedKey path
  obtain ⟨info, parsed, keyN⟩ := ok_of_parsedKey reply
  have holds : Holds (downstreamEnv 2).toHal b.key.wire ⟨0x0100000A, htonl b'.body.ifindexOut⟩
      refreshPath [] (downstreamNode 2) :=
    .arrive (.init pool) rfl ⟨by decide +kernel, parsedM⟩
      fun c memc => absurd memc (Table.not_mem_empty c)
  have answered : (downstreamNode 2).out =
      [] ++ [.packet 0x0100000A false (downstreamNode 2).lastPacket] := by
    decide +kernel
  have type : (Output.packet 0x0100000A false (downstreamNode 2).lastPacket).msgType =
      some msgResv := by
    decide +kernel
  have own : (0x0100000A : InAddr) = ((upstreamEnv 1).getLocalAddr b'.body.ifindexOut).getD
      b.key.sender.sourceAddr := rfl
  have replied : ∃ replies, (downstreamNode 2).out = [] ++ replies ∧
      .packet 0x0100000A false (downstreamNode 2).lastPacket ∈ replies :=
    ⟨_, answered, List.mem_singleton.mpr rfl⟩
  have received : Receives (upstreamEnv 2) (downstreamNode 2).lastPacket info :=
    ⟨by decide +kernel, parsed⟩
  have named : info.key = b.key.wire := by
    rw [keyN, keyB]
    exact ((PathKey.wire_eq_self_iff upstreamKey).mpr rfl).symm
  obtain ⟨new, grown, named⟩ := install_ifindex_eq_iff mem sent stored own (by decide) holds
    replied type (run.wf pool) received named
  rw [out] at named
  have entry : (upstreamNode.step (upstreamEnv 2) (.recv (downstreamNode 2).lastPacket)).out =
      upstreamNode.out ++ [.mplsInstall 0 16 2 0x0300000A 0x0300000A] := by
    decide +kernel
  refine ⟨new, grown, ?_, fun _ _ _ _ _ mem => (named _ _ _ _ _ mem).mpr (.inr rfl)⟩
  rw [List.append_cancel_left (grown.symm.trans entry)]
  exact List.mem_singleton.mpr rfl

end Rsvp
