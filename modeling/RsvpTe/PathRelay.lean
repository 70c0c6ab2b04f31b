import RsvpTe.PathLoops

/-!
# PATHs that are passed on

A `PathRelay` is the handling of a PATH by a node in transit together with what a parser reads in
the PATH the node sends for it.  That PATH is encoded from the PSB as the received one left it, so
each object the next node finds is a function of the object this node got: `PathRelay.decodes`.
-/

namespace Rsvp

open Words

/-! ## The optional objects of a PATH -/

section Calls

variable (key : PathKey) (psb : PsbState) (localAddr : InAddr) (ifindex : UInt32)

theorem firstCall_eq_none {calls : List AddCall} {k : Slot}
    (away : ∀ c ∈ calls, slotOfClass c.classNum ≠ some k) : firstCall calls k = none :=
  List.find?_eq_none.mpr (by simpa using away)

/-- The slots of the objects between the ERO and the RRO. -/
theorem slots_pathCalls_middle :
    ∀ c ∈ [labelReqCall, attrCall psb] ++ frrCalls psb ++
      [senderCall classSenderTemplate key, tspecCall classSenderTspec (pathTspec psb)],
      slotOfClass c.classNum ≠ some .ero ∧ slotOfClass c.classNum ≠ some .rro := by
  have other : ∀ {classNum : UInt8} {k : Slot}, slotOfClass classNum = some k →
      k ≠ .ero ∧ k ≠ .rro →
      slotOfClass classNum ≠ some .ero ∧ slotOfClass classNum ≠ some .rro := by
    intro classNum k slot away
    rw [slot]
    exact ⟨fun same => away.1 (Option.some.inj same), fun same => away.2 (Option.some.inj same)⟩
  intro c mem
  simp only [List.mem_append, List.mem_cons, List.not_mem_nil, or_false] at mem
  rcases mem with ((rfl | rfl) | frr) | rfl | rfl
  · exact other (rfl : slotOfClass classLabelRequest = some .labelReq) (by decide)
  · exact other (rfl : slotOfClass classSessionAttrib = some .sessAttr) (by decide)
  · exact ⟨not_mem_frrCalls psb (by decide) c frr, not_mem_frrCalls psb (by decide) c frr⟩
  · exact other (rfl : slotOfClass classSenderTemplate = some .senderV4) (by decide)
  · exact other (rfl : slotOfClass classSenderTspec = some .tspec) (by decide)

theorem firstCall_pathCalls_attr :
    firstCall (pathCalls key psb localAddr ifindex) .sessAttr = some (attrCall psb) := by
  simp only [pathCalls, List.append_assoc]
  change firstCall (routeCalls classExplicitRoute psb.ero.hops ++ _) .sessAttr = _
  rw [firstCall_past_ero (by decide)]
  rfl

theorem firstCall_route {classNum : UInt8} {k : Slot} (slot : slotOfClass classNum = some k)
    (hops : List EroSubobj) {rest : List AddCall} (none : firstCall rest k = none) :
    firstCall (routeCalls classNum hops ++ rest) k = (routeCalls classNum hops).head? := by
  unfold routeCalls
  split
  · exact none
  · rw [List.singleton_append, firstCall, List.find?_cons_of_pos (by simpa using slot)]
    rfl

theorem firstCall_pathCalls_ero :
    firstCall (pathCalls key psb localAddr ifindex) .ero =
      (routeCalls classExplicitRoute psb.ero.hops).head? := by
  have rest : firstCall ([labelReqCall, attrCall psb] ++ frrCalls psb ++
      [senderCall classSenderTemplate key, tspecCall classSenderTspec (pathTspec psb)] ++
      routeCalls classRecordRoute (pathRro psb localAddr)) .ero = none := by
    rw [firstCall_append_of_ne fun c mem => (slots_pathCalls_middle key psb c mem).1]
    exact firstCall_eq_none (not_mem_routeCalls _ (by decide))
  have found := firstCall_route (by decide : slotOfClass classExplicitRoute = some .ero)
    psb.ero.hops rest
  simp only [pathCalls, List.append_assoc] at found ⊢
  exact found

theorem firstCall_pathCalls_rro :
    firstCall (pathCalls key psb localAddr ifindex) .rro =
      (routeCalls classRecordRoute (pathRro psb localAddr)).head? := by
  have none : firstCall [] .rro = Option.none := rfl
  have found := firstCall_route (by decide : slotOfClass classRecordRoute = some .rro)
    (pathRro psb localAddr) none
  rw [List.append_nil] at found
  have shape : pathCalls key psb localAddr ifindex =
      [sessionCall key, hopCall localAddr ifindex, timeCall psb.refreshMs] ++
        (routeCalls classExplicitRoute psb.ero.hops ++ ([labelReqCall, attrCall psb] ++
          frrCalls psb ++ [senderCall classSenderTemplate key,
            tspecCall classSenderTspec (pathTspec psb)] ++
          routeCalls classRecordRoute (pathRro psb localAddr))) := by
    simp only [pathCalls, List.append_assoc]
  rw [shape]
  change firstCall (routeCalls classExplicitRoute psb.ero.hops ++ _) .rro = _
  rw [firstCall_past_ero (by decide),
    firstCall_append_of_ne fun c mem => (slots_pathCalls_middle key psb c mem).2, found]

theorem firstCall_pathCalls_frr :
    firstCall (pathCalls key psb localAddr ifindex) .fastReroute = (frrCalls psb).head? := by
  have rest : firstCall ([senderCall classSenderTemplate key,
      tspecCall classSenderTspec (pathTspec psb)] ++
      routeCalls classRecordRoute (pathRro psb localAddr)) .fastReroute = none := by
    have sender : firstCall ([senderCall classSenderTemplate key,
        tspecCall classSenderTspec (pathTspec psb)] ++
        routeCalls classRecordRoute (pathRro psb localAddr)) .fastReroute =
        firstCall (routeCalls classRecordRoute (pathRro psb localAddr)) .fastReroute := rfl
    rw [sender]
    exact firstCall_eq_none (not_mem_routeCalls _ (by decide))
  simp only [pathCalls, List.append_assoc]
  change firstCall (routeCalls classExplicitRoute psb.ero.hops ++ _) .fastReroute = _
  rw [firstCall_past_ero (by decide)]
  change firstCall (frrCalls psb ++ _) .fastReroute = _
  unfold frrCalls
  split
  · rfl
  · exact rest

end Calls

/-! ## Relays -/

/-- A node in transit sends a PATH for the PATH it handles, and a parser reads `info'` in it. -/
structure PathRelay (env : Env) (s : Node) (info info' : MessageInfo) : Prop where
  transit : env.isLocalAddr info.key.session.destAddr = false
  foreign : env.isLocalAddr info.key.sender.sourceAddr = false
  sends : ∃ sent dest useRao bytes, (handlePathMessage env s info).out = s.out ++ sent ∧
    .packet dest useRao bytes ∈ sent ∧ rsvpParsePacket bytes = .ok info'
  path : info'.commonHdr.msgType = msgPath

/-- The address a node gives for itself in what it sends out of an interface. -/
def ownAddr (hal : Hal) (key : PathKey) (ifindex : UInt32) : InAddr :=
  (hal.getLocalAddr ifindex).getD key.sender.sourceAddr

theorem pathOutput_decodes {hal : Hal} {key : PathKey} {psb : PsbState} {ipDest dest : InAddr}
    {ifindex : UInt32} {useRao : Bool} {bytes : Bytes} {info : MessageInfo}
    (sent : Output.packet dest useRao bytes = pathOutput hal key psb ipDest ifindex)
    (parsed : rsvpParsePacket bytes = .ok info) :
    Decodes info msgPath (forwardTtl psb.ttl)
      (pathCalls key psb (ownAddr hal key ifindex) ifindex) := by
  cases sent
  obtain ⟨info', parsed', decodes, -⟩ := parse_pathCalls key psb (ownAddr hal key ifindex) ifindex
    (ownAddr hal key ifindex) ipDest true
  cases parsed'.symm.trans parsed
  exact decodes

/-- What is read in the PATH is what the sender put into it. -/
theorem PathRelay.decodes {env : Env} {s : Node} {info info' : MessageInfo}
    (relay : PathRelay env s info info') :
    PathForwarded env s info ∧ ∃ ifindex ttl, Decodes info' msgPath ttl
      (pathCalls info.key (info.passedOn env (s.pathStart info.key) ifindex)
        (ownAddr env.toHal info.key ifindex) ifindex) := by
  obtain ⟨transit, foreign, ⟨sent, dest, useRao, bytes, logged, mem, parsed⟩, path⟩ := relay
  obtain ⟨sent', logged', split⟩ := @handlePathMessage_out env s info transit foreign
  cases List.append_cancel_left (logged'.symm.trans logged)
  rcases split with ⟨forwarded, ipDest, ifindex, one⟩ | ⟨-, none⟩
  · rw [one] at mem
    exact ⟨forwarded, ifindex, _, pathOutput_decodes (List.mem_singleton.mp mem) parsed⟩
  · obtain ⟨objs, -, eq⟩ := Accepted.of_ok parsed
    rw [eq] at path
    exact absurd (congrArg some path) (none _ mem)

/-- Every PATH that is forwarded is relayed. -/
theorem exists_pathRelay {env : Env} {s : Node} {info : MessageInfo}
    (transit : env.isLocalAddr info.key.session.destAddr = false)
    (foreign : env.isLocalAddr info.key.sender.sourceAddr = false)
    (forwarded : PathForwarded env s info) : ∃ info', PathRelay env s info info' := by
  obtain ⟨sent, logged, split⟩ := @handlePathMessage_out env s info transit foreign
  rcases split with ⟨-, ipDest, ifindex, rfl⟩ | ⟨held, -⟩
  · obtain ⟨info', parsed, decodes, -⟩ := parse_pathCalls info.key
      (info.passedOn env (s.pathStart info.key) ifindex) (ownAddr env.toHal info.key ifindex)
      ifindex (ownAddr env.toHal info.key ifindex) ipDest true
    exact ⟨info', transit, foreign, ⟨_, _, _, _, logged, List.mem_cons_self, parsed⟩,
      decodes.msgType⟩
  · exact absurd forwarded held

/-- The first PATH of an LSP, at a node that has a route for everything. -/
theorem pathForwarded_sample {info : MessageInfo} (valid : rsvpValidatePathMessage info none = none) :
    PathForwarded (sampleEnv (fun _ => false) 100) (.init (labelMgrInit 16 31 true)) info where
  valid := valid
  memory := fun _ => Option.some_ne_none _
  route := Option.some_ne_none _
  again := Option.some_ne_none _

end Rsvp
