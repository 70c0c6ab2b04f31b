import RsvpTe.Messages

/-!
# Keys across forwarding

A PSB is found by comparing all 20 bytes of its key, while every sender rebuilds the SESSION
object from three of its fields.  What a message of this node says about the key of a PSB is
therefore `PathKey.wire` of it: the key itself exactly when the reserved field of its SESSION
is zero.
-/

namespace Rsvp

open Words

/-- The key the parser reads from a packet it accepts. -/
def parsedKey (buffer : Bytes) : Option PathKey :=
  match rsvpParsePacket buffer with
  | .ok info => some info.key
  | _ => none

theorem parsedKey_of_ok {buffer : Bytes} {info : MessageInfo}
    (parsed : rsvpParsePacket buffer = .ok info) : parsedKey buffer = some info.key := by
  rw [parsedKey, parsed]

theorem ok_of_parsedKey {buffer : Bytes} {key : PathKey} (read : parsedKey buffer = some key) :
    ∃ info, rsvpParsePacket buffer = .ok info ∧ info.key = key := by
  unfold parsedKey at read
  split at read
  · exact ⟨_, ‹_›, Option.some.inj read⟩
  · cases read

/-- The key a logged packet names. -/
def Output.key : Output → Option PathKey
  | .packet _ _ bytes => parsedKey bytes
  | _ => none

/-- The calls by which the node emits a message for PSB `b`, and the state they lead to. -/
inductive EmitsFor (env : Env) (s : Node) (b : Psb) : Node → Prop
  | path : EmitsFor env s b (sendPathDownstream env s b.addr)
  | pathTear : EmitsFor env s b (propagatePathTear env s b.addr)
  | resv {r : Rsb} : r ∈ s.rsbs → r.body.associatedPsb = some b.addr →
    EmitsFor env s b (sendResvUpstream env s r.addr)
  | resvTear {r : Rsb} : r ∈ s.rsbs → r.body.associatedPsb = some b.addr →
    EmitsFor env s b (propagateResvTear env s r.addr)
  | pathErr {info : MessageInfo} {errCode : UInt8} {errVal : UInt16} : info.key = b.key →
    EmitsFor env s b (sendPathErr env s info errCode errVal)
  | pathErrRelay {buffer : Bytes} {info : MessageInfo} : rsvpParsePacket buffer = .ok info →
    info.commonHdr.msgType = msgPathErr → s.rsvpPsbFind info.key = some b →
    EmitsFor env s b (handlePathErr env s info)

/-- `s'` extends the log of `s` by packets that all name the key `key`. -/
def LogsKey (s s' : Node) (key : PathKey) : Prop :=
  ∃ new, s'.out = s.out ++ new ∧ ∀ o ∈ new, o.key = some key

theorem LogsKey.refl {s s' : Node} (same : s'.out = s.out) (key : PathKey) : LogsKey s s' key :=
  ⟨[], by rw [same, List.append_nil], fun _ mem => by cases mem⟩

/-- Sending a packet that names `key`. -/
theorem LogsKey.send {s t : Node} {key : PathKey} (same : t.out = s.out) (src dest : InAddr)
    (msg : Bytes) (useRao : Bool)
    (named : ∃ info, rsvpParsePacket (rsvpPacket src dest msg useRao) = .ok info ∧
      info.key = key) : LogsKey s (rsvpSendPacket t src dest msg useRao) key := by
  obtain ⟨info, parsed, rfl⟩ := named
  rcases rsvpSendPacket_cases t src dest msg useRao with dropped | sent
  · rw [dropped]
    exact LogsKey.refl same _
  · rw [sent]
    refine ⟨[_], by rw [Node.emit, same], ?_⟩
    intro o mem
    rw [List.mem_singleton.mp mem]
    exact parsedKey_of_ok parsed

/-- A mandatory object of an accepted message is there. -/
theorem objs_ne_none_of_mandatory {buffer : Bytes} {info : MessageInfo}
    (parsed : rsvpParsePacket buffer = .ok info) {k : Slot}
    (mandatory : k ∈ mandatorySlots info.commonHdr.msgType) : ∃ o, info.objs k = some o := by
  obtain ⟨objs, accepted, rfl⟩ := Accepted.of_ok parsed
  have found := (firstFit_isSome_iff objs k).mpr (accepted.mandatory k mandatory)
  exact Option.isSome_iff_exists.mp found

/-- The session part of the key of an accepted message is its SESSION object. -/
theorem key_session_of_objs {buffer : Bytes} {info : MessageInfo}
    (parsed : rsvpParsePacket buffer = .ok info) {o : Obj} (held : info.objs .sessV4 = some o) :
    info.key.session = .ofBytes o.data := by
  obtain ⟨objs, -, rfl⟩ := Accepted.of_ok parsed
  have first : firstFit objs .sessV4 = some o := held
  simp only [extracted, first, Option.map_some, Option.getD_some]

variable {env : Env} {s : Node} {b : Psb}

theorem sendPathDownstream_logsKey (mem : b ∈ s.psbs) :
    LogsKey s (sendPathDownstream env s b.addr) b.key.wire := by
  unfold sendPathDownstream
  rw [Table.get_of_mem mem]
  simp only
  split
  · exact .refl rfl _
  · apply LogsKey.send
    · rfl
    · obtain ⟨info, parsed, -, named, -⟩ := parse_pathMessage b.key _ _ _ _ _ true
      exact ⟨info, parsed, named⟩

theorem propagatePathTear_logsKey (mem : b ∈ s.psbs) :
    LogsKey s (propagatePathTear env s b.addr) b.key.wire := by
  unfold propagatePathTear
  rw [Table.get_of_mem mem]
  simp only
  split
  · exact .refl rfl _
  · apply LogsKey.send
    · rfl
    · obtain ⟨info, parsed, -, named⟩ := parse_pathTearMessage b.key b.body _ _ _ _ true
      exact ⟨info, parsed, named⟩

theorem sendResv_logsKey {t : Node} (same : t.out = s.out) (rsb : Rsb) :
    LogsKey s (sendResv env t b rsb) b.key.wire := by
  unfold sendResv
  apply LogsKey.send
  · exact same
  · obtain ⟨info, parsed, -, named, -⟩ := parse_resvMessage b.key rsb.body _ _ _ _ _ false
    exact ⟨info, parsed, named⟩

theorem sendResvUpstream_logsKey (mem : b ∈ s.psbs) {r : Rsb} (rmem : r ∈ s.rsbs)
    (tied : r.body.associatedPsb = some b.addr) :
    LogsKey s (sendResvUpstream env s r.addr) b.key.wire := by
  have psb : s.psbOf r.body = some b := by
    rw [Node.psbOf, tied]
    exact Table.get_of_mem mem
  unfold sendResvUpstream
  rw [Table.get_of_mem rmem]
  simp only [psb]
  split
  · split
    · exact LogsKey.refl rfl _
    · apply sendResv_logsKey
      rfl
  · exact sendResv_logsKey rfl r

theorem propagateResvTear_logsKey (mem : b ∈ s.psbs) {r : Rsb} (rmem : r ∈ s.rsbs)
    (tied : r.body.associatedPsb = some b.addr) :
    LogsKey s (propagateResvTear env s r.addr) b.key.wire := by
  have psb : s.psbOf r.body = some b := by
    rw [Node.psbOf, tied]
    exact Table.get_of_mem mem
  unfold propagateResvTear
  rw [Table.get_of_mem rmem]
  simp only [psb]
  split
  · exact .refl rfl _
  · apply LogsKey.send
    · rfl
    · obtain ⟨info, parsed, -, named⟩ := parse_resvTearMessage b.key r.body _ _ _ _ false
      exact ⟨info, parsed, named⟩

theorem handlePathErr_logsKey {buffer : Bytes} {info : MessageInfo}
    (parsed : rsvpParsePacket buffer = .ok info) (type : info.commonHdr.msgType = msgPathErr)
    (found : s.rsvpPsbFind info.key = some b) :
    LogsKey s (handlePathErr env s info) b.key.wire := by
  obtain ⟨o, held⟩ : ∃ o, info.objs .errorSpec = some o := by
    apply objs_ne_none_of_mandatory parsed
    rw [type]
    decide
  unfold handlePathErr
  simp only [found, MessageInfo.errorSpec, held, Option.map_some]
  split
  · exact LogsKey.refl rfl _
  · apply LogsKey.send
    · rfl
    · obtain ⟨info, parsed, -, named⟩ := parse_pathErrRelay b.key (.ofBytes o.data) _ _ _ _ false
      exact ⟨info, parsed, named⟩

/-- Every message emitted for a PSB names the wire form of its key. -/
theorem EmitsFor.logsKey {s' : Node} (mem : b ∈ s.psbs) (emits : EmitsFor env s b s') :
    LogsKey s s' b.key.wire := by
  cases emits with
  | path => exact sendPathDownstream_logsKey mem
  | pathTear => exact propagatePathTear_logsKey mem
  | resv rmem tied => exact sendResvUpstream_logsKey mem rmem tied
  | resvTear rmem tied => exact propagateResvTear_logsKey mem rmem tied
  | pathErr same =>
    unfold sendPathErr
    apply LogsKey.send
    · rfl
    · rw [same]
      obtain ⟨info, parsed, -, named⟩ := parse_pathErrMessage b.key _ _ _ false
      exact ⟨info, parsed, named⟩
  | pathErrRelay parsed type found => exact handlePathErr_logsKey parsed type found

/-- The PSB `b` of an accepted PATH: a message emitted for it names its key, and a RESV that a
neighbour builds from that message is matched to it, exactly when the reserved field of the
SESSION in the PATH is zero. -/
theorem key_eq_iff_reserved_eq_zero {buffer : Bytes} {info : MessageInfo}
    (parsed : rsvpParsePacket buffer = .ok info) (type : info.commonHdr.msgType = msgPath)
    {s' : Node} (found : s.rsvpPsbFind info.key = some b) (emits : EmitsFor env s b s') :
    ∃ session new, info.objs .sessV4 = some session ∧ s'.out = s.out ++ new ∧
      ∀ o ∈ new, ∃ key, o.key = some key ∧ (key = b.key ↔ u16At session.data 4 = 0) ∧
        ∀ (env' : Env) (t : Node) (c : Psb) (r : Rsb), t.rsvpPsbFind key = some c → r ∈ t.rsbs →
          r.body.associatedPsb = some c.addr →
          ∃ replies, (sendResvUpstream env' t r.addr).out = t.out ++ replies ∧
            ∀ reply ∈ replies, ∃ key', reply.key = some key' ∧
              (s.rsvpPsbFind key' = some b ↔ u16At session.data 4 = 0) := by
  obtain ⟨session, held⟩ : ∃ session, info.objs .sessV4 = some session := by
    apply objs_ne_none_of_mandatory parsed
    rw [type]
    decide
  obtain ⟨mem, keyEq⟩ := Table.find_eq_some found
  have reserved : b.key.session.reserved = u16At session.data 4 := by
    rw [keyEq, key_session_of_objs parsed held]
    rfl
  have stable : b.key.wire = b.key ↔ u16At session.data 4 = 0 := by
    rw [PathKey.wire_eq_self_iff, reserved]
  obtain ⟨new, out, named⟩ := emits.logsKey mem
  refine ⟨session, new, held, out, fun o inNew => ⟨_, named o inNew, stable, ?_⟩⟩
  intro env' t c r foundC rmem tied
  obtain ⟨memC, keyC⟩ := Table.find_eq_some foundC
  obtain ⟨replies, out', named'⟩ := @sendResvUpstream_logsKey env' t c memC r rmem tied
  refine ⟨replies, out', fun reply inReplies => ⟨_, named' reply inReplies, ?_⟩⟩
  rw [keyC, PathKey.wire_wire]
  constructor
  · intro matched
    exact stable.mp (Table.find_eq_some matched).2.symm
  · intro zero
    rw [stable.mpr zero, keyEq]
    exact found

/-- A transit node: no address is local and every destination is behind interface 2. -/
def transitEnv : Env where
  isLocalAddr := fun _ => false
  getLocalAddr := fun _ => some 0x0100000A
  getEgressIf := fun _ => some 2
  psbMem := some 1
  rsbMem := some 1
  bsbMem := some 1
  strdupOk := true
  freed := fun p => ⟨p, .zero, .zero⟩

/-- A PATH whose SESSION has the given reserved field. -/
def reservedPath (reserved : UInt16) : Bytes :=
  rsvpPacket 0x0900000A 0x0300000A
    (built 1500 msgPath 64
      [⟨classSession, 7, SessionIpv4.bytes ⟨0x0300000A, reserved, 0x0100, 0x0900000A⟩⟩,
        hopCall 0x0900000A 5, labelReqCall,
        ⟨classSenderTemplate, 7, SenderIpv4.bytes ⟨0x0900000A, 0, 0x0100⟩⟩]) true

def reservedKey (reserved : UInt16) : PathKey :=
  ⟨⟨0x0300000A, reserved, 0x0100, 0x0900000A⟩, ⟨0x0900000A, 0, 0x0100⟩⟩

/-- A fresh transit node that has received the PATH. -/
def reservedNode (reserved : UInt16) : Node :=
  (Node.init (labelMgrInit 16 31 true)).step transitEnv (.recv (reservedPath reserved))

/-- The refresh of the PSB of a PATH with a zero reserved field. -/
theorem key_eq_iff_reserved_eq_zero_refresh :
    ∃ info b, rsvpParsePacket (reservedPath 0) = .ok info ∧
      info.commonHdr.msgType = msgPath ∧ (reservedNode 0).rsvpPsbFind info.key = some b ∧
      ∃ new, (sendPathDownstream transitEnv (reservedNode 0) b.addr).out =
          (reservedNode 0).out ++ new ∧ new ≠ [] ∧ ∀ o ∈ new, o.key = some b.key := by
  have read : parsedKey (reservedPath 0) = some (reservedKey 0) := by decide +kernel
  have header : (rsvpHdr (reservedPath 0)).msgType = msgPath := by decide +kernel
  obtain ⟨info, parsed, keyEq⟩ := ok_of_parsedKey read
  have type : info.commonHdr.msgType = msgPath := by
    obtain ⟨objs, -, rfl⟩ := Accepted.of_ok parsed
    exact header
  obtain ⟨b, found⟩ : ∃ b, (reservedNode 0).rsvpPsbFind info.key = some b := by
    rw [keyEq, ← Option.isSome_iff_exists]
    decide +kernel
  obtain ⟨session, new, held, out, named⟩ :=
    key_eq_iff_reserved_eq_zero parsed type found (.path : EmitsFor transitEnv _ b _)
  have zero : u16At session.data 4 = 0 := by
    have reserved := congrArg SessionIpv4.reserved (key_session_of_objs parsed held)
    rw [keyEq] at reserved
    exact reserved.symm
  refine ⟨info, b, parsed, type, found, new, out, ?_, ?_⟩
  · rintro rfl
    have addr : ((reservedNode 0).rsvpPsbFind (reservedKey 0)).map Block.addr = some 1 := by
      decide +kernel
    have grown : (sendPathDownstream transitEnv (reservedNode 0) 1).out.length ≠
        (reservedNode 0).out.length := by
      decide +kernel
    rw [← keyEq, found] at addr
    rw [Option.some.inj addr, List.append_nil] at out
    exact grown (congrArg List.length out)
  · intro o mem
    obtain ⟨key, keyOf, stable, -⟩ := named o mem
    rw [keyOf, stable.mpr zero]

/-- With a non-zero reserved field the PSB is stored and the PATH is forwarded, but what is
forwarded names another key, under which this node has no PSB. -/
theorem exists_forwarded_key_ne :
    parsedKey (reservedPath 1) = some (reservedKey 1) ∧
      (reservedNode 1).psbs.blocks.map Block.key = [reservedKey 1] ∧
      (reservedNode 1).out.map Output.key = [some (reservedKey 0)] ∧
      reservedKey 0 ≠ reservedKey 1 ∧
      ((reservedNode 1).rsvpPsbFind (reservedKey 0)).isNone = true := by
  decide +kernel

end Rsvp
