import RsvpTe.RoundTrip
import RsvpTe.StateMachine

/-!
# What the emitted messages say

Every sender is a fixed sequence of builder calls that fits its buffer, so parsing the packet
it hands out yields those objects (`parse_built`).  The theorems of the last section read off,
for each kind of message, the fields a receiver acts on.

SESSION is the one object that is re-encoded field by field; `PathKey.wire` is what is left of
a key on the wire.
-/

namespace Rsvp

open Words

/-! ## Built messages -/

/-- The message of a sequence of builder calls. -/
def built (size : Nat) (msgType ttl : UInt8) (calls : List AddCall) : Bytes :=
  (((rsvpBuilderInit size msgType).setTtl ttl).addAll calls).finish

theorem Builder.addAll_append (b : Builder) (front back : List AddCall) :
    b.addAll (front ++ back) = (b.addAll front).addAll back :=
  List.foldl_append

/-- Calls that fit together are all accepted. -/
theorem Builder.Image.added_eq {b : Builder} {msgType ttl : UInt8} {calls more : List AddCall}
    (image : b.Image msgType ttl calls) (fits : b.offset + spans more ≤ b.size) :
    b.added more = more := by
  induction more generalizing b calls with
  | nil => rfl
  | cons c more ih =>
    have total : spans (c :: more) = c.span + spans more := rfl
    rw [total] at fits
    obtain ⟨ok, image', size⟩ := image.add_fits (show b.offset + c.span ≤ b.size by omega)
    have offset : (b.add c).2.offset = b.offset + c.span := by
      have one : spans [c] = c.span := Nat.add_zero _
      rw [image'.offset, image.offset, spans_append, one, Nat.add_assoc]
    rw [Builder.added, if_pos ok, ih image' (by rw [offset, size]; omega)]

/-- A sequence of calls that fits the buffer leaves its image. -/
theorem image_built {size : Nat} (msgType ttl : UInt8) {calls : List AddCall}
    (fits : commonHdrLen + spans calls ≤ size) :
    (((rsvpBuilderInit size msgType).setTtl ttl).addAll calls).Image msgType ttl calls ∧
      (((rsvpBuilderInit size msgType).setTtl ttl).addAll calls).size = size := by
  have start := (Builder.Image.init msgType (Nat.le_trans (Nat.le_add_right ..) fits)).setTtl ttl
  obtain ⟨image, same⟩ := start.addAll calls
  have all : ((rsvpBuilderInit size msgType).setTtl ttl).added calls = calls :=
    start.added_eq fits
  rw [all] at image
  exact ⟨image, same⟩

theorem ipHeader_isHeader (src dest : InAddr) (ttl : UInt8) (totalLen : Nat) (useRao : Bool) :
    IpHeader (ipHeader src dest ttl totalLen useRao) := by
  cases useRao
  · have ihl : ((0x45 : UInt8) % 16).toNat * 4 = 20 := by decide
    exact ⟨Nat.le_refl 20, ihl⟩
  · have ihl : ((0x46 : UInt8) % 16).toNat * 4 = 24 := by decide
    exact ⟨show 20 ≤ 24 by decide, ihl⟩

theorem u32At_ipHeader_src (src dest : InAddr) (ttl : UInt8) (totalLen : Nat) (useRao : Bool)
    (msg : Bytes) : u32At (ipHeader src dest ttl totalLen useRao ++ msg) 12 = src := by
  cases useRao <;> exact le32_bytes src

theorem u32At_ipHeader_dest (src dest : InAddr) (ttl : UInt8) (totalLen : Nat) (useRao : Bool)
    (msg : Bytes) : u32At (ipHeader src dest ttl totalLen useRao ++ msg) 16 = dest := by
  cases useRao <;> exact le32_bytes dest

/-- Parsing a packet of a built message yields the objects that were added. -/
theorem parse_built {size : Nat} {msgType : UInt8} (ttl : UInt8) {calls : List AddCall}
    (fits : commonHdrLen + spans calls ≤ size) (small : size < 2 ^ 16)
    (valid : ∀ c ∈ calls, c.Valid)
    (mandatory : ∀ k ∈ mandatorySlots msgType, (firstCall calls k).isSome = true)
    (src dest : InAddr) (useRao : Bool) :
    ∃ info, rsvpParsePacket (rsvpPacket src dest (built size msgType ttl calls) useRao) =
        .ok info ∧ Decodes info msgType ttl calls ∧ info.srcIp = src ∧ info.dstIp = dest := by
  obtain ⟨image, same⟩ := image_built msgType ttl fits
  obtain ⟨info, parsed, decodes, srcIp, dstIp⟩ := image.parse (by rw [same]; exact small) valid
    (ipHeader_isHeader src dest _ _ useRao) mandatory
  refine ⟨info, parsed, decodes, ?_, ?_⟩
  · rw [srcIp, u32At_ipHeader_src]
  · rw [dstIp, u32At_ipHeader_dest]

/-- The message type of a packet. -/
def Output.msgType : Output → Option UInt8
  | .packet _ _ bytes => some (rsvpHdr bytes).msgType
  | _ => none

theorem msgType_built {size : Nat} (msgType ttl : UInt8) {calls : List AddCall}
    (fits : commonHdrLen + spans calls ≤ size) (src dest : InAddr) (useRao : Bool) :
    Output.msgType (.packet dest useRao
      (rsvpPacket src dest (built size msgType ttl calls) useRao)) = some msgType := by
  obtain ⟨image, -⟩ := image_built msgType ttl fits
  obtain ⟨sum, hdr⟩ := image.rsvpHdr_finish (ipHeader_isHeader src dest _ _ useRao)
  exact congrArg (fun hdr : CommonHdr => some hdr.msgType) hdr

theorem length_built {size : Nat} (msgType ttl : UInt8) {calls : List AddCall}
    (fits : commonHdrLen + spans calls ≤ size) :
    (built size msgType ttl calls).length = commonHdrLen + spans calls := by
  obtain ⟨image, -⟩ := image_built msgType ttl fits
  obtain ⟨sum, finish, -⟩ := image.finish
  simp only [built, finish, List.length_append, List.length_cons, List.length_nil,
    length_bytes16, length_flatMap_image, commonHdrLen]

/-- A built message of at most 1500 bytes is sent as one packet. -/
theorem rsvpSendPacket_built (s : Node) (src dest : InAddr) {size : Nat} (msgType ttl : UInt8)
    {calls : List AddCall} (fits : commonHdrLen + spans calls ≤ size) (small : size ≤ 1500)
    (useRao : Bool) :
    rsvpSendPacket s src dest (built size msgType ttl calls) useRao =
      s.emit (.packet dest useRao
        (rsvpPacket src dest (built size msgType ttl calls) useRao)) := by
  apply if_neg
  rw [length_built msgType ttl fits, maxRsvpPacketSize, iphdrLen]
  cases useRao
  · simp only [Bool.false_eq_true, if_false]
    omega
  · simp only [if_true]
    omega

/-- A built message of at most 1500 bytes is read as a whole. -/
theorem take_rsvpPacket_built (src dest : InAddr) {size : Nat} (msgType ttl : UInt8)
    {calls : List AddCall} (fits : commonHdrLen + spans calls ≤ size) (small : size ≤ 1500)
    (useRao : Bool) :
    (rsvpPacket src dest (built size msgType ttl calls) useRao).take maxRsvpPacketSize =
      rsvpPacket src dest (built size msgType ttl calls) useRao := by
  apply List.take_of_length_le
  have header : ∀ ttl totalLen, (ipHeader src dest ttl totalLen useRao).length ≤ 24 := by
    intro ttl totalLen
    cases useRao
    · exact show 20 ≤ 24 by decide
    · exact show 24 ≤ 24 by decide
  have total := header (if commonHdrLen ≤ (built size msgType ttl calls).length then
    u8At (built size msgType ttl calls) 4 else 255)
    (iphdrLen + (if useRao then 4 else 0) + (built size msgType ttl calls).length)
  rw [rsvpPacket, List.length_append, length_built msgType ttl fits, maxRsvpPacketSize]
  rw [length_built msgType ttl fits] at total
  omega

/-! ## The objects of each message -/

def sessionCall (key : PathKey) : AddCall :=
  ⟨classSession, 7, SessionIpv4.bytes
    ⟨key.session.destAddr, 0, htons (ntohs key.session.tunnelId), key.session.extendedTunnelId⟩⟩

def hopCall (neighbor : InAddr) (ifindex : UInt32) : AddCall :=
  ⟨classHop, 1, HopIpv4.bytes ⟨neighbor, htonl ifindex⟩⟩

def timeCall (refreshMs : UInt32) : AddCall := ⟨classTimeValues, 1, bytes32 (htonl refreshMs)⟩

def styleCall (style : UInt32) : AddCall := ⟨classStyle, 1, bytes32 (htonl style)⟩

def senderCall (classNum : UInt8) (key : PathKey) : AddCall := ⟨classNum, 7, key.sender.bytes⟩

def tspecCall (classNum : UInt8) (t : SenderTspec) : AddCall := ⟨classNum, 2, (wireTspec t).bytes⟩

def labelCall (label : UInt32) : AddCall := ⟨classLabel, 1, bytes32 (htonl label)⟩

def labelReqCall : AddCall := ⟨classLabelRequest, 1, bytes16 0 ++ bytes16 (htons 0x0800)⟩

def errorCall (spec : ErrorSpec) : AddCall := ⟨classErrorSpec, 1, spec.bytes⟩

/-- An empty route adds nothing. -/
def routeCalls (classNum : UInt8) (hops : List EroSubobj) : List AddCall :=
  if hops = [] then [] else [⟨classNum, 1, hops.flatMap EroSubobj.bytes⟩]

def attrCall (psb : PsbState) : AddCall :=
  ⟨classSessionAttrib, 7, [psb.setupPrio, psb.holdingPrio, sessAttrFlags psb,
    UInt8.ofNat ((psb.lspName.getD []).take 255).length] ++ (psb.lspName.getD []).take 255⟩

def frrCalls (psb : PsbState) : List AddCall :=
  if psb.frrMode ≠ .none ∧ psb.isBypassTunnel = false then
    [⟨classFastReroute, 1, FastReroute.bytes ⟨psb.setupPrio, psb.holdingPrio, 32,
      frrFlagFacility, htonl (Binary32.ofUInt32 psb.frrBandwidth), 0, 0, 0⟩⟩]
  else []

def pathCalls (key : PathKey) (psb : PsbState) (localAddr : InAddr) (ifindex : UInt32) :
    List AddCall :=
  [sessionCall key, hopCall localAddr ifindex, timeCall psb.refreshMs] ++
    routeCalls classExplicitRoute psb.ero.hops ++ [labelReqCall, attrCall psb] ++ frrCalls psb ++
    [senderCall classSenderTemplate key, tspecCall classSenderTspec (pathTspec psb)] ++
    routeCalls classRecordRoute (pathRro psb localAddr)

def resvCalls (key : PathKey) (rsb : RsbState) (merged : SenderTspec) (localAddr : InAddr)
    (ifindex : UInt32) : List AddCall :=
  [sessionCall key, hopCall localAddr ifindex, timeCall rsb.refreshMs,
    styleCall (if rsb.style = 0 then styleFf else rsb.style.toUInt32),
    tspecCall classFlowspec merged, senderCall classFilterSpec key, labelCall rsb.labelIn]

theorem call_route (b : Builder) (classNum : UInt8) (hops : List EroSubobj) :
    b.call (rsvpBuilderAddRoute · classNum hops) = b.addAll (routeCalls classNum hops) := by
  unfold Builder.call rsvpBuilderAddRoute routeCalls
  split <;> rfl

theorem pathMessage_eq (key : PathKey) (psb : PsbState) (localAddr : InAddr)
    (ifindex : UInt32) :
    pathMessage key psb localAddr ifindex =
      built 1500 msgPath (forwardTtl psb.ttl) (pathCalls key psb localAddr ifindex) := by
  have frr : ∀ b : Builder, b.call (fun b =>
      if psb.frrMode ≠ .none ∧ psb.isBypassTunnel = false then
        rsvpBuilderAddFastReroute b psb.setupPrio psb.holdingPrio 32 frrFlagFacility
          (Binary32.ofUInt32 psb.frrBandwidth)
      else (0, b)) = b.addAll (frrCalls psb) := by
    intro b
    unfold Builder.call frrCalls
    split <;> rfl
  have ero : ∀ b : Builder, b.call (rsvpBuilderAddEro · psb.ero.hops) =
      b.addAll (routeCalls classExplicitRoute psb.ero.hops) := fun b => call_route b _ _
  have rro : ∀ b : Builder, b.call (rsvpBuilderAddRro · (pathRro psb localAddr)) =
      b.addAll (routeCalls classRecordRoute (pathRro psb localAddr)) := fun b => call_route b _ _
  unfold pathMessage built pathCalls
  simp only [Builder.addAll_append, frr, ero, rro]
  rfl

theorem resvMessage_eq (key : PathKey) (rsb : RsbState) (merged : SenderTspec)
    (localAddr : InAddr) (ifindex : UInt32) :
    resvMessage key rsb merged localAddr ifindex =
      built 1024 msgResv (forwardTtl rsb.ttl) (resvCalls key rsb merged localAddr ifindex) :=
  rfl

def pathTearCalls (key : PathKey) (localAddr : InAddr) (ifindex : UInt32) : List AddCall :=
  [sessionCall key, hopCall localAddr ifindex, senderCall classSenderTemplate key]

def resvTearCalls (key : PathKey) (rsb : RsbState) (localAddr : InAddr) (ifindex : UInt32) :
    List AddCall :=
  [sessionCall key, hopCall localAddr ifindex,
    styleCall (if rsb.style = 0 then styleFf else rsb.style.toUInt32),
    senderCall classFilterSpec key]

def pathErrCalls (key : PathKey) (spec : ErrorSpec) : List AddCall :=
  [sessionCall key, errorCall spec, senderCall classSenderTemplate key]

def resvErrCalls (key : PathKey) (spec : ErrorSpec) : List AddCall :=
  [sessionCall key, errorCall spec, styleCall styleFf, senderCall classFilterSpec key]

def errorRelayCalls (key : PathKey) (spec : Option ErrorSpec) (localAddr : InAddr)
    (ifindex : UInt32) : List AddCall :=
  [sessionCall key, hopCall localAddr ifindex] ++ (spec.map errorCall).toList

theorem pathTearMessage_eq (key : PathKey) (psb : PsbState) (localAddr : InAddr)
    (ifindex : UInt32) :
    pathTearMessage key psb localAddr ifindex =
      built 1024 msgPathTear (forwardTtl psb.ttl) (pathTearCalls key localAddr ifindex) :=
  rfl

/-- A new buffer has the TTL 255. -/
theorem setTtl_rsvpBuilderInit {size : Nat} (msgType : UInt8) (enough : commonHdrLen ≤ size) :
    (rsvpBuilderInit size msgType).setTtl 255 = rsvpBuilderInit size msgType := by
  obtain ⟨-, -, buffer⟩ := Builder.Image.init msgType enough
  rw [Builder.setTtl, buffer]
  exact congrArg (fun buffer => (⟨buffer, _, _⟩ : Builder)) buffer.symm

theorem resvTearMessage_eq (key : PathKey) (rsb : RsbState) (localAddr : InAddr)
    (ifindex : UInt32) :
    resvTearMessage key rsb localAddr ifindex =
      built 1024 msgResvTear 255 (resvTearCalls key rsb localAddr ifindex) := by
  rw [built, setTtl_rsvpBuilderInit msgResvTear (by decide)]
  rfl

theorem pathErrMessage_eq (key : PathKey) (spec : ErrorSpec) :
    pathErrMessage key spec = built 1024 msgPathErr 255 (pathErrCalls key spec) :=
  rfl

theorem pathErrRelay_eq (key : PathKey) (spec : Option ErrorSpec) (localAddr : InAddr)
    (ifindex : UInt32) :
    pathErrRelay key spec localAddr ifindex =
      built 1024 msgPathErr 255 (errorRelayCalls key spec localAddr ifindex ++
        [senderCall classSenderTemplate key]) := by
  cases spec <;> rfl

theorem resvErrRelay_eq (key : PathKey) (spec : Option ErrorSpec) (localAddr : InAddr)
    (ifindex : UInt32) :
    resvErrRelay key spec localAddr ifindex =
      built 1024 msgResvErr 255 (errorRelayCalls key spec localAddr ifindex ++
        [styleCall styleFf, senderCall classFilterSpec key]) := by
  cases spec <;> rfl

/-! ## They are valid and fit -/

section Valid

variable (key : PathKey)

theorem AddCall.valid_mk {classNum cType : UInt8} {data : Bytes} (k : Slot)
    (slot : slotOfClass classNum = some k) (accepted : k.cTypeOk cType = true)
    (long : k.minLen ≤ data.length) : (⟨classNum, cType, data⟩ : AddCall).Valid :=
  ⟨k, slot, accepted, long⟩

theorem sessionCall_valid : (sessionCall key).Valid :=
  AddCall.valid_mk .sessV4 (by decide) (by decide) (Nat.le_refl 12)

theorem hopCall_valid (neighbor : InAddr) (ifindex : UInt32) : (hopCall neighbor ifindex).Valid :=
  AddCall.valid_mk .hopV4 (by decide) (by decide) (Nat.le_refl 8)

theorem timeCall_valid (refreshMs : UInt32) : (timeCall refreshMs).Valid :=
  AddCall.valid_mk .timeValues (by decide) (by decide) (Nat.le_refl 4)

theorem styleCall_valid (style : UInt32) : (styleCall style).Valid :=
  AddCall.valid_mk .style (by decide) (by decide) (Nat.le_refl 4)

theorem labelCall_valid (label : UInt32) : (labelCall label).Valid :=
  AddCall.valid_mk .label (by decide) (by decide) (Nat.le_refl 4)

theorem labelReqCall_valid : labelReqCall.Valid :=
  AddCall.valid_mk .labelReq (by decide) (by decide) (Nat.le_refl 4)

theorem errorCall_valid (spec : ErrorSpec) : (errorCall spec).Valid :=
  AddCall.valid_mk .errorSpec (by decide) (by decide) (Nat.le_refl 8)

theorem attrCall_valid (psb : PsbState) : (attrCall psb).Valid :=
  AddCall.valid_mk .sessAttr (by decide) (by decide) (Nat.le_add_left 4 _)

theorem senderCall_valid {classNum : UInt8} (slot : slotOfClass classNum = some .senderV4) :
    (senderCall classNum key).Valid :=
  AddCall.valid_mk .senderV4 slot (by decide) (Nat.le_refl 8)

theorem tspecCall_valid {classNum : UInt8} {k : Slot} (slot : slotOfClass classNum = some k)
    (kind : k = .tspec ∨ k = .flowspec) (t : SenderTspec) : (tspecCall classNum t).Valid := by
  rcases kind with rfl | rfl
  · exact ⟨.tspec, slot, rfl, Nat.le_refl 32⟩
  · exact ⟨.flowspec, slot, rfl, Nat.le_refl 32⟩

theorem length_flatMap_bytes (hops : List EroSubobj) :
    (hops.flatMap EroSubobj.bytes).length = 8 * hops.length := by
  induction hops with
  | nil => rfl
  | cons hop hops ih =>
    rw [List.flatMap_cons, List.length_append, ih, EroSubobj.length_bytes, List.length_cons]
    omega

theorem routeCalls_valid {classNum : UInt8} {k : Slot} (slot : slotOfClass classNum = some k)
    (kind : k = .ero ∨ k = .rro) (hops : List EroSubobj) :
    ∀ c ∈ routeCalls classNum hops, c.Valid := by
  intro c mem
  unfold routeCalls at mem
  split at mem
  · cases mem
  · rename_i some_hops
    rw [List.mem_singleton.mp mem]
    have positive := List.length_pos_iff.mpr some_hops
    refine ⟨k, slot, ?_, ?_⟩
    · rcases kind with rfl | rfl <;> rfl
    · rw [length_flatMap_bytes]
      rcases kind with rfl | rfl <;> exact Nat.le_trans (show 1 ≤ 8 by decide)
        (Nat.le_mul_of_pos_right 8 positive)

theorem frrCalls_valid (psb : PsbState) : ∀ c ∈ frrCalls psb, c.Valid := by
  intro c mem
  unfold frrCalls at mem
  split at mem
  · rw [List.mem_singleton.mp mem]
    exact AddCall.valid_mk .fastReroute (by decide) (by decide) (Nat.le_refl 20)
  · cases mem

theorem pathCalls_valid (psb : PsbState) (localAddr : InAddr) (ifindex : UInt32) :
    ∀ c ∈ pathCalls key psb localAddr ifindex, c.Valid := by
  intro c mem
  simp only [pathCalls, List.mem_append, List.mem_cons, List.not_mem_nil, or_false] at mem
  rcases mem with (((((rfl | rfl | rfl) | ero) | rfl | rfl) | frr) | rfl | rfl) | rro
  · exact sessionCall_valid key
  · exact hopCall_valid _ _
  · exact timeCall_valid _
  · exact routeCalls_valid (by decide) (.inl rfl) _ c ero
  · exact labelReqCall_valid
  · exact attrCall_valid psb
  · exact frrCalls_valid psb c frr
  · exact senderCall_valid key (by decide)
  · exact tspecCall_valid (by decide) (.inl rfl) _
  · exact routeCalls_valid (by decide) (.inr rfl) _ c rro

theorem resvCalls_valid (rsb : RsbState) (merged : SenderTspec) (localAddr : InAddr)
    (ifindex : UInt32) : ∀ c ∈ resvCalls key rsb merged localAddr ifindex, c.Valid := by
  intro c mem
  simp only [resvCalls, List.mem_cons, List.not_mem_nil, or_false] at mem
  rcases mem with rfl | rfl | rfl | rfl | rfl | rfl | rfl
  · exact sessionCall_valid key
  · exact hopCall_valid _ _
  · exact timeCall_valid _
  · exact styleCall_valid _
  · exact tspecCall_valid (by decide) (.inr rfl) _
  · exact senderCall_valid key (by decide)
  · exact labelCall_valid _

theorem pathTearCalls_valid (localAddr : InAddr) (ifindex : UInt32) :
    ∀ c ∈ pathTearCalls key localAddr ifindex, c.Valid := by
  intro c mem
  simp only [pathTearCalls, List.mem_cons, List.not_mem_nil, or_false] at mem
  rcases mem with rfl | rfl | rfl
  · exact sessionCall_valid key
  · exact hopCall_valid _ _
  · exact senderCall_valid key (by decide)

theorem resvTearCalls_valid (rsb : RsbState) (localAddr : InAddr) (ifindex : UInt32) :
    ∀ c ∈ resvTearCalls key rsb localAddr ifindex, c.Valid := by
  intro c mem
  simp only [resvTearCalls, List.mem_cons, List.not_mem_nil, or_false] at mem
  rcases mem with rfl | rfl | rfl | rfl
  · exact sessionCall_valid key
  · exact hopCall_valid _ _
  · exact styleCall_valid _
  · exact senderCall_valid key (by decide)

theorem pathErrCalls_valid (spec : ErrorSpec) : ∀ c ∈ pathErrCalls key spec, c.Valid := by
  intro c mem
  simp only [pathErrCalls, List.mem_cons, List.not_mem_nil, or_false] at mem
  rcases mem with rfl | rfl | rfl
  · exact sessionCall_valid key
  · exact errorCall_valid _
  · exact senderCall_valid key (by decide)

theorem resvErrCalls_valid (spec : ErrorSpec) : ∀ c ∈ resvErrCalls key spec, c.Valid := by
  intro c mem
  simp only [resvErrCalls, List.mem_cons, List.not_mem_nil, or_false] at mem
  rcases mem with rfl | rfl | rfl | rfl
  · exact sessionCall_valid key
  · exact errorCall_valid _
  · exact styleCall_valid _
  · exact senderCall_valid key (by decide)

theorem errorRelayCalls_valid (spec : Option ErrorSpec) (localAddr : InAddr) (ifindex : UInt32) :
    ∀ c ∈ errorRelayCalls key spec localAddr ifindex, c.Valid := by
  intro c mem
  rcases List.mem_append.mp mem with fixed | relayed
  · rcases List.mem_cons.mp fixed with rfl | fixed
    · exact sessionCall_valid key
    · rw [List.mem_singleton.mp fixed]
      exact hopCall_valid _ _
  · obtain ⟨e, -, rfl⟩ := Option.map_eq_some_iff.mp (Option.mem_toList.mp relayed)
    exact errorCall_valid e

end Valid

theorem spans_cons (c : AddCall) (calls : List AddCall) :
    spans (c :: calls) = c.span + spans calls :=
  rfl

theorem AddCall.span_eq (c : AddCall) {n : Nat} (len : c.data.length = n) :
    c.span = (n + 7) / 4 * 4 := by
  rw [AddCall.span, AddCall.len, len, rsvpAlign, objHdrLen]
  omega

theorem spans_routeCalls_le (classNum : UInt8) {hops : List EroSubobj}
    (short : hops.length ≤ maxHops) : spans (routeCalls classNum hops) ≤ 260 := by
  unfold routeCalls
  split
  · exact Nat.zero_le _
  · have len := length_flatMap_bytes hops
    rw [maxHops] at short
    rw [spans_cons, AddCall.span, AddCall.len, len, rsvpAlign, objHdrLen]
    change _ + 0 ≤ 260
    omega

theorem length_pathRro_le (psb : PsbState) (localAddr : InAddr) :
    (pathRro psb localAddr).length ≤ maxHops := by
  unfold pathRro
  split
  · rw [List.length_append]
    exact Nat.succ_le_of_lt ‹_›
  · exact Nat.zero_le _

/-- A PATH always fits its buffer of 1500 bytes. -/
theorem pathCalls_fit (key : PathKey) (psb : PsbState) (localAddr : InAddr) (ifindex : UInt32) :
    commonHdrLen + spans (pathCalls key psb localAddr ifindex) ≤ 1500 := by
  have ero := spans_routeCalls_le classExplicitRoute psb.ero.short
  have rro := spans_routeCalls_le classRecordRoute (length_pathRro_le psb localAddr)
  have attr : (attrCall psb).span ≤ 264 := by
    have name : ((psb.lspName.getD []).take 255).length ≤ 255 := List.length_take_le _ _
    rw [AddCall.span, AddCall.len, attrCall, rsvpAlign, objHdrLen, List.length_append]
    simp only [List.length_cons, List.length_nil]
    omega
  have frr : spans (frrCalls psb) ≤ 24 := by
    unfold frrCalls
    split
    · rw [spans_cons, AddCall.span_eq _ (FastReroute.length_bytes _)]
      exact Nat.le_refl 24
    · exact Nat.zero_le _
  have session := (sessionCall key).span_eq (SessionIpv4.length_bytes _)
  have hop := (hopCall localAddr ifindex).span_eq (HopIpv4.length_bytes _)
  have time := (timeCall psb.refreshMs).span_eq (length_bytes32 _)
  have request : labelReqCall.span = 8 := by decide
  have sender := (senderCall classSenderTemplate key).span_eq (SenderIpv4.length_bytes _)
  have tspec :=
    (tspecCall classSenderTspec (pathTspec psb)).span_eq (SenderTspec.length_bytes _)
  have nil : spans [] = 0 := rfl
  simp only [pathCalls, spans_append, spans_cons, nil, commonHdrLen]
  omega

/-! ## What a receiver reads -/

/-- A key as it comes out of any message of this node: the reserved field of the session is
zero. -/
def PathKey.wire (key : PathKey) : PathKey :=
  { key with session := { key.session with reserved := 0 } }

theorem PathKey.wire_eq_self_iff (key : PathKey) : key.wire = key ↔ key.session.reserved = 0 := by
  obtain ⟨⟨dest, reserved, tunnelId, ext⟩, sender⟩ := key
  simp only [PathKey.wire, PathKey.mk.injEq, SessionIpv4.mk.injEq, and_true, true_and]
  exact eq_comm

@[simp] theorem PathKey.wire_wire (key : PathKey) : key.wire.wire = key.wire := rfl

theorem firstCall_append_of_ne {front : List AddCall} {k : Slot}
    (away : ∀ c ∈ front, slotOfClass c.classNum ≠ some k) (back : List AddCall) :
    firstCall (front ++ back) k = firstCall back k := by
  rw [firstCall, List.find?_append, List.find?_eq_none.mpr (by simpa using away), Option.none_or]
  rfl

namespace Decodes

variable {info : MessageInfo} {msgType ttl : UInt8} {calls : List AddCall}

/-- A message with SESSION and SENDER_TEMPLATE or FILTER_SPEC names the key up to `wire`. -/
theorem key_eq (decodes : Decodes info msgType ttl calls) {key : PathKey} {classNum : UInt8}
    (session : firstCall calls .sessV4 = some (sessionCall key))
    (sender : firstCall calls .senderV4 = some (senderCall classNum key)) :
    info.key = key.wire := by
  have sessionPart : info.key.session = key.wire.session := by
    rw [decodes.session, session]
    change SessionIpv4.ofBytes (SessionIpv4.bytes ⟨_, _, bswap16 (bswap16 _), _⟩) = _
    have read := SessionIpv4.ofBytes_bytes ⟨key.session.destAddr, 0,
      bswap16 (bswap16 key.session.tunnelId), key.session.extendedTunnelId⟩ []
    rw [List.append_nil] at read
    rw [read, bswap16_bswap16]
    rfl
  have senderPart : info.key.sender = key.wire.sender := by
    rw [decodes.sender, sender]
    have read := SenderIpv4.ofBytes_bytes key.sender []
    rw [List.append_nil] at read
    exact read
  exact congrArg₂ PathKey.mk sessionPart senderPart

/-- The data of the object in a slot. -/
theorem data_eq (decodes : Decodes info msgType ttl calls) {k : Slot} {c : AddCall}
    (first : firstCall calls k = some c) : ∃ o, info.objs k = some o ∧ o.data = c.data := by
  have found := decodes.objs k
  rw [first] at found
  obtain ⟨o, held, call⟩ := Option.map_eq_some_iff.mp found
  exact ⟨o, held, congrArg AddCall.data call⟩

theorem hop_eq (decodes : Decodes info msgType ttl calls) {neighbor : InAddr} {ifindex : UInt32}
    (first : firstCall calls .hopV4 = some (hopCall neighbor ifindex)) :
    info.hop = ⟨neighbor, htonl ifindex⟩ ∧ info.objs .hopV4 ≠ none := by
  obtain ⟨o, held, data⟩ := decodes.data_eq first
  refine ⟨?_, by rw [held]; exact Option.some_ne_none _⟩
  rw [MessageInfo.hop, held]
  change HopIpv4.ofBytes o.data = _
  rw [data]
  have read := HopIpv4.ofBytes_bytes ⟨neighbor, htonl ifindex⟩ []
  rw [List.append_nil] at read
  exact read

theorem label_eq (decodes : Decodes info msgType ttl calls) {label : UInt32}
    (first : firstCall calls .label = some (labelCall label)) :
    info.labelValue = label ∧ info.objs .label ≠ none := by
  obtain ⟨o, held, data⟩ := decodes.data_eq first
  refine ⟨?_, by rw [held]; exact Option.some_ne_none _⟩
  rw [MessageInfo.labelValue, held]
  change ntohl (u32At o.data 0) = _
  have read : u32At (bytes32 (htonl label)) 0 = htonl label := le32_bytes _
  rw [data, labelCall, read]
  exact bswap32_bswap32 label

end Decodes

theorem not_mem_routeCalls {classNum : UInt8} {k : Slot} (hops : List EroSubobj)
    (away : slotOfClass classNum ≠ some k) :
    ∀ c ∈ routeCalls classNum hops, slotOfClass c.classNum ≠ some k := by
  intro c mem
  unfold routeCalls at mem
  split at mem
  · cases mem
  · rw [List.mem_singleton.mp mem]
    exact away

theorem not_mem_frrCalls {k : Slot} (psb : PsbState) (away : k ≠ .fastReroute) :
    ∀ c ∈ frrCalls psb, slotOfClass c.classNum ≠ some k := by
  intro c mem
  unfold frrCalls at mem
  split at mem
  · rw [List.mem_singleton.mp mem]
    have slot : slotOfClass classFastReroute = some .fastReroute := by decide
    rw [slot]
    exact fun same => away (Option.some.inj same).symm
  · cases mem

/-- The ERO of a PATH fills no other slot. -/
theorem firstCall_past_ero {k : Slot} (other : k ≠ .ero) (hops : List EroSubobj)
    (rest : List AddCall) :
    firstCall (routeCalls classExplicitRoute hops ++ rest) k = firstCall rest k := by
  have slot : slotOfClass classExplicitRoute = some .ero := by decide
  apply firstCall_append_of_ne
  apply not_mem_routeCalls
  rw [slot]
  exact fun same => other (Option.some.inj same).symm

theorem firstCall_pathCalls (key : PathKey) (psb : PsbState) (localAddr : InAddr)
    (ifindex : UInt32) :
    let calls := pathCalls key psb localAddr ifindex
    firstCall calls .sessV4 = some (sessionCall key) ∧
      firstCall calls .hopV4 = some (hopCall localAddr ifindex) ∧
      firstCall calls .senderV4 = some (senderCall classSenderTemplate key) ∧
      firstCall calls .labelReq = some labelReqCall ∧
      firstCall calls .tspec = some (tspecCall classSenderTspec (pathTspec psb)) := by
  have head : ∀ k rest, k = Slot.senderV4 ∨ k = .labelReq ∨ k = .tspec →
      firstCall ([sessionCall key, hopCall localAddr ifindex, timeCall psb.refreshMs] ++ rest) k =
        firstCall rest k := by
    intro k rest kind
    rcases kind with rfl | rfl | rfl <;> rfl
  have middle : ∀ k rest, k = Slot.senderV4 ∨ k = .tspec →
      firstCall ([labelReqCall, attrCall psb] ++ rest) k = firstCall rest k := by
    intro k rest kind
    rcases kind with rfl | rfl <;> rfl
  have ero := fun (k : Slot) (other : k ≠ .ero) => firstCall_past_ero other psb.ero.hops
  refine ⟨rfl, rfl, ?_, ?_, ?_⟩
  · simp only [pathCalls, List.append_assoc]
    rw [head _ _ (.inl rfl), ero _ (by decide), middle _ _ (.inl rfl),
      firstCall_append_of_ne (not_mem_frrCalls psb (by decide))]
    rfl
  · simp only [pathCalls, List.append_assoc]
    rw [head _ _ (.inr (.inl rfl)), ero _ (by decide)]
    rfl
  · simp only [pathCalls, List.append_assoc]
    rw [head _ _ (.inr (.inr rfl)), ero _ (by decide), middle _ _ (.inr rfl),
      firstCall_append_of_ne (not_mem_frrCalls psb (by decide))]
    rfl

/-- The parser reads the objects of a PATH back. -/
theorem parse_pathCalls (key : PathKey) (psb : PsbState) (localAddr : InAddr)
    (ifindex : UInt32) (src dest : InAddr) (useRao : Bool) :
    ∃ info, rsvpParsePacket (rsvpPacket src dest (pathMessage key psb localAddr ifindex) useRao) =
        .ok info ∧
      Decodes info msgPath (forwardTtl psb.ttl) (pathCalls key psb localAddr ifindex) ∧
      info.srcIp = src ∧ info.dstIp = dest := by
  obtain ⟨session, -, sender, -⟩ := firstCall_pathCalls key psb localAddr ifindex
  have mandatory : ∀ k ∈ mandatorySlots msgPath,
      (firstCall (pathCalls key psb localAddr ifindex) k).isSome = true := by
    intro k mem
    have slots : mandatorySlots msgPath = [.sessV4, .senderV4] := by decide
    rw [slots, List.mem_cons, List.mem_singleton] at mem
    rcases mem with rfl | rfl
    · rw [session]
      rfl
    · rw [sender]
      rfl
  rw [pathMessage_eq]
  exact parse_built (forwardTtl psb.ttl) (pathCalls_fit key psb localAddr ifindex) (by decide)
    (pathCalls_valid key psb localAddr ifindex) mandatory src dest useRao

/-- The fields of a PATH that its receiver acts on. -/
theorem parse_pathMessage (key : PathKey) (psb : PsbState) (localAddr : InAddr)
    (ifindex : UInt32) (src dest : InAddr) (useRao : Bool) :
    ∃ info, rsvpParsePacket (rsvpPacket src dest (pathMessage key psb localAddr ifindex) useRao) =
        .ok info ∧ info.commonHdr.msgType = msgPath ∧ info.key = key.wire ∧
      info.hop = ⟨localAddr, htonl ifindex⟩ ∧ rsvpValidatePathMessage info none = none ∧
      info.srcIp = src := by
  obtain ⟨session, hop, sender, request, -⟩ := firstCall_pathCalls key psb localAddr ifindex
  obtain ⟨info, parsed, decodes, srcIp, -⟩ :=
    parse_pathCalls key psb localAddr ifindex src dest useRao
  obtain ⟨hopEq, hopHeld⟩ := decodes.hop_eq hop
  obtain ⟨o, senderHeld, -⟩ := decodes.data_eq sender
  obtain ⟨q, requestHeld, -⟩ := decodes.data_eq request
  refine ⟨info, parsed, decodes.msgType, decodes.key_eq session sender, hopEq, ?_, srcIp⟩
  rw [rsvpValidatePathMessage, if_neg hopHeld, if_neg (by rw [senderHeld]; rintro ⟨⟩),
    if_neg (by rw [requestHeld]; exact fun h => by cases h.1)]

theorem resvCalls_fit (key : PathKey) (rsb : RsbState) (merged : SenderTspec)
    (localAddr : InAddr) (ifindex : UInt32) :
    commonHdrLen + spans (resvCalls key rsb merged localAddr ifindex) ≤ 1024 := by
  simp only [resvCalls, spans_cons, AddCall.span_eq (sessionCall key) (SessionIpv4.length_bytes _),
    AddCall.span_eq (hopCall localAddr ifindex) (HopIpv4.length_bytes _),
    AddCall.span_eq (timeCall _) (length_bytes32 _),
    AddCall.span_eq (styleCall _) (length_bytes32 _),
    AddCall.span_eq (tspecCall classFlowspec merged) (SenderTspec.length_bytes _),
    AddCall.span_eq (senderCall classFilterSpec key) (SenderIpv4.length_bytes _),
    AddCall.span_eq (labelCall _) (length_bytes32 _)]
  decide

/-- The fields of a RESV that its receiver acts on. -/
theorem parse_resvMessage (key : PathKey) (rsb : RsbState) (merged : SenderTspec)
    (localAddr : InAddr) (ifindex : UInt32) (src dest : InAddr) (useRao : Bool) :
    ∃ info, rsvpParsePacket
        (rsvpPacket src dest (resvMessage key rsb merged localAddr ifindex) useRao) = .ok info ∧
      info.commonHdr.msgType = msgResv ∧ info.key = key.wire ∧
      info.hop = ⟨localAddr, htonl ifindex⟩ ∧ info.objs .hopV4 ≠ none ∧
      info.labelValue = rsb.labelIn ∧ info.objs .label ≠ none ∧ info.srcIp = src := by
  have mandatory : ∀ k ∈ mandatorySlots msgResv,
      (firstCall (resvCalls key rsb merged localAddr ifindex) k).isSome = true := by
    intro k mem
    have slots : mandatorySlots msgResv = [.sessV4, .hopV4, .style] := by decide
    rw [slots] at mem
    rcases List.mem_cons.mp mem with rfl | mem
    · rfl
    rcases List.mem_cons.mp mem with rfl | mem
    · rfl
    · rw [List.mem_singleton.mp mem]
      rfl
  rw [resvMessage_eq]
  obtain ⟨info, parsed, decodes, srcIp, -⟩ := parse_built (forwardTtl rsb.ttl)
    (resvCalls_fit key rsb merged localAddr ifindex) (by decide)
    (resvCalls_valid key rsb merged localAddr ifindex) mandatory src dest useRao
  obtain ⟨hopEq, hopHeld⟩ := decodes.hop_eq rfl
  obtain ⟨labelEq, labelHeld⟩ := decodes.label_eq rfl
  exact ⟨info, parsed, decodes.msgType, decodes.key_eq rfl rfl, hopEq, hopHeld, labelEq,
    labelHeld, srcIp⟩

/-- Every other message is a few fixed objects and fits its buffer. -/
theorem short_calls_fit (key : PathKey) (rsb : RsbState) (spec : ErrorSpec)
    (relayed : Option ErrorSpec) (localAddr : InAddr) (ifindex : UInt32) :
    commonHdrLen + spans (pathTearCalls key localAddr ifindex) ≤ 1024 ∧
      commonHdrLen + spans (resvTearCalls key rsb localAddr ifindex) ≤ 1024 ∧
      commonHdrLen + spans (pathErrCalls key spec) ≤ 1024 ∧
      commonHdrLen + spans (resvErrCalls key spec) ≤ 1024 ∧
      commonHdrLen + spans (errorRelayCalls key relayed localAddr ifindex ++
        [senderCall classSenderTemplate key]) ≤ 1024 ∧
      commonHdrLen + spans (errorRelayCalls key relayed localAddr ifindex ++
        [styleCall styleFf, senderCall classFilterSpec key]) ≤ 1024 := by
  have session := (sessionCall key).span_eq (SessionIpv4.length_bytes _)
  have hop := (hopCall localAddr ifindex).span_eq (HopIpv4.length_bytes _)
  have template := (senderCall classSenderTemplate key).span_eq (SenderIpv4.length_bytes _)
  have filter := (senderCall classFilterSpec key).span_eq (SenderIpv4.length_bytes _)
  have style : ∀ v, (styleCall v).span = (4 + 7) / 4 * 4 :=
    fun v => (styleCall v).span_eq (length_bytes32 _)
  have error : ∀ e, (errorCall e).span = (8 + 7) / 4 * 4 :=
    fun e => (errorCall e).span_eq (ErrorSpec.length_bytes _)
  have nil : spans [] = 0 := rfl
  have relay : spans (relayed.map errorCall).toList ≤ 12 := by
    cases relayed with
    | none => exact Nat.zero_le _
    | some e =>
      change spans [errorCall e] ≤ 12
      rw [spans_cons, error, nil]
  simp only [pathTearCalls, resvTearCalls, pathErrCalls, resvErrCalls, errorRelayCalls,
    spans_append, spans_cons, nil, session, hop, template, filter, style, error, commonHdrLen]
  omega

/-- The parser's view of a message with the objects `calls`, whose first SESSION and sender
object come from `key`. -/
theorem parse_keyed {size : Nat} {msgType : UInt8} (ttl : UInt8) {calls : List AddCall}
    {key : PathKey} {classNum : UInt8} (fits : commonHdrLen + spans calls ≤ size)
    (small : size < 2 ^ 16) (valid : ∀ c ∈ calls, c.Valid)
    (mandatory : ∀ k ∈ mandatorySlots msgType, (firstCall calls k).isSome = true)
    (session : firstCall calls .sessV4 = some (sessionCall key))
    (sender : firstCall calls .senderV4 = some (senderCall classNum key))
    (src dest : InAddr) (useRao : Bool) :
    ∃ info, rsvpParsePacket (rsvpPacket src dest (built size msgType ttl calls) useRao) =
        .ok info ∧ info.commonHdr.msgType = msgType ∧ info.key = key.wire := by
  obtain ⟨info, parsed, decodes, -, -⟩ := parse_built ttl fits small valid mandatory src dest useRao
  exact ⟨info, parsed, decodes.msgType, decodes.key_eq session sender⟩

theorem parse_pathTearMessage (key : PathKey) (psb : PsbState) (localAddr : InAddr)
    (ifindex : UInt32) (src dest : InAddr) (useRao : Bool) :
    ∃ info, rsvpParsePacket
        (rsvpPacket src dest (pathTearMessage key psb localAddr ifindex) useRao) = .ok info ∧
      info.commonHdr.msgType = msgPathTear ∧ info.key = key.wire := by
  obtain ⟨fits, -⟩ := short_calls_fit key .zero ⟨0, 0, 0, 0⟩ none localAddr ifindex
  refine parse_keyed _ fits (by decide) (pathTearCalls_valid key localAddr ifindex) ?_ rfl rfl src
    dest useRao
  intro k mem
  have slots : mandatorySlots msgPathTear = [.sessV4, .senderV4] := by decide
  rw [slots, List.mem_cons, List.mem_singleton] at mem
  rcases mem with rfl | rfl <;> rfl

theorem parse_resvTearMessage (key : PathKey) (rsb : RsbState) (localAddr : InAddr)
    (ifindex : UInt32) (src dest : InAddr) (useRao : Bool) :
    ∃ info, rsvpParsePacket
        (rsvpPacket src dest (resvTearMessage key rsb localAddr ifindex) useRao) = .ok info ∧
      info.commonHdr.msgType = msgResvTear ∧ info.key = key.wire := by
  obtain ⟨-, fits, -⟩ := short_calls_fit key rsb ⟨0, 0, 0, 0⟩ none localAddr ifindex
  rw [resvTearMessage_eq]
  refine parse_keyed _ fits (by decide) (resvTearCalls_valid key rsb localAddr ifindex) ?_ rfl rfl
    src dest useRao
  intro k mem
  have slots : mandatorySlots msgResvTear = [.sessV4, .hopV4] := by decide
  rw [slots, List.mem_cons, List.mem_singleton] at mem
  rcases mem with rfl | rfl <;> rfl

theorem parse_pathErrMessage (key : PathKey) (spec : ErrorSpec) (src dest : InAddr)
    (useRao : Bool) :
    ∃ info, rsvpParsePacket (rsvpPacket src dest (pathErrMessage key spec) useRao) = .ok info ∧
      info.commonHdr.msgType = msgPathErr ∧ info.key = key.wire := by
  obtain ⟨-, -, fits, -⟩ := short_calls_fit key .zero spec none 0 0
  refine parse_keyed _ fits (by decide) (pathErrCalls_valid key spec) ?_ rfl rfl src dest useRao
  intro k mem
  have slots : mandatorySlots msgPathErr = [.sessV4, .errorSpec] := by decide
  rw [slots, List.mem_cons, List.mem_singleton] at mem
  rcases mem with rfl | rfl <;> rfl

theorem parse_pathErrRelay (key : PathKey) (spec : ErrorSpec) (localAddr : InAddr)
    (ifindex : UInt32) (src dest : InAddr) (useRao : Bool) :
    ∃ info, rsvpParsePacket
        (rsvpPacket src dest (pathErrRelay key (some spec) localAddr ifindex) useRao) = .ok info ∧
      info.commonHdr.msgType = msgPathErr ∧ info.key = key.wire := by
  obtain ⟨-, -, -, -, fits, -⟩ := short_calls_fit key .zero spec (some spec) localAddr ifindex
  rw [pathErrRelay_eq]
  refine parse_keyed _ fits (by decide) ?_ ?_ rfl rfl src dest useRao
  · intro c mem
    rcases List.mem_append.mp mem with relayed | sender
    · exact errorRelayCalls_valid key _ _ _ c relayed
    · rw [List.mem_singleton.mp sender]
      exact senderCall_valid key (by decide)
  · intro k mem
    have slots : mandatorySlots msgPathErr = [.sessV4, .errorSpec] := by decide
    rw [slots, List.mem_cons, List.mem_singleton] at mem
    rcases mem with rfl | rfl <;> rfl

/-! ## Sample surroundings and packets -/

/-- A node whose own addresses are those `owns` accepts, with one interface to everywhere and the
allocator answering `mem`. -/
def sampleEnv (owns : InAddr → Bool) (mem : Ptr) : Env where
  isLocalAddr := owns
  getLocalAddr := fun _ => some 0x0100000A
  getEgressIf := fun _ => some 2
  psbMem := some mem
  rsbMem := some mem
  bsbMem := some mem
  strdupOk := true
  freed := fun p => ⟨p, .zero, .zero⟩

/-- The key of tunnel 1 from 10.0.0.9 to `dest`. -/
def sampleKey (dest : InAddr) (lspId : UInt16) : PathKey := ingressKey 0x0900000A dest 1 lspId

/-- The PATH that 10.0.0.9 sends out of its interface `ifindex`. -/
def samplePath (dest : InAddr) (lspId : UInt16) (ifindex : UInt32) : Bytes :=
  rsvpPacket 0x0900000A dest
    (pathMessage (sampleKey dest lspId) .zero 0x0900000A ifindex) true

/-- The RESV with `label` that 10.0.0.3 sends out of its interface `ifindex`. -/
def sampleResv (dest : InAddr) (lspId : UInt16) (label ifindex : UInt32) : Bytes :=
  rsvpPacket 0x0300000A 0x0100000A
    (resvMessage (sampleKey dest lspId) { RsbState.zero with labelIn := label } .zero 0x0300000A
      ifindex) false

/-- The packet a node logged last. -/
def Node.lastPacket (s : Node) : Bytes :=
  match s.out.getLast? with
  | some (.packet _ _ bytes) => bytes
  | _ => []

end Rsvp
