import RsvpTe.ParserGrammar

/-!
# Decode undoes encode

`Image` is the builder's invariant: the buffer is a common header, then the padded images of
the objects added so far, then untouched zeroes.  Finishing such a builder gives a message of
the parser's grammar whose objects are exactly those added, and so parsing it in any IPv4
header returns for each class the first payload that was added.
-/

namespace Rsvp

open Words

/-! ## Calls of the builder -/

/-- The arguments of one `rsvp_builder_add_obj` call. -/
structure AddCall : Type where
  classNum : UInt8
  cType : UInt8
  data : Bytes
  deriving DecidableEq, Repr

namespace AddCall

/-- The object length the call writes. -/
def len (c : AddCall) : Nat := objHdrLen + c.data.length

/-- The space the call takes. -/
def span (c : AddCall) : Nat := rsvpAlign c.len

/-- The object the call leaves at packet offset `off`. -/
def objAt (c : AddCall) (off : Nat) : Obj := ⟨c.classNum, c.cType, off + objHdrLen, c.data⟩

/-- The unpadded bytes of the object. -/
def wire (c : AddCall) : Bytes :=
  bytes16 (htons (UInt16.ofNat c.len)) ++ [c.classNum, c.cType] ++ c.data

/-- The bytes of the object with its zero padding. -/
def image (c : AddCall) : Bytes := c.wire ++ List.replicate (c.span - c.len) 0

/-- A class the parser knows, a C-Type it accepts and a payload that covers the structure. -/
def Valid (c : AddCall) : Prop :=
  ∃ k, slotOfClass c.classNum = some k ∧ k.cTypeOk c.cType = true ∧ k.minLen ≤ c.data.length

@[simp] theorem length_wire (c : AddCall) : c.wire.length = c.len := by
  simp only [wire, List.length_append, length_bytes16, List.length_cons, List.length_nil, len,
    objHdrLen]

theorem len_le_span (c : AddCall) : c.len ≤ c.span := le_rsvpAlign c.len

@[simp] theorem length_image (c : AddCall) : c.image.length = c.span := by
  have := c.len_le_span
  rw [image, List.length_append, List.length_replicate, length_wire]
  omega

theorem wire_objAt (c : AddCall) (off : Nat) : (c.objAt off).wire = c.wire := rfl

theorem len_objAt (c : AddCall) (off : Nat) : (c.objAt off).len = c.len := rfl

end AddCall

/-- One call on a builder. -/
def Builder.add (b : Builder) (c : AddCall) : Int × Builder :=
  rsvpBuilderAddObj b c.classNum c.cType c.data

/-- The builder after a sequence of calls. -/
def Builder.addAll (b : Builder) (calls : List AddCall) : Builder :=
  calls.foldl (fun b c => (b.add c).2) b

/-- The calls of a sequence that returned 0. -/
def Builder.added (b : Builder) : List AddCall → List AddCall
  | [] => []
  | c :: calls =>
    if (b.add c).1 = 0 then c :: (b.add c).2.added calls else (b.add c).2.added calls

/-- The common header before the length and the checksum are filled in. -/
def blankHdr (msgType ttl : UInt8) : Bytes := [0x10, msgType, 0, 0, ttl, 0, 0, 0]

/-- The space a list of calls takes. -/
def spans (calls : List AddCall) : Nat := (calls.map AddCall.span).sum

/-- The builder holds exactly the objects of `calls` behind a blank header. -/
structure Builder.Image (b : Builder) (msgType ttl : UInt8) (calls : List AddCall) : Prop where
  offset : b.offset = commonHdrLen + spans calls
  room : b.offset ≤ b.size
  buffer : b.buffer =
    blankHdr msgType ttl ++ calls.flatMap AddCall.image ++ List.replicate (b.size - b.offset) 0

theorem length_flatMap_image (calls : List AddCall) :
    (calls.flatMap AddCall.image).length = spans calls := by
  rw [List.length_flatMap, spans]
  congr 1
  exact List.map_congr_left fun c _ => c.length_image

theorem spans_append (front back : List AddCall) :
    spans (front ++ back) = spans front + spans back := by
  rw [spans, List.map_append, List.sum_append]
  rfl

theorem spans_mod (calls : List AddCall) : spans calls % 4 = 0 := by
  induction calls with
  | nil => rfl
  | cons c calls ih =>
    have aligned : c.span % 4 = 0 := rsvpAlign_mod c.len
    rw [spans, List.map_cons, List.sum_cons]
    rw [spans] at ih
    omega

namespace Builder.Image

variable {b : Builder} {msgType ttl : UInt8} {calls : List AddCall}

theorem init {size : Nat} (msgType : UInt8) (enough : commonHdrLen ≤ size) :
    (rsvpBuilderInit size msgType).Image msgType 255 [] := by
  refine ⟨rfl, enough, ?_⟩
  obtain ⟨rest, rfl⟩ : ∃ rest, size = commonHdrLen + rest := ⟨size - commonHdrLen, by omega⟩
  have zeroed : List.replicate (commonHdrLen + rest) (0 : UInt8) =
      [0, 0, 0, 0, 0, 0, 0, 0] ++ List.replicate rest 0 := by
    rw [List.replicate_add]
    rfl
  have left : commonHdrLen + rest - commonHdrLen = rest := by omega
  simp only [rsvpBuilderInit, zeroed, left, List.flatMap_nil, List.append_nil]
  rfl

theorem setTtl (image : b.Image msgType ttl calls) (ttl' : UInt8) :
    (b.setTtl ttl').Image msgType ttl' calls := by
  refine ⟨image.offset, image.room, ?_⟩
  simp only [Builder.setTtl, image.buffer, List.append_assoc]
  rfl

/-- An object that does not fit is refused and nothing changes. -/
theorem add_overflow {c : AddCall} (full : b.size < b.offset + c.span) :
    b.add c = (-1, b) :=
  if_pos full

/-- An object that fits is appended with its padding. -/
theorem add_fits (image : b.Image msgType ttl calls) {c : AddCall}
    (fits : b.offset + c.span ≤ b.size) :
    (b.add c).1 = 0 ∧ (b.add c).2.Image msgType ttl (calls ++ [c]) ∧
      (b.add c).2.size = b.size := by
  have added : b.add c = (0, { b with
      buffer := Buffer.write
        (Buffer.write b.buffer b.offset
          (bytes16 (htons (UInt16.ofNat c.len)) ++ [c.classNum, c.cType]))
        (b.offset + objHdrLen) c.data
      offset := b.offset + c.span }) :=
    if_neg (by rw [AddCall.span, AddCall.len] at fits; omega)
  rw [added]
  refine ⟨rfl, ⟨?_, fits, ?_⟩, rfl⟩
  · change b.offset + c.span = _
    have one : spans [c] = c.span := Nat.add_zero _
    rw [image.offset, spans_append, one, Nat.add_assoc]
  · -- The zero tail splits into the object header, the payload, the padding and what is left.
    have span := c.len_le_span
    have len : c.len = objHdrLen + c.data.length := rfl
    let front := blankHdr msgType ttl ++ calls.flatMap AddCall.image
    have frontLen : front.length = b.offset := by
      rw [List.length_append, length_flatMap_image, image.offset]
      rfl
    have tail : List.replicate (b.size - b.offset) (0 : UInt8) =
        List.replicate objHdrLen 0 ++ (List.replicate c.data.length 0 ++
          (List.replicate (c.span - c.len) 0 ++
            List.replicate (b.size - (b.offset + c.span)) 0)) := by
      simp only [List.replicate_append_replicate]
      congr 1
      omega
    have first : Buffer.write b.buffer b.offset
          (bytes16 (htons (UInt16.ofNat c.len)) ++ [c.classNum, c.cType]) =
        front ++ (bytes16 (htons (UInt16.ofNat c.len)) ++ [c.classNum, c.cType]) ++
          (List.replicate c.data.length 0 ++ (List.replicate (c.span - c.len) 0 ++
            List.replicate (b.size - (b.offset + c.span)) 0)) := by
      rw [image.buffer, tail, ← List.append_assoc]
      exact Buffer.write_append frontLen rfl
    simp only
    rw [first, ← List.append_assoc]
    rw [Buffer.write_append (by rw [List.length_append, frontLen]; rfl)
      (by rw [List.length_replicate])]
    simp only [front, List.flatMap_append, List.flatMap_singleton, AddCall.image, AddCall.wire,
      List.append_assoc]

/-- A sequence of calls leaves the image of those that returned 0. -/
theorem addAll (image : b.Image msgType ttl calls) (more : List AddCall) :
    (b.addAll more).Image msgType ttl (calls ++ b.added more) ∧
      (b.addAll more).size = b.size := by
  induction more generalizing b calls with
  | nil =>
    rw [Builder.added, List.append_nil]
    exact ⟨image, rfl⟩
  | cons c more ih =>
    rw [Builder.addAll, List.foldl_cons]
    by_cases fits : b.offset + c.span ≤ b.size
    · obtain ⟨ok, image', size⟩ := image.add_fits fits
      obtain ⟨rest, size'⟩ := ih image'
      rw [Builder.added, if_pos ok]
      rw [List.append_assoc] at rest
      exact ⟨rest, size'.trans size⟩
    · have refused : b.add c = (-1, b) := add_overflow (Nat.lt_of_not_le fits)
      rw [Builder.added, refused, if_neg (show ¬ (-1 : Int) = 0 by decide)]
      exact ih image

theorem offset_mod (image : b.Image msgType ttl calls) : b.offset % 4 = 0 := by
  have := spans_mod calls
  rw [image.offset, commonHdrLen]
  omega

/-- The message `rsvp_builder_finalize` leaves: the blank header with length and checksum, and
the objects. -/
theorem finish (image : b.Image msgType ttl calls) :
    ∃ sum : UInt16,
      b.finish = [0x10, msgType] ++ bytes16 sum ++ [ttl, 0] ++
        bytes16 (htons (UInt16.ofNat b.offset)) ++ calls.flatMap AddCall.image ∧
      sum = rsvpChecksum ([0x10, msgType] ++ bytes16 0 ++ [ttl, 0] ++
        bytes16 (htons (UInt16.ofNat b.offset)) ++ calls.flatMap AddCall.image) := by
  have bodyLen : (calls.flatMap AddCall.image).length + commonHdrLen = b.offset := by
    rw [length_flatMap_image, image.offset, Nat.add_comm]
  have withLen : Buffer.write (Buffer.write b.buffer 6
        (bytes16 (htons (UInt16.ofNat b.offset)))) 2 (bytes16 0) =
      [0x10, msgType] ++ bytes16 0 ++ [ttl, 0] ++ bytes16 (htons (UInt16.ofNat b.offset)) ++
        calls.flatMap AddCall.image ++ List.replicate (b.size - b.offset) 0 := by
    rw [image.buffer]
    rfl
  have taken : ∀ sum : UInt16, ([0x10, msgType] ++ bytes16 sum ++ [ttl, 0] ++
        bytes16 (htons (UInt16.ofNat b.offset)) ++ calls.flatMap AddCall.image ++
          List.replicate (b.size - b.offset) 0).take b.offset =
      [0x10, msgType] ++ bytes16 sum ++ [ttl, 0] ++
        bytes16 (htons (UInt16.ofNat b.offset)) ++ calls.flatMap AddCall.image := by
    intro sum
    apply List.take_left'
    simp only [List.length_append, List.length_cons, List.length_nil, length_bytes16]
    rw [commonHdrLen] at bodyLen
    omega
  refine ⟨_, ?_, rfl⟩
  rw [Builder.finish]
  simp only [rsvpBuilderFinalize, withLen, taken]
  exact taken _

end Builder.Image

/-! ## The finished message is of the grammar -/

/-- The objects of a message whose payload starts at packet offset `off`. -/
def placed : Nat → List AddCall → List Obj
  | _, [] => []
  | off, c :: calls => c.objAt off :: placed (off + c.span) calls

theorem objSeq_placed (calls : List AddCall) (off : Nat) (bound : spans calls < 2 ^ 16) :
    ObjSeq off (calls.flatMap AddCall.image) (placed off calls) := by
  induction calls generalizing off with
  | nil => exact .done (by decide)
  | cons c calls ih =>
    rw [spans, List.map_cons, List.sum_cons] at bound
    have span := c.len_le_span
    have rest : ObjSeq (off + rsvpAlign (c.objAt off).len) (calls.flatMap AddCall.image)
        (placed (off + c.span) calls) := ih _ (by rw [spans]; omega)
    have exact_pad : (c.objAt off).len + (List.replicate (c.span - c.len) (0 : UInt8)).length =
        rsvpAlign (c.objAt off).len := by
      rw [List.length_replicate, AddCall.len_objAt]
      change _ = c.span
      omega
    rw [List.flatMap_cons, AddCall.image, ← c.wire_objAt off, placed]
    exact .next rfl (by rw [AddCall.len_objAt]; omega) exact_pad rest

/-- The checksum the builder stores verifies: both sums skip the checksum field. -/
theorem rsvpChecksumVerify_rsvpChecksum (a b : UInt8) (rest : Bytes) :
    rsvpChecksumVerify ([a, b] ++ bytes16 (rsvpChecksum ([a, b] ++ bytes16 0 ++ rest)) ++ rest)
      = 0 := by
  have first := (ntohs (le16 a b)).toNat_lt
  have skip : rsvpChecksum ([a, b] ++ bytes16 0 ++ rest) =
      complementSum (sumWords (ntohs (le16 a b)).toNat rest) := by
    have zero : (ntohs (le16 (UInt16.toUInt8 0) (UInt8.ofNat (UInt16.toNat 0 / 256)))).toNat = 0 := by
      decide
    simp only [rsvpChecksum, bytes16, List.cons_append, List.nil_append, sumWords, zero]
    congr 2
    omega
  rw [skip]
  simp only [rsvpChecksumVerify, bytes16, List.cons_append, List.nil_append, le16_bytes,
    if_true]

/-- The call an object came from. -/
def Obj.call (o : Obj) : AddCall := ⟨o.classNum, o.cType, o.data⟩

/-- The first call for slot `k`. -/
def firstCall (calls : List AddCall) (k : Slot) : Option AddCall :=
  calls.find? fun c => slotOfClass c.classNum = some k

/-- A valid call fits the slot of its class. -/
theorem AddCall.Valid.fits_objAt {c : AddCall} (valid : c.Valid) (off : Nat) (k : Slot) :
    (c.objAt off).fits k = decide (slotOfClass c.classNum = some k) := by
  obtain ⟨j, slot, cType, len⟩ := valid
  simp only [Obj.fits, AddCall.objAt]
  by_cases same : j = k
  · subst same
    simp only [slot, cType, len, and_self]
  · simp only [slot, Option.some.injEq, same, false_and]

/-- What the parser finds for a slot is the first call for it. -/
theorem firstFit_placed {calls : List AddCall} (valid : ∀ c ∈ calls, c.Valid) (off : Nat)
    (k : Slot) : (firstFit (placed off calls) k).map Obj.call = firstCall calls k := by
  induction calls generalizing off with
  | nil => rfl
  | cons c calls ih =>
    rw [placed, firstFit_cons, (valid c List.mem_cons_self).fits_objAt, firstCall,
      List.find?_cons]
    by_cases slot : slotOfClass c.classNum = some k
    · simp only [slot, decide_true, if_true]
      rfl
    · simp only [slot, decide_false, Bool.false_eq_true, if_false]
      exact ih (fun c' mem => valid c' (List.mem_cons_of_mem _ mem)) _

theorem known_of_mem_placed {calls : List AddCall} (valid : ∀ c ∈ calls, c.Valid) {off : Nat}
    {o : Obj} (mem : o ∈ placed off calls) : o.known := by
  induction calls generalizing off with
  | nil => cases mem
  | cons c calls ih =>
    rcases List.mem_cons.mp mem with rfl | tail
    · obtain ⟨k, slot, -⟩ := valid c List.mem_cons_self
      intro unknown
      rw [AddCall.objAt, slot] at unknown
      cases unknown
    · exact ih (fun c' mem => valid c' (List.mem_cons_of_mem _ mem)) tail

/-- An IPv4 header: at least five words, their number in the low nibble of its first byte. -/
structure IpHeader (ip : Bytes) : Prop where
  long : iphdrLen ≤ ip.length
  ihl : ipHdrLen ip = ip.length

theorem IpHeader.ipHdrLen_append {ip : Bytes} (header : IpHeader ip) (msg : Bytes) :
    ipHdrLen (ip ++ msg) = ip.length := by
  have long := header.long
  rw [← header.ihl]
  cases ip with
  | nil => exact absurd long (by decide)
  | cons byte rest => rfl

/-- The common header of a finished message behind any IPv4 header. -/
theorem Builder.Image.rsvpHdr_finish {b : Builder} {msgType ttl : UInt8} {calls : List AddCall}
    (image : b.Image msgType ttl calls) {ip : Bytes} (header : IpHeader ip) :
    ∃ sum, rsvpHdr (ip ++ b.finish) =
      ⟨0x10, msgType, sum, ttl, 0, htons (UInt16.ofNat b.offset)⟩ := by
  obtain ⟨sum, finish, -⟩ := image.finish
  refine ⟨sum, ?_⟩
  have dropped : (ip ++ b.finish).drop ip.length = b.finish := List.drop_left' rfl
  rw [rsvpHdr, header.ipHdrLen_append, dropped, finish]
  simp [CommonHdr.ofBytes, bytes16, u16At, u8At]

/-- The finished message behind any IPv4 header is of the parser's grammar. -/
theorem Builder.Image.accepted {b : Builder} {msgType ttl : UInt8} {calls : List AddCall}
    (image : b.Image msgType ttl calls) (bound : b.size < 2 ^ 16)
    (valid : ∀ c ∈ calls, c.Valid) {ip : Bytes} (header : IpHeader ip)
    (mandatory : ∀ k ∈ mandatorySlots msgType, (firstCall calls k).isSome = true) :
    Accepted (ip ++ b.finish) (placed (ip.length + 8) calls) ∧
      (rsvpHdr (ip ++ b.finish)).msgType = msgType ∧
      (rsvpHdr (ip ++ b.finish)).ttl = ttl := by
  obtain ⟨sum, finish, checksum⟩ := image.finish
  have room := image.room
  have offset : b.offset = 8 + spans calls := image.offset
  have ihl : ipHdrLen (ip ++ b.finish) = ip.length := header.ipHdrLen_append _
  have long : 20 ≤ ip.length := header.long
  have dropped : (ip ++ b.finish).drop ip.length = b.finish := List.drop_left' rfl
  obtain ⟨stored, hdr⟩ := image.rsvpHdr_finish header
  have len : rsvpLen (ip ++ b.finish) = b.offset := by
    rw [rsvpLen, hdr]
    change (bswap16 (bswap16 _)).toNat = _
    rw [bswap16_bswap16, UInt16.toNat_ofNat']
    exact Nat.mod_eq_of_lt (by omega)
  have finishLen : b.finish.length = b.offset := by
    simp only [finish, List.length_append, List.length_cons, List.length_nil, length_bytes16,
      length_flatMap_image]
    omega
  have msg : rsvpMessage (ip ++ b.finish) = b.finish := by
    rw [rsvpMessage, ihl, dropped, len, List.take_of_length_le (Nat.le_of_eq finishLen)]
  have payload : b.finish.drop 8 = calls.flatMap AddCall.image := by
    rw [finish]
    exact List.drop_left' rfl
  refine ⟨⟨⟨?_, ?_, ?_, ?_, ?_, ?_⟩, ?_, ?_, ?_⟩, by rw [hdr], by rw [hdr]⟩
  · rw [List.length_append]
    omega
  · rw [ihl, List.length_append]
    omega
  · rw [ihl, List.length_append, finishLen]
    omega
  · rw [ihl, len, List.length_append, finishLen]
    omega
  · rw [hdr]
    change (0x10 : UInt8) >>> 4 = 1
    decide
  · right
    rw [msg, finish, checksum]
    simpa only [List.append_assoc] using rsvpChecksumVerify_rsvpChecksum 0x10 msgType
      ([ttl, 0] ++ bytes16 (htons (UInt16.ofNat b.offset)) ++ calls.flatMap AddCall.image)
  · rw [ihl, msg, payload]
    exact objSeq_placed calls _ (by omega)
  · exact fun o mem => known_of_mem_placed valid mem
  · intro k mem
    rw [hdr] at mem
    have found := mandatory k mem
    rw [← firstFit_placed valid (ip.length + 8), Option.isSome_map] at found
    exact (firstFit_isSome_iff _ k).mp found

theorem Builder.mem_of_mem_added {b : Builder} {calls : List AddCall} {c : AddCall}
    (mem : c ∈ b.added calls) : c ∈ calls := by
  induction calls generalizing b with
  | nil => cases mem
  | cons d calls ih =>
    rw [Builder.added] at mem
    split at mem
    · rcases List.mem_cons.mp mem with rfl | tail
      · exact List.mem_cons_self
      · exact List.mem_cons_of_mem _ (ih tail)
    · exact List.mem_cons_of_mem _ (ih mem)

theorem sessAttrName_append (setupPrio holdingPrio flags : UInt8) {name : Bytes}
    (short : name.length ≤ 255) :
    sessAttrName ([setupPrio, holdingPrio, flags, UInt8.ofNat name.length] ++ name) = name := by
  have len : (UInt8.ofNat name.length).toNat = name.length := by
    rw [UInt8.toNat_ofNat']
    exact Nat.mod_eq_of_lt (by omega)
  have field : u8At ([setupPrio, holdingPrio, flags, UInt8.ofNat name.length] ++ name) 3 =
      UInt8.ofNat name.length := rfl
  rw [sessAttrName, field, len, Nat.min_eq_left short]
  change List.take name.length name = name
  exact List.take_length

/-- The message information holds, slot by slot, the first of the calls for that slot, and what
the parser copies out of it. -/
structure Decodes (info : MessageInfo) (msgType ttl : UInt8) (calls : List AddCall) : Prop where
  msgType : info.commonHdr.msgType = msgType
  ttl : info.commonHdr.ttl = ttl
  objs : ∀ k, (info.objs k).map Obj.call = firstCall calls k
  session : info.key.session =
    ((firstCall calls .sessV4).map (SessionIpv4.ofBytes ·.data)).getD PathKey.zero.session
  sender : info.key.sender =
    ((firstCall calls .senderV4).map (SenderIpv4.ofBytes ·.data)).getD PathKey.zero.sender
  lspName : info.lspName = ((firstCall calls .sessAttr).map (sessAttrName ·.data)).getD []

/-- Parsing a finished message yields what was added to it. -/
theorem Builder.Image.parse {b : Builder} {msgType ttl : UInt8} {calls : List AddCall}
    (image : b.Image msgType ttl calls) (bound : b.size < 2 ^ 16)
    (valid : ∀ c ∈ calls, c.Valid) {ip : Bytes} (header : IpHeader ip)
    (mandatory : ∀ k ∈ mandatorySlots msgType, (firstCall calls k).isSome = true) :
    ∃ info, rsvpParsePacket (ip ++ b.finish) = .ok info ∧ Decodes info msgType ttl calls ∧
      info.srcIp = u32At (ip ++ b.finish) 12 ∧ info.dstIp = u32At (ip ++ b.finish) 16 := by
  obtain ⟨accepted, type, ttlField⟩ := image.accepted bound valid header mandatory
  refine ⟨_, accepted.parse, ⟨type, ttlField, firstFit_placed valid _, ?_, ?_, ?_⟩, rfl, rfl⟩
  all_goals
    rw [← firstFit_placed valid (ip.length + 8), Option.map_map]
    rfl

/-- Decode undoes encode: a call that does not fit changes nothing, the cursor stays aligned
and inside the buffer, and the finished message parses to the first payload added for each
class. -/
theorem rsvpParsePacket_rsvpBuilder (size : Nat) (low : 8 ≤ size) (high : size ≤ 65535)
    (msgType : UInt8) (calls : List AddCall) (valid : ∀ c ∈ calls, c.Valid) :
    (∀ front c, front ++ [c] <+: calls →
      let b := (rsvpBuilderInit size msgType).addAll front
      size < b.offset + rsvpAlign (objHdrLen + c.data.length) → b.add c = (-1, b)) ∧
    (∀ front, front <+: calls →
      ((rsvpBuilderInit size msgType).addAll front).offset % 4 = 0 ∧
        ((rsvpBuilderInit size msgType).addAll front).offset ≤ size) ∧
    (∀ ip, IpHeader ip →
      (∀ k ∈ mandatorySlots msgType,
        ∃ c ∈ (rsvpBuilderInit size msgType).added calls, slotOfClass c.classNum = some k) →
      ∃ info,
        rsvpParsePacket (ip ++ ((rsvpBuilderInit size msgType).addAll calls).finish) =
          .ok info ∧
        (∀ k, (info.objs k).map (·.data) =
          (((rsvpBuilderInit size msgType).added calls).find?
            fun c => slotOfClass c.classNum = some k).map (·.data)) ∧
        ∀ o, info.objs .sessAttr = some o → ∀ setupPrio holdingPrio flags name,
          name.length ≤ 255 →
          o.data = [setupPrio, holdingPrio, flags, UInt8.ofNat name.length] ++ name →
          info.lspName = name) := by
  have start : (rsvpBuilderInit size msgType).Image msgType 255 [] := .init msgType low
  refine ⟨?_, ?_, ?_⟩
  · intro front c _ b full
    obtain ⟨-, same⟩ := start.addAll front
    have size' : b.size = size := same
    exact Builder.Image.add_overflow (by rw [size']; exact full)
  · intro front _
    obtain ⟨image, same⟩ := start.addAll front
    have room := image.room
    rw [same] at room
    exact ⟨image.offset_mod, room⟩
  · intro ip header mandatory
    obtain ⟨image, same⟩ := start.addAll calls
    rw [List.nil_append] at image
    have size' : ((rsvpBuilderInit size msgType).addAll calls).size = size := same
    have validAdded : ∀ c ∈ (rsvpBuilderInit size msgType).added calls, c.Valid :=
      fun c mem => valid c (Builder.mem_of_mem_added mem)
    obtain ⟨info, parsed, decodes, -, -⟩ := image.parse (by omega) validAdded header
      fun k mem => by
        obtain ⟨c, added, slot⟩ := mandatory k mem
        rw [firstCall, List.find?_isSome]
        exact ⟨c, added, decide_eq_true slot⟩
    refine ⟨info, parsed, ?_, ?_⟩
    · intro k
      have first := congrArg (Option.map AddCall.data) (decodes.objs k)
      rw [Option.map_map] at first
      exact first
    · intro o held setupPrio holdingPrio flags name short data
      have first := decodes.objs .sessAttr
      rw [held] at first
      rw [decodes.lspName, ← first]
      change sessAttrName o.data = name
      rw [data]
      exact sessAttrName_append _ _ _ short

/-- A PATH in a buffer of 60 bytes: the EXPLICIT_ROUTE does not fit, the second SESSION is
shadowed by the first. -/
def crampedPath : List AddCall :=
  [⟨classSession, 7, List.replicate 12 1⟩, ⟨classExplicitRoute, 1, List.replicate 40 2⟩,
    ⟨classSenderTemplate, 7, List.replicate 8 3⟩, ⟨classSession, 7, List.replicate 12 4⟩]

theorem rsvpParsePacket_rsvpBuilder_crampedPath :
    ∃ info,
      rsvpParsePacket
        ((0x45 :: List.replicate 19 0) ++ ((rsvpBuilderInit 60 msgPath).addAll crampedPath).finish)
          = .ok info ∧
      (info.objs .sessV4).map (·.data) = some (List.replicate 12 1) ∧
      (info.objs .ero).map (·.data) = none ∧
      (info.objs .senderV4).map (·.data) = some (List.replicate 8 3) := by
  have valid : ∀ c ∈ crampedPath, c.Valid := by
    intro c mem
    simp only [crampedPath, List.mem_cons, List.not_mem_nil, or_false] at mem
    rcases mem with rfl | rfl | rfl | rfl
    · exact ⟨.sessV4, by decide, by decide, by decide⟩
    · exact ⟨.ero, by decide, by decide, by decide⟩
    · exact ⟨.senderV4, by decide, by decide, by decide⟩
    · exact ⟨.sessV4, by decide, by decide, by decide⟩
  have header : IpHeader (0x45 :: List.replicate 19 0) := ⟨by decide, by decide⟩
  obtain ⟨-, -, decode⟩ :=
    rsvpParsePacket_rsvpBuilder 60 (by decide) (by decide) msgPath crampedPath valid
  obtain ⟨info, parsed, first, -⟩ := decode _ header (by decide)
  refine ⟨info, parsed, ?_, ?_, ?_⟩
  · rw [first]
    decide
  · rw [first]
    decide
  · rw [first]
    decide

end Rsvp
