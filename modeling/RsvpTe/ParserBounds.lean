import RsvpTe.ParserGrammar
import RsvpTe.StateMachine

/-!
# The bounds of the parser

The parser and the ERO and RRO loops once more, with every access checked: each read of the packet
goes through `Buffer.read` at the place and with the size of the source's access, each write into an
array tests the index, and each loop has a fuel.  An access outside, or a loop that is still running
when the fuel is used up, is `none`.

`checkedParsePacket_eq` and `walkHops_eq` say that this never happens and that the result is that of
the unchecked functions.
-/

namespace Rsvp

open Words

theorem u16At_take (d : Bytes) {i n : Nat} (inside : i + 1 < n) : u16At (d.take n) i = u16At d i := by
  rw [u16At, u16At, u8At_take d (Nat.lt_of_succ_lt inside), u8At_take d inside]

theorem u32At_take (d : Bytes) {i n : Nat} (inside : i + 3 < n) : u32At (d.take n) i = u32At d i := by
  rw [u32At, u32At, u8At_take d (by omega), u8At_take d (by omega), u8At_take d (by omega),
    u8At_take d inside]

/-! ## Subobjects -/

/-- The loop over an ERO or RRO of `data`, at offset `ptr` with `rem` bytes to go and `hops` stored
so far. -/
def walkHops (data : Bytes) : Nat → Nat → Nat → List EroSubobj → Option (List EroSubobj)
  | 0, _, _, _ => none
  | fuel + 1, ptr, rem, hops =>
    if rem < 2 ∨ ¬ hops.length < maxHops then some hops
    else do
      let sub ← Buffer.read data ptr 2
      let len := (u8At sub 1).toNat
      if len < 2 ∨ len > rem then some hops
      else if u8At sub 0 &&& 0x7F = eroIpv4 ∧ len = 8 then do
        let stored ← Buffer.read data ptr 8
        if hops.length < maxHops then
          walkHops data fuel (ptr + len) (rem - len) (hops ++ [.ofBytes stored])
        else none
      else walkHops data fuel (ptr + len) (rem - len) hops

theorem EroSubobj.ofBytes_take (d : Bytes) :
    EroSubobj.ofBytes (d.take 8) = EroSubobj.ofBytes d := by
  rw [ofBytes, ofBytes, u8At_take d (by decide), u8At_take d (by decide), u32At_take d (by decide),
    u8At_take d (by decide), u8At_take d (by decide)]

/-- The checked loop ends within `rem + 1` rounds, with what the unchecked one stores. -/
theorem walkHops_eq {data : Bytes} {fuel steps ptr rem : Nat} {hops : List EroSubobj}
    (inside : ptr + rem = data.length) (enough : rem < fuel) (enough' : rem ≤ steps)
    (room : hops.length ≤ maxHops) :
    walkHops data fuel ptr rem hops =
      some (hops ++ readHops steps (maxHops - hops.length) (data.drop ptr)) := by
  induction fuel generalizing steps ptr rem hops with
  | zero => exact absurd enough (Nat.not_lt_zero rem)
  | succ fuel ih =>
    have length : (data.drop ptr).length = rem := by
      rw [List.length_drop]
      omega
    rw [walkHops]
    split
    · rename_i stops
      have empty : readHops steps (maxHops - hops.length) (data.drop ptr) = [] := by
        cases steps with
        | zero => rfl
        | succ steps => rw [readHops, if_pos (by omega)]
      rw [empty, List.append_nil]
    · rename_i goes
      obtain ⟨steps, rfl⟩ := Nat.exists_eq_add_of_lt (by omega : 0 < steps)
      rw [Nat.zero_add] at enough' ⊢
      have sub : Buffer.read data ptr 2 = some ((data.drop ptr).take 2) :=
        Buffer.read_of_le (by omega)
      have more : ¬ (rem < 2 ∨ maxHops - hops.length = 0) := by omega
      rw [sub, Option.bind_eq_bind, Option.bind_some, u8At_take _ (by decide),
        u8At_take _ (by decide), readHops, length, if_neg more]
      dsimp only
      by_cases bad : (u8At (data.drop ptr) 1).toNat < 2 ∨ (u8At (data.drop ptr) 1).toNat > rem
      · rw [if_pos bad, if_pos bad, List.append_nil]
      have next : ptr + (u8At (data.drop ptr) 1).toNat +
          (rem - (u8At (data.drop ptr) 1).toNat) = data.length := by omega
      rw [if_neg bad, if_neg bad, List.drop_drop]
      by_cases ipv4 : u8At (data.drop ptr) 0 &&& 0x7F = eroIpv4 ∧
          (u8At (data.drop ptr) 1).toNat = 8
      · have stored : Buffer.read data ptr 8 = some ((data.drop ptr).take 8) :=
          Buffer.read_of_le (by omega)
        have free : hops.length < maxHops := by omega
        have grown : (hops ++ [EroSubobj.ofBytes (data.drop ptr)]).length = hops.length + 1 := by
          rw [List.length_append, List.length_singleton]
        rw [if_pos ipv4, if_pos ipv4, stored, Option.bind_some, if_pos free,
          EroSubobj.ofBytes_take, ih next (by omega) (by omega : _ ≤ steps) (by omega), grown,
          List.append_assoc, Nat.sub_add_eq]
        rfl
      · rw [if_neg ipv4, if_neg ipv4]
        exact ih next (by omega) (by omega) room

/-- The loops of `handle_path_message` stay inside the object and the array, and end. -/
theorem walkHops_route (data : Bytes) :
    walkHops data (data.length + 1) 0 data.length [] = some (Route.ofBytes data).hops :=
  walkHops_eq (Nat.zero_add _) (Nat.lt_succ_self _) (Nat.le_refl _) (Nat.zero_le _)

/-! ## Objects -/

/-- What the case of a slot reads of the object before it copies a name: the fixed structure, and
for ERO and RRO nothing. -/
def Slot.fixedLen : Slot → Nat
  | .ero => 0
  | .rro => 0
  | k => k.minLen

theorem Slot.fixedLen_le (k : Slot) : k.fixedLen ≤ k.minLen := by
  cases k <;> decide

/-- `sizeof(info->lsp_name)`. -/
def lspNameSize : Nat := 256

def checkedStore (info : MessageInfo) (k : Slot) (o : Obj) : Option MessageInfo := do
  let fixed ← Buffer.read o.data 0 k.fixedLen
  let filled := { info with objs := Function.update info.objs k (some o) }
  match k with
  | .sessV4 => some { filled with key := { info.key with session := .ofBytes fixed } }
  | .senderV4 => some { filled with key := { info.key with sender := .ofBytes fixed } }
  | .helloObj => some { filled with helloCtype := o.cType }
  | .sessAttr =>
    if u8At fixed 3 > 0 then do
      let available := o.data.length - 4
      let clamped := min (u8At fixed 3).toNat available
      let nlen := if clamped ≥ lspNameSize then lspNameSize - 1 else clamped
      let name ← Buffer.read o.data 4 nlen
      -- `memcpy` and the terminator stay inside the array.
      if nlen < lspNameSize then some { filled with lspName := name } else none
    else some filled
  | _ => some filled

def checkedDispatch (info : MessageInfo) (o : Obj) : Option (Except RsvpError MessageInfo) :=
  match slotOfClass o.classNum with
  | none => some (if o.classNum < 128 then .error .unknownClass else .ok info)
  | some k =>
    if (info.objs k).isSome then some (.ok info)
    else if k.cTypeOk o.cType ∧ k.minLen ≤ o.data.length then (checkedStore info k o).map .ok
    else some (.ok info)

/-- The name is cut at the end of the object and before the end of the array. -/
theorem take_sessAttrName {data : Bytes} (four : 4 ≤ data.length) :
    Buffer.read data 4 (if min (u8At data 3).toNat (data.length - 4) ≥ lspNameSize then
      lspNameSize - 1 else min (u8At data 3).toNat (data.length - 4)) = some (sessAttrName data) := by
  have size : lspNameSize = 256 := rfl
  have length : (data.drop 4).length = data.length - 4 := List.length_drop
  have clipped : (if min (u8At data 3).toNat (data.length - 4) ≥ lspNameSize then lspNameSize - 1
      else min (u8At data 3).toNat (data.length - 4)) =
      min (min (u8At data 3).toNat 255) (data.drop 4).length := by
    rw [length]
    split <;> omega
  rw [clipped, Buffer.read_of_le (by omega), sessAttrName]
  exact congrArg some List.take_eq_take_min.symm

theorem SessionIpv4.ofBytes_take (d : Bytes) :
    SessionIpv4.ofBytes (d.take 12) = SessionIpv4.ofBytes d := by
  rw [ofBytes, ofBytes, u32At_take d (by decide), u16At_take d (by decide), u16At_take d (by decide),
    u32At_take d (by decide)]

theorem SenderIpv4.ofBytes_take (d : Bytes) :
    SenderIpv4.ofBytes (d.take 8) = SenderIpv4.ofBytes d := by
  rw [ofBytes, ofBytes, u32At_take d (by decide), u16At_take d (by decide), u16At_take d (by decide)]

theorem checkedStore_eq {info : MessageInfo} {k : Slot} {o : Obj}
    (long : k.minLen ≤ o.data.length) : checkedStore info k o = some (info.store k o) := by
  have fixed : Buffer.read o.data 0 k.fixedLen = some (o.data.take k.fixedLen) :=
    Buffer.read_of_le (by rw [Nat.zero_add]; exact k.fixedLen_le.trans long)
  rw [checkedStore, fixed, Option.bind_eq_bind, Option.bind_some]
  cases k with
  | sessV4 =>
    change some { info with key := _, objs := _ } = some { info with key := _, objs := _ }
    rw [show Slot.fixedLen .sessV4 = 12 from rfl, SessionIpv4.ofBytes_take]
  | senderV4 =>
    change some { info with key := _, objs := _ } = some { info with key := _, objs := _ }
    rw [show Slot.fixedLen .senderV4 = 8 from rfl, SenderIpv4.ofBytes_take]
  | sessAttr =>
    have name := take_sessAttrName long
    rw [show Slot.fixedLen .sessAttr = 4 from rfl, MessageInfo.store]
    dsimp only
    rw [u8At_take _ (by decide)]
    by_cases named : u8At o.data 3 > 0
    · rw [if_pos named, if_pos named, name, Option.bind_some, if_pos]
      split
      · decide
      · omega
    · rw [if_neg named, if_neg named]
  | _ => rfl

theorem checkedDispatch_eq (info : MessageInfo) (o : Obj) :
    checkedDispatch info o = some (dispatchObject info o) := by
  unfold checkedDispatch dispatchObject
  cases slotOfClass o.classNum with
  | none => rfl
  | some k =>
    dsimp only
    by_cases filled : (info.objs k).isSome = true
    · rw [if_pos filled, if_pos filled]
    rw [if_neg filled, if_neg filled]
    by_cases accepts : k.cTypeOk o.cType ∧ k.minLen ≤ o.data.length
    · rw [if_pos accepts, if_pos accepts, checkedStore_eq accepts.2]
      rfl
    · rw [if_neg accepts, if_neg accepts]

/-! ## Packets -/

def ParseResult.ofExcept : Except RsvpError MessageInfo → ParseResult
  | .ok info => .ok info
  | .error e => .error e

def checkedObjects (buffer : Bytes) :
    Nat → Nat → Nat → MessageInfo → Option (Except RsvpError MessageInfo)
  | 0, _, _, _ => none
  | fuel + 1, objPtr, remaining, info =>
    if remaining < objHdrLen then some (.ok info)
    else do
      let hdr ← Buffer.read buffer objPtr objHdrLen
      let objLen := (ntohs (u16At hdr 0)).toNat
      if objLen < objHdrLen ∨ objLen > remaining then some (.error .malformedObj)
      else do
        let data ← Buffer.read buffer (objPtr + objHdrLen) (objLen - objHdrLen)
        let dispatched ←
          checkedDispatch info ⟨u8At hdr 2, u8At hdr 3, objPtr + objHdrLen, data⟩
        match dispatched with
        | .error e => some (.error e)
        | .ok info' =>
          let alignedObjLen := rsvpAlign objLen
          if alignedObjLen = 0 then some (.error .malformedObj)
          else if alignedObjLen > remaining then some (.ok info')
          else
            checkedObjects buffer fuel (objPtr + alignedObjLen) (remaining - alignedObjLen) info'

def checkedParsePacket (buffer : Bytes) : Option (Except RsvpError MessageInfo) :=
  let len := buffer.length
  if len < iphdrLen then some (.error .bufferTooSmall)
  else do
    let ip ← Buffer.read buffer 0 iphdrLen
    if ipHdrLen ip < iphdrLen ∨ ipHdrLen ip > len then some (.error .invalidParam)
    else if len < ipHdrLen ip + commonHdrLen then some (.error .bufferTooSmall)
    else do
      let rsvpHdr ← Buffer.read buffer (ipHdrLen ip) commonHdrLen
      let hdr := CommonHdr.ofBytes rsvpHdr
      let rsvpLen := (ntohs hdr.length).toNat
      if rsvpLen < commonHdrLen then some (.error .malformedObj)
      else if ipHdrLen ip + rsvpLen > len then some (.error .bufferTooSmall)
      else if hdr.verFlags >>> 4 ≠ rsvpVersion then some (.error .invalidParam)
      else do
        let msg ← Buffer.read buffer (ipHdrLen ip) rsvpLen
        if hdr.checksum ≠ 0 ∧ rsvpChecksumVerify msg ≠ 0 then some (.error .checksum)
        else do
          let info := MessageInfo.ofHeaders ip hdr
          let parsed ← checkedObjects buffer (info.payloadLen + 1) info.payload info.payloadLen info
          match parsed with
          | .error e => some (.error e)
          | .ok info' =>
            some (if (mandatorySlots hdr.msgType).all fun k => (info'.objs k).isSome then .ok info'
              else .error .malformedObj)

/-- The checked loop stays in a packet that has the remaining bytes, ends within `remaining + 1`
rounds and ends as the unchecked one does. -/
theorem checkedObjects_eq {buffer : Bytes} {fuel steps objPtr remaining : Nat} {info : MessageInfo}
    (inside : objPtr + remaining ≤ buffer.length) (enough : remaining < fuel)
    (enough' : remaining ≤ steps) :
    (checkedObjects buffer fuel objPtr remaining info).map ParseResult.ofExcept =
      some (parseObjects buffer steps objPtr remaining info) := by
  induction fuel generalizing steps objPtr remaining info with
  | zero => exact absurd enough (Nat.not_lt_zero remaining)
  | succ fuel ih =>
    rw [checkedObjects]
    by_cases short : remaining < objHdrLen
    · rw [if_pos short]
      cases steps with
      | zero => rfl
      | succ steps => rw [parseObjects, if_pos short]; rfl
    have four : 4 ≤ remaining := Nat.not_lt.mp short
    obtain ⟨steps, rfl⟩ := Nat.exists_eq_add_of_lt (by omega : 0 < steps)
    rw [Nat.zero_add] at enough' ⊢
    have hdr : Buffer.read buffer objPtr objHdrLen = some ((buffer.drop objPtr).take objHdrLen) :=
      Buffer.read_of_le (by rw [objHdrLen]; omega)
    rw [if_neg short, parseObjects, if_neg short, hdr, Option.bind_eq_bind, Option.bind_some]
    dsimp only
    generalize (buffer.drop objPtr).take objHdrLen = hdr
    generalize (ntohs (u16At hdr 0)).toNat = objLen
    by_cases bad : objLen < objHdrLen ∨ objLen > remaining
    · rw [if_pos bad, if_pos bad]
      rfl
    have range : 4 ≤ objLen ∧ objLen ≤ remaining := by
      rw [objHdrLen] at bad
      omega
    have data : Buffer.read buffer (objPtr + objHdrLen) (objLen - objHdrLen) =
        some ((buffer.drop (objPtr + objHdrLen)).take (objLen - objHdrLen)) :=
      Buffer.read_of_le (by rw [objHdrLen]; omega)
    rw [if_neg bad, if_neg bad, data, Option.bind_some, checkedDispatch_eq, Option.bind_eq_bind,
      Option.bind_some]
    dsimp only
    cases dispatchObject info _ with
    | error e => rfl
    | ok info' =>
      dsimp only
      have ge := le_rsvpAlign objLen
      have positive : ¬ rsvpAlign objLen = 0 := by omega
      rw [if_neg positive, if_neg positive]
      by_cases beyond : rsvpAlign objLen > remaining
      · rw [if_pos beyond, if_pos beyond]
        rfl
      · rw [if_neg beyond, if_neg beyond]
        exact ih (by omega) (by omega) (by omega)

theorem ipHdrLen_take (buffer : Bytes) : ipHdrLen (buffer.take iphdrLen) = ipHdrLen buffer := by
  rw [ipHdrLen, ipHdrLen, u8At_take _ (by decide)]

theorem MessageInfo.ofHeaders_take (buffer : Bytes) (hdr : CommonHdr) :
    MessageInfo.ofHeaders (buffer.take iphdrLen) hdr = .ofHeaders buffer hdr := by
  rw [ofHeaders, ofHeaders, ipHdrLen_take, u32At_take _ (by decide), u32At_take _ (by decide)]

/-- The checked parser never leaves the packet, ends, and yields the result of the unchecked one. -/
theorem checkedParsePacket_eq (buffer : Bytes) :
    (checkedParsePacket buffer).map ParseResult.ofExcept = some (rsvpParsePacket buffer) := by
  unfold checkedParsePacket rsvpParsePacket
  dsimp only
  by_cases ipHeader : buffer.length < iphdrLen
  · rw [if_pos ipHeader, if_pos ipHeader]
    rfl
  have ip : Buffer.read buffer 0 iphdrLen = some (buffer.take iphdrLen) :=
    Buffer.read_of_le (by omega)
  rw [if_neg ipHeader, if_neg ipHeader, ip, Option.bind_eq_bind, Option.bind_some, ipHdrLen_take]
  by_cases ihl : ipHdrLen buffer < iphdrLen ∨ ipHdrLen buffer > buffer.length
  · rw [if_pos ihl, if_pos ihl]
    rfl
  rw [if_neg ihl, if_neg ihl]
  by_cases commonHeader : buffer.length < ipHdrLen buffer + commonHdrLen
  · rw [if_pos commonHeader, if_pos commonHeader]
    rfl
  have hdr : Buffer.read buffer (ipHdrLen buffer) commonHdrLen =
      some ((buffer.drop (ipHdrLen buffer)).take commonHdrLen) := Buffer.read_of_le (by omega)
  rw [if_neg commonHeader, if_neg commonHeader, hdr, Option.bind_some]
  dsimp only
  generalize CommonHdr.ofBytes ((buffer.drop (ipHdrLen buffer)).take commonHdrLen) = hdr
  by_cases small : (ntohs hdr.length).toNat < commonHdrLen
  · rw [if_pos small, if_pos small]
    rfl
  rw [if_neg small, if_neg small]
  by_cases large : ipHdrLen buffer + (ntohs hdr.length).toNat > buffer.length
  · rw [if_pos large, if_pos large]
    rfl
  rw [if_neg large, if_neg large]
  by_cases version : hdr.verFlags >>> 4 ≠ rsvpVersion
  · rw [if_pos version, if_pos version]
    rfl
  have msg : Buffer.read buffer (ipHdrLen buffer) (ntohs hdr.length).toNat =
      some ((buffer.drop (ipHdrLen buffer)).take (ntohs hdr.length).toNat) :=
    Buffer.read_of_le (by omega)
  rw [if_neg version, if_neg version, msg, Option.bind_some]
  dsimp only
  by_cases checksum : hdr.checksum ≠ 0 ∧
      rsvpChecksumVerify ((buffer.drop (ipHdrLen buffer)).take (ntohs hdr.length).toNat) ≠ 0
  · rw [if_pos checksum, if_pos checksum]
    rfl
  rw [if_neg checksum, if_neg checksum, MessageInfo.ofHeaders_take]
  have inside : (MessageInfo.ofHeaders buffer hdr).payload +
      (MessageInfo.ofHeaders buffer hdr).payloadLen ≤ buffer.length := by
    change ipHdrLen buffer + commonHdrLen + ((ntohs hdr.length).toNat - commonHdrLen) ≤ _
    omega
  have loop := fun info => @checkedObjects_eq buffer _ _ _ _ info inside (Nat.lt_succ_self _)
    (Nat.le_refl _)
  obtain ⟨parsed, walked, result⟩ := Option.map_eq_some_iff.mp (loop (.ofHeaders buffer hdr))
  rw [walked, Option.bind_eq_bind, Option.bind_some, ← result]
  cases parsed with
  | error e => rfl
  | ok info' =>
    dsimp only [ParseResult.ofExcept]
    rw [Option.map_some]
    split <;> rfl

/-! ## Pointers -/

/-- An object of a payload is a slice of it. -/
theorem ObjSeq.slice {off : Nat} {payload : Bytes} {objs : List Obj} (seq : ObjSeq off payload objs)
    {o : Obj} (mem : o ∈ objs) :
    ∃ front back, payload = front ++ o.data ++ back ∧ o.off = off + front.length := by
  have head : ∀ (p : Obj) (off : Nat) (rest : Bytes), p.off = off + objHdrLen →
      ∃ front back, p.wire ++ rest = front ++ p.data ++ back ∧ p.off = off + front.length := by
    intro p off rest place
    obtain ⟨a, b, wire, -⟩ := p.wire_eq
    exact ⟨[a, b, p.classNum, p.cType], rest, by rw [wire], place⟩
  induction seq with
  | done short => cases mem
  | @last off p pad place bound beyond =>
    rw [List.mem_singleton.mp mem]
    exact head p off pad place
  | @next off p pad rest objs place bound exact_pad _ ih =>
    rcases List.mem_cons.mp mem with rfl | later
    · rw [List.append_assoc]
      exact head o off (pad ++ rest) place
    · obtain ⟨front, back, shape, placed⟩ := ih later
      refine ⟨p.wire ++ pad ++ front, back, ?_, ?_⟩
      · rw [shape]
        simp only [List.append_assoc]
      · rw [placed, List.length_append, List.length_append, Obj.length_wire, exact_pad]
        omega

/-- The range an object pointer designates: it covers the fixed structure, lies in the RSVP message
behind the common header, and holds the payload. -/
structure Obj.Within (o : Obj) (buffer : Bytes) (k : Slot) : Prop where
  covers : k.minLen ≤ o.data.length
  behind : ipHdrLen buffer + commonHdrLen ≤ o.off
  message : o.off + o.data.length ≤ ipHdrLen buffer + rsvpLen buffer
  packet : ipHdrLen buffer + rsvpLen buffer ≤ buffer.length
  holds : Buffer.read buffer o.off o.data.length = some o.data

theorem Accepted.within {buffer : Bytes} {objs : List Obj} (accepted : Accepted buffer objs)
    {k : Slot} {o : Obj} (found : firstFit objs k = some o) : o.Within buffer k := by
  obtain ⟨front, back, shape, frontLen, payloadLen⟩ := accepted.toHeaders.split
  have fits := List.find?_some found
  obtain ⟨before, after, payload, place⟩ :=
    accepted.payload.slice (List.mem_of_find?_eq_some found)
  have size := congrArg List.length payload
  rw [payloadLen, List.length_append, List.length_append] at size
  have field := accepted.lengthField
  rw [Obj.fits, decide_eq_true_iff] at fits
  refine ⟨fits.2.2, ?_, ?_, field.2, ?_⟩
  · rw [place, commonHdrLen]
    omega
  · rw [place]
    omega
  · rw [shape, payload, ← List.append_assoc, ← List.append_assoc, List.append_assoc _ after]
    exact Buffer.read_append (by rw [List.length_append, frontLen, place]) rfl

/-- The array `info->lsp_name`, cleared by `memset` before the name and its NUL are written. -/
def MessageInfo.lspNameArray (info : MessageInfo) : Bytes :=
  info.lspName ++ List.replicate (lspNameSize - info.lspName.length) 0

theorem length_sessAttrName_le (data : Bytes) : (sessAttrName data).length ≤ 255 := by
  rw [sessAttrName, List.length_take]
  omega

theorem length_lspName_extracted (buffer : Bytes) (objs : List Obj) :
    (extracted buffer objs).lspName.length < lspNameSize := by
  change (((firstFit objs .sessAttr).map (sessAttrName ·.data)).getD []).length < 256
  cases firstFit objs .sessAttr with
  | none => decide
  | some o => exact Nat.lt_succ_of_le (length_sessAttrName_le o.data)

/-- Parsing any bytes, and walking the ERO and the RRO of what was accepted, ends and stays in
bounds; the pointers of an accepted packet designate ranges inside its RSVP message. -/
theorem rsvpParsePacket_bounds (buffer : Bytes) :
    (∃ result, checkedParsePacket buffer = some result ∧
      rsvpParsePacket buffer = .ofExcept result) ∧
    ∀ info, rsvpParsePacket buffer = .ok info →
      (∀ k o, info.objs k = some o → o.Within buffer k) ∧
      info.lspNameArray.length = lspNameSize ∧ 0 ∈ info.lspNameArray ∧
      ∀ k, k = .ero ∨ k = .rro → ∀ o, info.objs k = some o →
        ∃ hops, walkHops o.data (o.data.length + 1) 0 o.data.length [] = some hops ∧
          hops = (Route.ofBytes o.data).hops ∧ hops.length ≤ maxHops := by
  constructor
  · obtain ⟨result, checked, same⟩ := Option.map_eq_some_iff.mp (checkedParsePacket_eq buffer)
    exact ⟨result, checked, same.symm⟩
  · intro info parsed
    obtain ⟨objs, accepted, rfl⟩ := Accepted.of_ok parsed
    have short := length_lspName_extracted buffer objs
    refine ⟨fun k o found => accepted.within found, ?_, ?_, ?_⟩
    · rw [MessageInfo.lspNameArray, List.length_append, List.length_replicate]
      omega
    · exact List.mem_append_right _ (List.mem_replicate.mpr ⟨by omega, rfl⟩)
    · intro k _ o _
      exact ⟨_, walkHops_route o.data, rfl, (Route.ofBytes o.data).short⟩

end Rsvp
