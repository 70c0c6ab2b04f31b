import RsvpTe.Builder

/-!
# The packet parser (`rsvp_parser.c`)

`rsvpParsePacket` reads a raw packet that starts with its IP header.  The object pointers of
`struct rsvp_message_info` are one map from `Slot` to the object found, so that the twenty
near-identical cases of the source's `switch` are one dispatch over a table: the slot a class
number selects (`slotOfClass`), the C-Types it accepts (`Slot.cTypeOk`) and the least payload
it needs (`Slot.minLen`).

Every read of the packet goes through `Buffer.read`; a read outside the packet makes the whole
parse a `fault`, so memory safety is the statement that no packet faults.
-/

namespace Rsvp

open Words

/-- The object pointers of `struct rsvp_message_info` that the parser can set. -/
inductive Slot : Type
  | integrity
  | sessV4
  | hopV4
  | timeValues
  | style
  | flowspec
  | errorSpec
  | senderV4
  | tspec
  | adspec
  | label
  | labelReq
  | ero
  | rro
  | sessAttr
  | fastReroute
  | detour
  | helloObj
  deriving DecidableEq, Repr

/-- The `case` labels of the dispatch.  SENDER_TEMPLATE and FILTER_SPEC share one slot. -/
def slotOfClass (classNum : UInt8) : Option Slot :=
  if classNum = classIntegrity then some .integrity
  else if classNum = classSession then some .sessV4
  else if classNum = classHop then some .hopV4
  else if classNum = classTimeValues then some .timeValues
  else if classNum = classStyle then some .style
  else if classNum = classFlowspec then some .flowspec
  else if classNum = classErrorSpec then some .errorSpec
  else if classNum = classSenderTemplate ∨ classNum = classFilterSpec then some .senderV4
  else if classNum = classSenderTspec then some .tspec
  else if classNum = classAdspec then some .adspec
  else if classNum = classLabel then some .label
  else if classNum = classLabelRequest then some .labelReq
  else if classNum = classExplicitRoute then some .ero
  else if classNum = classRecordRoute then some .rro
  else if classNum = classSessionAttrib then some .sessAttr
  else if classNum = classFastReroute then some .fastReroute
  else if classNum = classDetour then some .detour
  else if classNum = classHello then some .helloObj
  else none

/-- The C-Types a case accepts; most cases do not look at it. -/
def Slot.cTypeOk : Slot → UInt8 → Bool
  | .sessV4, c => c = 7
  | .hopV4, c => c = 1
  | .senderV4, c => c = 1 ∨ c = 7
  | .sessAttr, c => c = 7
  | .fastReroute, c => c = 1
  | .detour, c => c = 7
  | .helloObj, c => c = helloCtypeRequest ∨ c = helloCtypeAck
  | _, _ => true

/-- The least payload a case accepts: the size of the structure the pointer is cast to, and
one byte for ERO and RRO (`obj_len > sizeof(struct rsvp_obj_hdr)`). -/
def Slot.minLen : Slot → Nat
  | .integrity => 16
  | .sessV4 => 12
  | .hopV4 => 8
  | .timeValues => 4
  | .style => 4
  | .flowspec => 32
  | .errorSpec => 8
  | .senderV4 => 8
  | .tspec => 32
  | .adspec => 4
  | .label => 4
  | .labelReq => 4
  | .ero => 1
  | .rro => 1
  | .sessAttr => 4
  | .fastReroute => 20
  | .detour => 8
  | .helloObj => 8

/-- An object of a packet: its header fields, where its payload starts in the packet and the
payload itself (`obj_len - 4` bytes). -/
structure Obj : Type where
  classNum : UInt8
  cType : UInt8
  off : Nat
  data : Bytes
  deriving DecidableEq, Repr

/-- The object fills slot `k` if that is still empty. -/
def Obj.fits (o : Obj) (k : Slot) : Bool :=
  slotOfClass o.classNum = some k ∧ k.cTypeOk o.cType ∧ k.minLen ≤ o.data.length

/-- `struct rsvp_message_info`.  `common_hdr` is the header it points to; `ero_len`,
`rro_len` are the payload lengths of the `ero` and `rro` objects; `lsp_name` is the text
before its terminating NUL was added. -/
@[ext] structure MessageInfo : Type where
  commonHdr : CommonHdr
  srcIp : InAddr
  dstIp : InAddr
  key : PathKey
  payload : Nat
  payloadLen : Nat
  objs : Slot → Option Obj
  helloCtype : UInt8
  lspName : Bytes

/-- The name a SESSION_ATTRIBUTE payload yields: `name_length` bytes, clamped to those
present and to the 255 the buffer holds. -/
def sessAttrName (data : Bytes) : Bytes :=
  (data.drop 4).take (min (u8At data 3).toNat 255)

/-- Fill slot `k` with `o`, and copy what the source copies out of the object: the two parts
of the key, the HELLO C-Type and the LSP name. -/
def MessageInfo.store (info : MessageInfo) (k : Slot) (o : Obj) : MessageInfo :=
  let filled := { info with objs := Function.update info.objs k (some o) }
  match k with
  | .sessV4 => { filled with key := { info.key with session := .ofBytes o.data } }
  | .senderV4 => { filled with key := { info.key with sender := .ofBytes o.data } }
  | .helloObj => { filled with helloCtype := o.cType }
  | .sessAttr =>
    if u8At o.data 3 > 0 then { filled with lspName := sessAttrName o.data } else filled
  | _ => filled

/-- The body of the `switch`: an unknown class below 128 rejects the message, a slot already
filled is left alone. -/
def dispatchObject (info : MessageInfo) (o : Obj) : Except RsvpError MessageInfo :=
  match slotOfClass o.classNum with
  | none => if o.classNum < 128 then .error .unknownClass else .ok info
  | some k =>
    if (info.objs k).isSome then .ok info
    else if k.cTypeOk o.cType ∧ k.minLen ≤ o.data.length then .ok (info.store k o)
    else .ok info

/-- What a parse ends in: a result of the C function, or a read outside the packet. -/
inductive ParseResult : Type
  | ok (info : MessageInfo)
  | error (e : RsvpError)
  | fault

/-- The message, when there is one. -/
def ParseResult.toOption : ParseResult → Option MessageInfo
  | .ok info => some info
  | _ => none

theorem ParseResult.ok_of_toOption {result : ParseResult} {info : MessageInfo}
    (some : result.toOption = some info) : result = .ok info := by
  cases result with
  | ok => exact congrArg ParseResult.ok (Option.some.inj some)
  | _ => cases some

theorem ParseResult.exists_ok_of_any {result : ParseResult} {test : MessageInfo → Bool}
    (passed : result.toOption.any test = true) : ∃ info, result = .ok info ∧ test info = true := by
  obtain ⟨info, held, tested⟩ := (Option.any_eq_true _ _).mp passed
  exact ⟨info, ok_of_toOption held, tested⟩

/-- `while (remaining >= sizeof(struct rsvp_obj_hdr))`.  One round consumes at least four
bytes, so `remaining` rounds suffice. -/
def parseObjects (buffer : Bytes) : Nat → Nat → Nat → MessageInfo → ParseResult
  | 0, _, _, info => .ok info
  | fuel + 1, objPtr, remaining, info =>
    if remaining < objHdrLen then .ok info
    else
      match Buffer.read buffer objPtr objHdrLen with
      | none => .fault
      | some hdr =>
        let objLen := (ntohs (u16At hdr 0)).toNat
        if objLen < objHdrLen ∨ objLen > remaining then .error .malformedObj
        else
          match Buffer.read buffer (objPtr + objHdrLen) (objLen - objHdrLen) with
          | none => .fault
          | some data =>
            match dispatchObject info ⟨u8At hdr 2, u8At hdr 3, objPtr + objHdrLen, data⟩ with
            | .error e => .error e
            | .ok info' =>
              let alignedObjLen := rsvpAlign objLen
              if alignedObjLen = 0 then .error .malformedObj
              -- The padding of the last object may leave the message: stop cleanly there.
              else if alignedObjLen > remaining then .ok info'
              else
                parseObjects buffer fuel (objPtr + alignedObjLen) (remaining - alignedObjLen)
                  info'

/-- The objects a message type must carry.  The `sess_v6`, `hop_v6`, `sender_v6` pointers are
never set, so only the IPv4 ones count. -/
def mandatorySlots (msgType : UInt8) : List Slot :=
  if msgType = msgPath then [.sessV4, .senderV4]
  else if msgType = msgResv then [.sessV4, .hopV4, .style]
  else if msgType = msgPathErr then [.sessV4, .errorSpec]
  else if msgType = msgResvErr then [.sessV4, .errorSpec]
  else if msgType = msgPathTear then [.sessV4, .senderV4]
  else if msgType = msgResvTear then [.sessV4, .hopV4]
  else []

/-- The IP header length in bytes: four times the low nibble of the first byte. -/
def ipHdrLen (buffer : Bytes) : Nat := (u8At buffer 0 % 16).toNat * 4

/-- The message information before any object is read. -/
def MessageInfo.ofHeaders (buffer : Bytes) (hdr : CommonHdr) : MessageInfo where
  commonHdr := hdr
  srcIp := u32At buffer 12
  dstIp := u32At buffer 16
  key := .zero
  payload := ipHdrLen buffer + commonHdrLen
  payloadLen := (ntohs hdr.length).toNat - commonHdrLen
  objs := fun _ => none
  helloCtype := 0
  lspName := []

def rsvpParsePacket (buffer : Bytes) : ParseResult :=
  let len := buffer.length
  if len < iphdrLen then .error .bufferTooSmall
  else if ipHdrLen buffer < iphdrLen ∨ ipHdrLen buffer > len then .error .invalidParam
  else if len < ipHdrLen buffer + commonHdrLen then .error .bufferTooSmall
  else
    match Buffer.read buffer (ipHdrLen buffer) commonHdrLen with
    | none => .fault
    | some rsvpHdr =>
      let hdr := CommonHdr.ofBytes rsvpHdr
      let rsvpLen := (ntohs hdr.length).toNat
      if rsvpLen < commonHdrLen then .error .malformedObj
      else if ipHdrLen buffer + rsvpLen > len then .error .bufferTooSmall
      else if hdr.verFlags >>> 4 ≠ rsvpVersion then .error .invalidParam
      else
        match Buffer.read buffer (ipHdrLen buffer) rsvpLen with
        | none => .fault
        | some msg =>
          if hdr.checksum ≠ 0 ∧ rsvpChecksumVerify msg ≠ 0 then .error .checksum
          else
            let info := MessageInfo.ofHeaders buffer hdr
            match parseObjects buffer info.payloadLen info.payload info.payloadLen info with
            | .ok info' =>
              if (mandatorySlots hdr.msgType).all fun k => (info'.objs k).isSome then .ok info'
              else .error .malformedObj
            | r => r

end Rsvp
