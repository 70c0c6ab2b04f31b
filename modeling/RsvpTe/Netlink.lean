import RsvpTe.Lib.Buffer
import RsvpTe.Lib.Records
import RsvpTe.SignalledLabels

/-!
# Netlink messages (`hal_netlink_linux.c`)

`hal_mpls_install` and `hal_mpls_remove` lay out an `rtnetlink` request in a zeroed object of fixed
size.  `nlmsg_len`, the first word of the object, is how much of it is in use; `addattr_l` appends an
attribute there, or answers -1 if the object is too small, which its callers do not look at.

A message is read with the macros that `hal_netlink_get_egress_if` uses on a reply: `NLMSG_OK` and
`NLMSG_NEXT` over the messages, `RTA_OK` and `RTA_NEXT` over the attributes of each.  The numbers of
the attributes are those of the source file.
-/

namespace Rsvp

open Words Records

/-! ## Numbers -/

def nlmsgError : UInt16 := 2
def rtmNewroute : UInt16 := 24
def rtmDelroute : UInt16 := 25

/-- `NLM_F_REQUEST` and `NLM_F_REQUEST | NLM_F_CREATE | NLM_F_REPLACE`. -/
def nlmFRequest : UInt16 := 0x001
def nlmFReplace : UInt16 := 0x001 ||| 0x400 ||| 0x100

def afInet : UInt8 := 2
def afMpls : UInt8 := 28

def rtaDst : UInt16 := 1
def rtaOif : UInt16 := 4
def rtaGateway : UInt16 := 5
def rtaVia : UInt16 := 18
def rtaNewdst : UInt16 := 19
def rtaEncap : UInt16 := 21
def rtaEncapType : UInt16 := 22

def lwtunnelEncapMpls : UInt16 := 1
def mplsIptunnelDst : UInt16 := 1

/-! ## Layout -/

/-- `struct nlmsghdr` after its length. -/
structure NlmsgHdr : Type where
  type : UInt16
  flags : UInt16
  seq : UInt32
  pid : UInt32
  deriving DecidableEq, Repr

def NlmsgHdr.bytes (hdr : NlmsgHdr) : Bytes :=
  bytes16 hdr.type ++ bytes16 hdr.flags ++ bytes32 hdr.seq ++ bytes32 hdr.pid

/-- `struct rtmsg`; its source length, TOS and flags are never set. -/
structure RtMsg : Type where
  family : UInt8
  dstLen : UInt8
  table : UInt8
  protocol : UInt8
  scope : UInt8
  type : UInt8
  deriving DecidableEq, Repr

def RtMsg.bytes (rtm : RtMsg) : Bytes :=
  [rtm.family, rtm.dstLen, 0, 0, rtm.table, rtm.protocol, rtm.scope, rtm.type] ++ bytes32 0

/-- `struct rtattr` and its payload. -/
def rtattr (type : UInt16) (data : Bytes) : Bytes :=
  bytes16 (UInt16.ofNat (4 + data.length)) ++ (bytes16 type ++ data)

def rtaLen (rta : Bytes) : Nat := (u16At rta 0).toNat

def rtaType (rta : Bytes) : UInt16 := u16At rta 2

def nlmsgLen (nh : Bytes) : Nat := (u32At nh 0).toNat

/-- A zeroed request with its headers: 28 bytes in use, and the `buf` that follows them. -/
def newRequest (hdr : NlmsgHdr) (rtm : RtMsg) (buf : Nat) : Bytes :=
  bytes32 28 ++ (hdr.bytes ++ rtm.bytes ++ List.replicate buf 0)

def setNlmsgLen (n : Bytes) (len : Nat) : Bytes := Buffer.write n 0 (bytes32 (UInt32.ofNat len))

/-- `addattr_l`; `none` is -1. -/
def addattrL (n : Bytes) (maxlen : Nat) (type : UInt16) (data : Bytes) : Option Bytes :=
  let rta := align (nlmsgLen n)
  let len := align (4 + data.length)
  if rta + len > maxlen then none
  else some (setNlmsgLen (Buffer.write n rta (rtattr type data)) (rta + len))

/-- A call of `addattr_l` with the size of the request, whatever it answers. -/
def addattr (n : Bytes) (type : UInt16) (data : Bytes) : Bytes :=
  (addattrL n n.length type data).getD n

/-- The part of the request that `sendto` sends. -/
def sendRequest (n : Bytes) : Bytes := n.take (nlmsgLen n)

/-! ## The requests -/

/-- The ingress route of `hal_mpls_install`.  `RTA_ENCAP` is laid out in place, unchecked. -/
def pushRequest (pid outLabel outIfindex : UInt32) (nextHop : Option InAddr) (dest : InAddr) :
    Bytes :=
  let req := newRequest ⟨rtmNewroute, nlmFReplace, 5, pid⟩ ⟨afInet, 32, 254, 3, 0, 1⟩ 512
  let req := addattr req rtaDst (bytes32 dest)
  let req := addattr req rtaOif (bytes32 outIfindex)
  let req :=
    match routeHop nextHop with
    | some hop => addattr req rtaGateway (bytes32 hop)
    | none => req
  let req := addattr req rtaEncapType (bytes16 lwtunnelEncapMpls)
  let encap := rtattr rtaEncap (rtattr mplsIptunnelDst (bytes32 (labelStackEntry outLabel)))
  let start := align (nlmsgLen req)
  setNlmsgLen (Buffer.write req start encap) (start + align encap.length)

/-- The swap of `hal_mpls_install`. -/
def swapRequest (pid inLabel outLabel outIfindex : UInt32) (nextHop : Option InAddr) : Bytes :=
  let req := newRequest ⟨rtmNewroute, nlmFReplace, 2, pid⟩ ⟨afMpls, 20, 254, 3, 0, 1⟩ 512
  let req := addattr req rtaDst (bytes32 (labelStackEntry inLabel))
  let req := addattr req rtaOif (bytes32 outIfindex)
  let req :=
    if outLabel ≠ 0 then addattr req rtaNewdst (bytes32 (labelStackEntry outLabel)) else req
  match routeHop nextHop with
  | some hop => addattr req rtaVia (bytes16 afInet.toUInt16 ++ bytes32 hop)
  | none => req

/-- What `hal_mpls_install` sends. -/
def halMplsInstallMessage (pid inLabel outLabel outIfindex : UInt32)
    (nextHop dest : Option InAddr) : Option Bytes :=
  if inLabel = 0 then dest.map fun dest => sendRequest (pushRequest pid outLabel outIfindex nextHop dest)
  else some (sendRequest (swapRequest pid inLabel outLabel outIfindex nextHop))

/-- What `hal_mpls_remove` sends. -/
def halMplsRemoveMessage (pid inLabel : UInt32) (dest : Option InAddr) : Option Bytes :=
  if inLabel = 0 then
    dest.map fun dest =>
      sendRequest (addattr
        (newRequest ⟨rtmDelroute, nlmFRequest, 4, pid⟩ ⟨afInet, 32, 254, 3, 0, 1⟩ 256)
        rtaDst (bytes32 dest))
  else
    some (sendRequest (addattr
      (newRequest ⟨rtmDelroute, nlmFRequest, 3, pid⟩ ⟨afMpls, 20, 0, 0, 0, 0⟩ 256)
      rtaDst (bytes32 (labelStackEntry inLabel))))

/-! ## Reading a message -/

/-- `RTM_RTA` and `RTM_PAYLOAD`: the attributes behind a `struct rtmsg`. -/
def rtmAttrs (nh : Bytes) : List Bytes := scan 4 rtaLen (nh.drop 28) (nlmsgLen nh - 28)

/-- The label stack entry in an `RTA_ENCAP`. -/
def readEncap (rta : Bytes) : Option UInt32 :=
  match scan 4 rtaLen (rta.drop 4) (rtaLen rta - 4) with
  | [dst] => if rtaType dst = mplsIptunnelDst ∧ rtaLen dst = 8 then some (u32At dst 4) else none
  | _ => none

def readRouteAttr (rta : Bytes) : Option RouteAttr :=
  if rtaType rta = rtaEncap then (readEncap rta).map .encap
  else if rtaType rta = rtaEncapType then
    if rtaLen rta = 6 ∧ u16At rta 4 = lwtunnelEncapMpls then some .encapTypeMpls else none
  else if rtaType rta = rtaVia then
    if rtaLen rta = 10 ∧ u16At rta 4 = afInet.toUInt16 then some (.via (u32At rta 6)) else none
  else if rtaLen rta = 8 then
    if rtaType rta = rtaDst then some (.dst (u32At rta 4))
    else if rtaType rta = rtaOif then some (.oif (u32At rta 4))
    else if rtaType rta = rtaGateway then some (.gateway (u32At rta 4))
    else if rtaType rta = rtaNewdst then some (.newdst (u32At rta 4))
    else none
  else none

/-- A route message. -/
structure RouteMessage : Type where
  hdr : NlmsgHdr
  rtm : RtMsg
  attrs : List RouteAttr
  deriving DecidableEq, Repr

def readNlmsgHdr (nh : Bytes) : NlmsgHdr := ⟨u16At nh 4, u16At nh 6, u32At nh 8, u32At nh 12⟩

def readRtMsg (nh : Bytes) : RtMsg :=
  ⟨u8At nh 16, u8At nh 17, u8At nh 20, u8At nh 21, u8At nh 22, u8At nh 23⟩

/-- The message that takes up a buffer. -/
def readRouteMessage (nh : Bytes) : Option RouteMessage :=
  if nlmsgLen nh = nh.length ∧ 28 ≤ nh.length then
    ((rtmAttrs nh).mapM readRouteAttr).map fun attrs => ⟨readNlmsgHdr nh, readRtMsg nh, attrs⟩
  else none

/-! ## Laying out a request -/

section Layout

/-- A request with `rest` behind its length, and room for more. -/
def draft (rest : Bytes) (room : Nat) : Bytes :=
  bytes32 (UInt32.ofNat (4 + rest.length)) ++ (rest ++ List.replicate room 0)

variable {rest data : Bytes} {room : Nat} {type : UInt16}

theorem length_draft : (draft rest room).length = 4 + rest.length + room := by
  simp only [draft, List.length_append, length_bytes32, List.length_replicate]
  omega

theorem nlmsgLen_append (len : UInt32) (rest : Bytes) :
    nlmsgLen (bytes32 len ++ rest) = len.toNat :=
  congrArg UInt32.toNat (le32_bytes len)

theorem setNlmsgLen_append (len : UInt32) (rest : Bytes) (len' : Nat) :
    setNlmsgLen (bytes32 len ++ rest) len' = bytes32 (UInt32.ofNat len') ++ rest := by
  have written : Buffer.write ([] ++ bytes32 len ++ rest) 0 (bytes32 (UInt32.ofNat len')) =
      [] ++ bytes32 (UInt32.ofNat len') ++ rest := Buffer.write_append rfl rfl
  rwa [List.nil_append, List.nil_append] at written

theorem nlmsgLen_draft (small : 4 + rest.length + room < 2 ^ 32) :
    nlmsgLen (draft rest room) = 4 + rest.length := by
  rw [draft, nlmsgLen_append, UInt32.toNat_ofNat_of_lt' (Nat.lt_of_le_of_lt (Nat.le_add_right _ _) small)]

theorem length_rtattr : (rtattr type data).length = 4 + data.length := by
  simp only [rtattr, List.length_append, length_bytes16]
  omega

/-- Writing an attribute where the message ends. -/
theorem write_draft (short : align (4 + data.length) ≤ room) :
    setNlmsgLen (Buffer.write (draft rest room) (4 + rest.length) (rtattr type data))
        (4 + rest.length + align (4 + data.length)) =
      draft (rest ++ pad (rtattr type data)) (room - align (4 + data.length)) := by
  have le := le_align (4 + data.length)
  have filled : Buffer.write (draft rest room) (4 + rest.length) (rtattr type data) =
      bytes32 (UInt32.ofNat (4 + rest.length)) ++ rest ++ rtattr type data ++
        List.replicate (room - (4 + data.length)) 0 := by
    rw [draft, ← List.append_assoc, show List.replicate room (0 : UInt8) =
      List.replicate (4 + data.length) 0 ++ List.replicate (room - (4 + data.length)) 0 by
        rw [List.replicate_append_replicate, Nat.add_sub_cancel' (by omega)], ← List.append_assoc]
    refine Buffer.write_append ?_ ?_
    · rw [List.length_append, length_bytes32]
    · rw [List.length_replicate, length_rtattr]
  have padding : List.replicate (room - (4 + data.length)) (0 : UInt8) =
      List.replicate (align (4 + data.length) - (4 + data.length)) 0 ++
        List.replicate (room - align (4 + data.length)) 0 := by
    rw [List.replicate_append_replicate]
    congr 1
    omega
  rw [filled, List.append_assoc, List.append_assoc, setNlmsgLen_append, padding, draft,
    List.length_append, length_pad, length_rtattr, pad, length_rtattr, Nat.add_assoc]
  simp only [List.append_assoc]

theorem sendRequest_draft (small : 4 + rest.length + room < 2 ^ 32) :
    sendRequest (draft rest room) = bytes32 (UInt32.ofNat (4 + rest.length)) ++ rest := by
  rw [sendRequest, nlmsgLen_draft small, draft, ← List.append_assoc]
  refine List.take_left' ?_
  rw [List.length_append, length_bytes32]

end Layout

/-! ## The layout of a message -/

def RouteAttr.bytes : RouteAttr → Bytes
  | dst word => rtattr rtaDst (bytes32 word)
  | oif ifindex => rtattr rtaOif (bytes32 ifindex)
  | gateway addr => rtattr rtaGateway (bytes32 addr)
  | encapTypeMpls => rtattr rtaEncapType (bytes16 lwtunnelEncapMpls)
  | encap entry => rtattr rtaEncap (rtattr mplsIptunnelDst (bytes32 entry))
  | newdst entry => rtattr rtaNewdst (bytes32 entry)
  | via addr => rtattr rtaVia (bytes16 afInet.toUInt16 ++ bytes32 addr)

theorem RouteAttr.length_bytes (a : RouteAttr) : 6 ≤ a.bytes.length ∧ a.bytes.length ≤ 12 := by
  cases a <;> simp [bytes, length_rtattr]

theorem RouteAttr.align_length_bytes (a : RouteAttr) : align a.bytes.length ≤ 12 := by
  have bound := a.length_bytes
  rw [align]
  omega

namespace RouteMessage

/-- What follows the length of a message. -/
def rest (m : RouteMessage) : Bytes :=
  m.hdr.bytes ++ m.rtm.bytes ++ (m.attrs.map RouteAttr.bytes).flatMap pad

def bytes (m : RouteMessage) : Bytes := bytes32 (UInt32.ofNat (4 + m.rest.length)) ++ m.rest

def add (m : RouteMessage) (a : RouteAttr) : RouteMessage := { m with attrs := m.attrs ++ [a] }

variable {m : RouteMessage} {room : Nat}

theorem length_rest (m : RouteMessage) :
    m.rest.length = 24 + ((m.attrs.map RouteAttr.bytes).flatMap pad).length := by
  rw [rest, List.length_append]
  rfl

theorem length_bytes (m : RouteMessage) : m.bytes.length = 4 + m.rest.length := by
  rw [bytes, List.length_append, length_bytes32]

theorem align_rest (m : RouteMessage) : align (4 + m.rest.length) = 4 + m.rest.length := by
  rw [length_rest, ← Nat.add_assoc, align_add rfl, length_flatMap_pad]

theorem rest_add (m : RouteMessage) (a : RouteAttr) : (m.add a).rest = m.rest ++ pad a.bytes := by
  rw [rest, rest, add, List.map_append, List.flatMap_append, List.map_singleton,
    List.flatMap_singleton, List.append_assoc]
  simp only [List.append_assoc]

theorem length_rest_le (m : RouteMessage) : m.rest.length ≤ 24 + 12 * m.attrs.length := by
  have each : ∀ attrs : List RouteAttr,
      ((attrs.map RouteAttr.bytes).flatMap pad).length ≤ 12 * attrs.length := by
    intro attrs
    induction attrs with
    | nil => exact Nat.le_refl 0
    | cons a attrs ih =>
      have bound := a.align_length_bytes
      rw [List.map_cons, List.flatMap_cons, List.length_append, length_pad, List.length_cons]
      omega
  rw [length_rest]
  exact Nat.add_le_add_left (each m.attrs) 24

/-- A request that holds the message so far. -/
def IsDraft (m : RouteMessage) (req : Bytes) (size : Nat) : Prop :=
  req = draft m.rest (size - (4 + m.rest.length)) ∧ 4 + m.rest.length ≤ size ∧ size < 2 ^ 16

theorem isDraft_newRequest (hdr : NlmsgHdr) (rtm : RtMsg) (buf : Nat) (small : 28 + buf < 2 ^ 16) :
    (⟨hdr, rtm, []⟩ : RouteMessage).IsDraft (newRequest hdr rtm buf) (28 + buf) := by
  refine ⟨?_, Nat.le_add_right 28 buf, small⟩
  have room : 28 + buf - 28 = buf := Nat.add_sub_cancel_left 28 buf
  change _ = draft _ (28 + buf - 28)
  rw [room]
  rfl

variable {req : Bytes} {size : Nat} {a : RouteAttr} {type : UInt16} {data : Bytes}

/-- An attribute is written where the message ends. -/
theorem IsDraft.place (holds : m.IsDraft req size) (is : a.bytes = rtattr type data)
    (fits : 40 + 12 * m.attrs.length ≤ size) :
    (m.add a).IsDraft (setNlmsgLen (Buffer.write req (align (nlmsgLen req)) (rtattr type data))
      (align (nlmsgLen req) + align (rtattr type data).length)) size := by
  obtain ⟨rfl, le, small⟩ := holds
  have used := m.length_rest_le
  have bound := a.align_length_bytes
  have length : (m.add a).rest.length = m.rest.length + align a.bytes.length := by
    rw [rest_add, List.length_append, length_pad]
  rw [is, length_rtattr] at bound length
  refine ⟨?_, by omega, small⟩
  rw [nlmsgLen_draft (by omega), m.align_rest, length_rtattr, write_draft (by omega), rest_add, is]
  congr 1
  rw [← is, ← rest_add]
  omega

theorem IsDraft.length_eq (holds : m.IsDraft req size) : req.length = size := by
  obtain ⟨rfl, le, -⟩ := holds
  rw [length_draft, Nat.add_sub_cancel' le]

/-- An attribute that fits is not dropped. -/
theorem IsDraft.addattr (holds : m.IsDraft req size) (is : a.bytes = rtattr type data)
    (fits : 40 + 12 * m.attrs.length ≤ size) : (m.add a).IsDraft (addattr req type data) size := by
  have placed := holds.place is fits
  have used := m.length_rest_le
  have bound := a.align_length_bytes
  rw [is] at bound
  have len : nlmsgLen req = 4 + m.rest.length := by
    obtain ⟨rfl, le, small⟩ := holds
    exact nlmsgLen_draft (by omega)
  rw [length_rtattr] at placed bound
  rwa [Rsvp.addattr, addattrL, if_neg, Option.getD_some]
  rw [len, m.align_rest, holds.length_eq]
  omega

theorem IsDraft.sendRequest (holds : m.IsDraft req size) : sendRequest req = m.bytes := by
  obtain ⟨rfl, le, small⟩ := holds
  exact sendRequest_draft (by omega)

end RouteMessage

/-! ## Reading back -/

theorem formed_rtattr {type : UInt16} {data : Bytes} (short : 4 + data.length < 2 ^ 16) :
    Formed 4 rtaLen (rtattr type data) := by
  have length : (rtattr type data).length = 4 + data.length := length_rtattr
  refine ⟨by omega, fun rest => ?_⟩
  rw [length]
  exact (congrArg UInt16.toNat (le16_bytes _)).trans (UInt16.toNat_ofNat_of_lt' short)

theorem RouteAttr.formed (a : RouteAttr) : Formed 4 rtaLen a.bytes := by
  cases a <;> exact formed_rtattr (by simp [length_rtattr])

theorem rtaType_pad (type : UInt16) (data rest : Bytes) :
    rtaType (pad (rtattr type data) ++ rest) = type := le16_bytes type

theorem rtaLen_pad {type : UInt16} {data : Bytes} (short : 4 + data.length < 2 ^ 16)
    (rest : Bytes) : rtaLen (pad (rtattr type data) ++ rest) = 4 + data.length := by
  rw [pad, List.append_assoc, (formed_rtattr short).length, length_rtattr]

/-- A payload of four bytes. -/
theorem u32At_pad (type : UInt16) (word : UInt32) (rest : Bytes) :
    u32At (pad (rtattr type (bytes32 word)) ++ rest) 4 = word := le32_bytes word

/-- A payload of six bytes. -/
theorem u16At_pad_via (type half : UInt16) (word : UInt32) (rest : Bytes) :
    u16At (pad (rtattr type (bytes16 half ++ bytes32 word)) ++ rest) 4 = half ∧
      u32At (pad (rtattr type (bytes16 half ++ bytes32 word)) ++ rest) 6 = word :=
  ⟨le16_bytes half, le32_bytes word⟩

theorem readEncap_pad (entry : UInt32) (rest : Bytes) :
    readEncap (pad (rtattr rtaEncap (rtattr mplsIptunnelDst (bytes32 entry))) ++ rest) =
      some entry := by
  have inner : pad (rtattr mplsIptunnelDst (bytes32 entry)) =
      rtattr mplsIptunnelDst (bytes32 entry) :=
    pad_of_aligned (by simp [length_rtattr, align])
  have outer : pad (rtattr rtaEncap (rtattr mplsIptunnelDst (bytes32 entry))) =
      rtattr rtaEncap (rtattr mplsIptunnelDst (bytes32 entry)) :=
    pad_of_aligned (by simp [length_rtattr, align])
  have nested : scan 4 rtaLen ([rtattr mplsIptunnelDst (bytes32 entry)].flatMap pad ++ rest)
      ([rtattr mplsIptunnelDst (bytes32 entry)].flatMap pad).length =
        suffixes rest [rtattr mplsIptunnelDst (bytes32 entry)] := by
    refine scan_flatMap_pad (by decide) (fun record member => ?_) rest
    rw [List.mem_singleton.mp member]
    exact formed_rtattr (by simp)
  rw [List.flatMap_singleton, inner] at nested
  have payload : (pad (rtattr rtaEncap (rtattr mplsIptunnelDst (bytes32 entry))) ++ rest).drop 4 =
      rtattr mplsIptunnelDst (bytes32 entry) ++ rest := by
    rw [outer]
    rfl
  have len : rtaLen (pad (rtattr rtaEncap (rtattr mplsIptunnelDst (bytes32 entry))) ++ rest) - 4 =
      (rtattr mplsIptunnelDst (bytes32 entry)).length := by
    rw [rtaLen_pad (by simp [length_rtattr]), Nat.add_sub_cancel_left]
  rw [readEncap, payload, len, nested, suffixes]
  simp only [suffixes]
  rw [rtaType_pad, rtaLen_pad (by simp), u32At_pad]
  rfl

/-- An attribute is read back, whatever follows it. -/
theorem readRouteAttr_pad (a : RouteAttr) (rest : Bytes) :
    readRouteAttr (pad a.bytes ++ rest) = some a := by
  cases a with
  | encap entry =>
    rw [readRouteAttr, RouteAttr.bytes, rtaType_pad, if_pos rfl, readEncap_pad]
    rfl
  | via addr =>
    have payload := u16At_pad_via rtaVia afInet.toUInt16 addr rest
    rw [readRouteAttr, RouteAttr.bytes, rtaType_pad, rtaLen_pad (by simp), payload.1, payload.2]
    rfl
  | encapTypeMpls =>
    have payload : u16At (pad (rtattr rtaEncapType (bytes16 lwtunnelEncapMpls)) ++ rest) 4 =
      lwtunnelEncapMpls := le16_bytes _
    rw [readRouteAttr, RouteAttr.bytes, rtaType_pad, rtaLen_pad (by simp), payload]
    rfl
  | _ =>
    rw [readRouteAttr, RouteAttr.bytes, rtaType_pad, rtaLen_pad (by simp), u32At_pad]
    rfl

namespace RouteMessage

theorem bytes_eq (m : RouteMessage) :
    m.bytes = bytes32 (UInt32.ofNat (4 + m.rest.length)) ++ m.hdr.bytes ++ m.rtm.bytes ++
      (m.attrs.map RouteAttr.bytes).flatMap pad := by
  rw [bytes]
  conv_lhs => rw [rest]
  simp only [List.append_assoc, rest]

theorem readNlmsgHdr_bytes (m : RouteMessage) : readNlmsgHdr m.bytes = m.hdr := by
  change (⟨le16 _ _, le16 _ _, le32 _ _ _ _, le32 _ _ _ _⟩ : NlmsgHdr) = _
  exact congr (congr (congr (congrArg NlmsgHdr.mk (le16_bytes _)) (le16_bytes _)) (le32_bytes _))
    (le32_bytes _)

theorem readRtMsg_bytes (m : RouteMessage) : readRtMsg m.bytes = m.rtm := rfl

/-- A message is read back. -/
theorem readRouteMessage_bytes {m : RouteMessage} (small : 4 + m.rest.length < 2 ^ 32) :
    readRouteMessage m.bytes = some m := by
  have len : nlmsgLen m.bytes = m.bytes.length := by
    rw [length_bytes, bytes, nlmsgLen_append, UInt32.toNat_ofNat_of_lt' small]
  have length : m.bytes.length = 28 + ((m.attrs.map RouteAttr.bytes).flatMap pad).length := by
    rw [length_bytes, length_rest]
    omega
  have found : rtmAttrs m.bytes = suffixes [] (m.attrs.map RouteAttr.bytes) := by
    have behind : m.bytes.drop 28 = (m.attrs.map RouteAttr.bytes).flatMap pad ++ [] := by
      rw [bytes_eq, List.append_nil]
      exact List.drop_left' rfl
    rw [rtmAttrs, behind, len, length, Nat.add_sub_cancel_left]
    refine scan_flatMap_pad (by decide) (fun record member => ?_) []
    obtain ⟨a, -, rfl⟩ := List.mem_map.mp member
    exact a.formed
  rw [readRouteMessage, if_pos ⟨len, by omega⟩, found, mapM_suffixes readRouteAttr_pad,
    readNlmsgHdr_bytes, readRtMsg_bytes]
  rfl

end RouteMessage

/-! ## The requests on the wire -/

/-- The route that `hal_mpls_remove` names. -/
def halMplsRemoveRequest (inLabel : UInt32) (dest : Option InAddr) : Option RouteRequest :=
  if inLabel = 0 then dest.map fun dest => ⟨.inet, 32, [.dst dest]⟩
  else some ⟨.mpls, 20, [.dst (labelStackEntry inLabel)]⟩

namespace RouteRequest

/-- The message that installs a route. -/
def install (pid : UInt32) (request : RouteRequest) : RouteMessage :=
  match request.family with
  | .inet =>
    ⟨⟨rtmNewroute, nlmFReplace, 5, pid⟩, ⟨afInet, .ofNat request.dstLen, 254, 3, 0, 1⟩, request.attrs⟩
  | .mpls =>
    ⟨⟨rtmNewroute, nlmFReplace, 2, pid⟩, ⟨afMpls, .ofNat request.dstLen, 254, 3, 0, 1⟩, request.attrs⟩

/-- The message that removes a route. -/
def remove (pid : UInt32) (request : RouteRequest) : RouteMessage :=
  match request.family with
  | .inet =>
    ⟨⟨rtmDelroute, nlmFRequest, 4, pid⟩, ⟨afInet, .ofNat request.dstLen, 254, 3, 0, 1⟩, request.attrs⟩
  | .mpls =>
    ⟨⟨rtmDelroute, nlmFRequest, 3, pid⟩, ⟨afMpls, .ofNat request.dstLen, 0, 0, 0, 0⟩, request.attrs⟩

end RouteRequest

section Requests

open RouteMessage

variable {pid inLabel outLabel outIfindex : UInt32} {nextHop dest : Option InAddr}

theorem pushRequest_isDraft (dest : InAddr) :
    ∃ request, halMplsRequest 0 outLabel outIfindex nextHop (some dest) = some request ∧
      (request.install pid).IsDraft (pushRequest pid outLabel outIfindex nextHop dest) 540 := by
  refine ⟨_, rfl, ?_⟩
  have start := isDraft_newRequest ⟨rtmNewroute, nlmFReplace, 5, pid⟩ ⟨afInet, 32, 254, 3, 0, 1⟩
    512 (by decide)
  have first := start.addattr (a := .dst dest) rfl (by simp)
  have second := first.addattr (a := .oif outIfindex) rfl (by simp [add])
  dsimp only [pushRequest]
  cases routeHop nextHop with
  | none =>
    have third := second.addattr (a := .encapTypeMpls) rfl (by simp [add])
    exact third.place (a := .encap (labelStackEntry outLabel)) rfl (by simp [add])
  | some hop =>
    have third := second.addattr (a := .gateway hop) rfl (by simp [add])
    have fourth := third.addattr (a := .encapTypeMpls) rfl (by simp [add])
    exact fourth.place (a := .encap (labelStackEntry outLabel)) rfl (by simp [add])

theorem swapRequest_isDraft (label : inLabel ≠ 0) :
    ∃ request, halMplsRequest inLabel outLabel outIfindex nextHop dest = some request ∧
      (request.install pid).IsDraft (swapRequest pid inLabel outLabel outIfindex nextHop) 540 := by
  refine ⟨_, if_neg label, ?_⟩
  have start := isDraft_newRequest ⟨rtmNewroute, nlmFReplace, 2, pid⟩ ⟨afMpls, 20, 254, 3, 0, 1⟩
    512 (by decide)
  have first := start.addattr (a := .dst (labelStackEntry inLabel)) rfl (by simp)
  have second := first.addattr (a := .oif outIfindex) rfl (by simp [add])
  dsimp only [swapRequest]
  by_cases bare : outLabel ≠ 0
  · have third := second.addattr (a := .newdst (labelStackEntry outLabel)) rfl (by simp [add])
    rw [if_pos bare, if_pos bare]
    cases routeHop nextHop with
    | none => exact third
    | some hop => exact third.addattr (a := .via hop) rfl (by simp [add])
  · rw [if_neg bare, if_neg bare]
    cases routeHop nextHop with
    | none => exact second
    | some hop => exact second.addattr (a := .via hop) rfl (by simp [add])

theorem halMplsInstallMessage_eq :
    halMplsInstallMessage pid inLabel outLabel outIfindex nextHop dest =
      (halMplsRequest inLabel outLabel outIfindex nextHop dest).map fun request =>
        (request.install pid).bytes := by
  rw [halMplsInstallMessage]
  by_cases push : inLabel = 0
  · subst push
    rw [if_pos rfl]
    cases dest with
    | none => rfl
    | some dest =>
      obtain ⟨request, made, drafted⟩ := @pushRequest_isDraft pid outLabel outIfindex nextHop dest
      rw [made, Option.map_some, Option.map_some, drafted.sendRequest]
  · obtain ⟨request, made, drafted⟩ := @swapRequest_isDraft pid inLabel outLabel outIfindex nextHop
      dest push
    rw [if_neg push, made, Option.map_some, drafted.sendRequest]

theorem halMplsRemoveMessage_eq :
    halMplsRemoveMessage pid inLabel dest =
      (halMplsRemoveRequest inLabel dest).map fun request => (request.remove pid).bytes := by
  rw [halMplsRemoveMessage, halMplsRemoveRequest]
  split
  · rw [Option.map_map]
    congr 1
    funext dest
    have start := isDraft_newRequest ⟨rtmDelroute, nlmFRequest, 4, pid⟩ ⟨afInet, 32, 254, 3, 0, 1⟩
      256 (by decide)
    exact (start.addattr (a := .dst dest) rfl (by simp)).sendRequest
  · have start := isDraft_newRequest ⟨rtmDelroute, nlmFRequest, 3, pid⟩ ⟨afMpls, 20, 0, 0, 0, 0⟩
      256 (by decide)
    exact congrArg some
      (start.addattr (a := .dst (labelStackEntry inLabel)) rfl (by simp)).sendRequest

/-- A request has at most five attributes, so that it fits into the smaller object. -/
theorem halMplsRequest_short {request : RouteRequest}
    (made : halMplsRequest inLabel outLabel outIfindex nextHop dest = some request) :
    request.attrs.length ≤ 5 := by
  have hop : ∀ f : InAddr → RouteAttr, ((routeHop nextHop).map f).toList.length ≤ 1 := by
    intro f
    cases routeHop nextHop <;> simp
  rw [halMplsRequest] at made
  split at made
  · obtain ⟨d, -, rfl⟩ := Option.map_eq_some_iff.mp made
    have gateway := hop .gateway
    simp only [List.length_append, List.length_cons, List.length_nil]
    omega
  · cases made
    have via := hop .via
    split
    all_goals
      simp only [List.length_append, List.length_cons, List.length_nil]
      omega

end Requests

/-- What `hal_mpls_install` and `hal_mpls_remove` hand to the kernel is read as the route that they
were called for: every attribute has found room, the length in the header is that of the message, and the
attribute that is laid out unchecked stays inside the object. -/
theorem routeRequests_read (pid inLabel outLabel outIfindex : UInt32) (nextHop dest : Option InAddr) :
    (halMplsInstallMessage pid inLabel outLabel outIfindex nextHop dest).map readRouteMessage =
        (halMplsRequest inLabel outLabel outIfindex nextHop dest).map
          (fun request => some (request.install pid)) ∧
      (halMplsRemoveMessage pid inLabel dest).map readRouteMessage =
        (halMplsRemoveRequest inLabel dest).map (fun request => some (request.remove pid)) ∧
      ∀ dest, (pushRequest pid outLabel outIfindex nextHop dest).length = 540 := by
  have installed : ∀ request, halMplsRequest inLabel outLabel outIfindex nextHop dest = some request →
      readRouteMessage (request.install pid).bytes = some (request.install pid) := by
    intro request made
    have short := halMplsRequest_short made
    have used := (request.install pid).length_rest_le
    have same : (request.install pid).attrs = request.attrs := by
      rw [RouteRequest.install]
      split <;> rfl
    rw [same] at used
    exact RouteMessage.readRouteMessage_bytes (by omega)
  have removed : ∀ request, halMplsRemoveRequest inLabel dest = some request →
      readRouteMessage (request.remove pid).bytes = some (request.remove pid) := by
    intro request made
    have used := (request.remove pid).length_rest_le
    have single : (request.remove pid).attrs.length = 1 := by
      rw [halMplsRemoveRequest] at made
      split at made
      · obtain ⟨d, -, rfl⟩ := Option.map_eq_some_iff.mp made
        rfl
      · cases made
        rfl
    exact RouteMessage.readRouteMessage_bytes (by omega)
  rw [halMplsInstallMessage_eq, halMplsRemoveMessage_eq, Option.map_map, Option.map_map]
  refine ⟨Option.map_congr installed, Option.map_congr removed, fun dest => ?_⟩
  obtain ⟨request, -, drafted⟩ := @pushRequest_isDraft pid outLabel outIfindex nextHop dest
  exact drafted.length_eq

end Rsvp
