import RsvpTe.Netlink

/-!
# The route lookup (`hal_netlink_get_egress_if`)

The lookup sends an `RTM_GETROUTE` and walks over what one `recv` returns.  The interface and the
gateway are kept across the messages of the reply, an error ends the walk, and the first route
after which an interface is known answers it.

`Reply` says what a reply is made of; `lookup_reply` reads the answer off it.
-/

namespace Rsvp

open Words Records

def rtmGetroute : UInt16 := 26

def nlmsgType (nh : Bytes) : UInt16 := u16At nh 4

/-- `NLMSG_OK` and `NLMSG_NEXT` over the first `len` bytes of a buffer. -/
def nlmsgs (buf : Bytes) (len : Nat) : List Bytes := scan 16 nlmsgLen buf len

/-- The request of the lookup; its attribute is laid out in place. -/
def getRouteRequest (pid : UInt32) (dest : InAddr) : Bytes :=
  let req := newRequest ⟨rtmGetroute, nlmFRequest, 1, pid⟩ ⟨afInet, 32, 0, 0, 0, 0⟩ 256
  let start := align (nlmsgLen req)
  setNlmsgLen (Buffer.write req start (rtattr rtaDst (bytes32 dest))) (start + 8)

/-- `ifindex` and `*next_hop`. -/
structure Egress : Type where
  ifindex : UInt32
  nextHop : InAddr
  deriving DecidableEq, Repr

/-- `ifindex >= 0` of an `int`. -/
def Egress.Known (e : Egress) : Prop := e.ifindex.toNat < 2 ^ 31

instance (e : Egress) : Decidable e.Known := inferInstanceAs (Decidable (_ < _))

def egressAttr (e : Egress) (rta : Bytes) : Egress :=
  if rtaType rta = rtaOif then { e with ifindex := u32At rta 4 }
  else if rtaType rta = rtaGateway then { e with nextHop := u32At rta 4 }
  else e

/-- The walk over the messages, and what it leaves in `*next_hop`. -/
def egressWalk (e : Egress) : List Bytes → Option UInt32 × InAddr
  | [] => (none, e.nextHop)
  | nh :: nhs =>
    if nlmsgType nh = nlmsgError then (none, e.nextHop)
    else if nlmsgType nh = rtmNewroute then
      let e := (rtmAttrs nh).foldl egressAttr e
      if e.Known then (some e.ifindex, e.nextHop) else egressWalk e nhs
    else egressWalk e nhs

/-- `hal_netlink_get_egress_if` on a reply of `len` bytes; -1 is `none`. -/
def halNetlinkGetEgressIf (dest : InAddr) (reply : Bytes) (len : Nat) : Option UInt32 × InAddr :=
  egressWalk ⟨0xFFFFFFFF, dest⟩ (nlmsgs reply len)

/-! ## Replies -/

/-- An attribute of a route. -/
structure RtAttr : Type where
  type : UInt16
  data : Bytes
  short : 4 + data.length < 2 ^ 16
  /-- The kernel sends an interface and a gateway as four bytes, and no negative interface. -/
  word : type = rtaOif ∨ type = rtaGateway → data.length = 4
  positive : type = rtaOif → (u32At data 0).toNat < 2 ^ 31

def RtAttr.bytes (a : RtAttr) : Bytes := rtattr a.type a.data

/-- A message of a reply. -/
inductive Reply : Type
  | route (flags : UInt16) (seq pid : UInt32) (rtm : RtMsg) (attrs : List RtAttr)
  | other (hdr : NlmsgHdr) (payload : Bytes)

namespace Reply

def rest : Reply → Bytes
  | route flags seq pid rtm attrs =>
    (NlmsgHdr.mk rtmNewroute flags seq pid).bytes ++ rtm.bytes ++
      (attrs.map RtAttr.bytes).flatMap pad
  | other hdr payload => hdr.bytes ++ payload

def bytes (m : Reply) : Bytes := bytes32 (UInt32.ofNat (4 + m.rest.length)) ++ m.rest

def isError : Reply → Bool
  | route .. => false
  | other hdr _ => hdr.type = nlmsgError

/-- The length fits into its field, and only a route has the type of one. -/
def Formed (m : Reply) : Prop :=
  4 + m.rest.length < 2 ^ 32 ∧ ∀ hdr payload, m = other hdr payload → hdr.type ≠ rtmNewroute

/-- The attributes of a route. -/
def attrs? : Reply → Option (List RtAttr)
  | route _ _ _ _ attrs => some attrs
  | other .. => none

end Reply

/-- The last word of a type. -/
def lastWord (type : UInt16) (attrs : List RtAttr) : Option UInt32 :=
  (attrs.reverse.find? (·.type = type)).map (u32At ·.data 0)

/-- The routes before the first error. -/
def routesOf (reply : List Reply) : List (List RtAttr) :=
  (reply.takeWhile (!·.isError)).filterMap Reply.attrs?

/-- The routes up to the first that has an interface. -/
def routesRead (routes : List (List RtAttr)) : List (List RtAttr) :=
  routes.take ((routes.takeWhile fun attrs => lastWord rtaOif attrs = none).length + 1)

/-! ## One attribute -/

section Attributes

variable {type : UInt16} {attrs : List RtAttr}

theorem lastWord_append (attrs' : List RtAttr) :
    lastWord type (attrs ++ attrs') = (lastWord type attrs').or (lastWord type attrs) := by
  rw [lastWord, List.reverse_append, List.find?_append, Option.map_or]
  rfl

theorem lastWord_singleton (a : RtAttr) :
    lastWord type [a] = if a.type = type then some (u32At a.data 0) else none := by
  rw [lastWord, List.reverse_singleton, List.find?_singleton]
  by_cases same : a.type = type
  · rw [if_pos same, if_pos (decide_eq_true same)]
    rfl
  · rw [if_neg same, if_neg (by simpa using same)]
    rfl

theorem RtAttr.formed (a : RtAttr) : Records.Formed 4 rtaLen a.bytes := formed_rtattr a.short

/-- The word of an attribute is read where `RTA_DATA` points. -/
theorem u32At_data {data : Bytes} (word : data.length = 4) (type : UInt16) (rest : Bytes) :
    u32At (pad (rtattr type data) ++ rest) 4 = u32At data 0 := by
  have whole : bytes32 (u32At data 0) = data := by
    have cut := bytes32_u32At_append (d := data) (i := 0) (by omega)
    rwa [List.drop_zero, Nat.zero_add, List.drop_of_length_le (Nat.le_of_eq word),
      List.append_nil] at cut
  rw [← whole]
  exact (u32At_pad type (u32At data 0) rest).trans (le32_bytes (u32At data 0)).symm

/-- What an attribute changes. -/
def RtAttr.note (e : Egress) (a : RtAttr) : Egress :=
  ⟨(lastWord rtaOif [a]).getD e.ifindex, (lastWord rtaGateway [a]).getD e.nextHop⟩

theorem egressAttr_pad (e : Egress) (a : RtAttr) (rest : Bytes) :
    egressAttr e (pad a.bytes ++ rest) = a.note e := by
  rw [egressAttr, RtAttr.note, RtAttr.bytes, rtaType_pad, lastWord_singleton, lastWord_singleton]
  by_cases oif : a.type = rtaOif
  · have other : a.type ≠ rtaGateway := by
      rw [oif]
      decide
    rw [if_pos oif, if_pos oif, if_neg other, u32At_data (a.word (.inl oif))]
    rfl
  · rw [if_neg oif, if_neg oif]
    by_cases gateway : a.type = rtaGateway
    · rw [if_pos gateway, if_pos gateway, u32At_data (a.word (.inr gateway))]
      rfl
    · rw [if_neg gateway, if_neg gateway]
      rfl

/-- What the attributes of a route change. -/
theorem foldl_note (e : Egress) (attrs : List RtAttr) :
    attrs.foldl RtAttr.note e =
      ⟨(lastWord rtaOif attrs).getD e.ifindex, (lastWord rtaGateway attrs).getD e.nextHop⟩ := by
  induction attrs generalizing e with
  | nil => rfl
  | cons a attrs ih =>
    have split : ∀ type, lastWord type (a :: attrs) =
        (lastWord type attrs).or (lastWord type [a]) := fun type => by
      rw [← List.singleton_append, lastWord_append]
    rw [List.foldl_cons, ih, RtAttr.note, split, split, Option.getD_or, Option.getD_or]

end Attributes

/-! ## The walk -/

/-- The walk over the routes. -/
def walkRoutes (e : Egress) : List (List RtAttr) → Option UInt32 × InAddr
  | [] => (none, e.nextHop)
  | attrs :: routes =>
    let e := attrs.foldl RtAttr.note e
    if e.Known then (some e.ifindex, e.nextHop) else walkRoutes e routes

section Walk

variable {m : Reply} {reply : List Reply} {e : Egress}

theorem Reply.length_bytes (m : Reply) : m.bytes.length = 4 + m.rest.length := by
  rw [bytes, List.length_append, length_bytes32]

theorem Reply.length_rest (m : Reply) : 12 ≤ m.rest.length := by
  cases m with
  | route flags seq pid rtm attrs =>
    rw [rest, List.length_append, List.length_append]
    exact (Nat.le_add_right 12 12).trans (Nat.le_add_right 24 _)
  | other hdr payload =>
    rw [rest, List.length_append]
    exact Nat.le_add_right 12 _

theorem Reply.Formed.nlmsgLen (formed : m.Formed) (rest : Bytes) :
    nlmsgLen (m.bytes ++ rest) = 4 + m.rest.length := by
  rw [bytes, List.append_assoc, nlmsgLen_append, UInt32.toNat_ofNat_of_lt' formed.1]

theorem Reply.Formed.record (formed : m.Formed) : Records.Formed 16 Rsvp.nlmsgLen m.bytes := by
  have long := m.length_rest
  refine ⟨?_, fun rest => ?_⟩
  · rw [length_bytes]
    omega
  · rw [formed.nlmsgLen, length_bytes]

/-- The attributes of a route are found. -/
theorem rtmAttrs_pad {flags : UInt16} {seq pid : UInt32} {rtm : RtMsg} {attrs : List RtAttr}
    (formed : (Reply.route flags seq pid rtm attrs).Formed) (rest : Bytes) :
    ∃ behind, rtmAttrs (pad (Reply.route flags seq pid rtm attrs).bytes ++ rest) =
      suffixes behind (attrs.map RtAttr.bytes) := by
  have length : (Reply.route flags seq pid rtm attrs).rest.length =
      24 + ((attrs.map RtAttr.bytes).flatMap pad).length := by
    rw [Reply.rest, List.length_append]
    rfl
  rw [rtmAttrs, pad, List.append_assoc, formed.nlmsgLen, length]
  generalize List.replicate _ (0 : UInt8) ++ rest = behind
  have payload : ((Reply.route flags seq pid rtm attrs).bytes ++ behind).drop 28 =
      (attrs.map RtAttr.bytes).flatMap pad ++ behind := by
    rw [Reply.bytes, Reply.rest, ← List.append_assoc, List.append_assoc]
    exact List.drop_left' rfl
  rw [payload, ← Nat.add_assoc, Nat.add_sub_cancel_left]
  refine ⟨behind, scan_flatMap_pad (by decide) (fun record member => ?_) behind⟩
  obtain ⟨a, -, rfl⟩ := List.mem_map.mp member
  exact a.formed

theorem nlmsgType_route (flags : UInt16) (seq pid : UInt32) (rtm : RtMsg) (attrs : List RtAttr)
    (rest : Bytes) :
    nlmsgType (pad (Reply.route flags seq pid rtm attrs).bytes ++ rest) = rtmNewroute :=
  le16_bytes rtmNewroute

theorem nlmsgType_other (hdr : NlmsgHdr) (payload rest : Bytes) :
    nlmsgType (pad (Reply.other hdr payload).bytes ++ rest) = hdr.type :=
  le16_bytes hdr.type

/-- The walk over the messages is one over the routes before the first error. -/
theorem egressWalk_suffixes (formed : ∀ m ∈ reply, m.Formed) (e : Egress) (rest : Bytes) :
    egressWalk e (suffixes rest (reply.map Reply.bytes)) = walkRoutes e (routesOf reply) := by
  induction reply generalizing e with
  | nil => rfl
  | cons m reply ih =>
    have here := formed m List.mem_cons_self
    have later := ih fun m' member => formed m' (List.mem_cons_of_mem m member)
    rw [List.map_cons, suffixes]
    cases m with
    | route flags seq pid rtm attrs =>
      obtain ⟨behind, found⟩ := rtmAttrs_pad here
        ((reply.map Reply.bytes).flatMap pad ++ rest)
      rw [egressWalk, nlmsgType_route, if_neg (by decide), if_pos rfl, found,
        foldl_suffixes egressAttr_pad]
      simp only [later]
      rfl
    | other hdr payload =>
      rw [egressWalk, nlmsgType_other]
      by_cases error : hdr.type = nlmsgError
      · have stops : routesOf (.other hdr payload :: reply) = [] := by
          simp [routesOf, Reply.isError, error]
        rw [if_pos error, stops]
        rfl
      · have goes : routesOf (.other hdr payload :: reply) = routesOf reply := by
          rw [routesOf, List.takeWhile_cons_of_pos (by simp [Reply.isError, error]),
            List.filterMap_cons_none rfl]
          rfl
        rw [if_neg error, if_neg (here.2 hdr payload rfl), goes, later]

theorem positive_of_lastWord {attrs : List RtAttr} {word : UInt32}
    (last : lastWord rtaOif attrs = some word) : word.toNat < 2 ^ 31 := by
  obtain ⟨a, found, rfl⟩ := Option.map_eq_some_iff.mp last
  have oif := List.find?_some found
  exact a.positive (of_decide_eq_true oif)

/-- The closed form of the walk. -/
theorem walkRoutes_eq (unknown : ¬ e.Known) (routes : List (List RtAttr)) :
    walkRoutes e routes =
      (routes.findSome? (lastWord rtaOif),
        (lastWord rtaGateway (routesRead routes).flatten).getD e.nextHop) := by
  induction routes generalizing e with
  | nil => rfl
  | cons attrs routes ih =>
    rw [walkRoutes, foldl_note]
    cases last : lastWord rtaOif attrs with
    | none =>
      have read : routesRead (attrs :: routes) = attrs :: routesRead routes := by
        simp [routesRead, last]
      have behind := @ih ⟨e.ifindex, (lastWord rtaGateway attrs).getD e.nextHop⟩ unknown
      refine (if_neg unknown).trans (behind.trans ?_)
      rw [List.findSome?_cons_of_isNone (by simp [last]), read, List.flatten_cons,
        lastWord_append, Option.getD_or]
    | some word =>
      have read : routesRead (attrs :: routes) = [attrs] := by simp [routesRead, last]
      refine (if_pos (positive_of_lastWord last)).trans ?_
      rw [List.findSome?_cons_of_isSome (by simp [last]), read, List.flatten_singleton, last]
      rfl

end Walk

/-! ## The lookup -/

/-- The request asks for the destination. -/
theorem getRouteRequest_read (pid : UInt32) (dest : InAddr) :
    readRouteMessage (sendRequest (getRouteRequest pid dest)) =
      some ⟨⟨rtmGetroute, nlmFRequest, 1, pid⟩, ⟨afInet, 32, 0, 0, 0, 0⟩, [.dst dest]⟩ := by
  have start := RouteMessage.isDraft_newRequest ⟨rtmGetroute, nlmFRequest, 1, pid⟩
    ⟨afInet, 32, 0, 0, 0, 0⟩ 256 (by decide)
  have drafted := start.place (a := .dst dest) rfl (by simp)
  have word : align (4 + 4) = 8 := rfl
  rw [length_rtattr, length_bytes32, word] at drafted
  have sent := drafted.sendRequest
  rw [getRouteRequest]
  refine (congrArg readRouteMessage sent).trans (RouteMessage.readRouteMessage_bytes ?_)
  have used := RouteMessage.length_rest_le
    ((⟨⟨rtmGetroute, nlmFRequest, 1, pid⟩, ⟨afInet, 32, 0, 0, 0, 0⟩, []⟩ : RouteMessage).add
      (.dst dest))
  have single : ((⟨⟨rtmGetroute, nlmFRequest, 1, pid⟩, ⟨afInet, 32, 0, 0, 0, 0⟩, []⟩ :
    RouteMessage).add (.dst dest)).attrs.length = 1 := rfl
  omega

/-- On a reply of any messages, with any attributes in any order, the lookup answers the last
interface of the first route that has one, unless an error comes before it.  The next hop is the last
gateway of the routes up to there, or else the destination.  What lies behind the reply does not
matter. -/
theorem lookup_reply (dest : InAddr) {reply : List Reply} (formed : ∀ m ∈ reply, m.Formed)
    (rest : Bytes) :
    halNetlinkGetEgressIf dest ((reply.map Reply.bytes).flatMap pad ++ rest)
        ((reply.map Reply.bytes).flatMap pad).length =
      ((routesOf reply).findSome? (lastWord rtaOif),
        (lastWord rtaGateway (routesRead (routesOf reply)).flatten).getD dest) := by
  have found : nlmsgs ((reply.map Reply.bytes).flatMap pad ++ rest)
      ((reply.map Reply.bytes).flatMap pad).length = suffixes rest (reply.map Reply.bytes) := by
    refine scan_flatMap_pad (by decide) (fun record member => ?_) rest
    obtain ⟨m, mem, rfl⟩ := List.mem_map.mp member
    exact (formed m mem).record
  rw [halNetlinkGetEgressIf, found, egressWalk_suffixes formed]
  have unknown : 2 ^ 31 ≤ (0xFFFFFFFF : UInt32).toNat := by decide
  exact walkRoutes_eq (Nat.not_lt.mpr unknown) _

/-- A route with its table, a gateway and an interface, as the kernel answers a lookup. -/
def gatewayReply : Reply :=
  .route 0 1 7 ⟨afInet, 32, 254, 3, 0, 1⟩
    [⟨15, [254, 0, 0, 0], by decide, by decide, by decide⟩,
      ⟨rtaGateway, bytes32 0x0100000A, by decide, by decide, by decide⟩,
      ⟨rtaOif, bytes32 3, by decide, by decide, by decide⟩]

theorem lookup_reply_gateway :
    halNetlinkGetEgressIf 0x0500000A (([gatewayReply].map Reply.bytes).flatMap pad ++ [0, 1])
        (([gatewayReply].map Reply.bytes).flatMap pad).length = (some 3, 0x0100000A) := by
  have formed : gatewayReply.Formed := ⟨by decide, fun hdr payload other => by cases other⟩
  refine (lookup_reply 0x0500000A (fun m member => ?_) [0, 1]).trans (by decide)
  rw [List.mem_singleton.mp member]
  exact formed

end Rsvp
