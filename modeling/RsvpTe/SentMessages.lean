import RsvpTe.HelloAdjacency
import RsvpTe.Messages

/-!
# Emitted messages

A `Message` is a message of one of the senders: its builder calls in the order of the source and the
buffer they write to.  No call fails for lack of space (`Message.hasRoom`), and the parser accepts
the packet and finds the objects the handler asks for (`Message.accepted`).
-/

namespace Rsvp

open Words

/-! ## Builder calls -/

/-- None of the calls fails for lack of space. -/
def Builder.HasRoom : Builder → List (Builder → Int × Builder) → Prop
  | _, [] => True
  | b, f :: calls => (f b).1 ≠ -1 ∧ (b.call f).HasRoom calls

/-- The call `f` adds at most one object, and fails for lack of space only where that does. -/
structure Adds (f : Builder → Int × Builder) (calls : List AddCall) : Prop where
  call : ∀ b : Builder, b.call f = b.addAll calls
  full : ∀ b : Builder, (f b).1 = -1 → ∃ c, calls = [c] ∧ (b.add c).1 ≠ 0

theorem Adds.one {f : Builder → Int × Builder} {c : AddCall} (same : ∀ b, f b = b.add c) :
    Adds f [c] where
  call := fun b => congrArg Prod.snd (same b)
  full := by
    intro b full
    rw [same] at full
    exact ⟨c, rfl, by rw [full]; decide⟩

theorem Adds.route (classNum : UInt8) (hops : List EroSubobj) :
    Adds (rsvpBuilderAddRoute · classNum hops) (routeCalls classNum hops) where
  call := fun b => call_route b classNum hops
  full := by
    intro b full
    unfold rsvpBuilderAddRoute at full
    unfold routeCalls
    split at full
    · exact absurd full (show ¬ (-3 : Int) = -1 by decide)
    · rename_i some
      rw [if_neg some]
      refine ⟨_, rfl, ?_⟩
      rw [Builder.add, full]
      decide

theorem Adds.frr (psb : PsbState) :
    Adds (fun b =>
      if psb.frrMode ≠ .none ∧ psb.isBypassTunnel = false then
        rsvpBuilderAddFastReroute b psb.setupPrio psb.holdingPrio 32 frrFlagFacility
          (Binary32.ofUInt32 psb.frrBandwidth)
      else (0, b)) (frrCalls psb) := by
  unfold frrCalls
  split
  · exact .one fun _ => rfl
  · exact ⟨fun _ => rfl, fun _ full => absurd full (show ¬ (0 : Int) = -1 by decide)⟩

theorem adds_foldl {fs : List (Builder → Int × Builder)} {calls : List (List AddCall)}
    (adds : List.Forall₂ Adds fs calls) (b : Builder) :
    fs.foldl Builder.call b = b.addAll calls.flatten := by
  induction adds generalizing b with
  | nil => rfl
  | cons first _ ih =>
    rw [List.foldl_cons, List.flatten_cons, Builder.addAll_append, ih, first.call]

/-- Calls whose objects fit together have room. -/
theorem Builder.Image.hasRoom {b : Builder} {msgType ttl : UInt8} {done : List AddCall}
    (image : b.Image msgType ttl done) {fs : List (Builder → Int × Builder)}
    {calls : List (List AddCall)} (adds : List.Forall₂ Adds fs calls)
    (fits : b.offset + spans calls.flatten ≤ b.size) : b.HasRoom fs := by
  induction adds generalizing b done with
  | nil => trivial
  | @cons f cs fs calls first _ ih =>
    rw [List.flatten_cons, spans_append] at fits
    have own : b.added cs = cs := image.added_eq (by omega)
    obtain ⟨image', size⟩ := image.addAll cs
    rw [own] at image'
    have offset : (b.addAll cs).offset = b.offset + spans cs := by
      rw [image'.offset, image.offset, spans_append, Nat.add_assoc]
    refine ⟨fun full => ?_, ?_⟩
    · obtain ⟨c, rfl, refused⟩ := first.full b full
      have one : spans [c] = c.span := Nat.add_zero _
      exact refused (image.add_fits (show b.offset + c.span ≤ b.size by omega)).1
    · rw [first.call]
      exact ih image' (by rw [offset, size]; omega)

/-! ## Messages -/

/-- The messages of `send_path_downstream`, `send_resv_upstream`, `propagate_path_tear`,
`propagate_resv_tear`, `send_path_err`, `send_resv_err`, `handle_path_err`, `propagate_resv_err`
and `send_hello`. -/
inductive Message : Type
  | path (key : PathKey) (psb : PsbState) (localAddr : InAddr) (ifindex : UInt32)
  | resv (key : PathKey) (rsb : RsbState) (merged : SenderTspec) (localAddr : InAddr)
    (ifindex : UInt32)
  | pathTear (key : PathKey) (psb : PsbState) (localAddr : InAddr) (ifindex : UInt32)
  | resvTear (key : PathKey) (rsb : RsbState) (localAddr : InAddr) (ifindex : UInt32)
  | pathErr (key : PathKey) (spec : ErrorSpec)
  | resvErr (key : PathKey) (spec : ErrorSpec)
  | pathErrRelay (key : PathKey) (spec : ErrorSpec) (localAddr : InAddr) (ifindex : UInt32)
  | resvErrRelay (key : PathKey) (spec : ErrorSpec) (localAddr : InAddr) (ifindex : UInt32)
  | hello (n : Neighbor) (answer : Bool)

namespace Message

/-- The size of the sender's buffer. -/
def size : Message → Nat
  | .path .. => 1500
  | .hello .. => 128
  | _ => 1024

def msgType : Message → UInt8
  | .path .. => msgPath
  | .resv .. => msgResv
  | .pathTear .. => msgPathTear
  | .resvTear .. => msgResvTear
  | .pathErr .. => msgPathErr
  | .resvErr .. => msgResvErr
  | .pathErrRelay .. => msgPathErr
  | .resvErrRelay .. => msgResvErr
  | .hello .. => msgHello

/-- The TTL a sender writes into the header. -/
def ttl : Message → Option UInt8
  | .path _ psb _ _ => some (forwardTtl psb.ttl)
  | .resv _ rsb _ _ _ => some (forwardTtl rsb.ttl)
  | .pathTear _ psb _ _ => some (forwardTtl psb.ttl)
  | .resvTear .. => none
  | .hello .. => none
  | _ => some 255

/-- The builder before the first object. -/
def start (m : Message) : Builder :=
  match m.ttl with
  | some ttl => (rsvpBuilderInit m.size m.msgType).setTtl ttl
  | none => rsvpBuilderInit m.size m.msgType

/-- The calls of the sender. -/
def adds : Message → List (Builder → Int × Builder)
  | .path key psb localAddr ifindex =>
    [addSession key, (rsvpBuilderAddHopIpv4 · localAddr ifindex),
      (rsvpBuilderAddTimeValues · psb.refreshMs), (rsvpBuilderAddEro · psb.ero.hops),
      (rsvpBuilderAddLabelRequest · 0x0800),
      (rsvpBuilderAddSessionAttributeEx · psb.lspName psb.setupPrio psb.holdingPrio
        (sessAttrFlags psb)),
      fun b =>
        if psb.frrMode ≠ .none ∧ psb.isBypassTunnel = false then
          rsvpBuilderAddFastReroute b psb.setupPrio psb.holdingPrio 32 frrFlagFacility
            (Binary32.ofUInt32 psb.frrBandwidth)
        else (0, b),
      addSender classSenderTemplate key, (rsvpBuilderAddTspec · (pathTspec psb)),
      (rsvpBuilderAddRro · (pathRro psb localAddr))]
  | .resv key rsb merged localAddr ifindex =>
    [addSession key, (rsvpBuilderAddHopIpv4 · localAddr ifindex),
      (rsvpBuilderAddTimeValues · rsb.refreshMs),
      (rsvpBuilderAddStyle · (if rsb.style = 0 then styleFf else rsb.style.toUInt32)),
      (rsvpBuilderAddFlowspec · merged), addSender classFilterSpec key,
      (rsvpBuilderAddLabelIpv4 · rsb.labelIn)]
  | .pathTear key _ localAddr ifindex =>
    [addSession key, (rsvpBuilderAddHopIpv4 · localAddr ifindex),
      addSender classSenderTemplate key]
  | .resvTear key rsb localAddr ifindex =>
    [addSession key, (rsvpBuilderAddHopIpv4 · localAddr ifindex),
      (rsvpBuilderAddStyle · (if rsb.style = 0 then styleFf else rsb.style.toUInt32)),
      addSender classFilterSpec key]
  | .pathErr key spec =>
    [addSession key, addErrorSpec spec, addSender classSenderTemplate key]
  | .resvErr key spec =>
    [addSession key, addErrorSpec spec, (rsvpBuilderAddStyle · styleFf),
      addSender classFilterSpec key]
  | .pathErrRelay key spec localAddr ifindex =>
    [addSession key, (rsvpBuilderAddHopIpv4 · localAddr ifindex), addErrorSpec spec,
      addSender classSenderTemplate key]
  | .resvErrRelay key spec localAddr ifindex =>
    [addSession key, (rsvpBuilderAddHopIpv4 · localAddr ifindex), addErrorSpec spec,
      (rsvpBuilderAddStyle · styleFf), addSender classFilterSpec key]
  | .hello n answer =>
    [(rsvpBuilderAddHello · n.srcInstance n.dstInstance
      (if answer then helloCtypeAck else helloCtypeRequest))]

/-- The finished message. -/
def bytes (m : Message) : Bytes := (m.adds.foldl Builder.call m.start).finish

section Senders

variable (key : PathKey) (psb : PsbState) (rsb : RsbState) (merged : SenderTspec) (spec : ErrorSpec)
  (localAddr : InAddr) (ifindex : UInt32)

theorem bytes_path : (path key psb localAddr ifindex).bytes = pathMessage key psb localAddr ifindex :=
  rfl

theorem bytes_resv : (resv key rsb merged localAddr ifindex).bytes =
    resvMessage key rsb merged localAddr ifindex :=
  rfl

theorem bytes_pathTear : (pathTear key psb localAddr ifindex).bytes =
    pathTearMessage key psb localAddr ifindex :=
  rfl

theorem bytes_resvTear : (resvTear key rsb localAddr ifindex).bytes =
    resvTearMessage key rsb localAddr ifindex :=
  rfl

theorem bytes_pathErr : (pathErr key spec).bytes = pathErrMessage key spec := rfl

theorem bytes_resvErr : (resvErr key spec).bytes = resvErrMessage key spec := rfl

theorem bytes_pathErrRelay : (pathErrRelay key spec localAddr ifindex).bytes =
    Rsvp.pathErrRelay key (some spec) localAddr ifindex :=
  rfl

theorem bytes_resvErrRelay : (resvErrRelay key spec localAddr ifindex).bytes =
    Rsvp.resvErrRelay key (some spec) localAddr ifindex :=
  rfl

end Senders

/-- The objects the calls add. -/
def objects : Message → List AddCall
  | .path key psb localAddr ifindex => pathCalls key psb localAddr ifindex
  | .resv key rsb merged localAddr ifindex => resvCalls key rsb merged localAddr ifindex
  | .pathTear key _ localAddr ifindex => pathTearCalls key localAddr ifindex
  | .resvTear key rsb localAddr ifindex => resvTearCalls key rsb localAddr ifindex
  | .pathErr key spec => pathErrCalls key spec
  | .resvErr key spec => resvErrCalls key spec
  | .pathErrRelay key spec localAddr ifindex =>
    errorRelayCalls key (some spec) localAddr ifindex ++ [senderCall classSenderTemplate key]
  | .resvErrRelay key spec localAddr ifindex =>
    errorRelayCalls key (some spec) localAddr ifindex ++
      [styleCall styleFf, senderCall classFilterSpec key]
  | .hello n answer =>
    [helloCall n.srcInstance n.dstInstance (if answer then helloCtypeAck else helloCtypeRequest)]

theorem adds_objects (m : Message) :
    ∃ calls, List.Forall₂ Adds m.adds calls ∧ calls.flatten = m.objects := by
  have session : ∀ key, Adds (addSession key) [sessionCall key] := fun _ => .one fun _ => rfl
  have hop : ∀ localAddr ifindex, Adds (rsvpBuilderAddHopIpv4 · localAddr ifindex)
    [hopCall localAddr ifindex] := fun _ _ => .one fun _ => rfl
  have style : ∀ v, Adds (rsvpBuilderAddStyle · v) [styleCall v] := fun _ => .one fun _ => rfl
  have sender : ∀ classNum key, Adds (addSender classNum key) [senderCall classNum key] :=
    fun _ _ => .one fun _ => rfl
  have error : ∀ spec, Adds (addErrorSpec spec) [errorCall spec] := fun _ => .one fun _ => rfl
  have time : ∀ ms, Adds (rsvpBuilderAddTimeValues · ms) [timeCall ms] := fun _ => .one fun _ => rfl
  have tspec : ∀ t, Adds (rsvpBuilderAddTspec · t) [tspecCall classSenderTspec t] :=
    fun _ => .one fun _ => rfl
  have flowspec : ∀ t, Adds (rsvpBuilderAddFlowspec · t) [tspecCall classFlowspec t] :=
    fun _ => .one fun _ => rfl
  have label : ∀ v, Adds (rsvpBuilderAddLabelIpv4 · v) [labelCall v] := fun _ => .one fun _ => rfl
  have request : Adds (rsvpBuilderAddLabelRequest · 0x0800) [labelReqCall] := .one fun _ => rfl
  have hello : ∀ x y c, Adds (rsvpBuilderAddHello · x y c) [helloCall x y c] :=
    fun _ _ _ => .one fun _ => rfl
  cases m with
  | path key psb localAddr ifindex =>
    have ero : Adds (rsvpBuilderAddEro · psb.ero.hops) (routeCalls classExplicitRoute psb.ero.hops) :=
      .route classExplicitRoute psb.ero.hops
    have rro : Adds (rsvpBuilderAddRro · (pathRro psb localAddr))
        (routeCalls classRecordRoute (pathRro psb localAddr)) :=
      .route classRecordRoute (pathRro psb localAddr)
    refine ⟨_, .cons (session key) (.cons (hop localAddr ifindex) (.cons (time psb.refreshMs)
      (.cons ero (.cons request (.cons (.one (c := attrCall psb) fun _ => rfl) (.cons (.frr psb)
      (.cons (sender classSenderTemplate key) (.cons (tspec (pathTspec psb))
      (.cons rro .nil))))))))), ?_⟩
    simp only [objects, pathCalls, List.flatten_cons, List.flatten_nil, List.append_nil,
      List.append_assoc, List.cons_append, List.nil_append]
  | resv key rsb merged localAddr ifindex =>
    exact ⟨_, .cons (session key) (.cons (hop localAddr ifindex) (.cons (time rsb.refreshMs)
      (.cons (style _) (.cons (flowspec merged) (.cons (sender classFilterSpec key)
      (.cons (label rsb.labelIn) .nil)))))), rfl⟩
  | pathTear key psb localAddr ifindex =>
    exact ⟨_, .cons (session key) (.cons (hop localAddr ifindex)
      (.cons (sender classSenderTemplate key) .nil)), rfl⟩
  | resvTear key rsb localAddr ifindex =>
    exact ⟨_, .cons (session key) (.cons (hop localAddr ifindex) (.cons (style _)
      (.cons (sender classFilterSpec key) .nil))), rfl⟩
  | pathErr key spec =>
    exact ⟨_, .cons (session key) (.cons (error spec) (.cons (sender classSenderTemplate key)
      .nil)), rfl⟩
  | resvErr key spec =>
    exact ⟨_, .cons (session key) (.cons (error spec) (.cons (style styleFf)
      (.cons (sender classFilterSpec key) .nil))), rfl⟩
  | pathErrRelay key spec localAddr ifindex =>
    exact ⟨_, .cons (session key) (.cons (hop localAddr ifindex) (.cons (error spec)
      (.cons (sender classSenderTemplate key) .nil))), rfl⟩
  | resvErrRelay key spec localAddr ifindex =>
    exact ⟨_, .cons (session key) (.cons (hop localAddr ifindex) (.cons (error spec)
      (.cons (style styleFf) (.cons (sender classFilterSpec key) .nil)))), rfl⟩
  | hello n answer => exact ⟨_, .cons (hello _ _ _) .nil, rfl⟩

theorem fits (m : Message) : commonHdrLen + spans m.objects ≤ m.size := by
  cases m with
  | path key psb localAddr ifindex => exact pathCalls_fit key psb localAddr ifindex
  | resv key rsb merged localAddr ifindex => exact resvCalls_fit key rsb merged localAddr ifindex
  | pathTear key psb localAddr ifindex =>
    exact (short_calls_fit key .zero ⟨0, 0, 0, 0⟩ none localAddr ifindex).1
  | resvTear key rsb localAddr ifindex =>
    exact (short_calls_fit key rsb ⟨0, 0, 0, 0⟩ none localAddr ifindex).2.1
  | pathErr key spec => exact (short_calls_fit key .zero spec none 0 0).2.2.1
  | resvErr key spec => exact (short_calls_fit key .zero spec none 0 0).2.2.2.1
  | pathErrRelay key spec localAddr ifindex =>
    exact (short_calls_fit key .zero spec (some spec) localAddr ifindex).2.2.2.2.1
  | resvErrRelay key spec localAddr ifindex =>
    exact (short_calls_fit key .zero spec (some spec) localAddr ifindex).2.2.2.2.2
  | hello n answer => exact helloCall_fits _ _ _

/-- The builder starts empty, whether or not the TTL is written. -/
theorem start_eq (m : Message) :
    m.start = (rsvpBuilderInit m.size m.msgType).setTtl (m.ttl.getD 255) := by
  have room : commonHdrLen ≤ m.size := Nat.le_trans (Nat.le_add_right ..) m.fits
  unfold start
  split
  · rename_i ttl written
    rw [written, Option.getD_some]
  · rename_i kept
    rw [kept, Option.getD_none, setTtl_rsvpBuilderInit m.msgType room]

theorem image_start (m : Message) :
    m.start.Image m.msgType (m.ttl.getD 255) [] ∧ m.start.size = m.size := by
  have room : commonHdrLen ≤ m.size := Nat.le_trans (Nat.le_add_right ..) m.fits
  rw [start_eq]
  exact ⟨(Builder.Image.init m.msgType room).setTtl _, rfl⟩

/-- No builder call of a sender fails for lack of space. -/
theorem hasRoom (m : Message) : m.start.HasRoom m.adds := by
  obtain ⟨calls, adds, objects⟩ := m.adds_objects
  obtain ⟨image, size⟩ := m.image_start
  refine image.hasRoom adds ?_
  rw [objects, image.offset, size]
  exact m.fits

theorem bytes_eq (m : Message) :
    m.bytes = built m.size m.msgType (m.ttl.getD 255) m.objects := by
  obtain ⟨calls, adds, objects⟩ := m.adds_objects
  rw [bytes, adds_foldl adds, objects, start_eq]
  rfl

theorem valid (m : Message) : ∀ c ∈ m.objects, c.Valid := by
  cases m with
  | path key psb localAddr ifindex => exact pathCalls_valid key psb localAddr ifindex
  | resv key rsb merged localAddr ifindex => exact resvCalls_valid key rsb merged localAddr ifindex
  | pathTear key psb localAddr ifindex => exact pathTearCalls_valid key localAddr ifindex
  | resvTear key rsb localAddr ifindex => exact resvTearCalls_valid key rsb localAddr ifindex
  | pathErr key spec => exact pathErrCalls_valid key spec
  | resvErr key spec => exact resvErrCalls_valid key spec
  | pathErrRelay key spec localAddr ifindex =>
    intro c mem
    rcases List.mem_append.mp mem with relayed | sender
    · exact errorRelayCalls_valid key _ _ _ c relayed
    · rw [List.mem_singleton.mp sender]
      exact senderCall_valid key (by decide)
  | resvErrRelay key spec localAddr ifindex =>
    intro c mem
    rcases List.mem_append.mp mem with relayed | rest
    · exact errorRelayCalls_valid key _ _ _ c relayed
    · rcases List.mem_cons.mp rest with rfl | sender
      · exact styleCall_valid _
      · rw [List.mem_singleton.mp sender]
        exact senderCall_valid key (by decide)
  | hello n answer =>
    intro c mem
    rw [List.mem_singleton.mp mem]
    exact AddCall.valid_mk .helloObj (by decide) (by cases answer <;> decide) (Nat.le_refl 8)

end Message

/-- The objects without which a handler refuses a message, or ignores it. -/
def handlerSlots (msgType : UInt8) : List Slot :=
  if msgType = msgPath then [.hopV4, .senderV4, .labelReq]
  else if msgType = msgResv then [.hopV4, .label]
  else if msgType = msgPathErr ∨ msgType = msgResvErr then [.errorSpec]
  else if msgType = msgHello then [.helloObj]
  else []

/-- A new PATH is refused exactly for want of one of these objects. -/
theorem rsvpValidatePathMessage_iff (info : MessageInfo) :
    rsvpValidatePathMessage info none = none ↔ ∀ k ∈ handlerSlots msgPath, info.objs k ≠ none := by
  have slots : handlerSlots msgPath = [.hopV4, .senderV4, .labelReq] := by decide
  rw [slots, rsvpValidatePathMessage]
  split_ifs <;> simp_all

/-- A RESV for a PSB is refused exactly for want of one of these objects. -/
theorem rsvpValidateResvMessage_iff {s : Node} {info : MessageInfo}
    (found : s.rsvpPsbFind info.key ≠ none) :
    rsvpValidateResvMessage s info = none ↔ ∀ k ∈ handlerSlots msgResv, info.objs k ≠ none := by
  have slots : handlerSlots msgResv = [.hopV4, .label] := by decide
  rw [slots, rsvpValidateResvMessage, if_neg found]
  split_ifs <;> simp_all

namespace Message

/-- A message has an object for every slot that the parser or the handler insists on. -/
theorem firstCall_held (m : Message) {k : Slot}
    (mem : k ∈ mandatorySlots m.msgType ++ handlerSlots m.msgType) :
    (firstCall m.objects k).isSome = true := by
  have listed : ∀ {slots : List Slot}, mandatorySlots m.msgType ++ handlerSlots m.msgType = slots →
      k ∈ slots := fun same => same ▸ mem
  have error : mandatorySlots msgPathErr ++ handlerSlots msgPathErr =
        [.sessV4, .errorSpec, .errorSpec] ∧
      mandatorySlots msgResvErr ++ handlerSlots msgResvErr = [.sessV4, .errorSpec, .errorSpec] := by
    decide
  cases m with
  | path key psb localAddr ifindex =>
    obtain ⟨session, hop, sender, request, -⟩ := firstCall_pathCalls key psb localAddr ifindex
    have here := listed (show mandatorySlots msgPath ++ handlerSlots msgPath =
      [.sessV4, .senderV4, .hopV4, .senderV4, .labelReq] by decide)
    simp only [List.mem_cons, List.not_mem_nil, or_false] at here
    rw [objects]
    rcases here with rfl | rfl | rfl | rfl | rfl
    · rw [session, Option.isSome_some]
    · rw [sender, Option.isSome_some]
    · rw [hop, Option.isSome_some]
    · rw [sender, Option.isSome_some]
    · rw [request, Option.isSome_some]
  | resv key rsb merged localAddr ifindex =>
    have here := listed (show mandatorySlots msgResv ++ handlerSlots msgResv =
      [.sessV4, .hopV4, .style, .hopV4, .label] by decide)
    simp only [List.mem_cons, List.not_mem_nil, or_false] at here
    rcases here with rfl | rfl | rfl | rfl | rfl <;> rfl
  | pathTear key psb localAddr ifindex =>
    have here := listed (show mandatorySlots msgPathTear ++ handlerSlots msgPathTear =
      [.sessV4, .senderV4] by decide)
    simp only [List.mem_cons, List.not_mem_nil, or_false] at here
    rcases here with rfl | rfl <;> rfl
  | resvTear key rsb localAddr ifindex =>
    have here := listed (show mandatorySlots msgResvTear ++ handlerSlots msgResvTear =
      [.sessV4, .hopV4] by decide)
    simp only [List.mem_cons, List.not_mem_nil, or_false] at here
    rcases here with rfl | rfl <;> rfl
  | pathErr key spec =>
    have here := listed error.1
    simp only [List.mem_cons, List.not_mem_nil, or_false] at here
    rcases here with rfl | rfl | rfl <;> rfl
  | resvErr key spec =>
    have here := listed error.2
    simp only [List.mem_cons, List.not_mem_nil, or_false] at here
    rcases here with rfl | rfl | rfl <;> rfl
  | pathErrRelay key spec localAddr ifindex =>
    have here := listed error.1
    simp only [List.mem_cons, List.not_mem_nil, or_false] at here
    rcases here with rfl | rfl | rfl <;> rfl
  | resvErrRelay key spec localAddr ifindex =>
    have here := listed error.2
    simp only [List.mem_cons, List.not_mem_nil, or_false] at here
    rcases here with rfl | rfl | rfl <;> rfl
  | hello n answer =>
    have here := listed (show mandatorySlots msgHello ++ handlerSlots msgHello = [.helloObj] by decide)
    rw [List.mem_singleton.mp here]
    rfl

theorem size_le (m : Message) : m.size ≤ 1500 := by
  unfold size
  split <;> decide

/-- The parser accepts the packet and finds what the handler asks for. -/
theorem accepted (m : Message) (src dest : InAddr) (useRao : Bool) :
    ∃ info, rsvpParsePacket (rsvpPacket src dest m.bytes useRao) = .ok info ∧
      info.commonHdr.msgType = m.msgType ∧ ∀ k ∈ handlerSlots m.msgType, info.objs k ≠ none := by
  have small : m.size < 2 ^ 16 := Nat.lt_of_le_of_lt m.size_le (by decide)
  rw [bytes_eq]
  obtain ⟨info, parsed, decodes, -⟩ := parse_built (m.ttl.getD 255) m.fits small m.valid
    (fun k mem => m.firstCall_held (List.mem_append_left _ mem)) src dest useRao
  refine ⟨info, parsed, decodes.msgType, fun k mem => ?_⟩
  obtain ⟨c, first⟩ := Option.isSome_iff_exists.mp (m.firstCall_held (List.mem_append_right _ mem))
  obtain ⟨o, held, -⟩ := decodes.data_eq first
  rw [held]
  exact Option.some_ne_none o

end Message

end Rsvp
