import RsvpTe.LabelOwnership

/-!
# What crosses a link

Two nodes that run the state machine meet only through the packets in their logs.  A PATH tells
its receiver the key of the LSP up to `PathKey.wire` and the address and interface it left
through; a RESV tells it the key, the label and the interface that the sender's own route lookup
gave.  This module says what a receiver reads, where the previous hop of a PSB comes from, and
what a received RESV installs.
-/

namespace Rsvp

open Words

variable {hal : Hal} {act : Act} {s s' : Node} {env : Env}

/-! ## Reception -/

/-- A packet that is read and parsed reaches the message handler. -/
theorem Receives.step_eq {packet : Bytes} {info : MessageInfo}
    (received : Receives env packet info) :
    s.step env (.recv packet) = rsvpHandleMessage env s info := by
  have empty : ¬ packet.take maxRsvpPacketSize = [] := by
    intro empty
    have parsed := received.parsed
    rw [empty] at parsed
    cases parsed
  change dispatchPacket env s packet = _
  unfold dispatchPacket
  simp only
  rw [if_neg empty, if_neg received.foreign, received.parsed]

/-- A PATH that creates state is also accepted as a refresh. -/
theorem rsvpValidatePathMessage_refresh {info : MessageInfo}
    (valid : rsvpValidatePathMessage info none = none) (existing : Option Psb) :
    rsvpValidatePathMessage info existing = none := by
  unfold rsvpValidatePathMessage at *
  split at valid
  · cases valid
  split at valid
  · cases valid
  split at valid
  · cases valid
  rename_i hop sender request
  rw [if_neg hop, if_neg sender, if_neg fun missing => request ⟨missing.1, rfl⟩]

theorem pathOutput_received {key : PathKey} {psb : PsbState} {ipDest dest : InAddr}
    {ifindex : UInt32} {useRao : Bool} {bytes : Bytes}
    (sent : Output.packet dest useRao bytes = pathOutput hal key psb ipDest ifindex)
    {info : MessageInfo} (received : Receives env bytes info) :
    info.commonHdr.msgType = msgPath ∧ info.key = key.wire ∧
      info.hop = ⟨(hal.getLocalAddr ifindex).getD key.sender.sourceAddr, htonl ifindex⟩ ∧
      rsvpValidatePathMessage info none = none := by
  cases sent
  have parsed := received.parsed
  rw [pathMessage_eq, take_rsvpPacket_built _ _ _ _ (pathCalls_fit key psb _ ifindex)
    (Nat.le_refl 1500), ← pathMessage_eq] at parsed
  obtain ⟨read, parsed', type, keyEq, hop, valid, -⟩ :=
    parse_pathMessage key psb _ ifindex _ ipDest true
  cases parsed'.symm.trans parsed
  exact ⟨type, keyEq, hop, valid⟩

theorem resvOutput_received {b : Psb} {rsb : RsbState} {merged : SenderTspec} {dest : InAddr}
    {useRao : Bool} {bytes : Bytes}
    (sent : Output.packet dest useRao bytes = resvOutput hal b rsb merged) {info : MessageInfo}
    (received : Receives env bytes info) :
    info.commonHdr.msgType = msgResv ∧ info.key = b.key.wire ∧
      info.hop.logicalInterface =
        htonl ((hal.getEgressIf b.body.prevHop.neighborAddr).getD b.body.ifindexIn) ∧
      info.labelValue = rsb.labelIn := by
  cases sent
  have parsed := received.parsed
  rw [resvMessage_eq, take_rsvpPacket_built _ _ _ _ (resvCalls_fit b.key rsb merged _ _)
    (by decide), ← resvMessage_eq] at parsed
  obtain ⟨read, parsed', type, keyEq, hop, -, label, -⟩ :=
    parse_resvMessage b.key rsb merged _ _ _ _ false
  cases parsed'.symm.trans parsed
  exact ⟨type, keyEq, congrArg HopIpv4.logicalInterface hop, label⟩

theorem resvOutput_msgType (hal : Hal) (b : Psb) (rsb : RsbState) (merged : SenderTspec) :
    (resvOutput hal b rsb merged).msgType = some msgResv := by
  rw [resvOutput, resvMessage_eq]
  exact msgType_built msgResv _ (resvCalls_fit b.key rsb merged _ _) _ _ false

/-! ## Previous hops -/

/-- Where a PSB comes from: it was there, with the same previous hop or a PATH that wrote it, or
it is new and has none. -/
theorem Does.psb_origin (does : Does hal act s s') {c : Psb} (mem : c ∈ s'.psbs) :
    (∃ b ∈ s.psbs, c.key = b.key ∧
      (c.body.isMbbPending = true → b.body.isMbbPending = true) ∧
      (c.body.prevHop = b.body.prevHop ∨ act = .hop c.key c.body.prevHop)) ∨
    (act = .newPsb c.key c.body.isMbbPending ∧ c.body.prevHop = ⟨0, 0⟩) := by
  have same : c ∈ s.psbs → ∃ b ∈ s.psbs, c.key = b.key ∧
      (c.body.isMbbPending = true → b.body.isMbbPending = true) ∧
      (c.body.prevHop = b.body.prevHop ∨ act = .hop c.key c.body.prevHop) :=
    fun old => ⟨c, old, rfl, id, .inl rfl⟩
  have updated : ∀ (b : Psb) (f : PsbState → PsbState), b ∈ s.psbs →
      ((f b.body).isMbbPending = true → b.body.isMbbPending = true) →
      ((f b.body).prevHop = b.body.prevHop ∨ act = .hop b.key (f b.body).prevHop) →
      c ∈ (s.modPsb b.addr f).psbs → ∃ b ∈ s.psbs, c.key = b.key ∧
        (c.body.isMbbPending = true → b.body.isMbbPending = true) ∧
        (c.body.prevHop = b.body.prevHop ∨ act = .hop c.key c.body.prevHop) := by
    intro b f memb pending hop memc
    rcases Table.mem_modify.mp memc with ⟨old, -⟩ | ⟨d, memd, here, rfl⟩
    · exact same old
    · cases Table.eq_of_addr_eq memd memb here
      exact ⟨b, memb, rfl, pending, hop⟩
  cases does with
  | misc => exact .inl (same mem)
  | send => exact .inl (same mem)
  | path => exact .inl (same mem)
  | tuneRsb => exact .inl (same mem)
  | store => exact .inl (same mem)
  | advertise => exact .inl (same mem)
  | swap => exact .inl (same mem)
  | install => exact .inl (same mem)
  | resv => exact .inl (same mem)
  | tunePsb memb keeps hop =>
    exact .inl (updated _ _ memb (fun waits => (keeps.pending waits).1) (.inl hop) mem)
  | hop memb keeps =>
    exact .inl (updated _ _ memb (fun waits => (keeps.pending waits).1) (.inr rfl) mem)
  | arm memb _ _ keeps hop =>
    exact .inl (updated _ _ memb (fun waits => (keeps.pending waits).1) (.inl hop) mem)
  | newRsb memb => exact .inl (updated _ _ memb id (.inl rfl) mem)
  | dropRsb memb _ _ release =>
    rw [release.psbs] at mem
    exact .inl (updated _ _ memb id (.inl rfl) mem)
  | dropPsb => exact .inl (same (Table.mem_unlink.mp mem).1)
  | newPsb _ made blank =>
    rcases (Table.mem_modify_create made).mp mem with rfl | old
    · exact .inr ⟨rfl, blank.prevHop⟩
    · exact .inl (same old)

/-! ## Outgoing labels and entries -/

/-- Where the outgoing label of an RSB comes from. -/
theorem Does.rsb_origin (does : Does hal act s s') {x : Rsb} (mem : x ∈ s'.rsbs) :
    (∃ r ∈ s.rsbs, x.key = r.key ∧ x.body.labelOut = r.body.labelOut) ∨
      act = .store x.key x.body.labelOut ∨ x.body.labelOut = 0 := by
  have updated : ∀ (r : Rsb) (f : RsbState → RsbState), r ∈ s.rsbs →
      ((f r.body).labelOut = r.body.labelOut ∨ act = .store r.key (f r.body).labelOut) →
      x ∈ (s.modRsb r.addr f).rsbs →
      (∃ r ∈ s.rsbs, x.key = r.key ∧ x.body.labelOut = r.body.labelOut) ∨
        act = .store x.key x.body.labelOut ∨ x.body.labelOut = 0 := by
    intro r f memr label memx
    rcases Table.mem_modify.mp memx with ⟨old, -⟩ | ⟨y, memy, here, rfl⟩
    · exact .inl ⟨x, old, rfl, rfl⟩
    · cases Table.eq_of_addr_eq memy memr here
      rcases label with same | stored
      · exact .inl ⟨r, memr, rfl, same⟩
      · exact .inr (.inl stored)
  cases does with
  | misc => exact .inl ⟨x, mem, rfl, rfl⟩
  | send => exact .inl ⟨x, mem, rfl, rfl⟩
  | path => exact .inl ⟨x, mem, rfl, rfl⟩
  | tunePsb => exact .inl ⟨x, mem, rfl, rfl⟩
  | hop => exact .inl ⟨x, mem, rfl, rfl⟩
  | arm => exact .inl ⟨x, mem, rfl, rfl⟩
  | newPsb => exact .inl ⟨x, mem, rfl, rfl⟩
  | dropPsb => exact .inl ⟨x, mem, rfl, rfl⟩
  | install => exact .inl ⟨x, mem, rfl, rfl⟩
  | resv => exact .inl ⟨x, mem, rfl, rfl⟩
  | tuneRsb memr _ same => exact updated _ _ memr (.inl same) mem
  | store memr => exact updated _ _ memr (.inr rfl) mem
  | advertise memr => exact updated _ _ memr (.inl rfl) mem
  | swap memr => exact updated _ _ memr (.inl rfl) mem
  | newRsb _ _ made _ unset =>
    rcases (Table.mem_modify_create made).mp mem with rfl | old
    · exact .inr (.inr unset)
    · exact .inl ⟨x, old, rfl, rfl⟩
  | dropRsb _ _ _ release =>
    rw [release.rsbs] at mem
    exact .inl ⟨x, (Table.mem_unlink.mp mem).1, rfl, rfl⟩

/-- The entry under `k` is a push for the destination of the LSP, or a swap from the label of its
RSB. -/
def Node.EntryOf (s : Node) (key : PathKey) (k : FwdKey) : Prop :=
  k = .push key.session.destAddr ∨
    ∃ r ∈ s.rsbs, r.key = key ∧ r.body.labelIn ≠ 0 ∧ k = .label r.body.labelIn

/-- An entry that an action writes belongs to the LSP of the action. -/
theorem Does.entry_origin (wf : s.Wf) (does : Does hal act s s') {k : FwdKey} {e : FwdEntry}
    (entry : s'.fwd k = some e) :
    s.fwd k = some e ∨ ∃ key, s'.EntryOf key k ∧
      (act = .swap key e.outLabel e.outIfindex ∨ act = .install key e.outLabel e.outIfindex) := by
  cases does with
  | misc => exact .inl entry
  | send => exact .inl entry
  | path => exact .inl entry
  | tunePsb => exact .inl entry
  | tuneRsb => exact .inl entry
  | hop => exact .inl entry
  | arm => exact .inl entry
  | newPsb => exact .inl entry
  | dropPsb => exact .inl entry
  | newRsb => exact .inl entry
  | store => exact .inl entry
  | advertise => exact .inl entry
  | resv => exact .inl entry
  | dropRsb _ _ _ release => exact .inl (release.entries k e entry)
  | @swap _ r label labels outLabel outIfindex nextHop mem bare takes =>
    have pos : label ≠ 0 := wf.labels.ne_zero takes.inRange
    change Function.update s.fwd (fwdKey label _) (some ⟨outLabel, outIfindex, nextHop⟩) k =
      some e at entry
    rw [fwdKey, if_neg pos, Function.update_apply] at entry
    split at entry
    · rename_i here
      cases entry
      exact .inr ⟨r.key, .inr ⟨_, Node.mem_modRsb _ mem _, rfl, pos, here⟩, .inl rfl⟩
    · exact .inl entry
  | @install _ key inLabel outLabel outIfindex nextHop held =>
    change Function.update s.fwd (fwdKey inLabel _) (some ⟨outLabel, outIfindex, nextHop⟩) k =
      some e at entry
    rw [Function.update_apply] at entry
    split at entry
    · rename_i here
      cases entry
      refine .inr ⟨key, ?_, .inr rfl⟩
      by_cases push : inLabel = 0
      · rw [fwdKey, if_pos push] at here
        exact .inl here
      · rw [fwdKey, if_neg push] at here
        obtain ⟨r, mem, keyR, label⟩ := held push
        exact .inr ⟨r, mem, keyR, label ▸ push, label ▸ here⟩
    · exact .inl entry

/-- An entry is written by `swap` and `install` only. -/
theorem Does.installs (does : Does hal act s s') :
    ∃ new, s'.out = s.out ++ new ∧ ∀ inLabel outLabel outIfindex nextHop dest,
      .mplsInstall inLabel outLabel outIfindex nextHop dest ∈ new →
      ∃ key, act = .swap key outLabel outIfindex ∨ act = .install key outLabel outIfindex := by
  have silent : ∀ t : Node, t.out = s.out → ∃ new, t.out = s.out ++ new ∧
      ∀ inLabel outLabel outIfindex nextHop dest,
        .mplsInstall inLabel outLabel outIfindex nextHop dest ∈ new →
        ∃ key, act = .swap key outLabel outIfindex ∨ act = .install key outLabel outIfindex :=
    fun t same => ⟨[], by rw [same, List.append_nil], fun _ _ _ _ _ mem => by cases mem⟩
  cases does with
  | misc => exact silent _ rfl
  | tunePsb => exact silent _ rfl
  | tuneRsb => exact silent _ rfl
  | hop => exact silent _ rfl
  | arm => exact silent _ rfl
  | newPsb => exact silent _ rfl
  | dropPsb => exact silent _ rfl
  | newRsb => exact silent _ rfl
  | store => exact silent _ rfl
  | advertise => exact silent _ rfl
  | send => exact ⟨[_], rfl, fun _ _ _ _ _ mem => by cases List.mem_singleton.mp mem⟩
  | path => exact ⟨[_], rfl, fun _ _ _ _ _ mem => by cases List.mem_singleton.mp mem⟩
  | resv => exact ⟨[_], rfl, fun _ _ _ _ _ mem => by cases List.mem_singleton.mp mem⟩
  | swap =>
    refine ⟨[_], rfl, fun _ _ _ _ _ mem => ?_⟩
    cases List.mem_singleton.mp mem
    exact ⟨_, .inl rfl⟩
  | install =>
    refine ⟨[_], rfl, fun _ _ _ _ _ mem => ?_⟩
    cases List.mem_singleton.mp mem
    exact ⟨_, .inr rfl⟩
  | dropRsb _ _ _ release =>
    obtain ⟨removed, out, calls⟩ := release.out
    refine ⟨removed, out, fun _ _ _ _ _ mem => ?_⟩
    obtain ⟨label, dest, call⟩ := calls _ mem
    cases call

/-- Every entry that a message installs leads out of the interface its RSVP_HOP names. -/
theorem Node.step_installs (wf : s.Wf) {packet : Bytes} {info : MessageInfo}
    (received : Receives env packet info) :
    ∃ new, (s.step env (.recv packet)).out = s.out ++ new ∧
      ∀ inLabel outLabel outIfindex nextHop dest,
        .mplsInstall inLabel outLabel outIfindex nextHop dest ∈ new →
        outIfindex = ntohl info.hop.logicalInterface := by
  rw [received.step_eq]
  have runs := @rsvpHandleMessage_runs env (info.Allows env s) s info wf fun _ allows => allows
  refine (runs.induct wf (P := fun t => ∃ new, t.out = s.out ++ new ∧
      ∀ inLabel outLabel outIfindex nextHop dest,
        .mplsInstall inLabel outLabel outIfindex nextHop dest ∈ new →
        outIfindex = ntohl info.hop.logicalInterface)
    ⟨[], (List.append_nil _).symm, fun _ _ _ _ _ mem => by cases mem⟩ ?_).2
  intro t t' act allowed _ held does
  rcases held with ⟨new, out, named⟩
  obtain ⟨more, out', kinds⟩ := does.installs
  refine ⟨new ++ more, by rw [out', out, List.append_assoc], fun _ _ _ _ _ mem => ?_⟩
  rcases List.mem_append.mp mem with old | fresh
  · exact named _ _ _ _ _ old
  · obtain ⟨key, rfl | rfl⟩ := kinds _ _ _ _ _ fresh
    · cases allowed with
      | benign quiet => cases quiet
      | resvSwap => rfl
    · cases allowed with
      | benign quiet => cases quiet
      | resvInstall => rfl

end Rsvp
