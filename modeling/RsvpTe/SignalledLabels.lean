import RsvpTe.Advertised
import RsvpTe.Adjacency
import RsvpTe.ResvRefresh

/-!
# The label in the kernel (`hal_netlink_linux.c`)

A LABEL object carries 32 bits, the MPLS attributes of a route request carry a label stack entry
with 20 bits for the label.  `hal_mpls_install` shifts the label into place, so whatever does not fit
is lost, and it gives a swap to label 0 no attribute at all, as it does for the entry of an egress.

The RESV handler passes the label on as it came: `handleResvMessage_logs`.
-/

namespace Rsvp

open Words

/-! ## The request -/

/-- `out_label << 12 | 1 << 8` in network order: the label and the bottom of the stack. -/
def labelStackEntry (label : UInt32) : UInt32 := htonl (label <<< 12 ||| (1 : UInt32) <<< 8)

/-- The label of a label stack entry, its upper 20 bits. -/
def entryLabel (entry : UInt32) : UInt32 := ntohl entry >>> 12

def entryBottom (entry : UInt32) : Bool := ntohl entry >>> 8 &&& 1 = 1

/-- The attributes of a route request.  `encap` is `RTA_ENCAP` with its `MPLS_IPTUNNEL_DST`. -/
inductive RouteAttr : Type
  | dst (word : UInt32)
  | oif (ifindex : UInt32)
  | gateway (addr : InAddr)
  | encapTypeMpls
  | encap (entry : UInt32)
  | newdst (entry : UInt32)
  | via (addr : InAddr)
  deriving DecidableEq, Repr

inductive RouteFamily : Type
  | inet
  | mpls
  deriving DecidableEq, Repr

/-- What `hal_mpls_install` puts in its `RTM_NEWROUTE`, besides constants. -/
structure RouteRequest : Type where
  family : RouteFamily
  dstLen : Nat
  attrs : List RouteAttr
  deriving DecidableEq, Repr

/-- An address that is given and not 0.0.0.0. -/
def routeHop (nextHop : Option InAddr) : Option InAddr := nextHop.filter (· ≠ 0)

/-- The request of `hal_mpls_install`; an ingress route without a destination has none. -/
def halMplsRequest (inLabel outLabel outIfindex : UInt32) (nextHop dest : Option InAddr) :
    Option RouteRequest :=
  if inLabel = 0 then
    dest.map fun dest => ⟨.inet, 32, [.dst dest, .oif outIfindex] ++
      ((routeHop nextHop).map RouteAttr.gateway).toList ++
      [.encapTypeMpls, .encap (labelStackEntry outLabel)]⟩
  else
    some ⟨.mpls, 20, [.dst (labelStackEntry inLabel), .oif outIfindex] ++
      (if outLabel ≠ 0 then [.newdst (labelStackEntry outLabel)] else []) ++
      ((routeHop nextHop).map RouteAttr.via).toList⟩

/-- The label stack entry that the route puts on a packet. -/
def RouteRequest.entry (request : RouteRequest) : Option UInt32 :=
  request.attrs.findSome? fun
    | .encap entry => some entry
    | .newdst entry => some entry
    | _ => none

/-- The route puts this label on a packet, as the bottom of the stack. -/
def RouteRequest.Carries (request : RouteRequest) (label : UInt32) : Prop :=
  ∃ entry, request.entry = some entry ∧ entryLabel entry = label ∧ entryBottom entry = true

theorem ntohl_labelStackEntry (label : UInt32) :
    (ntohl (labelStackEntry label)).toNat = label.toNat * 4096 % 2 ^ 32 ||| 256 := by
  have bit : ((1 : UInt32) <<< 8).toNat = 256 := rfl
  have amount : (12 : UInt32).toNat % 32 = 12 := rfl
  rw [labelStackEntry, ntohl, htonl, bswap32_bswap32, UInt32.toNat_or, bit,
    UInt32.toNat_shiftLeft, amount, Nat.shiftLeft_eq]

/-- What comes back is the label modulo 2^20. -/
theorem toNat_entryLabel (label : UInt32) :
    (entryLabel (labelStackEntry label)).toNat = label.toNat % 2 ^ 20 := by
  have amount : (12 : UInt32).toNat % 32 = 12 := rfl
  have low : (256 : Nat) >>> 12 = 0 := rfl
  rw [entryLabel, UInt32.toNat_shiftRight, amount, ntohl_labelStackEntry,
    Nat.shiftRight_or_distrib, low, Nat.or_zero, Nat.shiftRight_eq_div_pow]
  omega

theorem entryBottom_labelStackEntry (label : UInt32) :
    entryBottom (labelStackEntry label) = true := by
  have amount : (8 : UInt32).toNat % 32 = 8 := rfl
  have one : (1 : UInt32).toNat = 1 := rfl
  have low : (256 : Nat) >>> 8 = 1 := rfl
  rw [entryBottom, decide_eq_true_iff, ← UInt32.toNat_inj, UInt32.toNat_and,
    UInt32.toNat_shiftRight, amount, one, ntohl_labelStackEntry, Nat.shiftRight_or_distrib, low,
    Nat.shiftRight_eq_div_pow, Nat.and_one_is_mod]
  rw [Nat.or_mod_two_eq_one]
  exact .inr rfl

/-- A push always has a label stack entry, a swap unless its label is 0. -/
theorem halMplsRequest_entry (inLabel outLabel outIfindex : UInt32) (nextHop : Option InAddr)
    (dest : InAddr) :
    ∃ request, halMplsRequest inLabel outLabel outIfindex nextHop (some dest) = some request ∧
      request.entry =
        if inLabel = 0 ∨ outLabel ≠ 0 then some (labelStackEntry outLabel) else none := by
  by_cases push : inLabel = 0
  · refine ⟨_, if_pos push, ?_⟩
    rw [if_pos (.inl push), RouteRequest.entry]
    cases routeHop nextHop <;> rfl
  · refine ⟨_, if_neg push, ?_⟩
    by_cases bare : outLabel = 0
    · rw [if_neg (not_or.mpr ⟨push, not_not_intro bare⟩), RouteRequest.entry,
        if_neg (not_not_intro bare)]
      cases routeHop nextHop <;> rfl
    · rw [if_pos bare, if_pos (Or.inr bare), RouteRequest.entry]
      rfl

/-- A request carries its label if that fits into 20 bits, and for a swap is not 0. -/
theorem carries_iff {inLabel outLabel outIfindex : UInt32} {nextHop : Option InAddr}
    {dest : InAddr} :
    (∃ request, halMplsRequest inLabel outLabel outIfindex nextHop (some dest) = some request ∧
      request.Carries outLabel) ↔ outLabel.toNat < 2 ^ 20 ∧ (outLabel = 0 → inLabel = 0) := by
  have fits : entryLabel (labelStackEntry outLabel) = outLabel ↔ outLabel.toNat < 2 ^ 20 := by
    rw [← UInt32.toNat_inj, toNat_entryLabel]
    exact Nat.mod_eq_iff_lt (by decide)
  obtain ⟨request, made, entry⟩ := halMplsRequest_entry inLabel outLabel outIfindex nextHop dest
  have labelled : (inLabel = 0 ∨ outLabel ≠ 0) ↔ (outLabel = 0 → inLabel = 0) := by
    rw [or_comm, or_iff_not_imp_left, not_not]
  constructor
  · rintro ⟨request', made', word, entry', label, -⟩
    cases made.symm.trans made'
    rw [entry] at entry'
    split at entry'
    · rename_i present
      cases entry'
      exact ⟨fits.mp label, labelled.mp present⟩
    · cases entry'
  · rintro ⟨small, present⟩
    rw [if_pos (labelled.mpr present)] at entry
    exact ⟨request, made, _, entry, fits.mpr small, entryBottom_labelStackEntry outLabel⟩

/-! ## The handler -/

/-- An entry that is installed has the label, and is a push if and only if `push`. -/
def Output.InstallsAs (label : UInt32) (push : Prop) (o : Output) : Prop :=
  ∀ inLabel outLabel outIfindex nextHop dest,
    o = .mplsInstall inLabel outLabel outIfindex nextHop dest →
      outLabel = label ∧ (inLabel = 0 ↔ push)

/-- All that was logged from `s` to `s'` is as `P` says. -/
def Node.Logs (P : Output → Prop) (s s' : Node) : Prop :=
  ∃ new, s'.out = s.out ++ new ∧ ∀ o ∈ new, P o

variable {P : Output → Prop} {env : Env} {hal : Hal} {s s' t : Node} {info : MessageInfo} {b : Psb}
  {r : Rsb} {isNew labelChanged : Bool}

theorem Node.Logs.trans (first : s.Logs P s') (second : s'.Logs P t) : s.Logs P t := by
  obtain ⟨new, out, all⟩ := first
  obtain ⟨more, out', all'⟩ := second
  refine ⟨new ++ more, by rw [out', out, List.append_assoc], fun o mem => ?_⟩
  exact (List.mem_append.mp mem).elim (all o) (all' o)

theorem Node.Logs.of_eq (same : s'.out = s.out) : s.Logs P s' :=
  ⟨[], by rw [same, List.append_nil], fun _ mem => by cases mem⟩

/-- Any action but those that install. -/
def Act.Quiet : Act → Prop
  | .swap _ _ _ | .install _ _ _ => False
  | _ => True

theorem Act.Benign.quiet {act : Act} (benign : act.Benign) : act.Quiet := by
  cases act <;> trivial

theorem Runs.logs_quiet (runs : Runs hal Act.Quiet s s') {label : UInt32} {push : Prop} :
    s.Logs (·.InstallsAs label push) s' := by
  induction runs with
  | refl => exact .of_eq rfl
  | tail _ last ih =>
    obtain ⟨act, quiet, does⟩ := last
    obtain ⟨new, out, kinds⟩ := does.installs
    refine ih.trans ⟨new, out, fun o mem inLabel outLabel outIfindex nextHop dest entry => ?_⟩
    obtain ⟨key, rfl | rfl⟩ := kinds _ _ _ _ _ (entry ▸ mem)
    · exact quiet.elim
    · exact quiet.elim

/-- Programming a RESV installs the label of its RSB: a swap, or a push without a previous hop. -/
theorem resvProgram_logs (wf : s.Wf) (memb : b ∈ s.psbs) (memr : r ∈ s.rsbs)
    (key : b.key = r.key) :
    s.Logs (·.InstallsAs r.body.labelOut (b.body.prevHop.neighborAddr = 0))
      (resvProgram env s info b r isNew labelChanged) := by
  have benign : ∀ act : Act, act.Benign → act.Quiet := fun act => Act.Benign.quiet
  -- The entry, and then nothing that installs.
  have entry : ∀ {t t' : Node} {inLabel : UInt32}, t.out = s.out →
      (inLabel = 0 ↔ b.body.prevHop.neighborAddr = 0) →
      Runs env.toHal Act.Quiet (t.halMplsInstall inLabel r.body.labelOut
        (ntohl r.body.nextHop.logicalInterface) r.body.nextHop.neighborAddr
        b.key.session.destAddr) t' →
      s.Logs (·.InstallsAs r.body.labelOut (b.body.prevHop.neighborAddr = 0)) t' := by
    intro t t' inLabel same push rest
    refine .trans ⟨[_], congrArg (· ++ [_]) same, fun o mem => ?_⟩ rest.logs_quiet
    rintro _ _ _ _ _ rfl
    cases List.mem_singleton.mp mem
    exact ⟨rfl, push⟩
  have installed : ∀ inLabel, (inLabel ≠ 0 → ∃ x ∈ s.rsbs, x.key = r.key ∧
      x.body.labelIn = inLabel) → Does env.toHal (.install r.key r.body.labelOut
        (ntohl r.body.nextHop.logicalInterface)) s (s.halMplsInstall inLabel r.body.labelOut
          (ntohl r.body.nextHop.logicalInterface) r.body.nextHop.neighborAddr
          r.key.session.destAddr) := fun inLabel held => .install held
  unfold resvProgram
  dsimp only
  by_cases transit : b.body.prevHop.neighborAddr = 0
  · rw [if_neg (not_not_intro transit)]
    have wf' := (installed 0 fun pos => absurd rfl pos).wf wf
    refine entry rfl ⟨fun _ => transit, fun _ => rfl⟩ ?_
    rw [key]
    exact resvFollowUp_runs benign wf' memb (fun _ => trivial)
      fun _ _ _ _ => ⟨fun _ => trivial, trivial⟩
  rw [if_pos transit]
  by_cases bare : r.body.labelIn = 0
  · rw [if_pos bare]
    rcases labelMgrAlloc_cases wf.labels with none | ⟨label, labels, some, takes⟩
    · rw [none]
      dsimp only
      rw [if_pos rfl]
      have does : Does env.toHal .tuneRsb s (s.modRsb r.addr fun x => { x with labelIn := 0 }) :=
        .tuneRsb memr ⟨bare.symm, rfl⟩ rfl
      have labelled := Runs.one (show Act.tuneRsb.Quiet from trivial) does
      have here := s.mem_modRsb memr fun x => { x with labelIn := 0 }
      refine (labelled.trans ?_).logs_quiet
      split
      · have dropped : Runs env.toHal Act.Quiet _ (rsvpRsbCleanup env _ r.addr false) :=
          rsvpRsbCleanup_runs benign (does.wf wf) here trivial false
        exact dropped.trans (sendResvErr_runs benign info _ _)
      · exact sendResvErr_runs benign info _ _
    · have pos : label ≠ 0 := wf.labels.ne_zero takes.inRange
      rw [some]
      dsimp only
      rw [if_neg pos]
      have does : Does env.toHal (.swap r.key r.body.labelOut
          (ntohl r.body.nextHop.logicalInterface)) s
          (({ s with labels := labels }.modRsb r.addr fun x => { x with labelIn := label }
            ).halMplsInstall label r.body.labelOut (ntohl r.body.nextHop.logicalInterface)
              r.body.nextHop.neighborAddr r.key.session.destAddr) := .swap memr bare takes
      have here := Node.mem_modRsb { s with labels := labels } memr fun x =>
        { x with labelIn := label }
      refine entry (t := ({ s with labels := labels } : Node).modRsb r.addr fun x =>
        { x with labelIn := label }) rfl
        ⟨fun zero => absurd zero pos, fun push => absurd push transit⟩ ?_
      rw [key]
      exact resvPassedOn_runs benign (does.wf wf) memb here trivial pos (fun _ => trivial)
        fun _ _ _ _ => ⟨fun _ => trivial, trivial⟩
  · rw [if_neg bare]
    have wf' := (installed r.body.labelIn fun _ => ⟨r, memr, rfl, rfl⟩).wf wf
    refine entry rfl ⟨fun zero => absurd zero bare, fun push => absurd push transit⟩ ?_
    rw [key]
    exact resvPassedOn_runs benign wf' memb memr trivial bare (fun _ => trivial)
      fun _ _ _ _ => ⟨fun _ => trivial, trivial⟩

/-- The PSB of the message has no previous hop: its entry is a push. -/
def MessageInfo.Pushes (s : Node) (info : MessageInfo) : Prop :=
  ∃ b, s.rsvpPsbFind info.key = some b ∧ b.body.prevHop.neighborAddr = 0

theorem pushes_iff (wf : s.Wf) (memb : b ∈ s.psbs) (key : b.key = info.key) :
    info.Pushes s ↔ b.body.prevHop.neighborAddr = 0 := by
  have found : s.rsvpPsbFind info.key = some b := key ▸ wf.psbKeyed.find_of_mem memb
  constructor
  · rintro ⟨c, found', push⟩
    cases found.symm.trans found'
    exact push
  · exact fun push => ⟨b, found, push⟩

/-- A RESV at its RSB. -/
theorem resvArrived_logs (wf : s.Wf) (memb : b ∈ s.psbs) (memr : r ∈ s.rsbs)
    (tied : r.body.associatedPsb = some b.addr) (key : r.key = info.key) :
    s.Logs (·.InstallsAs info.labelValue (b.body.prevHop.neighborAddr = 0))
      (resvArrived env s info r.addr isNew) := by
  have keyB : b.key = r.key := (wf.psb_of_rsb memb memr tied).1
  cases blockaded : resvBlockaded s info r.body with
  | true =>
    rw [resvArrived_blockaded memr tied key blockaded]
    split <;> exact .of_eq rfl
  | false =>
    have keeps := resvStored_keeps info b.body.isIngress r.body
    have here := s.mem_modRsb memr (resvStored info b.body.isIngress)
    have wf' := wf.modRsb memr keeps.associatedPsb
    rw [resvArrived_admitted memb memr tied key blockaded]
    split
    · exact resvProgram_logs wf' memb here keyB
    · refine Runs.logs_quiet (resvRefresh_runs (fun _ => Act.Benign.quiet) wf' memb here ?_ trivial
        fun _ _ _ _ => trivial)
      exact keeps.associatedPsb.trans tied

/-- Whatever a RESV installs has its label, and is a push at the head of the LSP. -/
theorem handleResvMessage_logs (wf : s.Wf) :
    s.Logs (·.InstallsAs info.labelValue (info.Pushes s)) (handleResvMessage env s info) := by
  cases valid : rsvpValidateResvMessage s info with
  | some err =>
    rw [handleResvMessage, valid]
    exact (sendResvErr_runs (fun _ => Act.Benign.quiet) info _ _).logs_quiet
  | none =>
    have turn := @handleResvMessage_turn env s info wf
    generalize handleResvMessage env s info = t at turn ⊢
    cases turn with
    | refused _ invalid => exact absurd valid invalid
    | noMemory => exact .of_eq rfl
    | found _ memb keyB memr key tied =>
      rw [pushes_iff wf memb keyB]
      exact resvArrived_logs wf memb memr tied key
    | @first b r rsbs _ first =>
      rw [pushes_iff wf first.memb first.key]
      exact resvArrived_logs (b := b.linked r) (r := b.newRsb r) (first.does.wf wf) first.mem_linked
        first.mem_new rfl first.key

/-! ## From the LABEL to the kernel -/

/-- The kernel gets the label of the RESV: every entry that is installed puts it on packets, and a
label of more than 20 bits is refused, with nothing but the log changed. -/
structure LabelProgrammed (env : Env) (s : Node) (info : MessageInfo) : Prop where
  carries : ∀ new, (handleResvMessage env s info).out = s.out ++ new →
    ∀ inLabel outLabel outIfindex nextHop dest,
      .mplsInstall inLabel outLabel outIfindex nextHop dest ∈ new →
      ∃ request, halMplsRequest inLabel outLabel outIfindex (some nextHop) (some dest) =
        some request ∧ request.Carries info.labelValue
  refused : 2 ^ 20 ≤ info.labelValue.toNat →
    handleResvMessage env s info = { s with out := (handleResvMessage env s info).out }

/-- The outputs of `s'` after those of `s` have an entry. -/
def Node.Installs (s s' : Node) : Prop :=
  ∃ new, s'.out = s.out ++ new ∧ ∃ inLabel outLabel outIfindex nextHop dest,
    .mplsInstall inLabel outLabel outIfindex nextHop dest ∈ new

/-- What is installed carries its label exactly when that can be done. -/
theorem carries_logged_iff (wf : s.Wf) {new : List Output}
    (out : (handleResvMessage env s info).out = s.out ++ new) {inLabel outLabel outIfindex : UInt32}
    {nextHop dest : InAddr}
    (mem : .mplsInstall inLabel outLabel outIfindex nextHop dest ∈ new) :
    (∃ request, halMplsRequest inLabel outLabel outIfindex (some nextHop) (some dest) =
      some request ∧ request.Carries info.labelValue) ↔
      info.labelValue.toNat < 2 ^ 20 ∧ (info.labelValue = 0 → info.Pushes s) := by
  obtain ⟨logged, out', all⟩ := @handleResvMessage_logs env s info wf
  cases List.append_cancel_left (out.symm.trans out')
  obtain ⟨rfl, push⟩ := all _ mem _ _ _ _ _ rfl
  rw [carries_iff, push]

/-- A RESV that installs an entry gets its label to the kernel exactly when the label fits into 20
bits and, where the entry is a swap, is not 0. -/
theorem labelProgrammed_iff (wf : s.Wf) (installs : s.Installs (handleResvMessage env s info)) :
    LabelProgrammed env s info ↔
      info.labelValue.toNat < 2 ^ 20 ∧ (info.labelValue = 0 → info.Pushes s) := by
  constructor
  · intro programmed
    obtain ⟨new, out, _, _, _, _, _, mem⟩ := installs
    exact (carries_logged_iff wf out mem).mp (programmed.carries new out _ _ _ _ _ mem)
  · intro fits
    refine ⟨fun new out _ _ _ _ _ mem => (carries_logged_iff wf out mem).mpr fits, fun wide => ?_⟩
    exact absurd fits.1 (Nat.not_lt.mpr wide)

/-! ## A transit node -/

/-- A transit node that has passed on the PATH of an LSP. -/
def sampleForwarder : Node :=
  (Node.init (labelMgrInit 16 31 true)).step (sampleEnv (fun _ => false) 1)
    (.recv (samplePath 0x0300000A 1 5))

theorem reachable_sampleForwarder : Reachable (labelMgrInit 16 31 true) sampleForwarder :=
  .step _ _ .init

/-- A RESV with the label, for which the node installs a swap from its label 16. -/
def sampleSwaps (label : UInt32) : Bool :=
  (rsvpParsePacket (sampleResv 0x0300000A 1 label 7)).toOption.any fun info =>
    info.labelValue = label ∧
      (handleResvMessage (sampleEnv (fun _ => false) 1) sampleForwarder info).out[
        sampleForwarder.out.length]? = some (.mplsInstall 16 label 7 0x0300000A 0x0300000A)

theorem exists_of_sampleSwaps {label : UInt32} (swaps : sampleSwaps label = true) :
    ∃ info new, rsvpParsePacket (sampleResv 0x0300000A 1 label 7) = .ok info ∧
      info.labelValue = label ∧
      (handleResvMessage (sampleEnv (fun _ => false) 1) sampleForwarder info).out =
        sampleForwarder.out ++ new ∧ .mplsInstall 16 label 7 0x0300000A 0x0300000A ∈ new := by
  obtain ⟨info, parsed, both⟩ := ParseResult.exists_ok_of_any swaps
  obtain ⟨value, entry⟩ := of_decide_eq_true both
  have wf := reachable_sampleForwarder.wf
    (labelMgrInit_wf (by decide) (by decide) (by decide)).1
  obtain ⟨new, out, -⟩ := @handleResvMessage_logs (sampleEnv (fun _ => false) 1) _ info wf
  rw [out, List.getElem?_append_right (Nat.le_refl _), Nat.sub_self] at entry
  exact ⟨info, new, parsed, value, out, List.mem_of_getElem? entry⟩

/-- Label 100 gets to the kernel. -/
theorem labelProgrammed_iff_transit :
    ∃ info, rsvpParsePacket (sampleResv 0x0300000A 1 100 7) = .ok info ∧
      LabelProgrammed (sampleEnv (fun _ => false) 1) sampleForwarder info := by
  obtain ⟨info, new, parsed, value, out, mem⟩ := exists_of_sampleSwaps
    (show sampleSwaps 100 = true by decide +kernel)
  have wf := reachable_sampleForwarder.wf
    (labelMgrInit_wf (by decide) (by decide) (by decide)).1
  refine ⟨info, parsed, (labelProgrammed_iff wf ⟨new, out, _, _, _, _, _, mem⟩).mpr ?_⟩
  rw [value]
  exact ⟨by decide, fun zero => absurd zero (by decide)⟩

/-- Label 2^20 + 16 is programmed as label 16. -/
theorem exists_label_cut :
    Reachable (labelMgrInit 16 31 true) sampleForwarder ∧ ∃ info,
      rsvpParsePacket (sampleResv 0x0300000A 1 0x100010 7) = .ok info ∧
      sampleForwarder.Installs
        (handleResvMessage (sampleEnv (fun _ => false) 1) sampleForwarder info) ∧
      halMplsRequest 16 info.labelValue 7 (some 0x0300000A) (some 0x0300000A) =
        halMplsRequest 16 16 7 (some 0x0300000A) (some 0x0300000A) ∧
      ¬ LabelProgrammed (sampleEnv (fun _ => false) 1) sampleForwarder info := by
  obtain ⟨info, new, parsed, value, out, mem⟩ := exists_of_sampleSwaps
    (show sampleSwaps 0x100010 = true by decide +kernel)
  have wf := reachable_sampleForwarder.wf
    (labelMgrInit_wf (by decide) (by decide) (by decide)).1
  refine ⟨reachable_sampleForwarder, info, parsed, ⟨new, out, _, _, _, _, _, mem⟩, ?_, ?_⟩
  · rw [value]
    decide +kernel
  · intro programmed
    obtain ⟨small, -⟩ := (carries_logged_iff wf out mem).mp
      (programmed.carries new out _ _ _ _ _ mem)
    rw [value] at small
    exact absurd small (by decide)

end Rsvp
