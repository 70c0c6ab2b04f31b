import RsvpTe.Effects

/-!
# The actions of each handler

For every sender, handler, timer callback and operator call: the sequence of actions it is.  The
results carry the guards under which an action other than the benign ones is taken, so that an
invariant that holds only while some action is not taken can be read off the event.
-/

namespace Rsvp

open Words

variable {env : Env} {ok : Act → Prop} {s : Node}

/-- A PSB in its place after an update. -/
theorem Node.mem_modPsb (s : Node) {b : Psb} (mem : b ∈ s.psbs) (f : PsbState → PsbState) :
    { b with body := f b.body } ∈ (s.modPsb b.addr f).psbs :=
  Table.mem_modify.mpr (.inr ⟨b, mem, rfl, rfl⟩)

/-- An RSB in its place after an update. -/
theorem Node.mem_modRsb (s : Node) {r : Rsb} (mem : r ∈ s.rsbs) (f : RsbState → RsbState) :
    { r with body := f r.body } ∈ (s.modRsb r.addr f).rsbs :=
  Table.mem_modify.mpr (.inr ⟨r, mem, rfl, rfl⟩)

/-! ## Senders -/

theorem sendResv_runs {b : Psb} {r : Rsb} (memb : b ∈ s.psbs) (memr : r ∈ s.rsbs)
    (tied : r.body.associatedPsb = some b.addr) (label : r.body.labelIn ≠ 0)
    (allowed : ok (.resv r.key)) : Runs env.toHal ok s (sendResv env s b r) := by
  unfold sendResv
  rcases rsvpSendPacket_cases _ _ _ _ _ with same | sent
  · exact .of_eq same
  · rw [sent]
    exact .one allowed (.resv memb memr tied label)

/-- A message of another type leaves as one packet, or not at all. -/
theorem send_minor_cases (s : Node) (src dest : InAddr) {size : Nat} {msgType ttl : UInt8}
    {calls : List AddCall} (fits : commonHdrLen + spans calls ≤ size)
    (minor : msgType ≠ msgPath ∧ msgType ≠ msgResv) (useRao : Bool) :
    rsvpSendPacket s src dest (built size msgType ttl calls) useRao = s ∨
      ∃ bytes, (Output.packet dest useRao bytes).Minor ∧
        rsvpSendPacket s src dest (built size msgType ttl calls) useRao =
          s.emit (.packet dest useRao bytes) := by
  rcases rsvpSendPacket_cases s src dest (built size msgType ttl calls) useRao with same | sent
  · exact .inl same
  · refine .inr ⟨_, ?_, sent⟩
    rw [Output.Minor, msgType_built msgType ttl fits]
    exact ⟨fun same => minor.1 (Option.some.inj same), fun same => minor.2 (Option.some.inj same)⟩

theorem propagateResvTear_cases (s : Node) (r : Ptr) :
    propagateResvTear env s r = s ∨
      ∃ dest useRao bytes, (Output.packet dest useRao bytes).Minor ∧
        propagateResvTear env s r = s.emit (.packet dest useRao bytes) := by
  unfold propagateResvTear
  split
  · exact .inl rfl
  · rename_i rsb _
    split
    · exact .inl rfl
    · simp only
      split
      · exact .inl rfl
      · obtain ⟨-, fits, -⟩ := short_calls_fit _ rsb.body ⟨0, 0, 0, 0⟩ none _ _
        rw [resvTearMessage_eq]
        have other : msgResvTear ≠ msgPath ∧ msgResvTear ≠ msgResv := ⟨by decide, by decide⟩
        rcases send_minor_cases s _ _ fits other false with same | ⟨bytes, minor, sent⟩
        · exact .inl same
        · exact .inr ⟨_, _, bytes, minor, sent⟩

section Senders

variable (benign : ∀ act, act.Benign → ok act)
include benign

theorem runs_minor (s : Node) (src dest : InAddr) {size : Nat} {msgType ttl : UInt8}
    {calls : List AddCall} (fits : commonHdrLen + spans calls ≤ size)
    (minor : msgType ≠ msgPath ∧ msgType ≠ msgResv) (useRao : Bool) :
    Runs env.toHal ok s (rsvpSendPacket s src dest (built size msgType ttl calls) useRao) := by
  rcases @send_minor_cases s src dest _ _ ttl _ fits minor useRao with same | ⟨o, minor, sent⟩
  · exact .of_eq same
  · rw [sent]
    exact .one (benign .send trivial) (.send minor)

/-- An update of a PSB that keeps its references and its previous hop. -/
theorem runs_tunePsb (p : Ptr) {f : PsbState → PsbState} (keeps : ∀ b : PsbState, b.Keeps (f b))
    (hop : ∀ b, (f b).prevHop = b.prevHop) (bypass : ∀ b, (f b).bypassPsb = b.bypassPsb) :
    Runs env.toHal ok s (s.modPsb p f) := by
  cases found : s.psbs.get p with
  | none => exact .of_eq (congrArg (fun psbs => { s with psbs }) (Table.modify_of_get_eq_none found f))
  | some b =>
    obtain ⟨mem, rfl⟩ := Table.get_eq_some.mp found
    exact .one (benign .tunePsb trivial) (.tunePsb mem (keeps _) (hop _) (bypass _))

theorem runs_tuneRsb (p : Ptr) {f : RsbState → RsbState} (keeps : ∀ r : RsbState, r.Keeps (f r))
    (label : ∀ r, (f r).labelOut = r.labelOut) : Runs env.toHal ok s (s.modRsb p f) := by
  cases found : s.rsbs.get p with
  | none => exact .of_eq (congrArg (fun rsbs => { s with rsbs }) (Table.modify_of_get_eq_none found f))
  | some r =>
    obtain ⟨mem, rfl⟩ := Table.get_eq_some.mp found
    exact .one (benign .tuneRsb trivial) (.tuneRsb mem (keeps _) (label _))

theorem sendPathDownstream_runs (p : Ptr) :
    Runs env.toHal ok s (sendPathDownstream env s p) := by
  unfold sendPathDownstream
  split
  · exact .refl s
  · rename_i psb found
    obtain ⟨mem, rfl⟩ := Table.get_eq_some.mp found
    simp only
    have popped : Runs env.toHal ok s (s.modPsb psb.addr fun b =>
        { b with ero := (resolvePathNextHop env.toHal psb.key psb.body).2.2 }) :=
      runs_tunePsb benign _ (fun _ => .of_same rfl rfl rfl rfl id) (fun _ => rfl) fun _ => rfl
    split
    · exact popped
    · rename_i ifindex route
      have here := s.mem_modPsb mem fun b =>
        { b with ero := (resolvePathNextHop env.toHal psb.key psb.body).2.2 }
      have routed := popped.trans (runs_tunePsb benign psb.addr (f := fun b =>
        { b with ifindexOut := ifindex }) (fun _ => .of_same rfl rfl rfl rfl id) (fun _ => rfl)
        fun _ => rfl)
      rcases rsvpSendPacket_cases _ _ _ _ _ with same | sent
      · rw [same]
        exact routed
      · rw [sent]
        exact routed.snoc (benign .path trivial)
          (.path ⟨_, Node.mem_modPsb _ here _, rfl⟩ route)

theorem sendResvUpstream_runs (wf : s.Wf) {r : Rsb} (mem : r ∈ s.rsbs)
    (allowed : ok (.resv r.key))
    (advertise : r.body.labelIn = 0 → (labelMgrAlloc s.labels).1 ≠ 0 → ok (.advertise r.key)) :
    Runs env.toHal ok s (sendResvUpstream env s r.addr) := by
  obtain ⟨b, memb, -, tied, -⟩ := wf.owned r mem
  have psb : s.psbOf r.body = some b := by
    rw [Node.psbOf, tied]
    exact Table.get_of_mem memb
  unfold sendResvUpstream
  rw [Table.get_of_mem mem]
  simp only [psb]
  split
  · rename_i bare
    rcases labelMgrAlloc_cases wf.labels with none | ⟨label, labels, some, takes⟩
    · rw [none, if_pos rfl]
      exact .one (benign .tuneRsb trivial) (.tuneRsb mem ⟨bare.symm, rfl⟩ rfl)
    · have pos : label ≠ 0 := wf.labels.ne_zero takes.inRange
      have advertises := advertise bare (by rw [some]; exact pos)
      rw [some, if_neg pos]
      refine .trans (.one advertises (.advertise mem bare takes)) ?_
      exact sendResv_runs memb (Node.mem_modRsb _ mem _) tied pos allowed
  · exact sendResv_runs memb mem tied ‹_› allowed

theorem propagatePathTear_runs (p : Ptr) : Runs env.toHal ok s (propagatePathTear env s p) := by
  unfold propagatePathTear
  split
  · exact .refl s
  · rename_i psb found
    obtain ⟨mem, rfl⟩ := Table.get_eq_some.mp found
    simp only
    have popped : Runs env.toHal ok s (s.modPsb psb.addr fun b =>
        { b with ero := (resolvePathNextHop env.toHal psb.key psb.body).2.2 }) :=
      runs_tunePsb benign _ (fun _ => .of_same rfl rfl rfl rfl id) (fun _ => rfl) fun _ => rfl
    split
    · exact popped
    · obtain ⟨fits, -⟩ := short_calls_fit psb.key .zero ⟨0, 0, 0, 0⟩ none _ _
      exact popped.trans (runs_minor benign _ _ _ fits ⟨by decide, by decide⟩ true)

theorem sendPathErr_runs (info : MessageInfo) (errCode : UInt8) (errVal : UInt16) :
    Runs env.toHal ok s (sendPathErr env s info errCode errVal) := by
  obtain ⟨-, -, fits, -⟩ := short_calls_fit info.key .zero
    (localError env.toHal errCode errVal) none 0 0
  exact runs_minor benign _ _ _ fits ⟨by decide, by decide⟩ false

theorem sendResvErr_runs (info : MessageInfo) (errCode : UInt8) (errVal : UInt16) :
    Runs env.toHal ok s (sendResvErr env s info errCode errVal) := by
  obtain ⟨-, -, -, fits, -⟩ := short_calls_fit info.key .zero
    (localError env.toHal errCode errVal) none 0 0
  exact runs_minor benign _ _ _ fits ⟨by decide, by decide⟩ false

theorem handlePathErr_runs (info : MessageInfo) :
    Runs env.toHal ok s (handlePathErr env s info) := by
  unfold handlePathErr
  split
  · exact .refl s
  · simp only
    split
    · exact .refl s
    · obtain ⟨-, -, -, -, fits, -⟩ := short_calls_fit _ .zero ⟨0, 0, 0, 0⟩ info.errorSpec _ _
      rw [pathErrRelay_eq]
      exact runs_minor benign _ _ _ fits ⟨by decide, by decide⟩ false

theorem propagateResvErr_runs (rsb : Rsb) (spec : Option ErrorSpec) :
    Runs env.toHal ok s (propagateResvErr env s rsb spec) := by
  unfold propagateResvErr
  split
  · exact .refl s
  · simp only
    split
    · exact .refl s
    · obtain ⟨-, -, -, -, -, fits⟩ := short_calls_fit _ .zero ⟨0, 0, 0, 0⟩ spec _ _
      rw [resvErrRelay_eq]
      exact runs_minor benign _ _ _ fits ⟨by decide, by decide⟩ false

end Senders

/-! ## Teardown -/

/-- Unlinking an RSB whose PSB already forgot it. -/
theorem rsvpRsbDelete_cut {b : Psb} {r : Rsb} (mem : r ∈ s.rsbs)
    (tied : r.body.associatedPsb = some b.addr) :
    (s.modPsb b.addr fun x => { x with associatedRsb := none }).rsvpRsbDelete r.addr =
      { s with
        psbs := s.psbs.modify b.addr fun x => { x with associatedRsb := none }
        rsbs := s.rsbs.unlink r.addr } := by
  have here : (s.modPsb b.addr fun x => { x with associatedRsb := none }).rsbs.get r.addr =
      some r := Table.get_of_mem mem
  unfold Node.rsvpRsbDelete
  rw [here]
  simp only [tied, Node.modPsb, Table.modify_modify]
  rfl

/-- What is released with an RSB: its label and entry, or the push entry of an ingress. -/
theorem rsbCleanupResources_spec {b : Psb} {r : Rsb} (mem : r ∈ s.rsbs)
    (psb : s.psbOf r.body = some b) :
    ∃ (t : Node) (f : RsbState → RsbState), rsbCleanupResources s r.addr = t.modRsb r.addr f ∧
      (∀ x, (f x).associatedPsb = x.associatedPsb) ∧ t.psbs = s.psbs ∧ t.rsbs = s.rsbs ∧
      t.labels =
        (if r.body.labelIn = 0 then s.labels else labelMgrFree s.labels r.body.labelIn) ∧
      (∀ label ≠ 0, t.fwd (.label label) =
        if label = r.body.labelIn then none else s.fwd (.label label)) ∧
      (∀ k e, t.fwd k = some e → s.fwd k = some e) ∧ t.bsbs = s.bsbs ∧
      ∃ removed, t.out = s.out ++ removed ∧
        ∀ o ∈ removed, ∃ label dest, o = .mplsRemove label dest := by
  have erased : ∀ k₀ k e, Function.update s.fwd k₀ none k = some e → s.fwd k = some e := by
    intro k₀ k e entry
    rw [Function.update_apply] at entry
    split at entry
    · cases entry
    · exact entry
  unfold rsbCleanupResources
  rw [Table.get_of_mem mem]
  simp only [psb, Option.any_some, Option.map_some]
  by_cases bare : r.body.labelIn = 0
  · have other : ∀ label ≠ 0, (if label = r.body.labelIn then none else s.fwd (.label label)) =
        s.fwd (.label label) := fun label pos => if_neg (bare ▸ pos)
    rw [if_neg (not_not_intro bare), if_pos bare]
    split
    · refine ⟨s.halMplsRemove 0 (some b.key.session.destAddr), _, rfl, fun _ => rfl, rfl, rfl,
        rfl, ?_, erased _, rfl, [_], rfl, ?_⟩
      · intro label pos
        have key : fwdKey 0 b.key.session.destAddr = .push b.key.session.destAddr := if_pos rfl
        change Function.update s.fwd (fwdKey 0 b.key.session.destAddr) none (.label label) = _
        rw [other label pos, key, Function.update_of_ne (by simp)]
      · intro o inRemoved
        exact ⟨_, _, List.mem_singleton.mp inRemoved⟩
    · exact ⟨s, _, rfl, fun _ => rfl, rfl, rfl, rfl, fun label pos => (other label pos).symm,
        fun _ _ => id, rfl, [], (List.append_nil _).symm, fun _ inRemoved => by cases inRemoved⟩
  · rw [if_pos bare, if_neg bare]
    refine ⟨{ s.halMplsRemove r.body.labelIn (some b.key.session.destAddr) with
        labels := labelMgrFree s.labels r.body.labelIn },
      (fun x => { x with refreshTimer := false, cleanupTimer := false }) ∘
        fun x => { x with labelIn := 0 }, ?_, fun _ => rfl, rfl, rfl, rfl, ?_, erased _, rfl, [_],
      rfl, ?_⟩
    · simp only [Node.modRsb, Table.modify_modify]
      rfl
    · intro label pos
      have key : fwdKey r.body.labelIn b.key.session.destAddr = .label r.body.labelIn :=
        if_neg bare
      change Function.update s.fwd (fwdKey _ _) none (.label label) = _
      rw [key, Function.update_apply]
      simp only [FwdKey.label.injEq]
    · intro o inRemoved
      exact ⟨_, _, List.mem_singleton.mp inRemoved⟩

/-- The cleanup of an RSB is its release, after a ResvTear if one is due. -/
theorem rsvpRsbCleanup_released (benign : ∀ act, act.Benign → ok act) {b : Psb} {r : Rsb}
    (memb : b ∈ s.psbs) (memr : r ∈ s.rsbs) (tied : r.body.associatedPsb = some b.addr)
    (propagate : Bool) :
    ∃ t, Runs env.toHal ok s t ∧ t.psbs = s.psbs ∧ t.rsbs = s.rsbs ∧
      Released t (rsvpRsbCleanup env s r.addr propagate) b r := by
  have dropped : ∀ t : Node, t.psbs = s.psbs → t.rsbs = s.rsbs →
      Released t ((rsbCleanupResources t r.addr).modPsb b.addr
        (fun x => { x with associatedRsb := none }) |>.rsvpRsbDelete r.addr) b r := by
    intro t psbs rsbs
    have memT : r ∈ t.rsbs := rsbs ▸ memr
    have membT : b ∈ t.psbs := psbs ▸ memb
    have psbT : t.psbOf r.body = some b := by
      rw [Node.psbOf, tied]
      exact Table.get_of_mem membT
    obtain ⟨u, f, eq, keeps, uPsbs, uRsbs, labels, fwd, entries, bsbs, out⟩ :=
      rsbCleanupResources_spec memT psbT
    have memU := u.mem_modRsb (uRsbs ▸ memT) f
    rw [eq, rsvpRsbDelete_cut memU ((keeps r.body).trans tied)]
    refine ⟨?_, ?_, labels, fwd, entries, bsbs, out⟩
    · rw [← uPsbs]
      rfl
    · change (u.rsbs.modify r.addr f).unlink r.addr = _
      rw [Table.unlink_modify, uRsbs]
  unfold rsvpRsbCleanup
  rw [Table.get_of_mem memr]
  simp only [tied]
  split
  · rcases @propagateResvTear_cases env s r.addr with same | ⟨dest, useRao, bytes, minor, sent⟩
    · rw [same]
      exact ⟨s, .refl s, rfl, rfl, dropped s rfl rfl⟩
    · rw [sent]
      exact ⟨_, .one (benign .send trivial) (.send minor), rfl, rfl, dropped _ rfl rfl⟩
  · exact ⟨s, .refl s, rfl, rfl, dropped s rfl rfl⟩

theorem rsvpRsbCleanup_runs (benign : ∀ act, act.Benign → ok act) (wf : s.Wf) {r : Rsb}
    (mem : r ∈ s.rsbs) (allowed : ok (.dropRsb r.key r.body.labelIn)) (propagate : Bool) :
    Runs env.toHal ok s (rsvpRsbCleanup env s r.addr propagate) := by
  obtain ⟨b, memb, -, tied, -⟩ := wf.owned r mem
  obtain ⟨t, told, psbs, rsbs, release⟩ :=
    @rsvpRsbCleanup_released env ok s benign b r memb mem tied propagate
  exact told.snoc allowed (.dropRsb (psbs ▸ memb) (rsbs ▸ mem) tied release)

/-- A PathTear leaves the PSB in place. -/
theorem propagatePathTear_mem (env : Env) {b : Psb} (mem : b ∈ s.psbs) :
    ∃ c ∈ (propagatePathTear env s b.addr).psbs, c.addr = b.addr ∧ c.key = b.key ∧
      c.body.associatedRsb = b.body.associatedRsb ∧ c.body.isIngress = b.body.isIngress := by
  unfold propagatePathTear
  rw [Table.get_of_mem mem]
  simp only
  have here := s.mem_modPsb mem fun x =>
    { x with ero := (resolvePathNextHop env.toHal b.key b.body).2.2 }
  split
  · exact ⟨_, here, rfl, rfl, rfl, rfl⟩
  · rcases rsvpSendPacket_cases _ _ _ _ _ with same | sent
    · rw [same]
      exact ⟨_, here, rfl, rfl, rfl, rfl⟩
    · rw [sent]
      exact ⟨_, here, rfl, rfl, rfl, rfl⟩

theorem propagatePathTear_fwd (s : Node) (p : Ptr) :
    (propagatePathTear env s p).fwd = s.fwd ∧ (propagatePathTear env s p).rsbs = s.rsbs := by
  unfold propagatePathTear
  split
  · exact ⟨rfl, rfl⟩
  · simp only
    split
    · exact ⟨rfl, rfl⟩
    · rcases rsvpSendPacket_cases _ _ _ _ _ with same | sent
      · rw [same]
        exact ⟨rfl, rfl⟩
      · rw [sent]
        exact ⟨rfl, rfl⟩

/-- The node PSB `b` is removed from, with `b` as it is there: the node as it was, or after the
PathTear. -/
structure Told (env : Env) (s : Node) (b : Psb) (t : Node) (c : Psb) : Prop where
  origin : t = s ∨ t = propagatePathTear env s b.addr
  mem : c ∈ t.psbs
  addr : c.addr = b.addr
  key : c.key = b.key
  assoc : c.body.associatedRsb = b.body.associatedRsb
  ingress : c.body.isIngress = b.body.isIngress
  fwd : t.fwd = s.fwd
  rsbs : t.rsbs = s.rsbs

theorem Told.runs {b c : Psb} {t : Node} (benign : ∀ act, act.Benign → ok act)
    (told : Told env s b t c) : Runs env.toHal ok s t := by
  rcases told.origin with rfl | rfl
  · exact .refl t
  · exact propagatePathTear_runs benign b.addr

theorem Told.wf {b c : Psb} {t : Node} (told : Told env s b t c) (wf : s.Wf) : t.Wf := by
  have sent : Runs env.toHal (fun _ => True) s t := told.runs fun _ _ => trivial
  exact sent.wf wf

/-- The node after the PathTear of PSB `b`, if one is to be sent. -/
def Node.torn (env : Env) (s : Node) (b : Psb) (propagate : Bool) : Node :=
  if propagate = true ∧ env.isLocalAddr b.key.session.destAddr = false then
    propagatePathTear env s b.addr
  else s

/-- The RSB of a PSB goes first, then the PSB. -/
theorem rsvpPsbCleanup_torn (wf : s.Wf) {b : Psb} (mem : b ∈ s.psbs) (propagate : Bool) :
    ∃ c, Told env s b (s.torn env b propagate) c ∧
      (b.body.associatedRsb = none ∧
        rsvpPsbCleanup env s b.addr propagate = (s.torn env b propagate).rsvpPsbDelete b.addr ∨
      ∃ r ∈ s.rsbs, b.body.associatedRsb = some r.addr ∧ r.body.associatedPsb = some b.addr ∧
        rsvpPsbCleanup env s b.addr propagate =
          (rsvpRsbCleanup env (s.torn env b propagate) r.addr false).rsvpPsbDelete b.addr) := by
  have told : ∃ c, Told env s b (s.torn env b propagate) c := by
    unfold Node.torn
    split
    · obtain ⟨c, memc, addr, key, assoc, ingress⟩ := propagatePathTear_mem env mem
      obtain ⟨fwd, rsbs⟩ := @propagatePathTear_fwd env s b.addr
      exact ⟨c, .inr rfl, memc, addr, key, assoc, ingress, fwd, rsbs⟩
    · exact ⟨b, .inl rfl, mem, rfl, rfl, rfl, rfl, rfl, rfl⟩
  obtain ⟨c, told⟩ := told
  refine ⟨c, told, ?_⟩
  unfold rsvpPsbCleanup Node.torn
  rw [Table.get_of_mem mem]
  dsimp only
  cases assoc : b.body.associatedRsb with
  | none => exact .inl ⟨rfl, rfl⟩
  | some a =>
    obtain ⟨r, memr, rfl, tied⟩ := wf.linked b mem a assoc
    exact .inr ⟨r, memr, rfl, tied, rfl⟩

theorem rsvpPsbCleanup_cases (wf : s.Wf) {b : Psb} (mem : b ∈ s.psbs) (propagate : Bool) :
    ∃ t c, Told env s b t c ∧
      (b.body.associatedRsb = none ∧
        rsvpPsbCleanup env s b.addr propagate = t.rsvpPsbDelete b.addr ∨
      ∃ r ∈ s.rsbs, b.body.associatedRsb = some r.addr ∧ r.body.associatedPsb = some b.addr ∧
        rsvpPsbCleanup env s b.addr propagate =
          (rsvpRsbCleanup env t r.addr false).rsvpPsbDelete b.addr) :=
  ⟨_, rsvpPsbCleanup_torn wf mem propagate⟩

/-- A PSB without an RSB is just unlinked. -/
theorem rsvpPsbDelete_alone {b : Psb} (mem : b ∈ s.psbs) (alone : b.body.associatedRsb = none) :
    s.rsvpPsbDelete b.addr = { s with psbs := s.psbs.unlink b.addr } := by
  unfold Node.rsvpPsbDelete
  rw [Table.get_of_mem mem]
  simp only [alone]

theorem rsvpPsbCleanup_runs (benign : ∀ act, act.Benign → ok act) (wf : s.Wf) {b : Psb}
    (mem : b ∈ s.psbs) (dropRsb : ∀ label, ok (.dropRsb b.key label))
    (dropPsb : ok (.dropPsb b.addr)) (propagate : Bool) :
    Runs env.toHal ok s (rsvpPsbCleanup env s b.addr propagate) := by
  obtain ⟨t, c, told, removed⟩ := @rsvpPsbCleanup_cases env s wf b mem propagate
  have wfT := told.wf wf
  refine (told.runs benign).trans ?_
  rcases removed with ⟨alone, eq⟩ | ⟨r, memr, -, tied, eq⟩
  · have alone' := told.assoc.trans alone
    rw [eq, ← told.addr, rsvpPsbDelete_alone told.mem alone']
    exact .one (told.addr ▸ dropPsb) (.dropPsb told.mem alone')
  · have memT : r ∈ t.rsbs := told.rsbs ▸ memr
    have tiedT : r.body.associatedPsb = some c.addr := told.addr ▸ tied
    obtain ⟨u, sent, psbs, rsbs, release⟩ :=
      @rsvpRsbCleanup_released env ok t benign c r told.mem memT tiedT false
    have rkey : c.key = r.key := (wfT.psb_of_rsb told.mem memT tiedT).1
    have left : { c with body := { c.body with associatedRsb := none } } ∈
        (rsvpRsbCleanup env t r.addr false).psbs := by
      rw [release.psbs, psbs]
      exact Table.mem_modify.mpr (.inr ⟨c, told.mem, rfl, rfl⟩)
    have released : Runs env.toHal ok t (rsvpRsbCleanup env t r.addr false) := by
      refine sent.snoc ?_ (.dropRsb (psbs ▸ told.mem) (rsbs ▸ memT) tiedT release)
      rw [← rkey, told.key]
      exact dropRsb _
    rw [eq]
    refine released.trans ?_
    rw [← told.addr, show c.addr =
        ({ c with body := { c.body with associatedRsb := none } } : Psb).addr
      from rfl, rsvpPsbDelete_alone left rfl]
    exact .one (told.addr ▸ dropPsb) (.dropPsb left rfl)

/-! ## Fast reroute and make-before-break helpers -/

theorem Runs.foldl {hal : Hal} {f : Node → Ptr → Node} (each : ∀ s p, Runs hal ok s (f s p))
    (l : List Ptr) (s : Node) : Runs hal ok s (l.foldl f s) := by
  induction l generalizing s with
  | nil => exact .refl s
  | cons p l ih => exact (each s p).trans (ih (f s p))

theorem rsvpFrrAutoAssociate_runs {hal : Hal} (arm : ok .arm) (s : Node) (p : Ptr) :
    Runs hal ok s (rsvpFrrAutoAssociate s p) := by
  unfold rsvpFrrAutoAssociate
  split
  · exact .refl s
  · rename_i psb found
    obtain ⟨mem, rfl⟩ := Table.get_eq_some.mp found
    split
    · exact .refl s
    · split
      · exact .refl s
      · rename_i c scanned
        have memc : c ∈ s.psbs := List.mem_of_find?_eq_some scanned
        have ready := List.find?_some scanned
        simp only [bypassReady, Bool.and_eq_true] at ready
        exact .one arm (.arm mem memc ready.1.1 (.of_same rfl rfl rfl rfl id) rfl rfl)

theorem rsvpFrrAutoAssociateAll_runs {hal : Hal} (arm : ok .arm) (s : Node) (ifindex : UInt32) :
    Runs hal ok s (rsvpFrrAutoAssociateAll s ifindex) := by
  refine Runs.foldl (fun t p => ?_) _ s
  split
  · exact .refl t
  · repeat' split
    all_goals first | exact .refl t | exact rsvpFrrAutoAssociate_runs arm t p

theorem rsvpMbbComplete_runs (benign : ∀ act, act.Benign → ok act) (wf : s.Wf) {b : Psb}
    (mem : b ∈ s.psbs)
    (drops : ∀ old, s.rsvpPsbFindById (ntohs b.key.session.tunnelId) b.body.mbbOldLspId = some old →
      (∀ label, ok (.dropRsb old.key label)) ∧ ok (.dropPsb old.addr)) :
    Runs env.toHal ok s (rsvpMbbComplete env s b.addr) := by
  have cleared : ∀ t : Node, Runs env.toHal ok t
      (t.modPsb b.addr fun x => { x with isMbbPending := false, mbbOldLspId := 0 }) :=
    fun t => runs_tunePsb benign b.addr (fun _ => ⟨rfl, rfl, (by rintro ⟨⟩), id⟩)
      (fun _ => rfl) fun _ => rfl
  unfold rsvpMbbComplete
  rw [Table.get_of_mem mem]
  simp only
  split
  · exact cleared s
  · rename_i old scanned
    have memOld : old ∈ s.psbs := List.mem_of_find?_eq_some scanned
    obtain ⟨dropRsb, dropPsb⟩ := drops old scanned
    exact (rsvpPsbCleanup_runs benign wf memOld dropRsb dropPsb true).trans (cleared _)

/-! ## PATH -/

theorem Node.rsvpPsbCreate_eq_some {t : Node} {key : PathKey} {p : Ptr}
    (made : s.rsvpPsbCreate env key = some (p, t)) :
    ∃ psbs, s.psbs.create rsvpKeyHash env.psbMem key .zero = some (p, psbs) ∧
      t = { s with psbs } := by
  obtain ⟨⟨q, psbs⟩, created, same⟩ := Option.map_eq_some_iff.mp made
  cases same
  exact ⟨psbs, created, rfl⟩

theorem Node.rsvpRsbCreate_eq_some {t : Node} {key : PathKey} {r : Ptr}
    (made : s.rsvpRsbCreate env key = some (r, t)) :
    ∃ rsbs, s.rsbs.create rsvpKeyHash env.rsbMem key .zero = some (r, rsbs) ∧
      t = { s with rsbs } := by
  obtain ⟨⟨q, rsbs⟩, created, same⟩ := Option.map_eq_some_iff.mp made
  cases same
  exact ⟨rsbs, created, rfl⟩

/-- The fields of a PSB that no PATH touches. -/
structure PsbState.Spared (old new : PsbState) : Prop where
  associatedRsb : new.associatedRsb = old.associatedRsb
  isBypassTunnel : new.isBypassTunnel = old.isBypassTunnel
  bypassPsb : new.bypassPsb = old.bypassPsb
  isMbbPending : new.isMbbPending = old.isMbbPending
  mbbOldLspId : new.mbbOldLspId = old.mbbOldLspId

/-- The ERO that a PATH leaves in a PSB before a hop is popped. -/
def MessageInfo.eroOr (info : MessageInfo) (kept : Route) : Route :=
  (info.objs .ero).elim kept fun o => .ofBytes o.data

/-- The protection mode and bandwidth that a PATH leaves in a PSB. -/
def MessageInfo.frrOr (info : MessageInfo) (psb : PsbState) : FrrMode × UInt32 :=
  match info.objs .fastReroute with
  | none => (psb.frrMode, psb.frrBandwidth)
  | some o =>
    let request := FastReroute.ofBytes o.data
    if psb.isBypassTunnel then (psb.frrMode, psb.frrBandwidth)
    else if request.flags &&& frrFlagFacility ≠ 0 then
      (.facility, Binary32.toUInt32 (ntohl request.bandwidth))
    else if request.flags &&& frrFlagOneToOne ≠ 0 then (.oneToOne, psb.frrBandwidth)
    else (psb.frrMode, psb.frrBandwidth)

/-- Each field that a PATH writes, from the PSB as it was. -/
theorem pathUpdate_eq (env : Env) (info : MessageInfo) (psb : PsbState) :
    pathUpdate env info psb =
      { psb with
        refreshMs := (info.objs .timeValues).elim psb.refreshMs fun o => ntohl (u32At o.data 0)
        ttl := info.commonHdr.ttl
        ero := info.eroOr psb.ero
        rro := (info.objs .rro).elim psb.rro fun o => .ofBytes o.data
        tspec := (info.objs .tspec).elim psb.tspec fun o => tspecCopyAndNtoh (.ofBytes o.data)
        setupPrio := (info.objs .sessAttr).elim psb.setupPrio fun o => u8At o.data 0
        holdingPrio := (info.objs .sessAttr).elim psb.holdingPrio fun o => u8At o.data 1
        frrMode := (info.frrOr psb).1
        frrBandwidth := (info.frrOr psb).2
        lspName := if cString info.lspName = [] then psb.lspName else env.strdup info.lspName
        prevHop := (info.objs .hopV4).elim psb.prevHop fun o => .ofBytes o.data
        ifindexIn := (info.objs .hopV4).elim psb.ifindexIn fun o =>
          ntohl (HopIpv4.ofBytes o.data).logicalInterface
        cleanupTimer := true
        refreshTimer := true } := by
  unfold pathUpdate
  extract_lets p1 p2 p3 p4 p5 p6 p7 p8 p9
  have h1 : p1 = { psb with
      refreshMs := (info.objs .timeValues).elim psb.refreshMs fun o => ntohl (u32At o.data 0) } := by
    dsimp only [p1]
    cases info.objs .timeValues <;> rfl
  have h3 : p3 = { p2 with ero := info.eroOr p2.ero } := by
    dsimp only [p3, MessageInfo.eroOr]
    cases info.objs .ero <;> rfl
  have h4 : p4 = { p3 with rro := (info.objs .rro).elim p3.rro fun o => .ofBytes o.data } := by
    dsimp only [p4]
    cases info.objs .rro <;> rfl
  have h5 : p5 = { p4 with
      tspec := (info.objs .tspec).elim p4.tspec fun o => tspecCopyAndNtoh (.ofBytes o.data) } := by
    dsimp only [p5]
    cases info.objs .tspec <;> rfl
  have h6 : p6 = { p5 with
      setupPrio := (info.objs .sessAttr).elim p5.setupPrio fun o => u8At o.data 0
      holdingPrio := (info.objs .sessAttr).elim p5.holdingPrio fun o => u8At o.data 1 } := by
    dsimp only [p6]
    cases info.objs .sessAttr <;> rfl
  have h7 : p7 = { p6 with frrMode := (info.frrOr p6).1, frrBandwidth := (info.frrOr p6).2 } := by
    dsimp only [p7, MessageInfo.frrOr]
    cases info.objs .fastReroute with
    | none => rfl
    | some o =>
      dsimp only
      split_ifs <;> rfl
  have h8 : p8 = { p7 with
      lspName := if cString info.lspName = [] then p7.lspName else env.strdup info.lspName } := by
    dsimp only [p8]
    split <;> rfl
  have h9 : p9 = { p8 with
      prevHop := (info.objs .hopV4).elim p8.prevHop fun o => .ofBytes o.data
      ifindexIn := (info.objs .hopV4).elim p8.ifindexIn fun o =>
        ntohl (HopIpv4.ofBytes o.data).logicalInterface } := by
    dsimp only [p9]
    cases info.objs .hopV4 <;> rfl
  rw [h9, h8, h7, h6, h5, h4, h3]
  dsimp only [p2]
  rw [h1]
  rfl

theorem pathUpdate_spared (env : Env) (info : MessageInfo) (psb : PsbState) :
    psb.Spared (pathUpdate env info psb) := by
  rw [pathUpdate_eq]
  exact ⟨rfl, rfl, rfl, rfl, rfl⟩

/-- The previous hop of an accepted PATH is stored. -/
theorem pathUpdate_hop (env : Env) {info : MessageInfo} (held : info.objs .hopV4 ≠ none)
    (psb : PsbState) : (pathUpdate env info psb).prevHop = info.hop ∧
      (pathUpdate env info psb).ifindexIn = ntohl info.hop.logicalInterface := by
  obtain ⟨o, held⟩ := Option.ne_none_iff_exists'.mp held
  rw [pathUpdate_eq, MessageInfo.hop]
  simp only [held, Option.map_some, Option.getD_some, Option.elim_some, and_self]

/-- The first PATH of an LSP at its egress: an RSB is created and a label is advertised. -/
structure EgressAdvertises (env : Env) (rsbs : Table PathKey RsbState) (labels : LabelMgr)
    (info : MessageInfo) : Prop where
  egress : env.isLocalAddr info.key.session.destAddr = true
  first : rsbs.find info.key = none
  memory : rsbs.create rsvpKeyHash env.rsbMem info.key .zero ≠ none
  label : (labelMgrAlloc labels).1 ≠ 0

/-- What a PATH may do once its PSB is at hand. -/
structure PathOk (ok : Act → Prop) (env : Env) (rsbs : Table PathKey RsbState)
    (labels : LabelMgr) (info : MessageInfo) : Prop where
  benign : ∀ act, act.Benign → ok act
  arm : ok .arm
  hop : ok (.hop info.key info.hop)
  newPsb : ok (.newPsb info.key false)
  newRsb : ok (.newRsb info.key)
  resv : ok (.resv info.key)
  advertise : EgressAdvertises env rsbs labels info → ok (.advertise info.key)

/-- A PATH that is not refused and has a PSB, or memory for one. -/
structure PathAccepted (env : Env) (s : Node) (info : MessageInfo) : Prop where
  valid : rsvpValidatePathMessage info (s.rsvpPsbFind info.key) = none
  memory : s.rsvpPsbFind info.key = none → s.rsvpPsbCreate env info.key ≠ none

section Path

variable {info : MessageInfo}

theorem pathEgress_runs (allowed : PathOk ok env s.rsbs s.labels info)
    (egress : env.isLocalAddr info.key.session.destAddr = true) (wf : s.Wf) {b : Psb}
    (mem : b ∈ s.psbs) (key : b.key = info.key) :
    Runs env.toHal ok s (pathEgress env s info b.addr) := by
  unfold pathEgress
  simp only
  split
  · exact runs_tuneRsb allowed.benign _ (fun _ => ⟨rfl, rfl⟩) fun _ => rfl
  · rename_i absent
    split
    · exact .refl s
    · rename_i r t made
      obtain ⟨rsbs, created, rfl⟩ := Node.rsvpRsbCreate_eq_some made
      have memory : s.rsbs.create rsvpKeyHash env.rsbMem info.key .zero ≠ none := by
        rw [created]
        exact Option.some_ne_none _
      have fresh : ∀ x ∈ s.rsbs, x.key ≠ b.key := by
        rw [key]
        exact Table.find_eq_none.mp absent
      rw [← key] at created
      have linked : Does env.toHal (.newRsb b.key) s _ :=
        .newRsb mem fresh created (f := fun x => { x with
          associatedPsb := some b.addr
          refreshMs := ((s.psbs.get b.addr).map (·.body.refreshMs)).getD 0
          refreshTimer := true }) rfl rfl rfl
      have here := (Table.mem_modify_create created (f := fun x => { x with
          associatedPsb := some b.addr
          refreshMs := ((s.psbs.get b.addr).map (·.body.refreshMs)).getD 0
          refreshTimer := true })).mpr (.inl rfl)
      refine .trans (.one (key ▸ allowed.newRsb) linked) ?_
      refine sendResvUpstream_runs allowed.benign (linked.wf wf) here ?_ fun _ label => ?_
      · exact key ▸ allowed.resv
      · exact key ▸ allowed.advertise ⟨egress, absent, memory, label⟩

/-- A PATH in transit, unless it has no route and its PSB is new. -/
theorem pathTransit_runs (allowed : PathOk ok env s.rsbs s.labels info) {b : Psb} (mem : b ∈ s.psbs)
    {isNew : Bool}
    (routed : isNew = true → (resolvePathNextHop env.toHal b.key b.body).2.1 ≠ none) :
    Runs env.toHal ok s (pathTransit env s info b.addr isNew) := by
  unfold pathTransit
  rw [Table.get_of_mem mem]
  simp only
  have popped : Runs env.toHal ok s (s.modPsb b.addr fun x =>
      { x with ero := (resolvePathNextHop env.toHal b.key b.body).2.2 }) :=
    runs_tunePsb allowed.benign _ (fun _ => .of_same rfl rfl rfl rfl id) (fun _ => rfl) fun _ => rfl
  split
  · rename_i missing
    have old : ¬ isNew = true := fun new => routed new missing
    rw [if_neg old]
    exact popped.trans (sendPathErr_runs allowed.benign info _ _)
  · have sent := popped.trans (@sendPathDownstream_runs env ok _ allowed.benign b.addr)
    split
    · exact sent
    · split
      · exact sent.trans (rsvpFrrAutoAssociate_runs allowed.arm _ _)
      · exact sent

theorem pathUpdate_does {hal : Hal} (held : info.objs .hopV4 ≠ none) {b : Psb} (mem : b ∈ s.psbs)
    (key : b.key = info.key) :
    Does hal (.hop info.key info.hop) s (s.modPsb b.addr (pathUpdate env info)) := by
  have spared := pathUpdate_spared env info b.body
  rw [← (pathUpdate_hop env held b.body).1, ← key]
  refine .hop mem (.of_same spared.associatedRsb spared.isBypassTunnel spared.isMbbPending
    spared.mbbOldLspId fun _ => ?_) spared.bypassPsb
  rw [PsbState.Arrived, (pathUpdate_hop env held b.body).1]
  exact (pathUpdate_hop env held b.body).2

/-- What a PATH does after its PSB is updated. -/
theorem pathUpdated_runs (allowed : PathOk ok env s.rsbs s.labels info)
    (held : info.objs .hopV4 ≠ none) (wf : s.Wf) {b : Psb} (mem : b ∈ s.psbs)
    (key : b.key = info.key) {isNew : Bool}
    (routed : isNew = true → env.isLocalAddr info.key.session.destAddr = false →
      env.isLocalAddr info.key.sender.sourceAddr = false →
      (resolvePathNextHop env.toHal b.key (pathUpdate env info b.body)).2.1 ≠ none) :
    Runs env.toHal ok (s.modPsb b.addr (pathUpdate env info))
      (pathArrived env s info b.addr isNew) := by
  have does : Does env.toHal (.hop info.key info.hop) s
      (s.modPsb b.addr (pathUpdate env info)) := pathUpdate_does held mem key
  have here := s.mem_modPsb mem (pathUpdate env info)
  have allowed' : PathOk ok env (s.modPsb b.addr (pathUpdate env info)).rsbs
    (s.modPsb b.addr (pathUpdate env info)).labels info := allowed
  unfold pathArrived
  simp only
  split
  · exact pathEgress_runs (b := ⟨b.addr, b.key, pathUpdate env info b.body⟩) allowed' ‹_›
      (does.wf wf) here key
  · rename_i transit
    split
    · exact .refl _
    · rename_i foreign
      refine pathTransit_runs allowed' here fun new => ?_
      exact routed new (Bool.eq_false_iff.mpr transit) (Bool.eq_false_iff.mpr foreign)

theorem pathArrived_runs (allowed : PathOk ok env s.rsbs s.labels info)
    (held : info.objs .hopV4 ≠ none) (wf : s.Wf) {b : Psb} (mem : b ∈ s.psbs)
    (key : b.key = info.key) {isNew : Bool}
    (routed : isNew = true → env.isLocalAddr info.key.session.destAddr = false →
      env.isLocalAddr info.key.sender.sourceAddr = false →
      (resolvePathNextHop env.toHal b.key (pathUpdate env info b.body)).2.1 ≠ none) :
    Runs env.toHal ok s (pathArrived env s info b.addr isNew) :=
  .trans (.one allowed.hop (pathUpdate_does held mem key))
    (pathUpdated_runs allowed held wf mem key routed)

/-- A new PSB that is dropped again leaves no trace in the tables. -/
theorem rsvpPsbDelete_created {key : PathKey} {mem : Option Ptr} {p : Ptr}
    {psbs : Table PathKey PsbState}
    (made : s.psbs.create rsvpKeyHash mem key .zero = some (p, psbs)) {f : PsbState → PsbState}
    (alone : (f .zero).associatedRsb = none) (out : List Output) :
    ({ s with psbs := psbs.modify p f, out := out } : Node).rsvpPsbDelete p =
      { s with out := out } := by
  have here : (⟨p, key, f .zero⟩ : Psb) ∈
      ({ s with psbs := psbs.modify p f, out := out } : Node).psbs :=
    (Table.mem_modify_create made).mpr (.inl rfl)
  have dropped := rsvpPsbDelete_alone here alone
  simp only [Table.unlink_modify_create made] at dropped
  exact dropped

/-- A PATH that would create a PSB but has no route is answered with a PathErr. -/
theorem pathArrived_unrouted {mem : Option Ptr} {p : Ptr} {psbs : Table PathKey PsbState}
    (made : s.psbs.create rsvpKeyHash mem info.key .zero = some (p, psbs))
    {f : PsbState → PsbState} (alone : (f .zero).associatedRsb = none)
    (transit : env.isLocalAddr info.key.session.destAddr = false)
    (foreign : env.isLocalAddr info.key.sender.sourceAddr = false)
    (missing : (resolvePathNextHop env.toHal info.key (pathUpdate env info (f .zero))).2.1 =
      none) :
    pathArrived env { s with psbs := psbs.modify p f } info p true =
      sendPathErr env s info protoErrRoutingProblem 0 := by
  have held : (psbs.modify p (pathUpdate env info ∘ f)).get p =
      some ⟨p, info.key, pathUpdate env info (f .zero)⟩ :=
    Table.get_of_mem ((Table.mem_modify_create made).mpr (.inl rfl))
  have spared := pathUpdate_spared env info (f .zero)
  unfold pathArrived pathTransit
  simp only [transit, foreign, Bool.false_eq_true, if_false, held, missing, if_true,
    Node.modPsb, Table.modify_modify]
  obtain ⟨sent, eq⟩ := sendPathErr_out env info protoErrRoutingProblem 0
  rw [eq, eq]
  exact rsvpPsbDelete_created made (spared.associatedRsb.trans alone) _

theorem handlePathMessage_runs (benign : ∀ act, act.Benign → ok act)
    (accepted : PathAccepted env s info → PathOk ok env s.rsbs s.labels info) (wf : s.Wf) :
    Runs env.toHal ok s (handlePathMessage env s info) := by
  unfold handlePathMessage
  simp only
  split
  · exact sendPathErr_runs benign info _ _
  · rename_i valid
    have held : info.objs .hopV4 ≠ none := by
      intro missing
      rw [rsvpValidatePathMessage, if_pos missing] at valid
      cases valid
    split
    · rename_i psb found
      obtain ⟨mem, key⟩ := Table.find_eq_some found
      have allowed := accepted ⟨valid, fun absent => by rw [found] at absent; cases absent⟩
      exact pathArrived_runs allowed held wf mem key fun new => by cases new
    · rename_i absent
      split
      · exact .refl s
      · rename_i p t made
        have allowed := accepted ⟨valid, fun _ => by rw [made]; rintro ⟨⟩⟩
        obtain ⟨psbs, created, rfl⟩ := Node.rsvpPsbCreate_eq_some made
        by_cases unrouted : env.isLocalAddr info.key.session.destAddr = false ∧
            env.isLocalAddr info.key.sender.sourceAddr = false ∧
            (resolvePathNextHop env.toHal info.key (pathUpdate env info
              { PsbState.zero with refreshMs := rsvpRefreshMs })).2.1 = none
        · obtain ⟨transit, foreign, missing⟩ := unrouted
          have told := pathArrived_unrouted (s := s) created
            (f := fun b => { b with refreshMs := rsvpRefreshMs }) rfl transit foreign missing
          exact .trans (sendPathErr_runs allowed.benign info _ _) (.of_eq told)
        · have fresh := Table.find_eq_none.mp absent
          have does : Does env.toHal (.newPsb info.key false) s _ := .newPsb fresh created
            (f := fun b => { b with refreshMs := rsvpRefreshMs })
            ⟨rfl, rfl, rfl, rfl, fun waits => by cases waits⟩
          have here := (Table.mem_modify_create created
            (f := fun b => { b with refreshMs := rsvpRefreshMs })).mpr (.inl rfl)
          refine .trans (.one allowed.newPsb does) ?_
          have allowed' : PathOk ok env ({ s with psbs := psbs.modify p fun b =>
            { b with refreshMs := rsvpRefreshMs } } : Node).rsbs s.labels info := allowed
          refine pathArrived_runs (b := ⟨p, info.key, _⟩) allowed' held (does.wf wf) here rfl ?_
          exact fun _ transit foreign missing => unrouted ⟨transit, foreign, missing⟩

end Path

end Rsvp
