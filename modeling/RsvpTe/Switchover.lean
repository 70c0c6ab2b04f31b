import RsvpTe.ReroutedMessages

/-!
# Switching to the bypass and back

`rsvp_frr_trigger` writes the entry of every LSP it switches from the RSB of its bypass, and
`rsvp_frr_revert` writes it from the RSB of the LSP.  Both scan all PSBs; an entry that two LSPs
share is written for both, so what is left depends on the order of the scan unless the LSPs agree.
-/

namespace Rsvp

open Words

variable {env : Env} {s s' : Node} {ifindex : UInt32}

/-- The forwarding table with the entry of PSB `b` leading where RSB `via` leads. -/
def Node.switchedFwd (s : Node) (b : Psb) (via : Rsb) : FwdTable :=
  (s.rsvpRsbFind b.key).elim s.fwd fun r =>
    Function.update s.fwd (fwdKey r.body.labelIn b.key.session.destAddr)
      (some ⟨via.body.labelOut, ntohl via.body.nextHop.logicalInterface,
        via.body.nextHop.neighborAddr⟩)

/-- What a switch leaves of a PSB. -/
structure PsbState.Switched (active : Bool) (old new : PsbState) : Prop where
  frrActive : new.frrActive = active
  bypassPsb : new.bypassPsb = old.bypassPsb
  frrProtectedIfindex : new.frrProtectedIfindex = old.frrProtectedIfindex

/-- A PSB that is marked, and whose PATH is sent. -/
def switchedPsb (env : Env) (key : PathKey) (active : Bool) (ifindex : UInt32) (psb : PsbState) :
    PsbState :=
  pathSent env key { psb with frrActive := active, ifindexOut := ifindex }

theorem switchedPsb_switched (key : PathKey) (active : Bool) (ifindex : UInt32) (psb : PsbState) :
    psb.Switched active (switchedPsb env key active ifindex psb) := ⟨rfl, rfl, rfl⟩

theorem marked_eq {b : Psb} (mem : b ∈ s.psbs) (active : Bool) (ifindex : UInt32) :
    ∃ sent, (∀ o ∈ sent, o.isInstall = false) ∧
      sendPathDownstream env (s.modPsb b.addr fun x =>
          { x with frrActive := active, ifindexOut := ifindex }) b.addr =
        { s with
          psbs := s.psbs.modify b.addr (switchedPsb env b.key active ifindex)
          out := s.out ++ sent } := by
  obtain ⟨sent, packets, eq⟩ := @sendPathDownstream_logs env _ _ (s.mem_modPsb mem fun x =>
    { x with frrActive := active, ifindexOut := ifindex })
  refine ⟨sent, packets, eq.trans ?_⟩
  dsimp only [Node.modPsb]
  rw [Table.modify_modify]
  rfl

/-- The call that writes the entry of `b`. -/
def Node.switchedInstall (s : Node) (b : Psb) (via : Rsb) : Option Output :=
  (s.rsvpRsbFind b.key).map fun r =>
    .mplsInstall r.body.labelIn via.body.labelOut (ntohl via.body.nextHop.logicalInterface)
      via.body.nextHop.neighborAddr b.key.session.destAddr

/-- The entry of `b` is written if `b` has an RSB. -/
def Node.switchEntry (s : Node) (b : Psb) (via : Rsb) : Node :=
  (s.rsvpRsbFind b.key).elim s fun r =>
    s.halMplsInstall r.body.labelIn via.body.labelOut (ntohl via.body.nextHop.logicalInterface)
      via.body.nextHop.neighborAddr b.key.session.destAddr

theorem switchEntry_eq (s : Node) (b : Psb) (via : Rsb) : s.switchEntry b via =
    { s with fwd := s.switchedFwd b via, out := s.out ++ (s.switchedInstall b via).toList } := by
  unfold Node.switchEntry Node.switchedFwd Node.switchedInstall
  cases s.rsvpRsbFind b.key with
  | none =>
    rw [Option.map_none, Option.toList_none, List.append_nil]
    rfl
  | some r => rfl

theorem switched_eq {b : Psb} (mem : b ∈ s.psbs) (via : Rsb) (active : Bool) (ifindex : UInt32) :
    ∃ sent, (∀ o ∈ sent, o.isInstall = false) ∧
      sendPathDownstream env ((s.switchEntry b via).modPsb b.addr fun x =>
          { x with frrActive := active, ifindexOut := ifindex }) b.addr =
        { s with
          psbs := s.psbs.modify b.addr (switchedPsb env b.key active ifindex)
          fwd := s.switchedFwd b via
          out := s.out ++ (s.switchedInstall b via).toList ++ sent } := by
  rw [switchEntry_eq]
  exact @marked_eq env { s with
    fwd := s.switchedFwd b via
    out := s.out ++ (s.switchedInstall b via).toList } b mem active ifindex

/-- RSBs `v` and `x` have one outgoing label and one next hop. -/
def Rsb.Alike (v x : Rsb) : Prop :=
  v.body.labelOut = x.body.labelOut ∧
    v.body.nextHop.neighborAddr = x.body.nextHop.neighborAddr

/-- LSP `b` and the other LSP of RSB `y` push under one entry. -/
def Node.PushesWith (s : Node) (b : Psb) (y : Rsb) : Prop :=
  y.key ≠ b.key ∧ y.body.labelIn = 0 ∧ y.key.session.destAddr = b.key.session.destAddr ∧
    ∃ r ∈ s.rsbs, r.key = b.key ∧ r.body.labelIn = 0

/-- The entry of the LSP that is switched. -/
theorem switchedFwd_own (keyed : s.rsbs.Keyed) {b : Psb} {r : Rsb} (mem : r ∈ s.rsbs)
    (key : r.key = b.key) (via : Rsb) : s.switchedFwd b via (Rsb.entryKey r) =
      some ⟨via.body.labelOut, ntohl via.body.nextHop.logicalInterface,
        via.body.nextHop.neighborAddr⟩ := by
  have found : s.rsvpRsbFind b.key = some r := key ▸ keyed.find_of_mem mem
  unfold Node.switchedFwd
  rw [found, ← key]
  exact Function.update_self _ _ _

/-- The entry of another LSP: untouched, or that of the LSP that is switched. -/
theorem switchedFwd_other (apart : s.LabelsApart) {b : Psb} {y : Rsb} (mem : y ∈ s.rsbs)
    (other : y.key ≠ b.key) (via : Rsb) :
    s.switchedFwd b via (Rsb.entryKey y) = s.fwd (Rsb.entryKey y) ∨
    s.PushesWith b y ∧ s.switchedFwd b via (Rsb.entryKey y) =
      some ⟨via.body.labelOut, ntohl via.body.nextHop.logicalInterface,
        via.body.nextHop.neighborAddr⟩ := by
  unfold Node.switchedFwd
  cases found : s.rsvpRsbFind b.key with
  | none => exact .inl rfl
  | some r =>
    obtain ⟨memr, key⟩ := Table.find_eq_some found
    rw [← key]
    by_cases same : Rsb.entryKey y = Rsb.entryKey r
    · obtain ⟨bareY, bareR, dest⟩ :=
        apart.push_of_entryKey_eq memr mem (fun eq => other (eq.trans key)) same
      refine .inr ⟨⟨other, bareY, dest.trans (congrArg (·.session.destAddr) key),
        r, memr, key, bareR⟩, ?_⟩
      rw [same]
      exact Function.update_self _ _ _
    · exact .inl (Function.update_of_ne same _ _)

/-- An LSP on its bypass stays there, unless a switch writes its entry another way. -/
theorem Node.Diverted.switched {y x : Rsb} (on : s.Diverted y x) (apart : s.LabelsApart) {b : Psb}
    (mem : y ∈ s.rsbs) (other : y.key ≠ b.key) {via : Rsb}
    (alike : s.PushesWith b y → Rsb.Alike via x) (fwd : s'.fwd = s.switchedFwd b via) :
    s'.Diverted y x := by
  obtain ⟨e, entry, outLabel, nextHop⟩ := on
  unfold Node.Diverted
  rw [fwd]
  rcases switchedFwd_other apart mem other via with kept | ⟨shared, written⟩
  · exact ⟨e, kept.trans entry, outLabel, nextHop⟩
  · exact ⟨_, written, alike shared⟩

/-! ## The trigger -/

/-- The scan of `rsvp_frr_trigger` switches LSP `b` to the tunnel at `q`, whose RSB is `x`. -/
structure Switches (env : Env) (s : Node) (ifindex : UInt32) (b : Psb) (q : Ptr) (x : Rsb) :
    Prop where
  bypass : b.body.bypassPsb = some q
  failed : b.body.ifindexOut = ifindex
  facility : b.body.frrMode = .facility
  inactive : b.body.frrActive = false
  lsp : b.body.isBypassTunnel = false
  found : s.rsvpRsbFind (s.derefPsb env q).key = some x
  label : x.body.labelOut ≠ 0

theorem frrTriggerOne_cases (s : Node) (p : Ptr) :
    (frrTriggerOne env ifindex s p = s ∧
      ∀ b ∈ s.psbs, b.addr = p → ∀ q x, ¬ Switches env s ifindex b q x) ∨
    ∃ b ∈ s.psbs, b.addr = p ∧ ∃ q x, Switches env s ifindex b q x ∧
      ∃ sent, (∀ o ∈ sent, o.isInstall = false) ∧ frrTriggerOne env ifindex s p =
        { s with
          psbs := s.psbs.modify p
            (switchedPsb env b.key true (s.derefPsb env q).body.ifindexOut)
          fwd := s.switchedFwd b x
          out := s.out ++ (s.switchedInstall b x).toList ++ sent } := by
  unfold frrTriggerOne
  cases found : s.psbs.get p with
  | none => exact .inl ⟨rfl, fun b mem here => absurd here (Table.get_eq_none.mp found b mem)⟩
  | some b =>
    obtain ⟨mem, rfl⟩ := Table.get_eq_some.mp found
    have stays : (∀ q x, ¬ Switches env s ifindex b q x) →
        ∀ c ∈ s.psbs, c.addr = b.addr → ∀ q x, ¬ Switches env s ifindex c q x := by
      intro never c memc here
      rw [Table.eq_of_addr_eq memc mem here]
      exact never
    dsimp only
    cases bypass : b.body.bypassPsb with
    | none =>
      exact .inl ⟨rfl, stays fun q x now => (Option.some_ne_none q) (now.bypass.symm.trans bypass)⟩
    | some q =>
      dsimp only
      split
      · rename_i guard
        obtain ⟨failed, facility, inactive, lsp⟩ := guard
        -- The tunnel of a switch is the one the PSB refers to.
        have tunnel : ∀ {q' x}, Switches env s ifindex b q' x →
            s.rsvpRsbFind (s.derefPsb env q).key = some x := by
          intro q' x now
          rw [Option.some.inj (bypass.symm.trans now.bypass)]
          exact now.found
        cases rsb : s.rsvpRsbFind (s.derefPsb env q).key with
        | none =>
          exact .inl ⟨rfl, stays fun q' x now =>
            (Option.some_ne_none x) ((tunnel now).symm.trans rsb)⟩
        | some x =>
          dsimp only
          split
          · rename_i bare
            refine .inl ⟨rfl, stays fun q' x' now => now.label ?_⟩
            rw [← Option.some.inj (rsb.symm.trans (tunnel now))]
            exact bare
          · rename_i label
            refine .inr ⟨b, mem, rfl, q, x, ⟨bypass, failed, facility, inactive, lsp, rsb, label⟩, ?_⟩
            have switched := @switched_eq env s b mem x true (s.derefPsb env q).body.ifindexOut
            unfold Node.switchEntry at switched
            cases own : s.rsvpRsbFind b.key with
            | none =>
              rw [own] at switched
              exact switched
            | some r =>
              rw [own] at switched
              exact switched
      · rename_i guard
        exact .inl ⟨rfl, stays fun q' x now =>
          guard ⟨now.failed, now.facility, now.inactive, now.lsp⟩⟩

/-- The scan so far: each PSB is as it was or has been switched. -/
structure TriggerTraced (env : Env) (ifindex : UInt32) (s t : Node) : Prop where
  rsbs : t.rsbs = s.rsbs
  deref : ∀ q, (t.derefPsb env q).key = (s.derefPsb env q).key
  psbs : ∀ b' ∈ t.psbs, ∃ b ∈ s.psbs, b.addr = b'.addr ∧ b.key = b'.key ∧
    b.body.bypassPsb = b'.body.bypassPsb ∧
    (b' = b ∨ b'.body.frrActive = true ∧ ∃ q x, Switches env s ifindex b q x)

/-- LSPs that push under one entry lead the same way once the trigger has switched one of them. -/
def TriggerAgrees (env : Env) (s : Node) (ifindex : UInt32) : Prop :=
  ∀ b ∈ s.psbs, ∀ q v, Switches env s ifindex b q v → ∀ b' r c x, Routed s b' r c x →
    (b'.body.frrActive = true ∨ ∃ q' x', Switches env s ifindex b' q' x') →
    s.PushesWith b r → Rsb.Alike v x

theorem derefPsb_of_mem {c : Psb} (mem : c ∈ s.psbs) : s.derefPsb env c.addr = c := by
  unfold Node.derefPsb
  rw [Table.get_of_mem mem]
  rfl

/-- Addresses and keys stay where they are. -/
theorem derefPsb_key_modify {p : Ptr} {f : PsbState → PsbState}
    (psbs : s'.psbs = s.psbs.modify p f) (q : Ptr) :
    (s'.derefPsb env q).key = (s.derefPsb env q).key := by
  unfold Node.derefPsb
  rw [psbs, Table.get_modify]
  split
  · rename_i here
    rw [here]
    cases s.psbs.get p with
    | none => rfl
    | some c => rfl
  · rfl

namespace TriggerTraced

variable {t : Node}

theorem refl (s : Node) : TriggerTraced env ifindex s s where
  rsbs := rfl
  deref := fun _ => rfl
  psbs := fun b mem => ⟨b, mem, rfl, rfl, rfl, .inl rfl⟩

/-- What the scan switches was to be switched when it began. -/
theorem switches (traced : TriggerTraced env ifindex s t) {b : Psb} (mem : b ∈ t.psbs) {q : Ptr}
    {x : Rsb} (now : Switches env t ifindex b q x) :
    b ∈ s.psbs ∧ Switches env s ifindex b q x := by
  obtain ⟨c, memc, -, -, -, rfl | ⟨active, -⟩⟩ := traced.psbs b mem
  · have found := now.found
    unfold Node.rsvpRsbFind at found
    rw [traced.rsbs, traced.deref] at found
    exact ⟨memc, { now with found := found }⟩
  · exact absurd (active.symm.trans now.inactive) Bool.false_ne_true.symm

theorem routed (traced : TriggerTraced env ifindex s t) {b' c' : Psb} {r x : Rsb}
    (now : Routed t b' r c' x) : ∃ b c, Routed s b r c x ∧
      (b'.body.frrActive = true →
        b.body.frrActive = true ∨ ∃ q x', Switches env s ifindex b q x') := by
  obtain ⟨b, memb, -, keyB, bypass, same⟩ := traced.psbs b' now.memb
  obtain ⟨c, memc, addrC, keyC, -⟩ := traced.psbs c' now.memc
  refine ⟨b, c, ⟨memb, traced.rsbs ▸ now.memr, now.keyR.trans keyB.symm, memc, ?_,
    traced.rsbs ▸ now.memx, now.keyX.trans keyC.symm⟩, fun active => ?_⟩
  · rw [bypass, now.bypass, addrC]
  · rcases same with rfl | ⟨-, switches⟩
    · exact .inl active
    · exact .inr switches

theorem step (traced : TriggerTraced env ifindex s t) {b : Psb} (mem : b ∈ t.psbs) {q : Ptr}
    {x : Rsb} (now : Switches env t ifindex b q x) {f : PsbState → PsbState}
    (marks : ∀ y : PsbState, y.Switched true (f y)) (rsbs : s'.rsbs = t.rsbs)
    (psbs : s'.psbs = t.psbs.modify b.addr f) : TriggerTraced env ifindex s s' where
  rsbs := rsbs.trans traced.rsbs
  deref := fun q' => (derefPsb_key_modify psbs q').trans (traced.deref q')
  psbs := by
    intro b' mem'
    rw [psbs] at mem'
    rcases Table.mem_modify.mp mem' with ⟨old, -⟩ | ⟨c, memc, here, rfl⟩
    · exact traced.psbs b' old
    · obtain rfl := Table.eq_of_addr_eq memc mem here
      obtain ⟨before, switches⟩ := traced.switches mem now
      exact ⟨c, before, rfl, rfl, (marks c.body).bypassPsb.symm,
        .inr ⟨(marks c.body).frrActive, q, x, switches⟩⟩

end TriggerTraced

/-- One switch: the LSP is on its bypass, and the others stay there if they lead the same way. -/
theorem trigger_onBypass (wf : s.Wf) (apart : s.LabelsApart) (on : s.OnBypass) {b : Psb}
    (mem : b ∈ s.psbs) {q : Ptr} {v : Rsb} (switches : Switches env s ifindex b q v)
    {f : PsbState → PsbState} (marks : ∀ y : PsbState, y.Switched true (f y))
    (alike : ∀ b' r c x, Routed s b' r c x → b'.body.frrActive = true → s.PushesWith b r →
      Rsb.Alike v x) (psbs : s'.psbs = s.psbs.modify b.addr f) (rsbs : s'.rsbs = s.rsbs)
    (fwd : s'.fwd = s.switchedFwd b v) : s'.OnBypass := by
  intro b' r c' x routed active
  have memr : r ∈ s.rsbs := rsbs ▸ routed.memr
  have memx : x ∈ s.rsbs := rsbs ▸ routed.memx
  obtain ⟨c, memc, addrC, keyC⟩ : ∃ c ∈ s.psbs, c.addr = c'.addr ∧ c.key = c'.key := by
    rcases Table.mem_modify.mp (psbs ▸ routed.memc) with ⟨old, -⟩ | ⟨c, old, -, rfl⟩
    · exact ⟨c', old, rfl, rfl⟩
    · exact ⟨c, old, rfl, rfl⟩
  have keyX : x.key = c.key := routed.keyX.trans keyC.symm
  rcases Table.mem_modify.mp (psbs ▸ routed.memb) with ⟨memb, away⟩ | ⟨b₀, mem₀, here, rfl⟩
  · have before : Routed s b' r c x :=
      ⟨memb, memr, routed.keyR, memc, addrC ▸ routed.bypass, memx, keyX⟩
    refine (on b' r c x before active).switched apart memr (fun same => away ?_)
      (alike b' r c x before active) fwd
    exact congrArg Block.addr (wf.psbKeyed b' memb b mem (routed.keyR.symm.trans same))
  · obtain rfl := Table.eq_of_addr_eq mem₀ mem here
    -- The tunnel the trigger has read is `c`, and its RSB is `x`.
    have bypass : some q = some c'.addr :=
      switches.bypass.symm.trans ((marks b₀.body).bypassPsb.symm.trans routed.bypass)
    have tunnel : s.derefPsb env q = c := by
      rw [Option.some.inj bypass, ← addrC, derefPsb_of_mem memc]
    have found := switches.found
    rw [tunnel, ← keyX] at found
    obtain rfl : x = v :=
      Option.some.inj ((wf.rsbKeyed.find_of_mem memx).symm.trans found)
    unfold Node.Diverted
    rw [fwd]
    exact ⟨_, switchedFwd_own wf.rsbKeyed memr routed.keyR x, rfl, rfl⟩

theorem rsvpFrrTrigger_onBypass (wf : s.Wf) (apart : s.LabelsApart) (on : s.OnBypass)
    (agrees : TriggerAgrees env s ifindex) : (rsvpFrrTrigger env s ifindex).OnBypass := by
  have scan : ∀ t : Node, t.Wf ∧ TriggerTraced env ifindex s t ∧ t.OnBypass → ∀ p,
      (frrTriggerOne env ifindex t p).Wf ∧
        TriggerTraced env ifindex s (frrTriggerOne env ifindex t p) ∧
        (frrTriggerOne env ifindex t p).OnBypass := by
    intro t held p
    rcases held with ⟨wfT, traced, onT⟩
    refine ⟨(@frrTriggerOne_runs env (fun _ => True) (fun _ _ => trivial)
      (fun _ _ _ => trivial) ifindex t p).wf wfT, ?_⟩
    rcases frrTriggerOne_cases t p with ⟨same, -⟩ | ⟨b, mem, rfl, q, v, now, sent, -, eq⟩
    · rw [same]
      exact ⟨traced, onT⟩
    · rw [eq]
      have marks := @switchedPsb_switched env b.key true (t.derefPsb env q).body.ifindexOut
      refine ⟨traced.step mem now marks rfl rfl, ?_⟩
      have apartT : t.LabelsApart := by
        unfold Node.LabelsApart
        rw [traced.rsbs]
        exact apart
      refine trigger_onBypass wfT apartT onT mem now marks ?_ rfl rfl rfl
      intro b' r c' x routed active shared
      obtain ⟨before, switches⟩ := traced.switches mem now
      obtain ⟨b₀, c, routed₀, due⟩ := traced.routed routed
      refine agrees b before q v switches b₀ r c x routed₀ (due active) ?_
      unfold Node.PushesWith at shared ⊢
      rw [← traced.rsbs]
      exact shared
  exact (List.foldlRecOn (s.psbs.blocks.map Block.addr) (frrTriggerOne env ifindex)
    (⟨wf, .refl s, on⟩ : s.Wf ∧ TriggerTraced env ifindex s s ∧ s.OnBypass)
    fun t held p _ => scan t held p).2.2

/-! ## The revert -/

/-- The scan of `rsvp_frr_revert` takes LSP `b` with RSB `r` back from the tunnel at `q`. -/
structure Reverts (env : Env) (s : Node) (ifindex : UInt32) (b : Psb) (q : Ptr) (r : Rsb) :
    Prop where
  bypass : b.body.bypassPsb = some q
  active : b.body.frrActive = true
  recovered : (s.derefPsb env q).body.frrProtectedIfindex = ifindex
  found : s.rsvpRsbFind b.key = some r

theorem frrRevertOne_cases (s : Node) (p : Ptr) :
    (frrRevertOne env ifindex s p = s ∧
      ∀ b ∈ s.psbs, b.addr = p → ∀ q r, ¬ Reverts env s ifindex b q r) ∨
    ∃ b ∈ s.psbs, b.addr = p ∧ ∃ q r, Reverts env s ifindex b q r ∧
      ∃ sent, (∀ o ∈ sent, o.isInstall = false) ∧ frrRevertOne env ifindex s p =
        { s with
          psbs := s.psbs.modify p (switchedPsb env b.key false ifindex)
          fwd := s.switchedFwd b r
          out := s.out ++ (s.switchedInstall b r).toList ++ sent } := by
  unfold frrRevertOne
  cases found : s.psbs.get p with
  | none => exact .inl ⟨rfl, fun b mem here => absurd here (Table.get_eq_none.mp found b mem)⟩
  | some b =>
    obtain ⟨mem, rfl⟩ := Table.get_eq_some.mp found
    -- A PSB that is not taken back is the only one here.
    have stays : (∀ q r, ¬ Reverts env s ifindex b q r) →
        ∀ c ∈ s.psbs, c.addr = b.addr → ∀ q r, ¬ Reverts env s ifindex c q r := by
      intro never c memc here
      rw [Table.eq_of_addr_eq memc mem here]
      exact never
    dsimp only
    cases bypass : b.body.bypassPsb with
    | none =>
      exact .inl ⟨rfl, stays fun q r now => (Option.some_ne_none q) (now.bypass.symm.trans bypass)⟩
    | some q =>
      dsimp only
      split
      · rename_i guard
        obtain ⟨active, recovered⟩ := guard
        cases own : s.rsvpRsbFind b.key with
        | none =>
          exact .inl ⟨rfl, stays fun q r now => (Option.some_ne_none r) (now.found.symm.trans own)⟩
        | some r =>
          have switched := @switched_eq env s b mem r false ifindex
          unfold Node.switchEntry at switched
          rw [own] at switched
          exact .inr ⟨b, mem, rfl, q, r, ⟨bypass, active, recovered, own⟩, switched⟩
      · rename_i guard
        refine .inl ⟨rfl, stays fun q' r now => guard ⟨now.active, ?_⟩⟩
        rw [← now.recovered, Option.some.inj (bypass.symm.trans now.bypass)]

/-- The scan so far: an LSP that is active still is as it was. -/
structure RevertTraced (env : Env) (s t : Node) : Prop where
  rsbs : t.rsbs = s.rsbs
  deref : ∀ q, (t.derefPsb env q).body.frrProtectedIfindex =
    (s.derefPsb env q).body.frrProtectedIfindex
  placed : ∀ c' ∈ t.psbs, ∃ c ∈ s.psbs, c.addr = c'.addr ∧ c.key = c'.key ∧
    c.body.frrProtectedIfindex = c'.body.frrProtectedIfindex
  active : ∀ b ∈ t.psbs, b.body.frrActive = true → b ∈ s.psbs

/-- LSPs that push under one entry lead the same way once the revert has taken back one of them. -/
def RevertAgrees (env : Env) (s : Node) (ifindex : UInt32) : Prop :=
  ∀ b ∈ s.psbs, ∀ q v, Reverts env s ifindex b q v → ∀ b' r c x, Routed s b' r c x →
    b'.body.frrActive = true → c.body.frrProtectedIfindex ≠ ifindex →
    s.PushesWith b r → Rsb.Alike v x

/-- Every LSP whose tunnel protects another interface is on its bypass. -/
def Node.OnBypassBut (s : Node) (ifindex : UInt32) : Prop :=
  ∀ b r c x, Routed s b r c x → b.body.frrActive = true →
    c.body.frrProtectedIfindex ≠ ifindex → s.Diverted r x

namespace RevertTraced

variable {t : Node}

theorem refl (s : Node) : RevertTraced env s s where
  rsbs := rfl
  deref := fun _ => rfl
  placed := fun c mem => ⟨c, mem, rfl, rfl, rfl⟩
  active := fun _ mem _ => mem

theorem trans (first : RevertTraced env s s') (second : RevertTraced env s' t) :
    RevertTraced env s t where
  rsbs := second.rsbs.trans first.rsbs
  deref := fun q => (second.deref q).trans (first.deref q)
  placed := by
    intro c'' mem''
    obtain ⟨c', mem', addr', key', same'⟩ := second.placed c'' mem''
    obtain ⟨c, mem, addr, key, same⟩ := first.placed c' mem'
    exact ⟨c, mem, addr.trans addr', key.trans key', same.trans same'⟩
  active := fun b mem active => first.active b (second.active b mem active) active

theorem of_modify {p : Ptr} {f : PsbState → PsbState}
    (marks : ∀ y : PsbState, y.Switched false (f y)) (rsbs : t.rsbs = s.rsbs)
    (psbs : t.psbs = s.psbs.modify p f) : RevertTraced env s t where
  rsbs := rsbs
  deref := by
    intro q
    unfold Node.derefPsb
    rw [psbs, Table.get_modify]
    split
    · rename_i here
      rw [here]
      cases s.psbs.get p with
      | none => rfl
      | some c => exact (marks c.body).frrProtectedIfindex
    · rfl
  placed := by
    intro c' mem'
    rcases Table.mem_modify.mp (psbs ▸ mem') with ⟨mem, -⟩ | ⟨c, mem, -, rfl⟩
    · exact ⟨c', mem, rfl, rfl, rfl⟩
    · exact ⟨c, mem, rfl, rfl, (marks c.body).frrProtectedIfindex.symm⟩
  active := by
    intro b mem active
    rcases Table.mem_modify.mp (psbs ▸ mem) with ⟨old, -⟩ | ⟨c, -, -, rfl⟩
    · exact old
    · exact absurd (active.symm.trans (marks c.body).frrActive) Bool.false_ne_true.symm

/-- What the scan takes back was to be taken back when it began. -/
theorem reverts (traced : RevertTraced env s t) {b : Psb} (mem : b ∈ t.psbs) {q : Ptr} {r : Rsb}
    (now : Reverts env t ifindex b q r) : b ∈ s.psbs ∧ Reverts env s ifindex b q r := by
  have found := now.found
  unfold Node.rsvpRsbFind at found
  rw [traced.rsbs] at found
  exact ⟨traced.active b mem now.active,
    now.bypass, now.active, (traced.deref q).symm.trans now.recovered, found⟩

theorem routed (traced : RevertTraced env s t) {b c' : Psb} {r x : Rsb} (now : Routed t b r c' x)
    (active : b.body.frrActive = true) : ∃ c, Routed s b r c x ∧
      c.body.frrProtectedIfindex = c'.body.frrProtectedIfindex := by
  obtain ⟨c, memc, addr, key, same⟩ := traced.placed c' now.memc
  exact ⟨c, ⟨traced.active b now.memb active, traced.rsbs ▸ now.memr, now.keyR, memc,
    addr ▸ now.bypass, traced.rsbs ▸ now.memx, now.keyX.trans key.symm⟩, same⟩

end RevertTraced

theorem frrRevertOne_traced (s : Node) (p : Ptr) :
    RevertTraced env s (frrRevertOne env ifindex s p) := by
  rcases @frrRevertOne_cases env ifindex s p with
    ⟨same, -⟩ | ⟨b, mem, rfl, q, v, now, sent, -, eq⟩
  · rw [same]
    exact .refl s
  · rw [eq]
    exact .of_modify (switchedPsb_switched b.key false ifindex) rfl rfl

/-- The scan leaves nothing to take back. -/
theorem foldl_frrRevertOne (s : Node) (addrs : List Ptr) :
    RevertTraced env s (addrs.foldl (frrRevertOne env ifindex) s) ∧
      ∀ b ∈ (addrs.foldl (frrRevertOne env ifindex) s).psbs, ∀ q r,
        Reverts env (addrs.foldl (frrRevertOne env ifindex) s) ifindex b q r → b.addr ∉ addrs := by
  induction addrs generalizing s with
  | nil => exact ⟨.refl s, fun _ _ _ _ _ => List.not_mem_nil⟩
  | cons p rest ih =>
    have one : RevertTraced env s (frrRevertOne env ifindex s p) := frrRevertOne_traced s p
    obtain ⟨all, scanned⟩ := ih (frrRevertOne env ifindex s p)
    refine ⟨one.trans all, fun b mem q r now listed => ?_⟩
    rcases List.mem_cons.mp listed with here | later
    · -- The PSB as it was right after its own turn.
      obtain ⟨mem', now'⟩ := all.reverts mem now
      rcases @frrRevertOne_cases env ifindex s p with
        ⟨same, never⟩ | ⟨c, memc, rfl, _, _, _, sent, -, eq⟩
      · rw [same] at mem' now'
        exact never b mem' here q r now'
      · rw [eq] at mem'
        rcases Table.mem_modify.mp mem' with ⟨-, away⟩ | ⟨d, -, -, rfl⟩
        · exact away here
        · have marks := @switchedPsb_switched env c.key false ifindex d.body
          exact absurd (now'.active.symm.trans marks.frrActive) Bool.false_ne_true.symm
    · exact scanned b mem q r now later

/-- One LSP taken back. -/
theorem revert_onBypassBut (wf : s.Wf) (apart : s.LabelsApart) (on : s.OnBypassBut ifindex)
    (traced : RevertTraced env s s') {b : Psb} (mem : b ∈ s.psbs) {v : Rsb}
    {f : PsbState → PsbState} (marks : ∀ y : PsbState, y.Switched false (f y))
    (alike : ∀ b' r c x, Routed s b' r c x → b'.body.frrActive = true →
      c.body.frrProtectedIfindex ≠ ifindex → s.PushesWith b r → Rsb.Alike v x)
    (psbs : s'.psbs = s.psbs.modify b.addr f) (fwd : s'.fwd = s.switchedFwd b v) :
    s'.OnBypassBut ifindex := by
  intro b' r c' x routed active other
  obtain ⟨c, before, same⟩ := traced.routed routed active
  have away : b'.addr ≠ b.addr := by
    intro here
    rcases Table.mem_modify.mp (psbs ▸ routed.memb) with ⟨-, away⟩ | ⟨d, -, -, rfl⟩
    · exact away here
    · exact absurd (active.symm.trans (marks d.body).frrActive) Bool.false_ne_true.symm
  refine (on b' r c x before active (same ▸ other)).switched apart before.memr
    (fun eq => away ?_) (alike b' r c x before active (same ▸ other)) fwd
  exact congrArg Block.addr (wf.psbKeyed b' before.memb b mem (before.keyR.symm.trans eq))

theorem rsvpFrrRevert_onBypass (wf : s.Wf) (apart : s.LabelsApart) (on : s.OnBypass)
    (agrees : RevertAgrees env s ifindex) : (rsvpFrrRevert env s ifindex).OnBypass := by
  have scan : ∀ t : Node, t.Wf ∧ RevertTraced env s t ∧ t.OnBypassBut ifindex → ∀ p,
      (frrRevertOne env ifindex t p).Wf ∧
        RevertTraced env s (frrRevertOne env ifindex t p) ∧
        (frrRevertOne env ifindex t p).OnBypassBut ifindex := by
    intro t held p
    rcases held with ⟨wfT, traced, onT⟩
    refine ⟨(@frrRevertOne_runs env (fun _ => True) (fun _ _ => trivial)
      (fun _ _ _ => trivial) ifindex t p).wf wfT, traced.trans (frrRevertOne_traced t p), ?_⟩
    rcases frrRevertOne_cases t p with ⟨same, -⟩ | ⟨b, mem, rfl, q, v, now, sent, -, eq⟩
    · rw [same]
      exact onT
    · rw [eq]
      have marks := @switchedPsb_switched env b.key false ifindex
      have apartT : t.LabelsApart := by
        unfold Node.LabelsApart
        rw [traced.rsbs]
        exact apart
      have one : RevertTraced env t { t with
          psbs := t.psbs.modify b.addr (switchedPsb env b.key false ifindex)
          fwd := t.switchedFwd b v
          out := t.out ++ (t.switchedInstall b v).toList ++ sent } := .of_modify marks rfl rfl
      refine revert_onBypassBut wfT apartT onT one mem marks ?_ rfl rfl
      intro b' r c' x routed active other shared
      obtain ⟨before, reverts⟩ := traced.reverts mem now
      obtain ⟨c, routed₀, same⟩ := traced.routed routed active
      refine agrees b before q v reverts b' r c x routed₀ active (same ▸ other) ?_
      unfold Node.PushesWith at shared ⊢
      rw [← traced.rsbs]
      exact shared
  have but : s.OnBypassBut ifindex := fun b r c x routed active _ => on b r c x routed active
  have held := (List.foldlRecOn (s.psbs.blocks.map Block.addr) (frrRevertOne env ifindex)
    (⟨wf, .refl s, but⟩ : s.Wf ∧ RevertTraced env s s ∧ s.OnBypassBut ifindex)
    fun t held p _ => scan t held p)
  obtain ⟨traced, scanned⟩ :=
    @foldl_frrRevertOne env ifindex s (s.psbs.blocks.map Block.addr)
  unfold rsvpFrrRevert
  intro b r c x routed active
  by_cases recovered : c.body.frrProtectedIfindex = ifindex
  · -- Such an LSP would have been taken back.
    have keyed := held.1.rsbKeyed
    refine absurd (List.mem_map_of_mem (traced.active b routed.memb active))
      (scanned b routed.memb c.addr r ⟨routed.bypass, active, ?_, ?_⟩)
    · rw [derefPsb_of_mem routed.memc]
      exact recovered
    · exact routed.keyR ▸ keyed.find_of_mem routed.memr
  · exact held.2.2 b r c x routed active recovered

end Rsvp
