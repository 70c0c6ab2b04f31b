import RsvpTe.PsbRules

/-!
# The order in which an LSP and its bypass come up

An LSP that asks for facility protection is armed by the PATH that reaches it here, if a bypass for
its interface has a label by then, or by the first label of a bypass that comes later.  LSPs that
start here are announced without the first of these: they are armed only if they are there first.
-/

namespace Rsvp

open Words

variable {env : Env} {s s' s'' : Node} {info : MessageInfo}

/-- Facility protection is wanted and there is none. -/
structure PsbState.Waits (psb : PsbState) : Prop where
  facility : psb.frrMode = .facility
  lsp : psb.isBypassTunnel = false
  bare : psb.bypassPsb = none

/-- A bypass tunnel for the interface has its label. -/
def Node.Covers (s : Node) (ifindex : UInt32) : Prop :=
  ∃ c ∈ s.psbs, ∃ r ∈ s.rsbs, c.body.isBypassTunnel = true ∧
    c.body.frrProtectedIfindex = ifindex ∧ r.key = c.key ∧ r.body.labelOut ≠ 0

/-- LSPs wait only on the interfaces of `spared` and where there is nothing to wait for. -/
def Node.ArmedBut (spared : UInt32 → Prop) (s : Node) : Prop :=
  ∀ b ∈ s.psbs, b.body.Waits → s.Covers b.body.ifindexOut → spared b.body.ifindexOut

/-- No LSP waits for a bypass that is there. -/
def Node.Armed (s : Node) : Prop := s.ArmedBut fun _ => False

/-! ## What keeps LSPs armed -/

/-- The update neither makes an LSP wait nor moves one that waits, and a bypass stays one. -/
structure PsbState.Steady (old new : PsbState) : Prop where
  waits : new.Waits → old.Waits ∧ new.ifindexOut = old.ifindexOut
  isBypassTunnel : new.isBypassTunnel = old.isBypassTunnel
  frrProtectedIfindex : new.frrProtectedIfindex = old.frrProtectedIfindex

theorem PsbState.Steady.of_same {old new : PsbState} (frrMode : new.frrMode = old.frrMode)
    (isBypassTunnel : new.isBypassTunnel = old.isBypassTunnel)
    (bypassPsb : new.bypassPsb = old.bypassPsb) (ifindexOut : new.ifindexOut = old.ifindexOut)
    (frrProtectedIfindex : new.frrProtectedIfindex = old.frrProtectedIfindex) :
    old.Steady new where
  waits := fun waits => ⟨⟨frrMode.symm.trans waits.facility,
    isBypassTunnel.symm.trans waits.lsp, bypassPsb.symm.trans waits.bare⟩, ifindexOut⟩
  isBypassTunnel := isBypassTunnel
  frrProtectedIfindex := frrProtectedIfindex

/-- Every LSP that waits waited, on the same interface, and every bypass with a label had one. -/
structure KeepsArming (s s' : Node) : Prop where
  waits : ∀ b' ∈ s'.psbs, b'.body.Waits → ∃ b ∈ s.psbs, b.addr = b'.addr ∧ b.body.Waits ∧
    b.body.ifindexOut = b'.body.ifindexOut
  tunnels : ∀ c' ∈ s'.psbs, c'.body.isBypassTunnel = true → ∃ c ∈ s.psbs, c.key = c'.key ∧
    c.body.isBypassTunnel = true ∧ c.body.frrProtectedIfindex = c'.body.frrProtectedIfindex
  labelled : ∀ r' ∈ s'.rsbs, r'.body.labelOut ≠ 0 → ∃ r ∈ s.rsbs, r.key = r'.key ∧
    r.body.labelOut ≠ 0

namespace KeepsArming

theorem of_same (psbs : s'.psbs = s.psbs) (rsbs : s'.rsbs = s.rsbs) : KeepsArming s s' where
  waits := fun b mem waits => ⟨b, psbs ▸ mem, rfl, waits, rfl⟩
  tunnels := fun c mem tunnel => ⟨c, psbs ▸ mem, rfl, tunnel, rfl⟩
  labelled := fun r mem label => ⟨r, rsbs ▸ mem, rfl, label⟩

theorem refl (s : Node) : KeepsArming s s := of_same rfl rfl

theorem trans (first : KeepsArming s s') (second : KeepsArming s' s'') : KeepsArming s s'' where
  waits := by
    intro b'' mem'' waits''
    obtain ⟨b', mem', addr', waits', ifindex'⟩ := second.waits b'' mem'' waits''
    obtain ⟨b, mem, addr, waits, ifindex⟩ := first.waits b' mem' waits'
    exact ⟨b, mem, addr.trans addr', waits, ifindex.trans ifindex'⟩
  tunnels := by
    intro c'' mem'' tunnel''
    obtain ⟨c', mem', key', tunnel', ifindex'⟩ := second.tunnels c'' mem'' tunnel''
    obtain ⟨c, mem, key, tunnel, ifindex⟩ := first.tunnels c' mem' tunnel'
    exact ⟨c, mem, key.trans key', tunnel, ifindex.trans ifindex'⟩
  labelled := by
    intro r'' mem'' label''
    obtain ⟨r', mem', key', label'⟩ := second.labelled r'' mem'' label''
    obtain ⟨r, mem, key, label⟩ := first.labelled r' mem' label'
    exact ⟨r, mem, key.trans key', label⟩

theorem covers (keeps : KeepsArming s s') {ifindex : UInt32} (covers : s'.Covers ifindex) :
    s.Covers ifindex := by
  obtain ⟨c', memc', r', memr', tunnel', ifindex', key', label'⟩ := covers
  obtain ⟨c, memc, keyC, tunnel, same⟩ := keeps.tunnels c' memc' tunnel'
  obtain ⟨r, memr, keyR, label⟩ := keeps.labelled r' memr' label'
  exact ⟨c, memc, r, memr, tunnel, same.trans ifindex', (keyR.trans key').trans keyC.symm, label⟩

theorem armedBut {spared : UInt32 → Prop} (keeps : KeepsArming s s') (armed : s.ArmedBut spared) :
    s'.ArmedBut spared := by
  intro b' mem' waits' covers
  obtain ⟨b, mem, -, waits, same⟩ := keeps.waits b' mem' waits'
  rw [← same] at covers ⊢
  exact armed b mem waits (keeps.covers covers)

theorem modPsb (p : Ptr) {f : PsbState → PsbState}
    (steady : ∀ b ∈ s.psbs, b.addr = p → b.body.Steady (f b.body)) :
    KeepsArming s (s.modPsb p f) where
  waits := by
    intro b' mem' waits'
    rcases Table.mem_modify.mp mem' with ⟨mem, -⟩ | ⟨b, mem, here, rfl⟩
    · exact ⟨b', mem, rfl, waits', rfl⟩
    · obtain ⟨waits, same⟩ := (steady b mem here).waits waits'
      exact ⟨b, mem, rfl, waits, same.symm⟩
  tunnels := by
    intro c' mem' tunnel'
    rcases Table.mem_modify.mp mem' with ⟨mem, -⟩ | ⟨c, mem, here, rfl⟩
    · exact ⟨c', mem, rfl, tunnel', rfl⟩
    · exact ⟨c, mem, rfl, (steady c mem here).isBypassTunnel.symm.trans tunnel',
        (steady c mem here).frrProtectedIfindex.symm⟩
  labelled := fun r mem label => ⟨r, mem, rfl, label⟩

theorem unlinkPsb (s : Node) (p : Ptr) : KeepsArming s { s with psbs := s.psbs.unlink p } where
  waits := fun b mem waits => ⟨b, (Table.mem_unlink.mp mem).1, rfl, waits, rfl⟩
  tunnels := fun c mem tunnel => ⟨c, (Table.mem_unlink.mp mem).1, rfl, tunnel, rfl⟩
  labelled := fun r mem label => ⟨r, mem, rfl, label⟩

theorem modRsb (s : Node) (p : Ptr) {f : RsbState → RsbState}
    (labelOut : ∀ x, (f x).labelOut = x.labelOut) : KeepsArming s (s.modRsb p f) where
  waits := fun b mem waits => ⟨b, mem, rfl, waits, rfl⟩
  tunnels := fun c mem tunnel => ⟨c, mem, rfl, tunnel, rfl⟩
  labelled := by
    intro r' mem' label'
    rcases Table.mem_modify.mp mem' with ⟨mem, -⟩ | ⟨r, mem, -, rfl⟩
    · exact ⟨r', mem, rfl, label'⟩
    · exact ⟨r, mem, rfl, labelOut r.body ▸ label'⟩

theorem takeLabel (s : Node) (p : Ptr) (label : UInt32) (labels : LabelMgr) :
    KeepsArming s (({ s with labels := labels } : Node).modRsb p fun x =>
      { x with labelIn := label }) := by
  have taken := modRsb s p (f := fun x => { x with labelIn := label }) fun _ => rfl
  exact ⟨taken.waits, taken.tunnels, taken.labelled⟩

theorem unlinkRsb (s : Node) (p : Ptr) : KeepsArming s { s with rsbs := s.rsbs.unlink p } where
  waits := fun b mem waits => ⟨b, mem, rfl, waits, rfl⟩
  tunnels := fun c mem tunnel => ⟨c, mem, rfl, tunnel, rfl⟩
  labelled := fun r mem label => ⟨r, (Table.mem_unlink.mp mem).1, rfl, label⟩

end KeepsArming

theorem associate_steady (psb : PsbState) (a : Option Ptr) :
    psb.Steady { psb with associatedRsb := a } := .of_same rfl rfl rfl rfl rfl

theorem popped_steady (psb : PsbState) (ero : Route) : psb.Steady { psb with ero := ero } :=
  .of_same rfl rfl rfl rfl rfl

/-! ## Teardown -/

theorem propagatePathTear_arming (s : Node) (p : Ptr) :
    KeepsArming s (propagatePathTear env s p) := by
  unfold propagatePathTear
  split
  · exact .refl s
  · dsimp only [resolvePathNextHop]
    have popped : ∀ ero, KeepsArming s (s.modPsb p fun x => { x with ero := ero }) := fun ero =>
      .modPsb p fun b _ _ => popped_steady b.body ero
    split
    · exact popped _
    · obtain ⟨sent, eq⟩ := rsvpSendPacket_out _ _ _ _
      rw [eq]
      exact (popped _).trans (.of_same rfl rfl)

theorem rsvpRsbCleanup_arming (wf : s.Wf) {r : Rsb} (mem : r ∈ s.rsbs) (propagate : Bool) :
    KeepsArming s (rsvpRsbCleanup env s r.addr propagate) := by
  obtain ⟨b, memb, -, tied, -⟩ := wf.owned r mem
  obtain ⟨out, eq⟩ := @rsvpRsbCleanup_eq env s b r memb mem tied propagate
  rw [eq]
  have cut : KeepsArming s (s.modPsb b.addr fun x => { x with associatedRsb := none }) :=
    .modPsb b.addr fun c _ _ => associate_steady c.body none
  exact (cut.trans (.unlinkRsb _ r.addr)).trans (.of_same rfl rfl)

theorem rsvpPsbDelete_arming (s : Node) (p : Ptr) : KeepsArming s (s.rsvpPsbDelete p) := by
  unfold Node.rsvpPsbDelete
  split
  · exact .refl s
  · dsimp only
    split
    · exact .unlinkPsb s p
    · exact (KeepsArming.unlinkPsb s p).trans (.modRsb _ _ fun _ => rfl)

theorem rsvpPsbCleanup_arming (wf : s.Wf) {b : Psb} (mem : b ∈ s.psbs) (propagate : Bool) :
    KeepsArming s (rsvpPsbCleanup env s b.addr propagate) := by
  obtain ⟨t, c, told, removed⟩ := @rsvpPsbCleanup_cases env s wf b mem propagate
  have keeps : KeepsArming s t := by
    rcases told.origin with rfl | rfl
    · exact .refl t
    · exact propagatePathTear_arming s b.addr
  rcases removed with ⟨-, eq⟩ | ⟨r, memr, -, -, eq⟩
  · rw [eq]
    exact keeps.trans (rsvpPsbDelete_arming t b.addr)
  · have released := @rsvpRsbCleanup_arming env t (told.wf wf) r (told.rsbs ▸ memr) false
    rw [eq]
    exact (keeps.trans released).trans (rsvpPsbDelete_arming _ b.addr)

theorem bsbRemove_arming (s : Node) (key : PathKey) : KeepsArming s (bsbRemove s key) := by
  unfold bsbRemove
  split <;> exact .of_same rfl rfl

/-! ## Automatic protection -/

theorem rsvpFrrAutoAssociate_arming (s : Node) (p : Ptr) :
    KeepsArming s (rsvpFrrAutoAssociate s p) := by
  unfold rsvpFrrAutoAssociate
  split
  · exact .refl s
  · split
    · exact .refl s
    · split
      · exact .refl s
      · exact .modPsb p fun b _ _ => ⟨fun waits => (by cases waits.bare), rfl, rfl⟩

/-- A bypass that covers the interface is found. -/
theorem bypassReady_of_covers (keyed : s.rsbs.Keyed) {ifindex : UInt32}
    (covers : s.Covers ifindex) : ∃ c ∈ s.psbs, bypassReady s ifindex c = true := by
  obtain ⟨c, memc, r, memr, tunnel, ifindex, key, label⟩ := covers
  refine ⟨c, memc, ?_⟩
  have found : s.rsvpRsbFind c.key = some r := key ▸ keyed.find_of_mem memr
  rw [bypassReady, tunnel, found, Option.any_some, decide_eq_true ifindex, decide_eq_true label]
  rfl

/-- The LSP that is looked at waits no longer if its interface is covered. -/
theorem rsvpFrrAutoAssociate_armed (keyed : s.rsbs.Keyed) {b : Psb} (mem : b ∈ s.psbs)
    (covers : s.Covers b.body.ifindexOut) (pos : b.body.ifindexOut ≠ 0) :
    ∀ b' ∈ (rsvpFrrAutoAssociate s b.addr).psbs, b'.addr = b.addr → ¬ b'.body.Waits := by
  intro b' mem' here waits'
  unfold rsvpFrrAutoAssociate at mem'
  rw [Table.get_of_mem mem] at mem'
  dsimp only at mem'
  split at mem'
  · rename_i guard
    rw [Table.eq_of_addr_eq mem' mem here] at waits'
    rcases guard with mode | armed | zero | tunnel
    · exact mode waits'.facility
    · exact armed waits'.bare
    · exact pos zero
    · rw [waits'.lsp] at tunnel
      exact Bool.false_ne_true tunnel
  · obtain ⟨c, memc, ready⟩ := bypassReady_of_covers keyed covers
    split at mem'
    · rename_i none
      exact List.find?_eq_none.mp none c memc ready
    · rcases Table.mem_modify.mp mem' with ⟨-, away⟩ | ⟨d, -, -, rfl⟩
      · exact away here
      · cases waits'.bare

theorem rsvpFrrAutoAssociate_rsbs (s : Node) (p : Ptr) :
    (rsvpFrrAutoAssociate s p).rsbs = s.rsbs := by
  unfold rsvpFrrAutoAssociate
  split
  · rfl
  · split
    · rfl
    · split <;> rfl

/-- One PSB of the scan in `rsvp_frr_auto_associate_all`. -/
def frrAssociateOne (protectedIfindex : UInt32) (s : Node) (p : Ptr) : Node :=
  match s.psbs.get p with
  | none => s
  | some c =>
    if c.body.isBypassTunnel then s
    else if c.body.frrMode ≠ .facility then s
    else if c.body.ifindexOut ≠ protectedIfindex then s
    else if c.body.bypassPsb ≠ none then s
    else rsvpFrrAutoAssociate s p

theorem rsvpFrrAutoAssociateAll_eq (s : Node) (ifindex : UInt32) :
    rsvpFrrAutoAssociateAll s ifindex =
      (s.psbs.blocks.map Block.addr).foldl (frrAssociateOne ifindex) s :=
  rfl

theorem frrAssociateOne_cases (ifindex : UInt32) (s : Node) (p : Ptr) :
    frrAssociateOne ifindex s p = s ∧
        (∀ b ∈ s.psbs, b.addr = p → b.body.Waits → b.body.ifindexOut ≠ ifindex) ∨
      frrAssociateOne ifindex s p = rsvpFrrAutoAssociate s p := by
  unfold frrAssociateOne
  cases found : s.psbs.get p with
  | none => exact .inl ⟨rfl, fun b mem here => absurd here (Table.get_eq_none.mp found b mem)⟩
  | some c =>
    obtain ⟨memc, rfl⟩ := Table.get_eq_some.mp found
    have only : ∀ b ∈ s.psbs, b.addr = c.addr → b = c := fun b mem here =>
      Table.eq_of_addr_eq mem memc here
    dsimp only
    split
    · rename_i tunnel
      refine .inl ⟨rfl, fun b mem here waits => absurd tunnel ?_⟩
      rw [← only b mem here, waits.lsp]
      exact Bool.false_ne_true
    · split
      · rename_i mode
        exact .inl ⟨rfl, fun b mem here waits => absurd (only b mem here ▸ waits.facility) mode⟩
      · split
        · rename_i away
          exact .inl ⟨rfl, fun b mem here _ => only b mem here ▸ away⟩
        · split
          · rename_i armed
            exact .inl ⟨rfl, fun b mem here waits => absurd (only b mem here ▸ waits.bare) armed⟩
          · exact .inr rfl

theorem frrAssociateOne_arming (ifindex : UInt32) (s : Node) (p : Ptr) :
    KeepsArming s (frrAssociateOne ifindex s p) ∧ (frrAssociateOne ifindex s p).rsbs = s.rsbs := by
  rcases frrAssociateOne_cases ifindex s p with ⟨same, -⟩ | looked
  · rw [same]
    exact ⟨.refl s, rfl⟩
  · rw [looked]
    exact ⟨rsvpFrrAutoAssociate_arming s p, rsvpFrrAutoAssociate_rsbs s p⟩

/-- After the scan no LSP that was looked at waits on the interface. -/
theorem foldl_frrAssociateOne (keyed : s.rsbs.Keyed) {ifindex : UInt32}
    (pos : s.Covers ifindex → ifindex ≠ 0) (addrs : List Ptr) :
    KeepsArming s (addrs.foldl (frrAssociateOne ifindex) s) ∧
      ∀ b' ∈ (addrs.foldl (frrAssociateOne ifindex) s).psbs, b'.body.Waits →
        b'.body.ifindexOut = ifindex →
        (addrs.foldl (frrAssociateOne ifindex) s).Covers ifindex → b'.addr ∉ addrs := by
  induction addrs generalizing s with
  | nil => exact ⟨.refl s, fun _ _ _ _ _ => List.not_mem_nil⟩
  | cons p rest ih =>
    obtain ⟨one, rsbs⟩ := frrAssociateOne_arming ifindex s p
    have keyed' : (frrAssociateOne ifindex s p).rsbs.Keyed := rsbs ▸ keyed
    obtain ⟨all, scanned⟩ := ih keyed' fun covers => pos (one.covers covers)
    refine ⟨one.trans all, fun b' mem' waits' here covers listed => ?_⟩
    rcases List.mem_cons.mp listed with rfl | later
    · -- The PSB as it was right after its own turn.
      obtain ⟨b, mem, addr, waits, same⟩ := all.waits b' mem' waits'
      have coversB := one.covers (all.covers covers)
      obtain ⟨c, memc, addrC, waitsC, sameC⟩ := one.waits b mem waits
      have atC : c.body.ifindexOut = ifindex := sameC.trans (same.trans here)
      rcases frrAssociateOne_cases ifindex s b'.addr with ⟨-, skipped⟩ | looked
      · exact skipped c memc (addrC.trans addr) waitsC atC
      · rw [← addr, ← addrC] at looked
        rw [← addr, ← addrC, looked] at mem
        exact rsvpFrrAutoAssociate_armed keyed memc (atC ▸ coversB) (atC ▸ pos coversB) b mem
          addrC.symm waits
    · exact scanned b' mem' waits' here covers later

/-- The scan for one interface arms what only waits there. -/
theorem rsvpFrrAutoAssociateAll_armed (keyed : s.rsbs.Keyed) {ifindex : UInt32}
    (pos : s.Covers ifindex → ifindex ≠ 0) (armed : s.ArmedBut (· = ifindex)) :
    (rsvpFrrAutoAssociateAll s ifindex).Armed := by
  rw [rsvpFrrAutoAssociateAll_eq]
  obtain ⟨keeps, scanned⟩ := foldl_frrAssociateOne keyed pos (s.psbs.blocks.map Block.addr)
  intro b' mem' waits' covers
  obtain ⟨b, mem, addr, waits, same⟩ := keeps.waits b' mem' waits'
  have here : b'.body.ifindexOut = ifindex :=
    same ▸ armed b mem waits (keeps.covers (same ▸ covers))
  refine scanned b' mem' waits' here (here ▸ covers) ?_
  rw [← addr]
  exact List.mem_map_of_mem mem

/-! ## PATHs that are sent -/

/-- No LSP but the one at `p` waits for a bypass that is there. -/
def Node.ArmedAway (p : Ptr) (s : Node) : Prop :=
  ∀ b ∈ s.psbs, b.addr ≠ p → b.body.Waits → ¬ s.Covers b.body.ifindexOut

theorem Node.ArmedAway.armed {p : Ptr} (away : s.ArmedAway p)
    (here : ∀ b ∈ s.psbs, b.addr = p → b.body.Waits → ¬ s.Covers b.body.ifindexOut) : s.Armed := by
  intro b mem
  by_cases addr : b.addr = p
  · exact here b mem addr
  · exact away b mem addr

theorem KeepsArming.armedAway {p : Ptr} (keeps : KeepsArming s s') (away : s.ArmedAway p) :
    s'.ArmedAway p := by
  intro b' mem' other waits' covers
  obtain ⟨b, mem, addr, waits, same⟩ := keeps.waits b' mem' waits'
  rw [← same] at covers
  exact away b mem (fun here => other (addr.symm.trans here)) waits (keeps.covers covers)

section Moved

variable {p : Ptr} {f : PsbState → PsbState}
  (isBypassTunnel : ∀ x, (f x).isBypassTunnel = x.isBypassTunnel)
  (frrProtectedIfindex : ∀ x, (f x).frrProtectedIfindex = x.frrProtectedIfindex)
include isBypassTunnel frrProtectedIfindex

theorem covers_modPsb {ifindex : UInt32} (covers : (s.modPsb p f).Covers ifindex) :
    s.Covers ifindex := by
  obtain ⟨c', memc', r, memr, tunnel, ifindex, key, label⟩ := covers
  rcases Table.mem_modify.mp memc' with ⟨memc, -⟩ | ⟨c, memc, -, rfl⟩
  · exact ⟨c', memc, r, memr, tunnel, ifindex, key, label⟩
  · exact ⟨c, memc, r, memr, (isBypassTunnel _).symm.trans tunnel,
      (frrProtectedIfindex _).symm.trans ifindex, key, label⟩

theorem Node.ArmedAway.modPsb (away : s.ArmedAway p) : (s.modPsb p f).ArmedAway p := by
  intro b' mem' other waits covers
  rcases Table.mem_modify.mp mem' with ⟨mem, -⟩ | ⟨b, -, here, rfl⟩
  · exact away b' mem other waits (covers_modPsb isBypassTunnel frrProtectedIfindex covers)
  · exact other here

/-- An update that may move an LSP. -/
theorem Node.Armed.modPsb (armed : s.Armed)
    (moved : ∀ b ∈ s.psbs, b.addr = p → (f b.body).Waits → ¬ s.Covers (f b.body).ifindexOut) :
    (s.modPsb p f).Armed := by
  have away : s.ArmedAway p := fun b mem _ => armed b mem
  refine (away.modPsb isBypassTunnel frrProtectedIfindex).armed fun b' mem' here waits covers => ?_
  rcases Table.mem_modify.mp mem' with ⟨-, other⟩ | ⟨b, mem, addr, rfl⟩
  · exact other here
  · exact moved b mem addr waits (covers_modPsb isBypassTunnel frrProtectedIfindex covers)

end Moved

theorem sendPathDownstream_armed (armed : s.Armed) {b : Psb} (mem : b ∈ s.psbs)
    (route : b.body.Waits → ¬ s.Covers (leavesBy env b.key b.body)) :
    (sendPathDownstream env s b.addr).Armed := by
  obtain ⟨out, sent⟩ := @sendPathDownstream_leaves env s b mem
  have moved := armed.modPsb (p := b.addr) (f := fun x =>
    { x with
      ero := b.body.ero.popLocal env.toHal
      ifindexOut := leavesBy env b.key b.body }) (fun _ => rfl) (fun _ => rfl) ?_
  · rw [sent]
    exact moved
  · intro c memc here waits
    rw [Table.eq_of_addr_eq memc mem here] at waits
    exact route ⟨waits.facility, waits.lsp, waits.bare⟩

end Rsvp
