import RsvpTe.FailedLink

/-!
# Reverting a switch

`rsvp_frr_trigger` picks the LSPs that leave through the failed interface, `rsvp_frr_revert` those
whose bypass was declared to protect it.  The revert writes each entry from the RSB of the LSP,
whatever the entry was before, and lets the route decide on the outgoing interface once more.
-/

namespace Rsvp

open Words Scan

variable {env env' : Env} {s t : Node} {ifindex : UInt32} {visited : List Psb}

/-! ## The scan -/

/-- The RSB from which the revert restores PSB `b`. -/
def revertTarget (env : Env) (s : Node) (ifindex : UInt32) (b : Psb) : Option Rsb :=
  b.body.bypassPsb.bind fun q =>
    if b.body.frrActive = true ∧ (s.derefPsb env q).body.frrProtectedIfindex = ifindex then
      s.rsvpRsbFind b.key
    else none

theorem revertTarget_eq_some {b : Psb} {r : Rsb} :
    revertTarget env s ifindex b = some r ↔ ∃ q, Reverts env s ifindex b q r := by
  unfold revertTarget
  rw [Option.bind_eq_some_iff]
  constructor
  · rintro ⟨q, bypass, target⟩
    split at target
    · rename_i guard
      exact ⟨q, bypass, guard.1, guard.2, target⟩
    · cases target
  · rintro ⟨q, now⟩
    refine ⟨q, now.bypass, ?_⟩
    rw [if_pos ⟨now.active, now.recovered⟩]
    exact now.found

theorem revertTarget_inactive {b : Psb} (inactive : b.body.frrActive = false) :
    revertTarget env s ifindex b = none := by
  refine Option.eq_none_iff_forall_ne_some.mpr fun r target => ?_
  obtain ⟨q, now⟩ := revertTarget_eq_some.mp target
  exact Bool.false_ne_true (inactive.symm.trans now.active)

/-- A switch keeps the interface a tunnel protects. -/
theorem SwitchScan.derefPsb_protects {active : Bool} {target : Psb → Option Rsb}
    {leads : Psb → UInt32 → Prop} (scan : SwitchScan env s active target leads visited t)
    (env' : Env) (q : Ptr) : (t.derefPsb env' q).body.frrProtectedIfindex =
      (s.derefPsb env' q).body.frrProtectedIfindex := by
  unfold Node.derefPsb
  rcases scan.get q with ⟨same, -⟩ | ⟨c, -, -, -, i, -, old, new⟩
  · rw [same]
  · rw [old, new]
    rfl

theorem rsvpFrrRevert_scan (env : Env) (s : Node) (ifindex : UInt32) :
    SwitchScan env s false (revertTarget env s ifindex) (fun _ i => i = ifindex)
      s.psbs.blocks (rsvpFrrRevert env s ifindex) := by
  unfold rsvpFrrRevert
  rw [List.foldl_map]
  refine @foldl_along _ _ _ (SwitchScan env s false (revertTarget env s ifindex)
    fun _ i => i = ifindex) [] _ _ (.refl s) fun visited b post t order scan => ?_
  obtain ⟨-, memT, -⟩ := scan.waiting order
  rcases frrRevertOne_cases t b.addr with
    ⟨same, never⟩ | ⟨b', mem', here, q, r, now, sent, packets, eq⟩
  · rw [same]
    refine scan.skip order (Option.eq_none_iff_forall_ne_some.mpr fun r target => ?_)
    obtain ⟨q, now⟩ := revertTarget_eq_some.mp target
    refine never b memT rfl q r ⟨now.bypass, now.active, ?_, ?_⟩
    · rw [scan.derefPsb_protects]
      exact now.recovered
    · rw [Node.rsvpRsbFind, scan.rsbs]
      exact now.found
  · obtain rfl := Table.eq_of_addr_eq mem' memT here
    have recovered := now.recovered
    have found := now.found
    rw [scan.derefPsb_protects] at recovered
    rw [Node.rsvpRsbFind, scan.rsbs] at found
    rw [eq]
    exact scan.switch order (revertTarget_eq_some.mpr ⟨q, now.bypass, now.active, recovered, found⟩)
      rfl packets

/-! ## Trigger and revert -/

/-- `s₂` is `s` again after a switch to `s₁`, as far as PSBs and entries are concerned. -/
structure Node.Undone (s s₁ s₂ : Node) : Prop where
  fwd : s₂.fwd = s.fwd
  switched : ∀ b ∈ s.psbs, ∀ b₁ ∈ s₁.psbs, b₁.addr = b.addr → b₁.body.frrActive = true →
    ∃ b₂ ∈ s₂.psbs, b₂.addr = b.addr ∧ b₂.key = b.key ∧ b₂.body.frrActive = false ∧
      b₂.body.ifindexOut = b.body.ifindexOut
  others : ∀ b ∈ s.psbs, ∀ b₁ ∈ s₁.psbs, b₁.addr = b.addr → b₁.body.frrActive = false →
    b ∈ s₂.psbs

/-- The key of the entry of PSB `b` with RSB `r`. -/
def Psb.entryKey (b : Psb) (r : Rsb) : FwdKey := fwdKey r.body.labelIn b.key.session.destAddr

/-- The revert takes `b` back from the tunnel at `q`, and to where it was. -/
structure Restores (env env' : Env) (s : Node) (ifindex : UInt32) (b : Psb) (q : Ptr) : Prop where
  recovered : (s.derefPsb env' q).body.frrProtectedIfindex = ifindex
  routed : ∀ i, pathRoute env' (b.update (pathSent env b.key)) = some i → i = ifindex
  entry : ∃ r, s.rsvpRsbFind b.key = some r ∧ (s.fwd (Psb.entryKey b r) = some (Rsb.entry r) ∨
    ∃ b', Before s.psbs.blocks b b' ∧ (∃ q' x', Switches env s ifindex b' q' x') ∧
      ∃ r', s.rsvpRsbFind b'.key = some r' ∧ Psb.entryKey b' r' = Psb.entryKey b r)

/-- What the revert writes for a PSB that the trigger has switched. -/
def restoreWrite (env : Env) (s : Node) (ifindex : UInt32) (b : Psb) :
    Option (FwdKey × FwdEntry) :=
  (switchTarget env s ifindex b).bind fun _ =>
    (s.rsvpRsbFind b.key).map fun r => (Psb.entryKey b r, Rsb.entry r)

/-- A PSB that was switched is taken back if its tunnel protects the interface and it has an RSB. -/
theorem revertTarget_switched (scan : SwitchScan env s true (switchTarget env s ifindex)
    (TunnelLeaves env s ifindex) visited t) {b : Psb} {q : Ptr} (bypass : b.body.bypassPsb = some q)
    (i : UInt32) :
    revertTarget env' t ifindex (b.update (switchedPsb env b.key true i)) =
      if (s.derefPsb env' q).body.frrProtectedIfindex = ifindex then s.rsvpRsbFind b.key
      else none := by
  have same : (b.update (switchedPsb env b.key true i)).body.bypassPsb = some q := bypass
  have active : (b.update (switchedPsb env b.key true i)).body.frrActive = true := rfl
  rw [revertTarget, same, Option.bind_some, active, scan.derefPsb_protects, Node.rsvpRsbFind,
    scan.rsbs]
  simp only [true_and]
  rfl

section

variable {s₁ s₂ : Node}

/-- The entries after both scans are those of before exactly if every last write agrees. -/
theorem undone_fwd_iff
    (trigger : SwitchScan env s true (switchTarget env s ifindex) (TunnelLeaves env s ifindex)
      s.psbs.blocks s₁)
    (revert : SwitchScan env' s₁ false (revertTarget env' s₁ ifindex) (fun _ i => i = ifindex)
      s₁.psbs.blocks s₂)
    (idle : ∀ b ∈ s.psbs, b.body.frrActive = false)
    (taken : ∀ b ∈ s.psbs, ∀ q x, Switches env s ifindex b q x →
      (s.derefPsb env' q).body.frrProtectedIfindex = ifindex) :
    s₂.fwd = s.fwd ↔ ∀ b ∈ s.psbs.blocks, ∀ w, restoreWrite env s ifindex b = some w →
      s.fwd w.1 = some w.2 ∨ ∃ b', Before s.psbs.blocks b b' ∧
        ∃ w', restoreWrite env s ifindex b' = some w' ∧ w'.1 = w.1 := by
  have writes : s₁.psbs.blocks.filterMap (s₁.scanWrite (revertTarget env' s₁ ifindex)) =
      s.psbs.blocks.filterMap (restoreWrite env s ifindex) := by
    refine filterMap_congr_of_map_eq trigger.addrs fun b mem b₁ mem₁ here => ?_
    have got : s₁.psbs.get b.addr = some b₁ := here ▸ Table.get_of_mem (Table.mem_def.mpr mem₁)
    rw [Node.scanWrite, restoreWrite]
    rcases trigger.get b.addr with ⟨same, none⟩ | ⟨c, -, -, ⟨x, aim⟩, i, -, old, new⟩
    · obtain rfl : b₁ = b :=
        Option.some.inj (got.symm.trans (same.trans (Table.get_of_mem (Table.mem_def.mpr mem))))
      rw [revertTarget_inactive (idle b₁ mem), none b₁ mem rfl]
      rfl
    · obtain rfl : c = b := Option.some.inj (old.symm.trans (Table.get_of_mem mem))
      obtain rfl := Option.some.inj (got.symm.trans new)
      obtain ⟨q, now⟩ := switchTarget_eq_some.mp aim
      rw [revertTarget_switched trigger now.bypass, if_pos (taken c mem q x now), aim]
      have own : s₁.rsvpRsbFind c.key = s.rsvpRsbFind c.key := by
        rw [Node.rsvpRsbFind, Node.rsvpRsbFind, trigger.rsbs]
      cases found : s.rsvpRsbFind c.key with
      | none => rfl
      | some r =>
        rw [Option.bind_some, Option.bind_some, Node.switchedWrite]
        exact congrArg (Option.map _) (own.trans found)
  rw [revert.fwd, writes]
  refine applyWrites_filterMap_eq_iff s.psbs.distinct.of_map fun k away => ?_
  rw [trigger.fwd]
  refine applyWrites_of_forall_ne (fun w written here => ?_) _
  obtain ⟨b, mem, written⟩ := List.mem_filterMap.mp written
  obtain ⟨x, aim, written⟩ := Option.bind_eq_some_iff.mp written
  obtain ⟨r, found, rfl⟩ := Option.map_eq_some_iff.mp written
  refine away b mem (Psb.entryKey b r, Rsb.entry r) ?_ here
  rw [restoreWrite, aim, Option.bind_some, found]
  rfl

theorem restoreWrite_eq_some {b : Psb} {w : FwdKey × FwdEntry} :
    restoreWrite env s ifindex b = some w ↔ (∃ q x, Switches env s ifindex b q x) ∧
      ∃ r, s.rsvpRsbFind b.key = some r ∧ (Psb.entryKey b r, Rsb.entry r) = w := by
  rw [restoreWrite, Option.bind_eq_some_iff]
  constructor
  · rintro ⟨x, aim, written⟩
    obtain ⟨q, now⟩ := switchTarget_eq_some.mp aim
    exact ⟨⟨q, x, now⟩, Option.map_eq_some_iff.mp written⟩
  · rintro ⟨⟨q, x, now⟩, written⟩
    exact ⟨x, switchTarget_eq_some.mpr ⟨q, now⟩, Option.map_eq_some_iff.mpr written⟩

end

/-- Where no LSP is on a bypass, a revert undoes the trigger for the same interface exactly if it
restores every LSP that the trigger switches. -/
theorem revert_undoes_iff (env env' : Env) (idle : ∀ b ∈ s.psbs, b.body.frrActive = false)
    (ifindex : UInt32) :
    s.Undone (rsvpFrrTrigger env s ifindex)
        (rsvpFrrRevert env' (rsvpFrrTrigger env s ifindex) ifindex) ↔
      ∀ b ∈ s.psbs, ∀ q x, Switches env s ifindex b q x → Restores env env' s ifindex b q := by
  have trigger := rsvpFrrTrigger_scan env s ifindex
  generalize rsvpFrrTrigger env s ifindex = s₁ at trigger ⊢
  have revert := rsvpFrrRevert_scan env' s₁ ifindex
  generalize rsvpFrrRevert env' s₁ ifindex = s₂ at revert ⊢
  -- A PSB that is switched and taken back.
  have back : ∀ b : Psb, ∀ i, b.update (switchedPsb env b.key true i) ∈ s₁.psbs → ∀ r,
      revertTarget env' s₁ ifindex (b.update (switchedPsb env b.key true i)) = some r →
      ∃ b₂ ∈ s₂.psbs, b₂.addr = b.addr ∧ b₂.key = b.key ∧ b₂.body.frrActive = false ∧
        b₂.body.ifindexOut = (pathRoute env' (b.update (pathSent env b.key))).getD ifindex := by
    intro b i mem₁ r target
    obtain ⟨j, rfl, mem₂⟩ := revert.switched _ (Table.mem_def.mp mem₁) r target
    exact ⟨_, mem₂, rfl, rfl, rfl, rfl⟩
  constructor
  · intro undone
    -- Whatever is switched is taken back.
    have taken : ∀ b ∈ s.psbs, ∀ q x, Switches env s ifindex b q x → ∃ r,
        (s.derefPsb env' q).body.frrProtectedIfindex = ifindex ∧ s.rsvpRsbFind b.key = some r ∧
        (pathRoute env' (b.update (pathSent env b.key))).getD ifindex = ifindex := by
      intro b mem q x now
      obtain ⟨i, -, mem₁⟩ := trigger.switched b (Table.mem_def.mp mem) x
        (switchTarget_eq_some.mpr ⟨q, now⟩)
      obtain ⟨b₂, mem₂, here₂, -, inactive, restored⟩ := undone.switched b mem _ mem₁ rfl rfl
      cases target : revertTarget env' s₁ ifindex (b.update (switchedPsb env b.key true i)) with
      | none =>
        have stays := revert.kept _ mem₁ fun _ => target
        rw [Table.eq_of_addr_eq mem₂ stays here₂] at inactive
        exact absurd inactive.symm Bool.false_ne_true
      | some r =>
        obtain ⟨b₃, mem₃, here₃, -, -, leaves⟩ := back b i mem₁ r target
        obtain rfl := Table.eq_of_addr_eq mem₃ mem₂ (here₃.trans here₂.symm)
        rw [revertTarget_switched trigger now.bypass] at target
        split at target
        · rename_i recovered
          exact ⟨r, recovered, target, leaves.symm.trans (restored.trans now.failed)⟩
        · cases target
    have agrees := (undone_fwd_iff trigger revert idle fun b mem q x now => by
      obtain ⟨r, recovered, -⟩ := taken b mem q x now
      exact recovered).mp undone.fwd
    intro b mem q x now
    obtain ⟨r, recovered, found, leaves⟩ := taken b mem q x now
    refine ⟨recovered, fun i route => ?_, r, found, ?_⟩
    · rw [route] at leaves
      exact leaves
    · rcases agrees b mem (Psb.entryKey b r, Rsb.entry r)
        (restoreWrite_eq_some.mpr ⟨⟨q, x, now⟩, r, found, rfl⟩) with same | ⟨b', later, w, made, again⟩
      · exact .inl same
      · obtain ⟨switches, r', found', rfl⟩ := restoreWrite_eq_some.mp made
        exact .inr ⟨b', later, switches, r', found', again⟩
  · intro restores
    refine ⟨?_, fun b mem b₁ mem₁ here active => ?_, fun b mem b₁ mem₁ here inactive => ?_⟩
    · refine (undone_fwd_iff trigger revert idle fun b mem q x now =>
        (restores b mem q x now).recovered).mpr fun b mem w made => ?_
      obtain ⟨⟨q, x, now⟩, r, found, rfl⟩ := restoreWrite_eq_some.mp made
      obtain ⟨r₀, found₀, entry⟩ := (restores b mem q x now).entry
      obtain rfl : r₀ = r := Option.some.inj (found₀.symm.trans found)
      rcases entry with same | ⟨b', later, switches, r', found', again⟩
      · exact .inl same
      · exact .inr ⟨b', later, (Psb.entryKey b' r', Rsb.entry r'),
          restoreWrite_eq_some.mpr ⟨switches, r', found', rfl⟩, again⟩
    · have got : s₁.psbs.get b.addr = some b₁ := here ▸ Table.get_of_mem mem₁
      rcases trigger.get b.addr with ⟨same, -⟩ | ⟨c, -, -, ⟨x, aim⟩, i, -, old, new⟩
      · obtain rfl : b₁ = b := Option.some.inj (got.symm.trans (same.trans (Table.get_of_mem mem)))
        exact absurd ((idle b₁ mem).symm.trans active) Bool.false_ne_true
      · obtain rfl : c = b := Option.some.inj (old.symm.trans (Table.get_of_mem mem))
        obtain rfl := Option.some.inj (got.symm.trans new)
        obtain ⟨q, now⟩ := switchTarget_eq_some.mp aim
        have led := restores c mem q x now
        obtain ⟨r, found, -⟩ := led.entry
        have target := @revertTarget_switched env env' s s₁ ifindex _ trigger c q now.bypass i
        rw [if_pos led.recovered, found] at target
        obtain ⟨b₂, mem₂, here₂, key₂, inactive, leaves⟩ := back c i mem₁ r target
        refine ⟨b₂, mem₂, here₂, key₂, inactive, leaves.trans ?_⟩
        rw [now.failed]
        cases route : pathRoute env' (c.update (pathSent env c.key)) with
        | none => rfl
        | some j => exact led.routed j route
    · have got : s₁.psbs.get b.addr = some b₁ := here ▸ Table.get_of_mem mem₁
      rcases trigger.get b.addr with ⟨same, -⟩ | ⟨c, -, -, -, i, -, old, new⟩
      · obtain rfl : b₁ = b := Option.some.inj (got.symm.trans (same.trans (Table.get_of_mem mem)))
        exact revert.kept b₁ mem₁ fun _ => revertTarget_inactive inactive
      · obtain rfl := Option.some.inj (got.symm.trans new)
        exact absurd inactive.symm Bool.false_ne_true

/-- A protected LSP goes to its bypass and comes back. -/
theorem revert_undoes_iff_protected :
    sampleRerouted.psbs.blocks.any (·.body.frrActive) = true ∧
    sampleLabelled.Undone (rsvpFrrTrigger (sampleEnv (fun _ => false) 3) sampleLabelled 2)
      (rsvpFrrRevert (sampleEnv (fun _ => false) 3)
        (rsvpFrrTrigger (sampleEnv (fun _ => false) 3) sampleLabelled 2) 2) := by
  have up : (sampleRerouted.psbs.blocks.any (·.body.frrActive) &&
      sampleLabelled.psbs.blocks.all fun b => !b.body.frrActive &&
        (b.body.bypassPsb.all fun q => (sampleLabelled.derefPsb (sampleEnv (fun _ => false) 3)
          q).body.frrProtectedIfindex = 2) &&
        (sampleLabelled.rsvpRsbFind b.key).any fun r =>
          sampleLabelled.fwd (Psb.entryKey b r) = some (Rsb.entry r)) = true := by
    decide +kernel
  obtain ⟨rerouted, up⟩ := (Bool.and_eq_true _ _).mp up
  have all := List.all_eq_true.mp up
  have only : ∀ c, pathRoute (sampleEnv (fun _ => false) 3) c = some 2 := fun _ => rfl
  simp only [Bool.and_eq_true, Bool.not_eq_true', Option.all_eq_true, decide_eq_true_eq] at all
  have idle : ∀ b ∈ sampleLabelled.psbs, b.body.frrActive = false := fun b mem =>
    (all b (Table.mem_def.mp mem)).1.1
  refine ⟨rerouted, (revert_undoes_iff _ _ idle 2).mpr fun b mem q x now => ?_⟩
  obtain ⟨⟨-, guards⟩, own⟩ := all b (Table.mem_def.mp mem)
  obtain ⟨r, found, entry⟩ := (Option.any_eq_true _ _).mp own
  refine ⟨guards q now.bypass, fun i route => ?_, r, found, .inl (of_decide_eq_true entry)⟩
  exact Option.some.inj (route.symm.trans (only _))

/-- An LSP that leaves through interface 2, protected by hand with a bypass for interface 5. -/
def sampleMisarmed : Node :=
  ((((Node.init (labelMgrInit 16 31 true)).step (sampleEnv (fun _ => false) 1)
    (.initiatePath 0x0900000A 0x0400000A 1 none [] false)).step (sampleEnv (fun _ => false) 2)
    (.initiateBypass 0x0900000A 0x0300000A 1 none [] 5)).step (sampleEnv (fun _ => false) 2)
    (.recv (sampleResv 0x0300000A 2 100 7))).step (sampleEnv (fun _ => false) 3)
    (.recv (sampleResv 0x0400000A 1 200 7))

/-- Such an LSP is switched when interface 2 fails and never taken back. -/
theorem exists_never_reverted :
    ∃ s, Reachable (labelMgrInit 16 31 true) s ∧ (∀ b ∈ s.psbs, b.body.frrActive = false) ∧
      ¬ s.Undone (rsvpFrrTrigger (sampleEnv (fun _ => false) 3) s 2)
        (rsvpFrrRevert (sampleEnv (fun _ => false) 3)
          (rsvpFrrTrigger (sampleEnv (fun _ => false) 3) s 2) 2) := by
  have up : Reachable (labelMgrInit 16 31 true) sampleMisarmed :=
    .step _ _ (.step _ _ (.step _ _ (.step _ _ .init)))
  have run : Reachable (labelMgrInit 16 31 true)
      (sampleMisarmed.step (sampleEnv (fun _ => false) 3) (.frrEnable 1 1 .facility 1)) :=
    .step _ _ up
  generalize armed : sampleMisarmed.step (sampleEnv (fun _ => false) 3)
    (.frrEnable 1 1 .facility 1) = s at run
  have kept : (s.psbs.blocks.all (!·.body.frrActive) &&
      s.psbs.blocks.any fun b =>
        ((rsvpFrrTrigger (sampleEnv (fun _ => false) 3) s 2).psbs.get b.addr).any fun b₁ =>
          b₁.body.frrActive && decide (b₁.addr = b.addr) &&
          (rsvpFrrRevert (sampleEnv (fun _ => false) 3)
            (rsvpFrrTrigger (sampleEnv (fun _ => false) 3) s 2) 2).psbs.blocks.all fun b₂ =>
            decide (b₂.addr ≠ b.addr) || b₂.body.frrActive) = true := by
    rw [← armed]
    decide +kernel
  obtain ⟨idle, kept⟩ := (Bool.and_eq_true _ _).mp kept
  refine ⟨s, run, fun b mem => ?_, fun undone => ?_⟩
  · exact (Bool.not_eq_true' _).mp (List.all_eq_true.mp idle b (Table.mem_def.mp mem))
  · obtain ⟨b, mem, kept⟩ := List.any_eq_true.mp kept
    obtain ⟨b₁, got, kept⟩ := (Option.any_eq_true _ _).mp kept
    simp only [Bool.and_eq_true, decide_eq_true_eq] at kept
    obtain ⟨⟨active, here⟩, kept⟩ := kept
    obtain ⟨b₂, mem₂, here₂, -, inactive, -⟩ :=
      undone.switched b mem b₁ (Table.get_eq_some.mp got).1 here active
    have still := List.all_eq_true.mp kept b₂ mem₂
    simp only [Bool.or_eq_true, decide_eq_true_eq] at still
    rcases still with away | active₂
    · exact away here₂
    · exact Bool.false_ne_true (inactive.symm.trans active₂)

end Rsvp
