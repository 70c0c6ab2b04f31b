import RsvpTe.BypassStability
import RsvpTe.Lib.Scan

/-!
# Switching away from a failed link

`rsvp_frr_trigger` gives an LSP the interface of its bypass, but the PATH it then sends looks the
route up again and overwrites this interface, and the entry it installs leaves through the
interface in the RSB of the bypass.  Neither is compared with the interface that failed.
-/

namespace Rsvp

open Words Scan

variable {env : Env} {s t : Node} {ifindex : UInt32} {visited : List Psb}

/-! ## One scan -/

/-- The RSB of the tunnel to which the trigger switches PSB `b`. -/
def switchTarget (env : Env) (s : Node) (ifindex : UInt32) (b : Psb) : Option Rsb :=
  b.body.bypassPsb.bind fun q =>
    if b.body.ifindexOut = ifindex ∧ b.body.frrMode = .facility ∧ b.body.frrActive = false ∧
        b.body.isBypassTunnel = false then
      (s.rsvpRsbFind (s.derefPsb env q).key).filter (·.body.labelOut ≠ 0)
    else none

theorem switchTarget_eq_some {b : Psb} {x : Rsb} :
    switchTarget env s ifindex b = some x ↔ ∃ q, Switches env s ifindex b q x := by
  unfold switchTarget
  rw [Option.bind_eq_some_iff]
  constructor
  · rintro ⟨q, bypass, target⟩
    split at target
    · rename_i guard
      obtain ⟨found, label⟩ := Option.filter_eq_some_iff.mp target
      exact ⟨q, bypass, guard.1, guard.2.1, guard.2.2.1, guard.2.2.2, found,
        of_decide_eq_true label⟩
    · cases target
  · rintro ⟨q, now⟩
    refine ⟨q, now.bypass, ?_⟩
    rw [if_pos ⟨now.failed, now.facility, now.inactive, now.lsp⟩]
    exact Option.filter_eq_some_iff.mpr ⟨now.found, decide_eq_true now.label⟩

theorem switchTarget_eq_none {b : Psb} :
    switchTarget env s ifindex b = none ↔ ∀ q x, ¬ Switches env s ifindex b q x := by
  constructor
  · intro none q x now
    exact Option.some_ne_none x ((switchTarget_eq_some.mpr ⟨q, now⟩).symm.trans none)
  · intro never
    refine Option.eq_none_iff_forall_ne_some.mpr fun x target => ?_
    obtain ⟨q, now⟩ := switchTarget_eq_some.mp target
    exact never q x now

/-- The entry that leads where an RSB leads. -/
def Rsb.entry (via : Rsb) : FwdEntry :=
  ⟨via.body.labelOut, ntohl via.body.nextHop.logicalInterface, via.body.nextHop.neighborAddr⟩

/-- The entry of PSB `b` as it is written for RSB `via`. -/
def Node.switchedWrite (s : Node) (b : Psb) (via : Rsb) : Option (FwdKey × FwdEntry) :=
  (s.rsvpRsbFind b.key).map fun r =>
    (fwdKey r.body.labelIn b.key.session.destAddr, Rsb.entry via)

theorem switchedFwd_eq (s : Node) (b : Psb) (via : Rsb) :
    s.switchedFwd b via = applyWrites (s.switchedWrite b via).toList s.fwd := by
  unfold Node.switchedFwd Node.switchedWrite
  cases s.rsvpRsbFind b.key <;> rfl

/-- What a scan that switches PSBs to `target` writes for one of them. -/
def Node.scanWrite (s : Node) (target : Psb → Option Rsb) (b : Psb) :
    Option (FwdKey × FwdEntry) :=
  (target b).bind (s.switchedWrite b)

/-- The same as a call. -/
def Node.scanInstall (s : Node) (target : Psb → Option Rsb) (b : Psb) : Option Output :=
  (target b).bind (s.switchedInstall b)

/-- What a scan that switches PSBs to `target` has done once `visited` are behind it.  An interface
that `leads` allows is what a PSB is marked with. -/
structure SwitchScan (env : Env) (s : Node) (active : Bool) (target : Psb → Option Rsb)
    (leads : Psb → UInt32 → Prop) (visited : List Psb) (t : Node) : Prop where
  inside : ∀ b ∈ visited, b ∈ s.psbs
  rsbs : t.rsbs = s.rsbs
  addrs : t.psbs.blocks.map Block.addr = s.psbs.blocks.map Block.addr
  kept : ∀ b ∈ s.psbs, (b ∈ visited → target b = none) → b ∈ t.psbs
  switched : ∀ b ∈ visited, ∀ x, target b = some x →
    ∃ i, leads b i ∧ b.update (switchedPsb env b.key active i) ∈ t.psbs
  fwd : t.fwd = applyWrites (visited.filterMap (s.scanWrite target)) s.fwd
  log : ∃ log, t.out = s.out ++ log ∧
    log.filter Output.isInstall = visited.filterMap (s.scanInstall target)

namespace SwitchScan

variable {active : Bool} {target : Psb → Option Rsb} {leads : Psb → UInt32 → Prop}

theorem refl (s : Node) : SwitchScan env s active target leads [] s where
  inside := fun _ none => absurd none List.not_mem_nil
  rsbs := rfl
  addrs := rfl
  kept := fun _ mem _ => mem
  switched := fun _ none => absurd none List.not_mem_nil
  fwd := rfl
  log := ⟨[], (List.append_nil s.out).symm, rfl⟩

/-- What is at an address: the block of before, or one that was switched. -/
theorem get (scan : SwitchScan env s active target leads visited t) (q : Ptr) :
    (t.psbs.get q = s.psbs.get q ∧ ∀ c ∈ visited, c.addr = q → target c = none) ∨
    ∃ c ∈ visited, c.addr = q ∧ (∃ x, target c = some x) ∧ ∃ i, leads c i ∧
      s.psbs.get q = some c ∧ t.psbs.get q = some (c.update (switchedPsb env c.key active i)) := by
  cases found : s.psbs.get q with
  | none =>
    refine .inl ⟨?_, fun c old here => absurd here
      (Table.get_eq_none.mp found c (scan.inside c old))⟩
    refine Table.get_eq_none.mpr fun b mem here => ?_
    have placed : q ∈ s.psbs.blocks.map Block.addr :=
      scan.addrs ▸ here ▸ List.mem_map_of_mem (Table.mem_def.mp mem)
    obtain ⟨c, memc, same⟩ := List.mem_map.mp placed
    exact Table.get_eq_none.mp found c memc same
  | some c =>
    obtain ⟨mem, rfl⟩ := Table.get_eq_some.mp found
    have only : ∀ d ∈ visited, d.addr = c.addr → d = c := fun d old here =>
      Table.eq_of_addr_eq (scan.inside d old) mem here
    by_cases due : c ∈ visited ∧ target c ≠ none
    · obtain ⟨old, aimed⟩ := due
      obtain ⟨x, aim⟩ := Option.ne_none_iff_exists'.mp aimed
      obtain ⟨i, led, new⟩ := scan.switched c old x aim
      exact .inr ⟨c, old, rfl, ⟨x, aim⟩, i, led, rfl, Table.get_of_mem new⟩
    · have idle : c ∈ visited → target c = none := fun old => by_contra fun aimed => due ⟨old, aimed⟩
      refine .inl ⟨Table.get_of_mem (scan.kept c mem idle), fun d old here => ?_⟩
      obtain rfl := only d old here
      exact idle old

/-- A switch changes no key. -/
theorem derefPsb_key (scan : SwitchScan env s active target leads visited t) (env' : Env)
    (q : Ptr) : (t.derefPsb env' q).key = (s.derefPsb env' q).key := by
  unfold Node.derefPsb
  rcases scan.get q with ⟨same, -⟩ | ⟨c, -, -, -, i, -, old, new⟩
  · rw [same]
  · rw [old, new]
    rfl

variable {b : Psb} {post : List Psb}

/-- A PSB that is not visited yet is as it was. -/
theorem waiting (scan : SwitchScan env s active target leads visited t)
    (order : s.psbs.blocks = visited ++ b :: post) : b ∈ s.psbs ∧ b ∈ t.psbs ∧ b ∉ visited := by
  have mem : b ∈ s.psbs := by
    rw [Table.mem_def, order]
    exact List.mem_append_right _ List.mem_cons_self
  have once := s.psbs.distinct.of_map
  rw [order] at once
  have fresh : b ∉ visited := fun old =>
    List.disjoint_of_nodup_append once old List.mem_cons_self
  exact ⟨mem, scan.kept b mem fun old => absurd old fresh, fresh⟩

/-- A PSB with no target is passed by. -/
theorem skip (scan : SwitchScan env s active target leads visited t)
    (order : s.psbs.blocks = visited ++ b :: post) (none : target b = none) :
    SwitchScan env s active target leads (visited ++ [b]) t := by
  have write : s.scanWrite target b = Option.none := by
    rw [Node.scanWrite, none]
    rfl
  have install : s.scanInstall target b = Option.none := by
    rw [Node.scanInstall, none]
    rfl
  refine ⟨?_, scan.rsbs, scan.addrs, ?_, ?_, ?_, ?_⟩
  · intro c mem
    rcases List.mem_append.mp mem with old | new
    · exact scan.inside c old
    · rw [List.mem_singleton.mp new]
      exact (scan.waiting order).1
  · intro c mem idle
    exact scan.kept c mem fun old => idle (List.mem_append_left _ old)
  · intro c mem x aim
    rcases List.mem_append.mp mem with old | new
    · exact scan.switched c old x aim
    · rw [List.mem_singleton.mp new] at aim
      exact absurd (aim.symm.trans none) (Option.some_ne_none x)
  · rw [filterMap_concat, write, Option.toList_none, List.append_nil]
    exact scan.fwd
  · rw [filterMap_concat, install, Option.toList_none, List.append_nil]
    exact scan.log

/-- A PSB with a target is switched. -/
theorem switch (scan : SwitchScan env s active target leads visited t)
    (order : s.psbs.blocks = visited ++ b :: post) {x : Rsb} (aim : target b = some x) {i : UInt32}
    (led : leads b i) {sent : List Output} (packets : ∀ o ∈ sent, o.isInstall = false) :
    SwitchScan env s active target leads (visited ++ [b])
      { t with
        psbs := t.psbs.modify b.addr (switchedPsb env b.key active i)
        fwd := t.switchedFwd b x
        out := t.out ++ (t.switchedInstall b x).toList ++ sent } := by
  obtain ⟨memS, memT, fresh⟩ := scan.waiting order
  have apart : ∀ c ∈ visited, c.addr ≠ b.addr := by
    intro c old here
    rw [Table.eq_of_addr_eq (scan.inside c old) memS here] at old
    exact fresh old
  have rsb : t.rsvpRsbFind b.key = s.rsvpRsbFind b.key := by
    rw [Node.rsvpRsbFind, Node.rsvpRsbFind, scan.rsbs]
  refine ⟨?_, scan.rsbs, ?_, ?_, ?_, ?_, ?_⟩
  · intro c mem
    rcases List.mem_append.mp mem with old | new
    · exact scan.inside c old
    · rw [List.mem_singleton.mp new]
      exact memS
  · exact (Table.map_addr_update _ _ _).trans scan.addrs
  · intro c mem idle
    refine Table.mem_modify.mpr (.inl ⟨scan.kept c mem fun old =>
      idle (List.mem_append_left _ old), fun here => ?_⟩)
    obtain rfl := Table.eq_of_addr_eq mem memS here
    have none := idle (List.mem_append_right _ (List.mem_singleton_self c))
    exact Option.some_ne_none x (aim.symm.trans none)
  · intro c mem y aimC
    rcases List.mem_append.mp mem with old | new
    · obtain ⟨j, ledC, done⟩ := scan.switched c old y aimC
      exact ⟨j, ledC, Table.mem_modify.mpr (.inl ⟨done, apart c old⟩)⟩
    · rw [List.mem_singleton.mp new]
      exact ⟨i, led, Table.mem_modify.mpr (.inr ⟨b, memT, rfl, rfl⟩)⟩
  · have write : s.scanWrite target b = t.switchedWrite b x := by
      rw [Node.scanWrite, aim, Option.bind_some, Node.switchedWrite, Node.switchedWrite, rsb]
    rw [filterMap_concat, write, applyWrites_append, ← scan.fwd]
    exact switchedFwd_eq t b x
  · obtain ⟨log, out, installs⟩ := scan.log
    have install : s.scanInstall target b = t.switchedInstall b x := by
      rw [Node.scanInstall, aim, Option.bind_some, Node.switchedInstall, Node.switchedInstall, rsb]
    have only : (t.switchedInstall b x).toList.filter Output.isInstall =
        (t.switchedInstall b x).toList := by
      unfold Node.switchedInstall
      cases t.rsvpRsbFind b.key <;> rfl
    have silent : sent.filter Output.isInstall = [] := by
      rw [List.filter_eq_nil_iff]
      intro o mem
      rw [packets o mem]
      exact Bool.false_ne_true
    refine ⟨log ++ (t.switchedInstall b x).toList ++ sent, ?_, ?_⟩
    · rw [out]
      simp only [List.append_assoc]
    · rw [List.filter_append, List.filter_append, only, silent, installs, List.append_nil,
        filterMap_concat, install]

end SwitchScan

/-! ## The trigger -/

/-- The trigger switches the PSB at `q` before it comes to `b`. -/
def SwitchesBefore (env : Env) (s : Node) (ifindex : UInt32) (q : Ptr) (b : Psb) : Prop :=
  ∃ c, Before s.psbs.blocks c b ∧ c.addr = q ∧ ∃ q' x, Switches env s ifindex c q' x

/-- The interface the trigger reads in the tunnel of `b`.  A tunnel that the scan has switched
itself has the interface its own switch left. -/
inductive TunnelLeaves (env : Env) (s : Node) (ifindex : UInt32) : Psb → UInt32 → Prop
  | direct {b : Psb} {q : Ptr} : b.body.bypassPsb = some q →
    ¬ SwitchesBefore env s ifindex q b →
    TunnelLeaves env s ifindex b (s.derefPsb env q).body.ifindexOut
  | chained {b c : Psb} {i : UInt32} : b.body.bypassPsb = some c.addr →
    Before s.psbs.blocks c b → (∃ q x, Switches env s ifindex c q x) →
    TunnelLeaves env s ifindex c i →
    TunnelLeaves env s ifindex b (switchedPsb env c.key true i c.body).ifindexOut

theorem rsvpFrrTrigger_scan (env : Env) (s : Node) (ifindex : UInt32) :
    SwitchScan env s true (switchTarget env s ifindex) (TunnelLeaves env s ifindex)
      s.psbs.blocks (rsvpFrrTrigger env s ifindex) := by
  unfold rsvpFrrTrigger
  rw [List.foldl_map]
  refine @foldl_along _ _ _ (SwitchScan env s true (switchTarget env s ifindex)
    (TunnelLeaves env s ifindex)) [] _ _ (.refl s) fun visited b post t order scan => ?_
  obtain ⟨memS, memT, -⟩ := scan.waiting order
  rcases frrTriggerOne_cases t b.addr with
    ⟨same, never⟩ | ⟨b', mem', here, q, x, now, sent, packets, eq⟩
  · rw [same]
    refine scan.skip order (switchTarget_eq_none.mpr fun q x now => ?_)
    refine never b memT rfl q x { now with found := ?_ }
    rw [Node.rsvpRsbFind, scan.rsbs, scan.derefPsb_key]
    exact now.found
  · obtain rfl := Table.eq_of_addr_eq mem' memT here
    have found := now.found
    rw [Node.rsvpRsbFind, scan.rsbs, scan.derefPsb_key] at found
    have aim : switchTarget env s ifindex b' = some x :=
      switchTarget_eq_some.mpr ⟨q, { now with found := found }⟩
    rw [eq]
    refine scan.switch order aim ?_ packets
    unfold Node.derefPsb
    rcases scan.get q with ⟨same, idle⟩ | ⟨c, old, rfl, aimed, i, led, -, new⟩
    · rw [same]
      refine .direct now.bypass ?_
      rintro ⟨c, before, rfl, q', x', earlier⟩
      have none := idle c (before.mem_front s.psbs.distinct.of_map order) rfl
      exact switchTarget_eq_none.mp none q' x' earlier
    · rw [new]
      obtain ⟨y, aim'⟩ := aimed
      obtain ⟨q', earlier⟩ := switchTarget_eq_some.mp aim'
      exact .chained now.bypass ⟨visited, post, order, old⟩ ⟨q', y, earlier⟩ led

/-- What the trigger has marked leaves through another interface, and so does every entry it has
installed. -/
structure Node.LeavesLink (s s' : Node) (ifindex : UInt32) : Prop where
  marked : ∀ b ∈ s.psbs, b.body.frrActive = false → ∀ b' ∈ s'.psbs, b'.addr = b.addr →
    b'.body.frrActive = true → b'.body.ifindexOut ≠ ifindex
  installed : ∀ inLabel outLabel outIfindex nextHop dest,
    .mplsInstall inLabel outLabel outIfindex nextHop dest ∈ s'.out.drop s.out.length →
      outIfindex ≠ ifindex

/-- Where the PATH of PSB `b` is routed to. -/
def pathRoute (env : Env) (b : Psb) : Option UInt32 :=
  env.getEgressIf ((b.body.ero.popLocal env.toHal).ipDest b.key)

/-- The switch of `b` to the tunnel at `q` with RSB `x` leads away from the failed interface. -/
structure LeadsAway (env : Env) (s : Node) (ifindex : UInt32) (b : Psb) (q : Ptr) (x : Rsb) :
    Prop where
  routed : ∀ i, pathRoute env b = some i → i ≠ ifindex
  unrouted : pathRoute env b = none →
    (s.derefPsb env q).body.ifindexOut ≠ ifindex ∨ SwitchesBefore env s ifindex q b
  entry : s.rsvpRsbFind b.key ≠ none → ntohl x.body.nextHop.logicalInterface ≠ ifindex

theorem switchedPsb_ifindexOut (b : Psb) (active : Bool) (i : UInt32) :
    (switchedPsb env b.key active i b.body).ifindexOut = (pathRoute env b).getD i := rfl

/-- If all switches lead away, an interface that one of them leaves is another one. -/
theorem TunnelLeaves.switchedPsb_ne {b : Psb} {i : UInt32}
    (leaves : TunnelLeaves env s ifindex b i)
    (away : ∀ b ∈ s.psbs, ∀ q x, Switches env s ifindex b q x → LeadsAway env s ifindex b q x)
    (mem : b ∈ s.psbs) {q : Ptr} {x : Rsb} (now : Switches env s ifindex b q x) :
    (switchedPsb env b.key true i b.body).ifindexOut ≠ ifindex := by
  induction leaves generalizing q x with
  | @direct b q' bypass first =>
    have led := away b mem q x now
    obtain rfl : q' = q := Option.some.inj (bypass.symm.trans now.bypass)
    rw [switchedPsb_ifindexOut]
    cases route : pathRoute env b with
    | none => exact (led.unrouted route).resolve_right first
    | some j => exact led.routed j route
  | @chained b c j bypass before switches _ ih =>
    have led := away b mem q x now
    rw [switchedPsb_ifindexOut]
    cases route : pathRoute env b with
    | none =>
      obtain ⟨pre, post, order, old⟩ := before
      have memC : c ∈ s.psbs := by
        rw [Table.mem_def, order]
        exact List.mem_append_left _ old
      obtain ⟨q', x', earlier⟩ := switches
      exact ih memC earlier
    | some j => exact led.routed j route

/-- The trigger avoids the failed interface exactly if every switch leads away from it. -/
theorem leavesLink_iff (env : Env) (s : Node) (ifindex : UInt32) :
    s.LeavesLink (rsvpFrrTrigger env s ifindex) ifindex ↔
      ∀ b ∈ s.psbs, ∀ q x, Switches env s ifindex b q x → LeadsAway env s ifindex b q x := by
  have scan := rsvpFrrTrigger_scan env s ifindex
  obtain ⟨log, out, installs⟩ := scan.log
  have logged : (rsvpFrrTrigger env s ifindex).out.drop s.out.length = log := by
    rw [out, List.drop_left]
  constructor
  · intro leaves b mem q x now
    have aim : switchTarget env s ifindex b = some x := switchTarget_eq_some.mpr ⟨q, now⟩
    obtain ⟨i, led, new⟩ := scan.switched b (Table.mem_def.mp mem) x aim
    have other : (pathRoute env b).getD i ≠ ifindex :=
      leaves.marked b mem now.inactive _ new rfl rfl
    refine ⟨fun j route => ?_, fun unrouted => ?_, fun own => ?_⟩
    · rw [route] at other
      exact other
    · rw [unrouted] at other
      cases led with
      | @direct _ q' bypass _ =>
        obtain rfl : q' = q := Option.some.inj (bypass.symm.trans now.bypass)
        exact .inl other
      | @chained _ c j bypass before switches _ =>
        have tunnel : c.addr = q := Option.some.inj (bypass.symm.trans now.bypass)
        exact .inr ⟨c, before, tunnel, switches⟩
    · obtain ⟨r, found⟩ := Option.ne_none_iff_exists'.mp own
      have install : Output.mplsInstall r.body.labelIn x.body.labelOut
          (ntohl x.body.nextHop.logicalInterface) x.body.nextHop.neighborAddr
          b.key.session.destAddr ∈ log.filter Output.isInstall := by
        rw [installs]
        refine List.mem_filterMap.mpr ⟨b, Table.mem_def.mp mem, ?_⟩
        rw [Node.scanInstall, aim, Option.bind_some, Node.switchedInstall, found]
        rfl
      exact leaves.installed _ _ _ _ _ (logged ▸ (List.mem_filter.mp install).1)
  · intro away
    refine ⟨fun b mem inactive b' mem' here active => ?_, fun _ _ _ _ _ install => ?_⟩
    · have got := Table.get_of_mem mem'
      rw [here] at got
      rcases scan.get b.addr with ⟨same, -⟩ | ⟨c, -, same, ⟨x, aim⟩, i, led, old, new⟩
      · obtain rfl : b' = b :=
          Option.some.inj (got.symm.trans (same.trans (Table.get_of_mem mem)))
        exact absurd (active.symm.trans inactive) Bool.false_ne_true.symm
      · obtain rfl : c = b := Option.some.inj (old.symm.trans (Table.get_of_mem mem))
        obtain rfl := Option.some.inj (got.symm.trans new)
        obtain ⟨q, now⟩ := switchTarget_eq_some.mp aim
        exact led.switchedPsb_ne away mem now
    · rw [logged] at install
      have member : _ ∈ log.filter Output.isInstall := List.mem_filter.mpr ⟨install, rfl⟩
      rw [installs] at member
      obtain ⟨b, mem, written⟩ := List.mem_filterMap.mp member
      obtain ⟨x, aim, written⟩ := Option.bind_eq_some_iff.mp written
      obtain ⟨q, now⟩ := switchTarget_eq_some.mp aim
      obtain ⟨r, found, call⟩ := Option.map_eq_some_iff.mp written
      obtain ⟨-, -, rfl, -, -⟩ := Output.mplsInstall.inj call
      exact (away b mem q x now).entry (found ▸ Option.some_ne_none r)

/-- A route that still leads through the failed interface puts the LSP back on it. -/
theorem exists_switched_to_failed :
    Reachable (labelMgrInit 16 31 true) sampleLabelled ∧
    ¬ sampleLabelled.LeavesLink (rsvpFrrTrigger (sampleEnv (fun _ => false) 3) sampleLabelled 2) 2 := by
  have announced : Reachable (labelMgrInit 16 31 true) sampleAnnounced :=
    .step _ _ (.step _ _ .init)
  have bypassUp : Reachable (labelMgrInit 16 31 true) sampleBypassUp := .step _ _ announced
  have back : sampleLabelled.psbs.blocks.any (fun b => !b.body.frrActive &&
      (rsvpFrrTrigger (sampleEnv (fun _ => false) 3) sampleLabelled 2).psbs.blocks.any fun b' =>
        decide (b'.addr = b.addr) && b'.body.frrActive && decide (b'.body.ifindexOut = 2)) =
      true := by
    decide +kernel
  refine ⟨.step _ _ bypassUp, fun leaves => ?_⟩
  obtain ⟨b, mem, back⟩ := List.any_eq_true.mp back
  obtain ⟨inactive, back⟩ := (Bool.and_eq_true _ _).mp back
  obtain ⟨b', mem', back⟩ := List.any_eq_true.mp back
  simp only [Bool.and_eq_true, decide_eq_true_eq] at back
  exact leaves.marked b mem ((Bool.not_eq_true' _).mp inactive) b' mem' back.1.1 back.1.2 back.2

end Rsvp
