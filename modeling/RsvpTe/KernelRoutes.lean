import RsvpTe.Netlink
import RsvpTe.Shutdown
import RsvpTe.Writes

/-!
# The routes in the kernel

`Kernel` is a reading of the log of requests, not a model of Linux: it takes the requests of
`hal_mpls_install` and `hal_mpls_remove` as they are meant, so a route is installed in place of the
one with its destination, or removed by it.  It reads the bytes of each request, and what it ends up
with depends on the whole history of the daemon.  `kernel_mirrors` says that this is at all times the
forwarding table of the state machine.
-/

namespace Rsvp

/-- A route: the label it puts on a packet, the interface and the gateway. -/
structure KernelRoute : Type where
  label : Option UInt32
  oif : Option UInt32
  gateway : Option InAddr
  deriving DecidableEq, Repr

/-- The MPLS routes by their label, the host routes by their address. -/
abbrev Kernel : Type := FwdKey → Option KernelRoute

namespace RouteMessage

/-- The destination that a message names. -/
def key (m : RouteMessage) : Option FwdKey :=
  let dst := m.attrs.findSome? fun
    | .dst word => some word
    | _ => none
  if m.rtm.family = afMpls ∧ m.rtm.dstLen = 20 then dst.map fun entry => .label (entryLabel entry)
  else if m.rtm.family = afInet ∧ m.rtm.dstLen = 32 then dst.map .push
  else none

def route (m : RouteMessage) : KernelRoute where
  label := m.attrs.findSome? fun
    | .encap entry => some (entryLabel entry)
    | .newdst entry => some (entryLabel entry)
    | _ => none
  oif := m.attrs.findSome? fun
    | .oif ifindex => some ifindex
    | _ => none
  gateway := m.attrs.findSome? fun
    | .gateway addr => some addr
    | .via addr => some addr
    | _ => none

end RouteMessage

/-- The kernel acts on a message. -/
def Kernel.receive (k : Kernel) (message : Bytes) : Kernel :=
  match readRouteMessage message with
  | none => k
  | some m =>
    match m.key with
    | none => k
    | some key =>
      if m.hdr.type = rtmNewroute then Function.update k key (some m.route)
      else if m.hdr.type = rtmDelroute then Function.update k key none
      else k

/-- The request that a call of the forwarding plane sends. -/
def Output.message (pid : UInt32) : Output → Option Bytes
  | .packet _ _ _ => none
  | .mplsInstall inLabel outLabel outIfindex nextHop dest =>
    halMplsInstallMessage pid inLabel outLabel outIfindex (some nextHop) (some dest)
  | .mplsRemove inLabel dest => halMplsRemoveMessage pid inLabel dest

/-- What the kernel has after the messages of a log. -/
def kernelOf (pid : UInt32) (log : List Output) : Kernel :=
  (log.filterMap (Output.message pid)).foldl Kernel.receive fun _ => none

/-- A forwarding entry in the kernel.  Twenty bits of the label are left, and a swap to label 0 puts
none on. -/
def FwdEntry.inKernel (key : FwdKey) (e : FwdEntry) : KernelRoute where
  label :=
    match key with
    | .push _ => some (e.outLabel % 1048576)
    | .label _ => if e.outLabel = 0 then none else some (e.outLabel % 1048576)
  oif := some e.outIfindex
  gateway := routeHop (some e.nextHop)

section Requests

variable {pid inLabel outLabel outIfindex : UInt32} {nextHop dest : InAddr} {k : Kernel}

theorem entryLabel_eq (label : UInt32) : entryLabel (labelStackEntry label) = label % 1048576 := by
  rw [← UInt32.toNat_inj, toNat_entryLabel, UInt32.toNat_mod]
  rfl

theorem entryLabel_small (small : inLabel < 1048576) :
    entryLabel (labelStackEntry inLabel) = inLabel := by
  rw [entryLabel_eq, ← UInt32.toNat_inj, UInt32.toNat_mod]
  exact Nat.mod_eq_of_lt (UInt32.lt_iff_toNat_lt.mp small)

/-- The request for an entry names its key and has its route. -/
theorem install_route (small : inLabel < 1048576) :
    ∃ request, halMplsRequest inLabel outLabel outIfindex (some nextHop) (some dest) = some request ∧
      (request.install pid).hdr.type = rtmNewroute ∧
      (request.install pid).key = some (fwdKey inLabel dest) ∧
      (request.install pid).route =
        FwdEntry.inKernel (fwdKey inLabel dest) ⟨outLabel, outIfindex, nextHop⟩ := by
  by_cases push : inLabel = 0
  · subst push
    refine ⟨_, rfl, rfl, rfl, ?_⟩
    dsimp only [RouteRequest.install, RouteMessage.route, FwdEntry.inKernel, fwdKey]
    rw [← entryLabel_eq]
    cases routeHop (some nextHop) <;> rfl
  · have place : fwdKey inLabel dest = .label inLabel := if_neg push
    refine ⟨_, if_neg push, rfl, ?_, ?_⟩
    · refine Eq.trans (b := some (.label (entryLabel (labelStackEntry inLabel)))) rfl ?_
      rw [entryLabel_small small, place]
    · dsimp only [RouteRequest.install, RouteMessage.route, FwdEntry.inKernel]
      rw [place, ← entryLabel_eq]
      by_cases bare : outLabel = 0
      · rw [if_neg (not_not_intro bare), if_pos bare]
        cases routeHop (some nextHop) <;> rfl
      · rw [if_pos bare, if_neg bare]
        cases routeHop (some nextHop) <;> rfl

theorem receive_install (small : inLabel < 1048576) :
    ((Output.mplsInstall inLabel outLabel outIfindex nextHop dest).message pid).map k.receive =
      some (Function.update k (fwdKey inLabel dest)
        (some (FwdEntry.inKernel (fwdKey inLabel dest) ⟨outLabel, outIfindex, nextHop⟩))) := by
  obtain ⟨request, made, type, key, route⟩ :=
    @install_route pid inLabel outLabel outIfindex nextHop dest small
  obtain ⟨read, -⟩ := routeRequests_read pid inLabel outLabel outIfindex (some nextHop) (some dest)
  rw [made, Option.map_some] at read
  obtain ⟨message, sent, read⟩ := Option.map_eq_some_iff.mp read
  rw [Output.message, sent, Option.map_some, Kernel.receive, read]
  dsimp only
  rw [key]
  dsimp only
  rw [if_pos type, route]

/-- A removal takes the entry of its key out; a push without a destination is not removed. -/
theorem receive_remove (small : inLabel < 1048576) (dest : Option InAddr) :
    (((Output.mplsRemove inLabel dest).message pid).map k.receive).getD k =
      dest.elim (if inLabel = 0 then k else Function.update k (.label inLabel) none)
        fun dest => Function.update k (fwdKey inLabel dest) none := by
  obtain ⟨-, read, -⟩ := routeRequests_read pid inLabel 0 0 none dest
  rw [halMplsRemoveRequest] at read
  -- The key of the request, where there is one.
  have removed : ∀ (request : RouteRequest) (key : FwdKey),
      (halMplsRemoveMessage pid inLabel dest).map readRouteMessage =
        some (some (request.remove pid)) → (request.remove pid).hdr.type = rtmDelroute →
      (request.remove pid).key = some key →
      (((Output.mplsRemove inLabel dest).message pid).map k.receive).getD k =
        Function.update k key none := by
    intro request key read type named
    obtain ⟨message, sent, read⟩ := Option.map_eq_some_iff.mp read
    rw [Output.message, sent, Option.map_some, Option.getD_some, Kernel.receive, read]
    dsimp only
    rw [named]
    dsimp only
    rw [if_neg (by rw [type]; decide), if_pos type]
  by_cases push : inLabel = 0
  · subst push
    cases dest with
    | none => rfl
    | some dest => exact removed ⟨.inet, 32, [.dst dest]⟩ (.push dest) read rfl rfl
  · rw [if_neg push, Option.map_some] at read
    have named := removed _ (.label (entryLabel (labelStackEntry inLabel))) read rfl rfl
    rw [entryLabel_small small] at named
    rw [named, if_neg push]
    cases dest with
    | none => rfl
    | some dest => exact congrArg (Function.update k · none) (if_neg push).symm

end Requests

/-! ## Runs -/

/-- The kernel has the routes of the node, whose labels fit into a label stack entry. -/
structure Node.Mirrored (pid : UInt32) (s : Node) : Prop where
  pool : s.labels.Wf
  small : ∀ r ∈ s.rsbs, r.body.labelIn < 1048576
  kernel : kernelOf pid s.out = fun key => (s.fwd key).map (FwdEntry.inKernel key)

variable {pid : UInt32} {s t : Node}

theorem kernelOf_append (pid : UInt32) (log : List Output) (o : Output) :
    kernelOf pid (log ++ [o]) = ((o.message pid).map (kernelOf pid log).receive).getD
      (kernelOf pid log) := by
  rw [kernelOf, List.filterMap_append, List.foldl_append, ← kernelOf]
  cases sent : o.message pid with
  | none => rw [List.filterMap_cons_none sent]; rfl
  | some message => rw [List.filterMap_cons_some sent]; rfl

theorem Node.Mirrored.small_labels (mirrored : s.Mirrored pid) {label : UInt32}
    (labels : s.Labels label) : label < 1048576 := by
  rcases labels with rfl | ⟨r, mem, rfl⟩
  · decide
  · exact mirrored.small r mem

/-- The labels stay small where each RSB has a small one or that of an RSB that was there. -/
theorem small_of_rsbs (small : ∀ r ∈ s.rsbs, r.body.labelIn < 1048576)
    (origin : ∀ x ∈ t.rsbs, x.body.labelIn < 1048576 ∨ ∃ r ∈ s.rsbs, x.body.labelIn = r.body.labelIn) :
    ∀ x ∈ t.rsbs, x.body.labelIn < 1048576 := by
  intro x mem
  rcases origin x mem with less | ⟨r, memr, same⟩
  · exact less
  · rw [same]
    exact small r memr

theorem small_modRsb (small : ∀ r ∈ s.rsbs, r.body.labelIn < 1048576) (a : Ptr)
    {f : RsbState → RsbState}
    (keeps : ∀ x, (f x).labelIn < 1048576 ∨ (f x).labelIn = x.labelIn) :
    ∀ x ∈ (s.modRsb a f).rsbs, x.body.labelIn < 1048576 := by
  apply small_of_rsbs small
  intro x mem
  rcases Table.mem_modify.mp mem with ⟨old, -⟩ | ⟨y, old, -, rfl⟩
  · exact .inr ⟨x, old, rfl⟩
  · exact (keeps y.body).imp id fun same => ⟨y, old, same⟩

/-- Writing an entry and writing its route. -/
theorem inKernel_update {k : Kernel} {fwd : FwdTable}
    (same : k = fun key => (fwd key).map (FwdEntry.inKernel key)) (place : FwdKey)
    (e : Option FwdEntry) :
    Function.update k place (e.map (FwdEntry.inKernel place)) =
      fun key => (Function.update fwd place e key).map (FwdEntry.inKernel key) := by
  funext key
  by_cases here : key = place
  · subst here
    rw [Function.update_self, Function.update_self]
  · rw [Function.update_of_ne here, Function.update_of_ne here, same]

theorem Node.Mirrored.write {sends : Message → Prop} (mirrored : s.Mirrored pid)
    (write : Write sends s t) : t.Mirrored pid := by
  obtain ⟨pool, small, kernel⟩ := mirrored
  have zero : (0 : UInt32) < 1048576 := by decide
  cases write with
  | psbs => exact ⟨pool, small, kernel⟩
  | bsbs => exact ⟨pool, small, kernel⟩
  | nextLspId => exact ⟨pool, small, kernel⟩
  | packet =>
    refine ⟨pool, small, ?_⟩
    rw [Node.emit, kernelOf_append]
    exact kernel
  | rsb a f keeps =>
    exact ⟨pool, small_modRsb small a fun x => .inr (keeps x), kernel⟩
  | newRsb created =>
    refine ⟨pool, small_of_rsbs small fun x mem => ?_, kernel⟩
    rcases (Table.mem_create created).mp mem with rfl | old
    · exact .inl zero
    · exact .inr ⟨x, old, rfl⟩
  | dropRsb a =>
    refine ⟨pool, small_of_rsbs small fun x mem => ?_, kernel⟩
    exact .inr ⟨x, (Table.mem_unlink.mp mem).1, rfl⟩
  | take a =>
    rcases labelMgrAlloc_cases pool with none | ⟨label, labels, some, takes⟩
    · rw [none]
      exact ⟨pool, small_modRsb small a fun _ => .inl zero, kernel⟩
    · rw [some]
      have high := (LabelMgr.inRange_iff.mp takes.inRange).2
      have less : label < 1048576 := by
        have top := UInt32.lt_iff_toNat_lt.mp pool.high
        exact UInt32.lt_iff_toNat_lt.mpr (Nat.lt_of_le_of_lt high top)
      exact ⟨takes.wf, small_modRsb (s := { s with labels := labels }) small a fun _ => .inl less,
        kernel⟩
  | free a label =>
    exact ⟨(labelMgrFree_spec pool label).1, small_modRsb (s := { s with labels := _ }) small a
      fun _ => .inl zero, kernel⟩
  | @install inLabel outLabel outIfindex nextHop dest labels =>
    have less := Node.Mirrored.small_labels ⟨pool, small, kernel⟩ labels
    refine ⟨pool, small, ?_⟩
    rw [Node.halMplsInstall, Node.emit, kernelOf_append, receive_install less, Option.getD_some]
    exact inKernel_update kernel (fwdKey inLabel dest) (some ⟨outLabel, outIfindex, nextHop⟩)
  | @remove inLabel dest labels =>
    have less := Node.Mirrored.small_labels ⟨pool, small, kernel⟩ labels
    refine ⟨pool, small, ?_⟩
    have logged : (s.halMplsRemove inLabel dest).out = s.out ++ [.mplsRemove inLabel dest] := rfl
    rw [logged, kernelOf_append, receive_remove less]
    cases dest with
    | some dest => exact inKernel_update kernel (fwdKey inLabel dest) none
    | none =>
      have fwd : (s.halMplsRemove inLabel none).fwd =
          if inLabel = 0 then s.fwd else Function.update s.fwd (.label inLabel) none := rfl
      rw [fwd, Option.elim_none]
      by_cases push : inLabel = 0
      · rw [if_pos push, if_pos push]
        exact kernel
      · rw [if_neg push, if_neg push]
        exact inKernel_update kernel (.label inLabel) none

theorem Node.Mirrored.writes (mirrored : s.Mirrored pid) (writes : DaemonWrites s t) :
    t.Mirrored pid := by
  induction writes with
  | refl => exact mirrored
  | tail _ last ih => exact ih.write last

theorem shutdownBucket_writes {env : Env} {fuel bucket : Nat} {u : Node} (writes : Writes s t)
    (done : shutdownBucket env fuel t bucket = some u) : Writes s u := by
  induction fuel generalizing t with
  | zero => cases done
  | succ fuel ih =>
    rw [shutdownBucket] at done
    split at done
    · cases done
      exact writes
    · exact ih (rsvpPsbCleanup_writes writes _ true) done

theorem rsvpStateMachineShutdown_writes {env : Env} {fuel : Nat}
    (done : rsvpStateMachineShutdown env fuel s = some t) : Writes s t := by
  have buckets : ∀ (l : List Nat) {u : Node}, Writes s u →
      l.foldlM (shutdownBucket env fuel) u = some t → Writes s t := by
    intro l
    induction l with
    | nil =>
      intro u writes done
      cases done
      exact writes
    | cons bucket l ih =>
      intro u writes done
      obtain ⟨v, first, rest⟩ := Option.bind_eq_some_iff.mp done
      exact ih (shutdownBucket_writes writes first) rest
  exact buckets _ (.refl s) done

/-- Whatever a daemon has served, and also when it has shut down: the bytes of its requests, read as
they are meant, give exactly the routes of its forwarding table. -/
theorem kernel_mirrors {min max : UInt32} (low : 1 ≤ min) (ordered : min ≤ max)
    (high : max < 1048576) (pid : UInt32) {d : Daemon}
    (run : Daemon.Reachable (labelMgrInit min max true) d) :
    kernelOf pid d.node.out = (fun key => (d.node.fwd key).map (FwdEntry.inKernel key)) ∧
      ∀ env fuel s, rsvpStateMachineShutdown env fuel d.node = some s →
        kernelOf pid s.out = fun key => (s.fwd key).map (FwdEntry.inKernel key) := by
  have mirrored : d.node.Mirrored pid := by
    induction run with
    | init => exact ⟨(labelMgrInit_wf low ordered high).1,
        fun r mem => absurd mem (Table.not_mem_empty r), rfl⟩
    | step env ev _ ih => exact ih.writes (Daemon.step_writes env _ ev)
  exact ⟨mirrored.kernel, fun env fuel s done =>
    (mirrored.writes (rsvpStateMachineShutdown_writes done).daemon).kernel⟩

/-- A node in transit that has handled a PATH and the RESV with label 2^20 + 5. -/
def sampleSwapping : Daemon :=
  Daemon.step (sampleEnv (fun _ => false) 100) (Daemon.step (sampleEnv (fun _ => false) 100)
    ⟨Node.init (labelMgrInit 16 31 true), []⟩ (.lsp (.recv (samplePath 0x0300000A 1 5))))
    (.lsp (.recv (sampleResv 0x0300000A 1 1048581 3)))

/-- The kernel swaps label 16 for the lower 20 bits of the label that was signalled. -/
theorem kernel_mirrors_swap : kernelOf 7 sampleSwapping.node.out (.label 16) =
    some ⟨some 5, some 3, some 0x0300000A⟩ := by
  have run : Daemon.Reachable (labelMgrInit 16 31 true) sampleSwapping :=
    .step _ _ (.step _ _ .init)
  obtain ⟨mirrors, -⟩ := kernel_mirrors (by decide) (by decide) (by decide) 7 run
  have entry : sampleSwapping.node.fwd (.label 16) = some ⟨1048581, 3, 0x0300000A⟩ := by
    decide +kernel
  rw [mirrors]
  dsimp only
  rw [entry]
  rfl

end Rsvp
