import RsvpTe.Senders

/-!
# Local addresses and the head of the ERO (`hal_netlink_linux.c`)

Both address queries of the Linux HAL walk the list of `getifaddrs`.  `hal_netlink_is_local_addr`
looks for an address on any interface, `hal_netlink_get_local_addr` for the address of one interface.

`resolve_path_next_hop` asks for the address of interface 0.  No interface has this index, so the
local variable stays 0.0.0.0 and a hop is popped only if it is that address.
-/

namespace Rsvp

/-- An entry of `getifaddrs`: the index of its interface, which `if_nametoindex` counts from 1, and
its address, if that is an IPv4 address. -/
structure IfAddr : Type where
  ifindex : UInt32
  addr : Option InAddr
  numbered : ifindex ≠ 0

/-- `getifaddrs` may fail. -/
abbrev IfAddrs : Type := Option (List IfAddr)

/-- The first IPv4 address of the interface. -/
def halNetlinkGetLocalAddr (ifaddrs : IfAddrs) (ifindex : UInt32) : Option InAddr :=
  (ifaddrs.getD []).findSome? fun ifa => if ifa.ifindex = ifindex then ifa.addr else none

def halNetlinkIsLocalAddr (ifaddrs : IfAddrs) (addr : InAddr) : Bool :=
  (ifaddrs.getD []).any fun ifa => ifa.addr = some addr

/-- The HAL of a Linux node; the kernel answers the route lookups. -/
def linuxHal (ifaddrs : IfAddrs) (route : InAddr → Option UInt32) : Hal where
  isLocalAddr := halNetlinkIsLocalAddr ifaddrs
  getLocalAddr := halNetlinkGetLocalAddr ifaddrs
  getEgressIf := route

variable {ifaddrs : IfAddrs} {route : InAddr → Option UInt32} {key : PathKey} {psb : PsbState}

/-- Interface 0 has no address. -/
theorem halNetlinkGetLocalAddr_zero (ifaddrs : IfAddrs) :
    halNetlinkGetLocalAddr ifaddrs 0 = none :=
  List.findSome?_eq_none_iff.mpr fun ifa _ => if_neg ifa.numbered

theorem linuxHal_localAddrOrZero_zero (ifaddrs : IfAddrs) (route : InAddr → Option UInt32) :
    (linuxHal ifaddrs route).localAddrOrZero 0 = 0 := by
  change (halNetlinkGetLocalAddr ifaddrs 0).getD 0 = 0
  rw [halNetlinkGetLocalAddr_zero]
  rfl

/-! ## What is left of an ERO -/

theorem Route.popLocal_nil {hal : Hal} {ero : Route} (empty : ero.hops = []) :
    ero.popLocal hal = ero := by
  rw [popLocal]
  split
  · rfl
  · rename_i cons
    cases empty.symm.trans cons

theorem Route.popLocal_own {hal : Hal} {ero : Route} {hop : EroSubobj} {rest : List EroSubobj}
    (cons : ero.hops = hop :: rest) (own : hop.addr = hal.localAddrOrZero 0) :
    (ero.popLocal hal).hops = rest := by
  rw [popLocal]
  split
  · rename_i empty
    cases empty.symm.trans cons
  · rename_i hop' rest' cons'
    obtain ⟨rfl, rfl⟩ := List.cons.inj (cons'.symm.trans cons)
    rw [if_pos own]
    exact congrArg List.tail cons

theorem Route.popLocal_foreign {hal : Hal} {ero : Route} {hop : EroSubobj}
    {rest : List EroSubobj} (cons : ero.hops = hop :: rest)
    (foreign : hop.addr ≠ hal.localAddrOrZero 0) : ero.popLocal hal = ero := by
  rw [popLocal]
  split
  · rfl
  · rename_i hop' rest' cons'
    obtain ⟨rfl, rfl⟩ := List.cons.inj (cons'.symm.trans cons)
    exact if_neg foreign

/-- At most the first hop is popped. -/
theorem Route.popLocal_suffix (hal : Hal) (ero : Route) :
    (ero.popLocal hal).hops <:+ ero.hops := by
  rw [popLocal]
  split
  · exact List.suffix_refl _
  · split
    · exact List.tail_suffix _
    · exact List.suffix_refl _

theorem Route.ipDest_eq (ero : Route) (key : PathKey) :
    ero.ipDest key = (ero.hops.head?.map EroSubobj.addr).getD key.session.destAddr := by
  unfold ipDest
  cases ero.hops <;> rfl

/-- The local hop is consumed: what remains of the ERO starts elsewhere, it is the end of what was
there, the PATH is addressed to its first hop, and a second call finds nothing more to do. -/
structure LocalHopConsumed (hal : Hal) (key : PathKey) (psb : PsbState) : Prop where
  elsewhere : ∀ hop, (resolvePathNextHop hal key psb).2.2.hops.head? = some hop →
    hal.isLocalAddr hop.addr = false
  suffix : (resolvePathNextHop hal key psb).2.2.hops <:+ psb.ero.hops
  dest : (resolvePathNextHop hal key psb).1 =
    ((resolvePathNextHop hal key psb).2.2.hops.head?.map EroSubobj.addr).getD key.session.destAddr
  again : resolvePathNextHop hal key { psb with ero := (resolvePathNextHop hal key psb).2.2 } =
    resolvePathNextHop hal key psb

/-- The route starts at an address that is not local, or at 0.0.0.0 and goes on, if at all, at
another address that is not local. -/
def StartsElsewhere (isLocalAddr : InAddr → Bool) : List EroSubobj → Prop
  | [] => True
  | first :: rest =>
    if first.addr = 0 then
      ∀ hop, rest.head? = some hop → hop.addr ≠ 0 ∧ isLocalAddr hop.addr = false
    else isLocalAddr first.addr = false

/-- Two of the four hold of every HAL. -/
theorem localHopConsumed_iff {hal : Hal} : LocalHopConsumed hal key psb ↔
    (∀ hop, (psb.ero.popLocal hal).hops.head? = some hop → hal.isLocalAddr hop.addr = false) ∧
      (psb.ero.popLocal hal).popLocal hal = psb.ero.popLocal hal := by
  constructor
  · intro consumed
    exact ⟨consumed.elsewhere, congrArg (fun result => result.2.2) consumed.again⟩
  · intro both
    obtain ⟨elsewhere, again⟩ := both
    refine ⟨elsewhere, psb.ero.popLocal_suffix hal, Route.ipDest_eq _ key, ?_⟩
    simp only [resolvePathNextHop, again]

/-- On a Linux node the local hop is consumed iff the ERO starts elsewhere, apart from one hop
0.0.0.0. -/
theorem localHopConsumed_linux_iff (ifaddrs : IfAddrs) (route : InAddr → Option UInt32)
    (key : PathKey) (psb : PsbState) :
    LocalHopConsumed (linuxHal ifaddrs route) key psb ↔
      StartsElsewhere (halNetlinkIsLocalAddr ifaddrs) psb.ero.hops := by
  have zero := linuxHal_localAddrOrZero_zero ifaddrs route
  rw [localHopConsumed_iff]
  cases hops : psb.ero.hops with
  | nil =>
    have kept : psb.ero.popLocal (linuxHal ifaddrs route) = psb.ero := Route.popLocal_nil hops
    rw [kept, kept, hops]
    exact ⟨fun _ => trivial, fun _ => ⟨fun hop head => (by cases head), rfl⟩⟩
  | cons first rest =>
    by_cases blank : first.addr = 0
    · have popped : (psb.ero.popLocal (linuxHal ifaddrs route)).hops = rest :=
        Route.popLocal_own hops (blank.trans zero.symm)
      rw [StartsElsewhere, if_pos blank, popped]
      constructor
      · intro both hop head
        refine ⟨fun blank' => ?_, both.1 hop head⟩
        -- A second 0.0.0.0 would be popped by the second call.
        obtain ⟨tail, cons⟩ : ∃ tail, rest = hop :: tail := by
          cases rest with
          | nil => cases head
          | cons hop' tail => exact ⟨tail, by rw [Option.some.inj head]⟩
        have twice := Route.popLocal_own (popped.trans cons) (blank'.trans zero.symm)
        rw [both.2, popped, cons] at twice
        exact List.cons_ne_self hop tail twice
      · intro starts
        refine ⟨fun hop head => (starts hop head).2, ?_⟩
        cases rest with
        | nil => exact Route.popLocal_nil popped
        | cons hop tail =>
          refine Route.popLocal_foreign popped ?_
          rw [zero]
          exact (starts hop rfl).1
    · have kept : psb.ero.popLocal (linuxHal ifaddrs route) = psb.ero := by
        refine Route.popLocal_foreign hops ?_
        rw [zero]
        exact blank
      rw [StartsElsewhere, if_neg blank, kept, kept, hops]
      constructor
      · exact fun both => both.1 first rfl
      · intro away
        refine ⟨fun hop head => ?_, rfl⟩
        cases Option.some.inj head
        exact away

/-- A node with the address 10.0.0.1 on interface 2. -/
def sampleIfAddrs : IfAddrs := some [⟨2, some 0x0100000A, by decide⟩]

/-- An ERO that starts at the node. -/
def sampleOwnEro : Route := ⟨[⟨eroIpv4, 8, 0x0100000A, 32, 0⟩, ⟨eroIpv4, 8, 0x0200000A, 32, 0⟩],
  by decide⟩

/-- The node keeps itself as the first hop and addresses the PATH to itself. -/
theorem exists_local_hop_kept : ∃ ifaddrs route key psb, psb.ero.hops ≠ [] ∧
    ¬ LocalHopConsumed (linuxHal ifaddrs route) key psb := by
  refine ⟨sampleIfAddrs, fun _ => some 2, .zero, { PsbState.zero with ero := sampleOwnEro },
    List.cons_ne_nil _ _, fun consumed => ?_⟩
  have foreign := consumed.elsewhere ⟨eroIpv4, 8, 0x0100000A, 32, 0⟩ (by decide)
  exact absurd foreign (by decide)

end Rsvp
