import RsvpTe.ListHead
import RsvpTe.WheelThreads

/-!
# The wheel in memory

The wheel as it is stored: every bucket is the head of a ring, a node is linked through its
`entry`, and a thread that takes a list leaves it under a head on its own stack.  A null pointer
that is followed, an index past the end of an array, a head that is taken for a node and a loop
that does not end give no result.

`Represents` ties this memory to the lists of `TimerWheel`, with the lists that threads have under
way.  Neither `cascade` nor a worker takes the nodes of its list out before it links them anew, so
what is left of such a list is its trail.
-/

namespace Rsvp

open LinkMem (Shape Loose)

/-! ## Memory -/

/-- The heads on the stacks: `list` of `cascade`, `expired` of the tick thread, and the
`node_list` of each worker. -/
inductive Local : Type
  | list
  | expired
  | nodeList (worker : Nat)
  deriving DecidableEq

/-- Where a `struct list_head` is. -/
inductive ListAddr : Type
  | bucket (b : Bucket)
  | expiredList
  | stack (l : Local)
  | entry (n : NodeId)
  deriving DecidableEq

/-- `list_entry`. -/
def listEntry : ListAddr → Option NodeId
  | .entry n => some n
  | _ => none

def Level.size : Level → Nat
  | .tv1 => 256
  | _ => 64

/-- The index is within the array. -/
def Bucket.Valid (b : Bucket) : Prop := b.index < b.level.size

instance (b : Bucket) : Decidable b.Valid := inferInstanceAs (Decidable (_ < _))

structure WheelMemory : Type where
  jiffies : UInt64
  tickMs : UInt32
  links : LinkMem ListAddr
  nodes : NodeId → TimerNode

/-- The heads that `timer_wheel_create` initialises. -/
def wheelHeads : List ListAddr :=
  (List.range 256).map (fun i => .bucket ⟨.tv1, i⟩) ++
    (List.range 64).flatMap (fun i =>
      [.bucket ⟨.tv2, i⟩, .bucket ⟨.tv3, i⟩, .bucket ⟨.tv4, i⟩, .bucket ⟨.tv5, i⟩]) ++
    [.expiredList]

namespace WheelMemory

def create (tickMs : UInt32) (jiffies : UInt64) : Option WheelMemory :=
  if tickMs = 0 then none
  else
    some ⟨jiffies, tickMs, wheelHeads.foldl initListHead ⟨fun _ => none, fun _ => none⟩,
      fun _ => .init⟩

def modNode (m : WheelMemory) (n : NodeId) (f : TimerNode → TimerNode) : WheelMemory :=
  { m with nodes := Function.update m.nodes n (f (m.nodes n)) }

def internalAddTimer (m : WheelMemory) (n : NodeId) : Option WheelMemory := do
  let vec := vecFor m.jiffies (m.nodes n).expires
  let links ← listAddTail m.links (.entry n) (.bucket vec)
  return { m with links := links }.modNode n fun node => { node with pending := true }

def cascade (m : WheelMemory) (tv : Level) (index : Nat) : Option WheelMemory := do
  let links := initListHead m.links (.stack .list)
  let links ← listSpliceInit links (.bucket ⟨tv, index⟩) (.stack .list)
  listForEachSafe WheelMemory.links (.stack .list) (fun m pos => do
    let n ← listEntry pos
    m.internalAddTimer n) { m with links := links }

/-- The clock advances and, where a level has come round, the next one is cascaded. -/
def advance (m : WheelMemory) : Option WheelMemory := do
  let next := m.jiffies + 1
  let m := { m with jiffies := next }
  if TimerWheel.indexOf next .tv1 ≠ 0 then return m
  let m ← m.cascade .tv2 (TimerWheel.indexOf next .tv2)
  if TimerWheel.indexOf next .tv2 ≠ 0 then return m
  let m ← m.cascade .tv3 (TimerWheel.indexOf next .tv3)
  if TimerWheel.indexOf next .tv3 ≠ 0 then return m
  let m ← m.cascade .tv4 (TimerWheel.indexOf next .tv4)
  if TimerWheel.indexOf next .tv4 ≠ 0 then return m
  m.cascade .tv5 (TimerWheel.indexOf next .tv5)

/-- One turn of the loop over the bucket of a tick. -/
def expire (m : WheelMemory) (pos : ListAddr) : Option WheelMemory := do
  let n ← listEntry pos
  let m := m.modNode n fun node => { node with pending := false }
  let links ← listMoveTail m.links pos (.stack .expired)
  return { m with links := links }

/-- One round of `tick_thread_func`. -/
def tick (m : WheelMemory) : Option WheelMemory := do
  let bucket : ListAddr := .bucket ⟨.tv1, TimerWheel.indexOf (m.jiffies + 1) .tv1⟩
  let m ← m.advance
  if listEmpty m.links bucket then return m
  let m := { m with links := initListHead m.links (.stack .expired) }
  let m ← listForEachSafe WheelMemory.links bucket expire m
  let links ← listSpliceInit m.links (.stack .expired) .expiredList
  return { m with links := links }

/-- `timer_node_init`. -/
def initNode (m : WheelMemory) (n : NodeId) : WheelMemory :=
  { m with links := initListHead m.links (.entry n) }.modNode n fun _ => .init

/-- `list_del` if the node is pending. -/
def unlink (m : WheelMemory) (n : NodeId) : Option WheelMemory :=
  if (m.nodes n).pending then do
    let links ← listDel m.links (.entry n)
    return { m with links := links }
  else some m

def timerAdd (m : WheelMemory) (n : NodeId) (expiresMs : UInt32) : Option WheelMemory := do
  let pending := (m.nodes n).pending
  let m ← m.unlink n
  let m := if pending then m.modNode n fun node => { node with pending := false } else m
  (m.modNode n fun node => { node with
      wheel := true
      expires := m.jiffies + TimerWheel.delayTicks m.tickMs expiresMs
      period := 0 }).internalAddTimer n

/-- A period of no ticks becomes one, and one of no milliseconds is refused. -/
def timerAddPeriodic (m : WheelMemory) (n : NodeId) (periodMs : UInt32) : Option WheelMemory :=
  if periodMs = 0 then some m
  else do
    let pending := (m.nodes n).pending
    let m ← m.unlink n
    let m := if pending then m.modNode n fun node => { node with pending := false } else m
    let ticks := (periodMs / m.tickMs).toUInt64
    let period := if ticks = 0 then 1 else ticks
    (m.modNode n fun node => { node with
        wheel := true
        period := period
        expires := m.jiffies + period }).internalAddTimer n

def timerMod (m : WheelMemory) (n : NodeId) (expiresMs : UInt32) : Option WheelMemory := do
  let m ← m.unlink n
  (m.modNode n fun node => { node with
      wheel := true
      expires := m.jiffies + TimerWheel.delayTicks m.tickMs expiresMs }).internalAddTimer n

/-- A node that is not pending only loses its period. -/
def timerDel (m : WheelMemory) (n : NodeId) : Option WheelMemory := do
  let pending := (m.nodes n).pending
  let m ← m.unlink n
  return m.modNode n fun node =>
    if pending then { node with period := 0, pending := false, wheel := false }
    else { node with period := 0 }

/-- The last section of a worker for a node whose callback has returned. -/
def finish (m : WheelMemory) (n : NodeId) : Option WheelMemory :=
  if (m.nodes n).period > 0 ∧ (m.nodes n).pending = false then
    (m.modNode n fun node => { node with expires := node.expires + node.period }).internalAddTimer n
  else if (m.nodes n).period = 0 ∧ (m.nodes n).pending = false then
    some (m.modNode n fun node => { node with wheel := false })
  else some m

end WheelMemory

/-! ## The lists of a wheel in memory -/

/-- The heads that a memory has, with those that the threads have on their stacks. -/
def shapes (stack : Local → Option Shape) : ListAddr → Option Shape
  | .bucket b => if b.Valid then some .ring else none
  | .expiredList => some .ring
  | .stack l => stack l
  | .entry _ => none

/-- The entries in each list, with those that the threads have still to treat. -/
def entries (w : TimerWheel) (held : Local → List NodeId) : ListAddr → List ListAddr
  | .bucket b => (w.buckets b).map .entry
  | .expiredList => w.expiredList.map .entry
  | .stack l => (held l).map .entry
  | .entry _ => []

structure WheelMemory.Represents (m : WheelMemory) (w : TimerWheel) (stack : Local → Option Shape)
    (held : Local → List NodeId) : Prop where
  jiffies : m.jiffies = w.jiffies
  tickMs : m.tickMs = w.tickMs
  nodes : m.nodes = w.nodes
  holds : m.links.Holds (shapes stack) (entries w held)

/-- The node is in none of the lists. -/
def Unlinked (w : TimerWheel) (held : Local → List NodeId) (n : NodeId) : Prop :=
  (∀ b, n ∉ w.buckets b) ∧ n ∉ w.expiredList ∧ ∀ l, n ∉ held l

section Lists

variable {w : TimerWheel} {held : Local → List NodeId} {stack : Local → Option Shape} {n : NodeId}

theorem mem_map_entry {list : List NodeId} : ListAddr.entry n ∈ list.map .entry ↔ n ∈ list :=
  List.mem_map_of_injective fun _ _ => ListAddr.entry.inj

theorem loose_iff : Loose (shapes stack) (entries w held) (.entry n) ↔ Unlinked w held n := by
  constructor
  · intro loose
    exact ⟨fun b inside => loose.absent (.bucket b) (mem_map_entry.mpr inside),
      fun inside => loose.absent .expiredList (mem_map_entry.mpr inside),
      fun l inside => loose.absent (.stack l) (mem_map_entry.mpr inside)⟩
  · rintro ⟨buckets, expired, locals⟩
    refine ⟨rfl, fun head => ?_⟩
    cases head with
    | bucket b => exact fun inside => buckets b (mem_map_entry.mp inside)
    | expiredList => exact fun inside => expired (mem_map_entry.mp inside)
    | stack l => exact fun inside => locals l (mem_map_entry.mp inside)
    | entry m => exact List.not_mem_nil

theorem update_entries_bucket (w : TimerWheel) (held : Local → List NodeId) (b : Bucket)
    (list : List NodeId) :
    Function.update (entries w held) (.bucket b) (list.map .entry) =
      entries { w with buckets := Function.update w.buckets b list } held := by
  funext a
  cases a with
  | bucket c =>
    simp only [Function.update_apply, ListAddr.bucket.injEq, entries]
    split <;> rfl
  | _ => rfl

theorem update_entries_expiredList (w : TimerWheel) (held : Local → List NodeId)
    (list : List NodeId) :
    Function.update (entries w held) .expiredList (list.map .entry) =
      entries { w with expiredList := list } held := by
  funext a
  cases a <;> rfl

theorem update_entries_stack (w : TimerWheel) (held : Local → List NodeId) (l : Local)
    (list : List NodeId) :
    Function.update (entries w held) (.stack l) (list.map .entry) =
      entries w (Function.update held l list) := by
  funext a
  cases a with
  | stack k =>
    simp only [Function.update_apply, ListAddr.stack.injEq, entries]
    split <;> rfl
  | _ => rfl

theorem update_shapes (stack : Local → Option Shape) (l : Local) (form : Option Shape) :
    Function.update (shapes stack) (.stack l) form = shapes (Function.update stack l form) := by
  funext a
  cases a with
  | stack k => simp only [Function.update_apply, ListAddr.stack.injEq, shapes]
  | _ => rfl

theorem shapes_stack_self (stack : Local → Option Shape) (l : Local) (form : Option Shape) :
    shapes (Function.update stack l form) (.stack l) = form := by
  rw [shapes, Function.update_self]

theorem entries_stack_self (w : TimerWheel) (held : Local → List NodeId) (l : Local)
    (list : List NodeId) :
    entries w (Function.update held l list) (.stack l) = list.map .entry := by
  rw [entries, Function.update_self]

theorem shapes_bucket {b : Bucket} (valid : b.Valid) : shapes stack (.bucket b) = some .ring :=
  if_pos valid

theorem and_wheelTvrMask_lt (x : UInt64) : (x &&& wheelTvrMask).toNat < 256 := by
  have mask : wheelTvrMask.toNat = 2 ^ 8 - 1 := rfl
  rw [UInt64.toNat_and, mask, Nat.and_two_pow_sub_one_eq_mod]
  exact Nat.mod_lt _ (by decide)

theorem and_wheelTvnMask_lt (x : UInt64) : (x &&& wheelTvnMask).toNat < 64 := by
  have mask : wheelTvnMask.toNat = 2 ^ 6 - 1 := rfl
  rw [UInt64.toNat_and, mask, Nat.and_two_pow_sub_one_eq_mod]
  exact Nat.mod_lt _ (by decide)

/-- The masks keep every index within its array. -/
theorem vecFor_valid (jiffies expires : UInt64) : (vecFor jiffies expires).Valid := by
  simp only [vecFor]
  split_ifs
  · exact and_wheelTvrMask_lt _
  · exact and_wheelTvrMask_lt _
  · exact and_wheelTvnMask_lt _
  · exact and_wheelTvnMask_lt _
  · exact and_wheelTvnMask_lt _
  · exact and_wheelTvnMask_lt _

theorem indexOf_valid (jiffies : UInt64) (level : Level) :
    (⟨level, TimerWheel.indexOf jiffies level⟩ : Bucket).Valid := by
  cases level with
  | tv1 => exact and_wheelTvrMask_lt _
  | tv2 => exact and_wheelTvnMask_lt _
  | tv3 => exact and_wheelTvnMask_lt _
  | tv4 => exact and_wheelTvnMask_lt _
  | tv5 => exact and_wheelTvnMask_lt _

end Lists

namespace WheelMemory.Represents

variable {m : WheelMemory} {w : TimerWheel} {stack : Local → Option Shape}
  {held : Local → List NodeId} {n : NodeId} {place : Option Bucket}

theorem modNode (represents : m.Represents w stack held) (n : NodeId)
    (f : TimerNode → TimerNode) : (m.modNode n f).Represents (w.modNode n f) stack held := by
  refine ⟨represents.jiffies, represents.tickMs, ?_, represents.holds⟩
  rw [WheelMemory.modNode, TimerWheel.modNode, represents.nodes]

theorem internalAddTimer (represents : m.Represents w stack held) (free : Unlinked w held n) :
    ∃ m', m.internalAddTimer n = some m' ∧
      m'.Represents (w.internalAddTimer n) stack held := by
  have valid := vecFor_valid w.jiffies (w.nodes n).expires
  obtain ⟨links, added, holds⟩ := listAddTail_holds represents.holds (shapes_bucket valid)
    (loose_iff.mpr free)
  have linked : ({ m with links := links } : WheelMemory).Represents
      { w with
        buckets := Function.update w.buckets (vecFor w.jiffies (w.nodes n).expires)
          (w.buckets (vecFor w.jiffies (w.nodes n).expires) ++ [n]) } stack held := by
    refine ⟨represents.jiffies, represents.tickMs, represents.nodes, ?_⟩
    rw [← update_entries_bucket, List.map_append]
    exact holds
  refine ⟨_, ?_, linked.modNode n fun node => { node with pending := true }⟩
  rw [WheelMemory.internalAddTimer, represents.jiffies, represents.nodes, added]
  rfl

/-- `list_del` of a pending node takes it out of its bucket. -/
theorem unlink (represents : m.Represents w stack held) (linked : w.At n place)
    (unexpired : n ∉ w.expiredList) (free : ∀ l, n ∉ held l) :
    ∃ m', m.unlink n = some m' ∧ m'.Represents (w.unlink n) stack held ∧
      Unlinked (w.unlink n) held n := by
  have out : ∀ b, n ∉ (w.unlink n).buckets b := fun b =>
    List.count_eq_zero.mp (TimerWheel.count_unlink linked b)
  have expired : (w.unlink n).expiredList = w.expiredList := by
    rw [TimerWheel.unlink]
    split <;> rfl
  have unlinked : Unlinked (w.unlink n) held n := ⟨out, expired ▸ unexpired, free⟩
  cases pending : (w.nodes n).pending with
  | false =>
    refine ⟨m, ?_, ?_, unlinked⟩
    · rw [WheelMemory.unlink, represents.nodes, pending]
      rfl
    · rw [TimerWheel.unlink, pending]
      exact represents
  | true =>
    obtain ⟨b, rfl⟩ := Option.isSome_iff_exists.mp (linked.pending.symm.trans pending)
    have inside : ListAddr.entry n ∈ entries w held (.bucket b) := by
      refine mem_map_entry.mpr (List.count_pos_iff.mp ?_)
      rw [linked.count, if_pos rfl]
      exact Nat.one_pos
    have isRing : shapes stack (.bucket b) = some .ring := by
      rw [shapes]
      refine if_pos (by_contra fun invalid => ?_)
      have empty := represents.holds.outer (a := .bucket b) (if_neg invalid)
      rw [empty] at inside
      exact List.not_mem_nil inside
    obtain ⟨links, deleted, holds, -⟩ := listDel_holds represents.holds isRing inside
    have same : (w.unlink n) = w.listDel n := by
      rw [TimerWheel.unlink, pending]
      rfl
    refine ⟨{ m with links := links }, ?_, ?_, unlinked⟩
    · rw [WheelMemory.unlink, represents.nodes, pending, if_pos rfl, deleted]
      rfl
    · rw [same]
      refine ⟨represents.jiffies, represents.tickMs, represents.nodes, ?_⟩
      have erased : (entries w held (.bucket b)).erase (.entry n) =
          ((w.buckets b).erase n).map .entry :=
        (List.map_erase (fun _ _ => ListAddr.entry.inj) (w.buckets b)).symm
      have only : Function.update w.buckets b ((w.buckets b).erase n) =
          fun c => (w.buckets c).erase n := by
        funext c
        rw [Function.update_apply]
        split
        · rename_i here
          rw [here]
        · rename_i elsewhere
          refine (List.erase_of_not_mem (List.count_eq_zero.mp ?_)).symm
          rw [linked.count, if_neg]
          exact fun same => elsewhere (Option.some.inj same).symm
      rw [erased, update_entries_bucket, only] at holds
      exact holds

/-- A head on a stack is not used any more. -/
theorem leave (represents : m.Represents w stack held) (l : Local) :
    m.Represents w (Function.update stack l none) (Function.update held l []) := by
  refine ⟨represents.jiffies, represents.tickMs, represents.nodes, ?_⟩
  rw [← update_shapes, ← update_entries_stack]
  exact represents.holds.take _

/-- Where no thread has a list under way, its head is written before it is read. -/
theorem loose_stack {l : Local} (unused : stack l = none) :
    Loose (shapes stack) (entries w held) (.stack l) := by
  refine ⟨unused, fun head inside => ?_⟩
  cases head with
  | entry n => cases inside
  | _ => simp [entries] at inside

theorem held_eq_nil (represents : m.Represents w stack held) {l : Local} (unused : stack l = none) :
    held l = [] :=
  List.map_eq_nil_iff.mp (represents.holds.outer (a := .stack l) unused)

theorem enter (represents : m.Represents w stack held) {l : Local} (unused : stack l = none) :
    ({ m with links := initListHead m.links (.stack l) } : WheelMemory).Represents w
      (Function.update stack l (some .ring)) held := by
  refine ⟨represents.jiffies, represents.tickMs, represents.nodes, ?_⟩
  rw [← update_shapes]
  exact initListHead_holds represents.holds (loose_stack unused)

end WheelMemory.Represents

/-! ## A cascade -/

/-- The nodes of the list of a cascade that are still to be linked anew; `final` is the wheel when
they all are. -/
def Cascading (final : TimerWheel) (stack : Local → Option Shape) (held : Local → List NodeId)
    (positions : List ListAddr) (m : WheelMemory) : Prop :=
  ∃ rest : List NodeId, positions = rest.map .entry ∧
    ∃ w, m.Represents w (Function.update stack .list (some .trail))
        (Function.update held .list rest) ∧
      rest.foldl TimerWheel.internalAddTimer w = final

namespace WheelMemory.Represents

variable {m : WheelMemory} {w : TimerWheel} {stack : Local → Option Shape}
  {held : Local → List NodeId} {n : NodeId} {place : Option Bucket}

theorem cascade_turn {final : TimerWheel} {pos : ListAddr} {positions : List ListAddr}
    (cascading : Cascading final stack held (pos :: positions) m) :
    ∃ m', (do
        let n ← listEntry pos
        m.internalAddTimer n) = some m' ∧ Cascading final stack held positions m' := by
  obtain ⟨_ | ⟨n, rest⟩, same, w, represents, folded⟩ := cascading
  · cases same
  obtain ⟨rfl, rfl⟩ := List.cons.inj same
  have isTrail := shapes_stack_self stack .list (some .trail)
  obtain ⟨holds, loose⟩ := represents.holds.advance isTrail (entries_stack_self w held .list _)
  rw [update_entries_stack, Function.update_idem] at holds loose
  have ahead : m.Represents w (Function.update stack .list (some .trail))
      (Function.update held .list rest) :=
    ⟨represents.jiffies, represents.tickMs, represents.nodes, holds⟩
  obtain ⟨m', added, next⟩ := ahead.internalAddTimer (loose_iff.mp loose)
  exact ⟨m', added, rest, rfl, _, next, folded⟩

theorem cascade (represents : m.Represents w stack held) (unused : stack .list = none)
    {tv : Level} {index : Nat} (valid : (⟨tv, index⟩ : Bucket).Valid) :
    ∃ m', m.cascade tv index = some m' ∧ m'.Represents (w.cascade tv index) stack held := by
  have entered := represents.enter unused
  have isRing := shapes_stack_self stack .list (some .ring)
  have differs : ListAddr.bucket ⟨tv, index⟩ ≠ .stack .list := by simp
  obtain ⟨links, spliced, holds⟩ := listSpliceInit_holds entered.holds isRing
    (shapes_bucket valid) differs
  have gathered : entries w held (.bucket ⟨tv, index⟩) ++ entries w held (.stack .list) =
      (w.buckets ⟨tv, index⟩).map .entry := by
    rw [entries, entries, represents.held_eq_nil unused, List.map_nil, List.append_nil]
  have emptied : ([] : List ListAddr) = ([] : List NodeId).map .entry := rfl
  rw [gathered, update_entries_stack, emptied, update_entries_bucket] at holds
  have first := (holds.fits isRing).next_head
  rw [entries_stack_self] at first
  have loosened := holds.loosen isRing
  rw [update_shapes, Function.update_idem] at loosened
  have start : Cascading (w.cascade tv index) stack held
      ((w.buckets ⟨tv, index⟩).map .entry) { m with links := links } :=
    ⟨_, rfl, { w with buckets := Function.update w.buckets ⟨tv, index⟩ [] },
      ⟨represents.jiffies, represents.tickMs, represents.nodes, loosened⟩, rfl⟩
  have trail : ∀ {positions m}, Cascading (w.cascade tv index) stack held positions m →
      m.links.Trail positions (.stack .list) ∧ (m.links.next (.stack .list)).isSome := by
    rintro positions m ⟨rest, rfl, w', cascading, -⟩
    have fits := cascading.holds.fits (shapes_stack_self stack .list (some .trail))
    rw [entries_stack_self] at fits
    exact fits
  obtain ⟨m', looped, rest, same, w', cascaded, folded⟩ := listForEachSafe_of_trail
    (Cascading (w.cascade tv index) stack held) trail cascade_turn start first
    (by simp)
  cases rest with
  | cons n rest => cases same
  | nil =>
    have left := cascaded.leave .list
    rw [Function.update_idem, Function.update_idem, ← represents.held_eq_nil unused,
      Function.update_eq_self, ← unused, Function.update_eq_self] at left
    rw [← folded]
    refine ⟨m', ?_, left⟩
    rw [WheelMemory.cascade, spliced]
    exact looped

/-- The cascades of a tick. -/
theorem advance (represents : m.Represents w stack held) (unused : stack .list = none) :
    ∃ m', m.advance = some m' ∧ m'.Represents w.advance stack held := by
  have clock : ({ m with jiffies := m.jiffies + 1 } : WheelMemory).Represents
      { w with jiffies := w.jiffies + 1 } stack held :=
    ⟨congrArg (· + 1) represents.jiffies, represents.tickMs, represents.nodes, represents.holds⟩
  obtain ⟨m2, done2, clock2⟩ := clock.cascade unused (indexOf_valid (m.jiffies + 1) .tv2)
  obtain ⟨m3, done3, clock3⟩ := clock2.cascade unused (indexOf_valid (m.jiffies + 1) .tv3)
  obtain ⟨m4, done4, clock4⟩ := clock3.cascade unused (indexOf_valid (m.jiffies + 1) .tv4)
  obtain ⟨m5, done5, clock5⟩ := clock4.cascade unused (indexOf_valid (m.jiffies + 1) .tv5)
  rw [WheelMemory.advance, TimerWheel.advance]
  simp only [done2, done3, done4, done5, Option.bind_eq_bind, Option.bind_some, Option.pure_def]
  rw [← represents.jiffies] at *
  split_ifs
  · exact ⟨_, rfl, clock⟩
  · exact ⟨_, rfl, clock2⟩
  · exact ⟨_, rfl, clock3⟩
  · exact ⟨_, rfl, clock4⟩
  · exact ⟨_, rfl, clock5⟩

end WheelMemory.Represents

/-! ## The nodes of a tick -/

/-- A wheel of which the nodes `moved` have left the bucket, where `rest` remain. -/
def TimerWheel.moving (w : TimerWheel) (b : Bucket) (moved rest : List NodeId) : TimerWheel :=
  { w with
    buckets := Function.update w.buckets b rest
    nodes := fun n => if n ∈ moved then { w.nodes n with pending := false } else w.nodes n }

/-- The nodes of a bucket that are still to be moved to the list of expired ones. -/
def Expiring (w : TimerWheel) (b : Bucket) (stack : Local → Option Shape)
    (held : Local → List NodeId) (positions : List ListAddr) (m : WheelMemory) : Prop :=
  ∃ moved rest : List NodeId, w.buckets b = moved ++ rest ∧ positions = rest.map .entry ∧
    m.Represents (w.moving b moved rest) (Function.update stack .expired (some .ring))
      (Function.update held .expired moved)

theorem TimerWheel.moving_nil {w : TimerWheel} {b : Bucket} {rest : List NodeId}
    (all : w.buckets b = rest) : w.moving b [] rest = w := by
  rw [moving, ← all, Function.update_eq_self]
  rfl

theorem TimerWheel.modNode_moving (w : TimerWheel) (b : Bucket) (moved rest list : List NodeId)
    (n : NodeId) :
    ({ w.moving b moved rest with
        buckets := Function.update (w.moving b moved rest).buckets b list } : TimerWheel).modNode n
          (fun node => { node with pending := false }) = w.moving b (moved ++ [n]) list := by
  have buckets : Function.update (Function.update w.buckets b rest) b list =
      Function.update w.buckets b list := Function.update_idem ..
  have nodes : Function.update (w.moving b moved rest).nodes n
      { (w.moving b moved rest).nodes n with pending := false } =
        fun k => if k ∈ moved ++ [n] then { w.nodes k with pending := false } else w.nodes k := by
    funext k
    rw [Function.update_apply]
    simp only [moving, List.mem_append, List.mem_singleton]
    by_cases same : k = n
    · rw [if_pos same, if_pos (show k ∈ moved ∨ k = n from Or.inr same), same]
      split <;> rfl
    · simp only [same, or_false, if_false]
  simp only [modNode, moving] at nodes ⊢
  rw [buckets, nodes]

/-- The tick of the lists, as what is left when the nodes of its bucket have moved. -/
theorem TimerWheel.tick_eq (w : TimerWheel) :
    w.tick = { w.advance.moving ⟨.tv1, indexOf (w.jiffies + 1) .tv1⟩ w.expiring [] with
      expiredList := w.expiring ++ w.expiredList } :=
  rfl

theorem TimerWheel.expiredList_cascade (w : TimerWheel) (tv : Level) (index : Nat) :
    (w.cascade tv index).expiredList = w.expiredList := by
  have kept : ∀ (list : List NodeId) (w : TimerWheel),
      (list.foldl internalAddTimer w).expiredList = w.expiredList := by
    intro list
    induction list with
    | nil => exact fun w => rfl
    | cons n list ih => exact fun w => ih (w.internalAddTimer n)
  exact kept _ _

theorem TimerWheel.expiredList_advance (w : TimerWheel) :
    w.advance.expiredList = w.expiredList := by
  rw [advance]
  split_ifs
  all_goals simp only [expiredList_cascade]

namespace WheelMemory.Represents

variable {m : WheelMemory} {w : TimerWheel} {stack : Local → Option Shape}
  {held : Local → List NodeId} {n : NodeId} {place : Option Bucket}

theorem expire_turn {b : Bucket} (valid : b.Valid) {pos : ListAddr} {positions : List ListAddr}
    (expiring : Expiring w b stack held (pos :: positions) m) :
    ∃ m', m.expire pos = some m' ∧ Expiring w b stack held positions m' := by
  obtain ⟨moved, _ | ⟨n, rest⟩, all, same, represents⟩ := expiring
  · cases same
  obtain ⟨rfl, rfl⟩ := List.cons.inj same
  have isTarget := shapes_stack_self stack .expired (some .ring)
  have source : entries (w.moving b moved (n :: rest)) (Function.update held .expired moved)
      (.bucket b) = (n :: rest).map .entry :=
    congrArg (List.map ListAddr.entry) (Function.update_self ..)
  have differs : ListAddr.bucket b ≠ .stack .expired := by simp
  have inside : ListAddr.entry n ∈ entries (w.moving b moved (n :: rest))
      (Function.update held .expired moved) (.bucket b) := source ▸ List.mem_cons_self
  obtain ⟨links, moving, holds⟩ := listMoveTail_holds represents.holds isTarget
    (shapes_bucket valid) differs inside
  have removed : ((n :: rest).map ListAddr.entry).erase (.entry n) = rest.map .entry := by
    rw [List.map_cons, List.erase_cons_head]
  have added : moved.map ListAddr.entry ++ [.entry n] = (moved ++ [n]).map .entry := by
    rw [List.map_append]
    rfl
  rw [source, removed, update_entries_bucket, entries_stack_self, added, update_entries_stack,
    Function.update_idem] at holds
  have linked : ({ m with links := links } : WheelMemory).Represents
      { w.moving b moved (n :: rest) with
        buckets := Function.update (w.moving b moved (n :: rest)).buckets b rest }
      (Function.update stack .expired (some .ring))
      (Function.update held .expired (moved ++ [n])) :=
    ⟨represents.jiffies, represents.tickMs, represents.nodes, holds⟩
  refine ⟨{ m with links := links }.modNode n fun node => { node with pending := false }, ?_,
    moved ++ [n], rest, ?_, rfl, ?_⟩
  · simp only [expire, listEntry, WheelMemory.modNode, moving, Option.bind_eq_bind,
      Option.bind_some]
    rfl
  · rw [all, List.append_assoc]
    rfl
  · rw [← TimerWheel.modNode_moving w b moved (n :: rest) rest n]
    exact linked.modNode n _

/-- The nodes of a bucket move to the list of expired ones. -/
theorem forEach_expire (represents : m.Represents w stack held) {b : Bucket} (valid : b.Valid)
    (unused : stack .expired = none) :
    ∃ m', listForEachSafe WheelMemory.links (.bucket b) expire
        { m with links := initListHead m.links (.stack .expired) } = some m' ∧
      m'.Represents (w.moving b (w.buckets b) []) (Function.update stack .expired (some .ring))
        (Function.update held .expired (w.buckets b)) := by
  have entered := represents.enter unused
  have start : Expiring w b stack held ((w.buckets b).map .entry)
      { m with links := initListHead m.links (.stack .expired) } := by
    refine ⟨[], w.buckets b, rfl, rfl, ?_⟩
    rw [TimerWheel.moving_nil rfl, ← represents.held_eq_nil unused, Function.update_eq_self]
    exact entered
  have rings : ∀ {positions m}, Expiring w b stack held positions m →
      m.links.Ring (.bucket b) positions := by
    rintro positions m ⟨moved, rest, -, rfl, expiring⟩
    have ring : m.links.Ring _ _ := expiring.holds.fits (shapes_bucket valid)
    have left : entries (w.moving b moved rest) (Function.update held .expired moved) (.bucket b) =
        rest.map .entry := congrArg (List.map ListAddr.entry) (Function.update_self ..)
    rwa [left] at ring
  obtain ⟨m', looped, moved, rest, all, same, expiring⟩ := listForEachSafe_of_trail
    (Expiring w b stack held)
    (fun expiring => ⟨(rings expiring).path.trail, by rw [(rings expiring).next_head]; rfl⟩)
    (expire_turn valid) start (rings start).next_head (rings start).head_not_mem
  cases rest with
  | cons n rest => cases same
  | nil =>
    rw [List.append_nil] at all
    rw [← all] at expiring
    exact ⟨m', looped, expiring⟩

theorem tick (represents : m.Represents w stack held) (idle : stack .list = none)
    (unused : stack .expired = none) :
    ∃ m', m.tick = some m' ∧ m'.Represents w.tick stack held := by
  obtain ⟨m1, advanced, rep⟩ := represents.advance idle
  have valid := indexOf_valid (w.jiffies + 1) .tv1
  have old : w.advance.expiredList = w.expiredList := w.expiredList_advance
  have empty : listEmpty m1.links (.bucket _) = true ↔ w.expiring = [] :=
    (listEmpty_iff rep.holds (shapes_bucket valid)).trans List.map_eq_nil_iff
  rw [WheelMemory.tick, represents.jiffies, advanced, Option.bind_eq_bind, Option.bind_some]
  by_cases none : w.expiring = []
  · rw [if_pos (empty.mpr none)]
    have same : w.tick = w.advance := by
      rw [TimerWheel.tick_eq, none, TimerWheel.moving_nil none, List.nil_append, ← old]
    rw [same]
    exact ⟨m1, rfl, rep⟩
  · rw [if_neg fun all => none (empty.mp all)]
    obtain ⟨m2, looped, moved⟩ : ∃ m2 : WheelMemory, _ = some m2 ∧ m2.Represents
        (w.advance.moving ⟨.tv1, TimerWheel.indexOf (w.jiffies + 1) .tv1⟩ w.expiring [])
        (Function.update stack .expired (some .ring))
        (Function.update held .expired w.expiring) := rep.forEach_expire valid unused
    have isTarget := shapes_stack_self stack .expired (some .ring)
    have differs : ListAddr.stack .expired ≠ .expiredList := by simp
    obtain ⟨links, spliced, holds⟩ := listSpliceInit_holds moved.holds rfl isTarget differs
    have gathered : w.expiring.map ListAddr.entry ++ entries
        (w.advance.moving ⟨.tv1, TimerWheel.indexOf (w.jiffies + 1) .tv1⟩ w.expiring [])
        (Function.update held .expired w.expiring) .expiredList =
          (w.expiring ++ w.expiredList).map .entry := by
      rw [List.map_append, ← old]
      rfl
    have emptied : ([] : List ListAddr) = ([] : List NodeId).map .entry := rfl
    rw [entries_stack_self, gathered, update_entries_expiredList, emptied, update_entries_stack,
      Function.update_idem] at holds
    have result : ({ m2 with links := links } : WheelMemory).Represents w.tick
        (Function.update stack .expired (some .ring)) (Function.update held .expired []) :=
      ⟨moved.jiffies, moved.tickMs, moved.nodes, holds⟩
    have left := result.leave .expired
    rw [Function.update_idem, Function.update_idem, ← represents.held_eq_nil unused,
      Function.update_eq_self, ← unused, Function.update_eq_self] at left
    refine ⟨{ m2 with links := links }, ?_, left⟩
    dsimp only
    rw [looped, Option.bind_some, spliced]
    rfl

/-- `timer_node_init` on a node in no list. -/
theorem initNode (represents : m.Represents w stack held) (free : Unlinked w held n) :
    (m.initNode n).Represents (w.modNode n fun _ => .init) stack held := by
  have loose : Loose (shapes stack) (entries w held) (.entry n) := loose_iff.mpr free
  have kept : ({ m with links := initListHead m.links (.entry n) } : WheelMemory).Represents
      w stack held :=
    ⟨represents.jiffies, represents.tickMs, represents.nodes, represents.holds.join loose loose⟩
  exact kept.modNode n _

theorem timerMod (represents : m.Represents w stack held) (linked : w.At n place)
    (unexpired : n ∉ w.expiredList) (free : ∀ l, n ∉ held l) (expiresMs : UInt32) :
    ∃ m', m.timerMod n expiresMs = some m' ∧
      m'.Represents (w.timerMod n expiresMs) stack held := by
  obtain ⟨m1, unlinked, rep, loose⟩ := represents.unlink linked unexpired free
  obtain ⟨m2, added, result⟩ := (rep.modNode n fun node => { node with
      wheel := true
      expires := m1.jiffies + TimerWheel.delayTicks m1.tickMs expiresMs }).internalAddTimer loose
  rw [rep.jiffies, rep.tickMs] at result
  refine ⟨m2, ?_, result⟩
  rw [WheelMemory.timerMod, unlinked]
  exact added

/-- A node that is not expired leaves its bucket, is written and goes into another one. -/
theorem rearm (represents : m.Represents w stack held) (linked : w.At n place)
    (unexpired : n ∉ w.expiredList) (free : ∀ l, n ∉ held l)
    (set : UInt64 → UInt32 → TimerNode → TimerNode) :
    ∃ m1 m2, m.unlink n = some m1 ∧
      (let m := if (m.nodes n).pending then
          m1.modNode n fun node => { node with pending := false } else m1;
        (m.modNode n (set m.jiffies m.tickMs)).internalAddTimer n) = some m2 ∧
      m2.Represents
        (let w := if (w.nodes n).pending then
            (w.listDel n).modNode n fun node => { node with pending := false } else w;
          (w.modNode n (set w.jiffies w.tickMs)).internalAddTimer n) stack held := by
  obtain ⟨m1, unlinked, rep, loose⟩ := represents.unlink linked unexpired free
  rw [represents.nodes]
  rw [TimerWheel.unlink] at rep loose
  dsimp only
  split
  · rename_i pending
    rw [if_pos pending] at rep loose
    have idle := rep.modNode n fun node => { node with pending := false }
    obtain ⟨m2, added, result⟩ :=
      (idle.modNode n (set m1.jiffies m1.tickMs)).internalAddTimer loose
    rw [rep.jiffies, rep.tickMs] at result
    exact ⟨m1, m2, unlinked, added, result⟩
  · rename_i pending
    rw [if_neg pending] at rep loose
    obtain ⟨m2, added, result⟩ :=
      (rep.modNode n (set m1.jiffies m1.tickMs)).internalAddTimer loose
    rw [rep.jiffies, rep.tickMs] at result
    exact ⟨m1, m2, unlinked, added, result⟩

theorem timerAdd (represents : m.Represents w stack held) (linked : w.At n place)
    (unexpired : n ∉ w.expiredList) (free : ∀ l, n ∉ held l) (expiresMs : UInt32) :
    ∃ m', m.timerAdd n expiresMs = some m' ∧
      m'.Represents (w.timerAdd n expiresMs) stack held := by
  obtain ⟨m1, m2, unlinked, added, result⟩ := represents.rearm linked unexpired free
    fun jiffies tickMs node => { node with
      wheel := true
      expires := jiffies + TimerWheel.delayTicks tickMs expiresMs
      period := 0 }
  refine ⟨m2, ?_, result⟩
  rw [WheelMemory.timerAdd, unlinked]
  exact added

theorem timerAddPeriodic (represents : m.Represents w stack held) (linked : w.At n place)
    (periodMs : UInt32) (free : periodMs ≠ 0 → n ∉ w.expiredList ∧ ∀ l, n ∉ held l) :
    ∃ m', m.timerAddPeriodic n periodMs = some m' ∧
      m'.Represents (w.timerAddPeriodic n periodMs) stack held := by
  rw [WheelMemory.timerAddPeriodic, TimerWheel.timerAddPeriodic]
  split
  · exact ⟨m, rfl, represents⟩
  · rename_i positive
    obtain ⟨unexpired, free⟩ := free positive
    obtain ⟨m1, m2, unlinked, added, result⟩ := represents.rearm linked unexpired free
      fun jiffies tickMs node =>
        let ticks := (periodMs / tickMs).toUInt64
        let period := if ticks = 0 then 1 else ticks
        { node with
          wheel := true
          period := period
          expires := jiffies + period }
    refine ⟨m2, ?_, result⟩
    rw [unlinked]
    exact added

/-- A node on the expired list or in a batch is not pending, and its links are left alone. -/
theorem timerDel (represents : m.Represents w stack held) (linked : w.At n place)
    (free : (w.nodes n).pending = true → n ∉ w.expiredList ∧ ∀ l, n ∉ held l) :
    ∃ m', m.timerDel n = some m' ∧ m'.Represents (w.timerDel n) stack held := by
  rw [WheelMemory.timerDel, TimerWheel.timerDel, represents.nodes]
  cases pending : (w.nodes n).pending with
  | true =>
    obtain ⟨unexpired, free⟩ := free pending
    obtain ⟨m1, unlinked, rep, -⟩ := represents.unlink linked unexpired free
    rw [TimerWheel.unlink, if_pos pending] at rep
    rw [unlinked]
    exact ⟨_, rfl, rep.modNode n fun node =>
      { node with period := 0, pending := false, wheel := false }⟩
  | false =>
    have kept : m.unlink n = some m := by
      rw [WheelMemory.unlink, represents.nodes, pending]
      rfl
    rw [kept]
    exact ⟨_, rfl, represents.modNode n fun node => { node with period := 0 }⟩

theorem finish (represents : m.Represents w stack held)
    (free : (w.nodes n).period > 0 → (w.nodes n).pending = false → Unlinked w held n) :
    ∃ m', m.finish n = some m' ∧ m'.Represents (w.finish n) stack held := by
  rw [WheelMemory.finish, TimerWheel.finish, represents.nodes]
  split_ifs with rearm clear
  · have loose := free rearm.1 rearm.2
    exact (represents.modNode n fun node =>
      { node with expires := node.expires + node.period }).internalAddTimer loose
  · exact ⟨_, rfl, represents.modNode n fun node => { node with wheel := false }⟩
  · exact ⟨m, rfl, represents⟩

end WheelMemory.Represents

/-! ## A new wheel -/

/-- Heads of empty lists are initialised, some perhaps twice. -/
theorem foldl_initListHead {mem : LinkMem ListAddr} {shape : ListAddr → Option Shape}
    {lists : ListAddr → List ListAddr} (heads : List ListAddr)
    (holds : mem.Holds shape lists) (empty : ∀ a, lists a = []) :
    (heads.foldl initListHead mem).Holds
      (fun a => if a ∈ heads then some .ring else shape a) lists := by
  induction heads generalizing mem shape with
  | nil =>
    simp only [List.not_mem_nil, if_false]
    exact holds
  | cons head heads ih =>
    have loose : Loose (Function.update shape head none) lists head :=
      ⟨Function.update_self .., fun a => by rw [empty]; exact List.not_mem_nil⟩
    have bare := holds.take head
    rw [← empty head, Function.update_eq_self] at bare
    have started := initListHead_holds bare loose
    rw [Function.update_idem] at started
    have same : (fun a => if a ∈ head :: heads then some Shape.ring else shape a) =
        fun a => if a ∈ heads then some .ring
          else Function.update shape head (some .ring) a := by
      funext a
      rw [Function.update_apply]
      by_cases first : a = head
      · simp only [first, List.mem_cons_self, if_true, ite_self]
      · simp only [List.mem_cons, first, false_or, if_false]
    rw [List.foldl_cons, same]
    exact ih started

/-- The heads that are initialised are all that a wheel has. -/
theorem shapes_eq_ite (a : ListAddr) :
    (if a ∈ wheelHeads then some Shape.ring else none) = shapes (fun _ => none) a := by
  cases a with
  | bucket b =>
    obtain ⟨level, index⟩ := b
    cases level <;> simp [wheelHeads, shapes, Bucket.Valid, Level.size] <;> rfl
  | _ => simp [wheelHeads, shapes]

theorem WheelMemory.represents_create {tickMs : UInt32} {jiffies : UInt64} {w : TimerWheel}
    (created : timerWheelCreate tickMs jiffies = some w) :
    ∃ m, WheelMemory.create tickMs jiffies = some m ∧
      m.Represents w (fun _ => none) (fun _ => []) := by
  rw [timerWheelCreate] at created
  split at created
  · cases created
  · rename_i positive
    cases created
    have blank : (⟨fun _ => none, fun _ => none⟩ : LinkMem ListAddr).Holds
        (fun _ => none) (fun _ => []) :=
      ⟨by simp, by simp, by simp, fun _ => rfl, fun _ => rfl⟩
    have started := foldl_initListHead wheelHeads blank fun _ => rfl
    rw [funext shapes_eq_ite] at started
    refine ⟨_, if_neg positive, rfl, rfl, rfl, ?_⟩
    convert started using 1
    funext a
    cases a <;> rfl

end Rsvp
