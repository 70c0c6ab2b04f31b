import RsvpTe.WheelRuns

/-!
# The representation invariant of the wheel (`internal_add_timer`, `cascade`)

`J` is the clock and `E` the expiry of a node, both without the wrap of 64 bits.  Between ticks a
pending node lies in one bucket only, and that bucket is emptied after `J` and no later than `E`:
`tv1` runs it, a coarser level puts it where it lies finer.
-/

namespace Rsvp

/-! ## Emptied buckets -/

/-- The tick to `T` runs or cascades the bucket. -/
def EmptiedAt (T : Nat) (b : Bucket) : Prop :=
  b = ⟨.tv1, TimerWheel.indexOf (.ofNat T) .tv1⟩ ∨ b ∈ TimerWheel.cascaded (.ofNat T)

/-- `T` is the next tick after `J` that runs or cascades the bucket. -/
structure NextEmptied (J : Nat) (b : Bucket) (T : Nat) : Prop where
  later : J < T
  empties : EmptiedAt T b
  first : ∀ t, J < t → t < T → ¬EmptiedAt t b

theorem emptiedAt_iff {T : Nat} {b : Bucket} :
    EmptiedAt T b ↔ b = ⟨.tv1, T % 256⟩ ∨
      b.level ≠ .tv1 ∧ T % b.level.unit = 0 ∧ b.index = T / b.level.unit % 64 := by
  have clock : (UInt64.ofNat T).toNat = T % 2 ^ 64 := UInt64.toNat_ofNat
  rw [EmptiedAt, indexOf_tv1 clock, mem_cascaded_iff clock]

/-- Where a node of expiry `E` lies when the clock is at `J`, seen from the ticks to come. -/
structure Filed (J E : Nat) (b : Bucket) : Prop where
  bucket : J < E → b = ⟨.tv1, E % 256⟩ ∧ E - J < 256 ∨
    ∃ level, level ≠ Level.tv1 ∧ b = ⟨level, E / level.unit % 64⟩
  emptied : J < E → ∃ T, NextEmptied J b T ∧ T ≤ E
  due : E ≤ J → b = ⟨.tv1, (J + 1) % 256⟩

/-! ## Where a tick leaves a node -/

/-- A node that is due lies in the bucket of the next tick, a near one in that of its own tick, and
a far one in a coarse bucket whose first tick is yet to come, before the level is round again. -/
inductive Lies (J E : Nat) : Bucket → Prop
  | now (due : E = J) : Lies J E ⟨.tv1, (J + 1) % 256⟩
  | near (later : J < E) (soon : E < J + 256) : Lies J E ⟨.tv1, E % 256⟩
  | far {level : Level} (coarse : level ≠ .tv1) (later : J < E / level.unit * level.unit)
      (round : E / level.unit * level.unit ≤ J + 64 * level.unit) :
      Lies J E ⟨level, E / level.unit % 64⟩

section Ticks

variable {jiffies expires : UInt64} {J E : Nat} {b : Bucket}

theorem lies_vecFor (clock : jiffies.toNat = J % 2 ^ 64) (due : expires.toNat = E % 2 ^ 64)
    (later : J ≤ E) (bound : E < J + 2 ^ 32) : Lies J E (vecFor jiffies expires) := by
  rcases vecFor_cases clock due later bound with
    ⟨now, vec⟩ | ⟨after, soon, vec⟩ | ⟨level, coarse, -, first, round, vec⟩
  · rw [vec]
    exact .now now
  · rw [vec]
    exact .near after soon
  · rw [vec]
    exact .far coarse first round

/-- A tick leaves a node in the bucket it runs, or lying right for the new clock. -/
theorem Lies.settle (clock : jiffies.toNat = (J + 1) % 2 ^ 64)
    (due : expires.toNat = E % 2 ^ 64) (lies : Lies J E b) :
    TimerWheel.settle jiffies expires b = ⟨.tv1, (J + 1) % 256⟩ ∨
      Lies (J + 1) E (TimerWheel.settle jiffies expires b) := by
  cases lies with
  | now _ => exact .inl (settle_tv1 clock _)
  | near later soon =>
    rw [settle_tv1 clock]
    rcases Nat.lt_or_eq_of_le (Nat.succ_le_of_lt later) with more | now
    · exact .inr (.near more (by omega))
    · left
      rw [← now]
  | @far level coarse later round =>
    right
    rcases @settle_coarse _ expires _ _ clock _ coarse later round with
      ⟨reached, bound, -, moved⟩ | ⟨more, stays⟩
    · rw [moved]
      exact lies_vecFor clock due reached bound
    · rw [stays]
      exact .far coarse more (by omega)

theorem Lies.le (lies : Lies J E b) : J ≤ E := by
  cases lies with
  | now due => exact due.ge
  | near later soon => exact later.le
  | @far level coarse later round =>
    have below : E / level.unit * level.unit ≤ E := Nat.div_mul_le_self ..
    omega

/-- The bucket of a node that is not due is emptied in time. -/
theorem Lies.nextEmptied (lies : Lies J E b) (later : J < E) : ∃ T, NextEmptied J b T ∧ T ≤ E := by
  cases lies with
  | now due => omega
  | near _ soon =>
    refine ⟨E, ⟨later, emptiedAt_iff.mpr (.inl rfl), ?_⟩, le_rfl⟩
    intro t after before empties
    rcases emptiedAt_iff.mp empties with runs | ⟨coarse, -⟩
    · have index := congrArg Bucket.index runs
      dsimp only at index
      omega
    · exact coarse rfl
  | @far level coarse first round =>
    have below : E / level.unit * level.unit ≤ E := Nat.div_mul_le_self ..
    have unit : 0 < level.unit := by cases level <;> decide
    refine ⟨E / level.unit * level.unit, ⟨first, emptiedAt_iff.mpr (.inr ?_), ?_⟩, below⟩
    · refine ⟨coarse, Nat.mul_mod_left .., ?_⟩
      rw [Nat.mul_div_cancel _ unit]
    · intro t after before empties
      rcases emptiedAt_iff.mp empties with runs | ⟨-, start, index⟩
      · exact coarse (congrArg Bucket.level runs)
      · exact not_first coarse before (by omega) start index

theorem Lies.filed (lies : Lies J E b) : Filed J E b where
  bucket := by
    intro later
    cases lies with
    | now due => omega
    | near _ soon => exact .inl ⟨rfl, by omega⟩
    | far coarse _ _ => exact .inr ⟨_, coarse, rfl⟩
  emptied := lies.nextEmptied
  due := by
    intro past
    cases lies with
    | now due => rfl
    | near later _ => omega
    | @far level coarse first round =>
      have below : E / level.unit * level.unit ≤ E := Nat.div_mul_le_self ..
      omega

end Ticks

/-! ## Runs -/

/-- The clock is at `J`, and the node is in no bucket or lies right. -/
structure TimerWheel.Sound (w : TimerWheel) (J : Nat) (n : NodeId) : Prop where
  clock : w.jiffies.toNat = J % 2 ^ 64
  place : w.At n none ∨ ∃ b E, w.At n (some b) ∧
    (w.nodes n).expires.toNat = E % 2 ^ 64 ∧ E < J + 2 ^ 32 ∧ Lies J E b

namespace TimerWheel.Sound

variable {w : TimerWheel} {J : Nat} {n : NodeId}

theorem tick (sound : w.Sound J n) : w.tick.Sound (J + 1) n := by
  have next : (w.jiffies + 1).toNat = (J + 1) % 2 ^ 64 := by
    rw [UInt64.toNat_add, sound.clock]
    exact Nat.mod_add_mod ..
  rcases sound.place with linked | ⟨b, E, linked, due, bound, lies⟩
  · obtain ⟨-, moved, jiffies, -⟩ := linked.tick
    exact ⟨jiffies ▸ next, .inl moved⟩
  · obtain ⟨-, moved, jiffies, expires⟩ := linked.tick
    refine ⟨jiffies ▸ next, ?_⟩
    rw [Option.map_some, indexOf_tv1 next] at moved
    -- the node is taken out with the bucket of the tick, wherever it was put before
    by_cases runs : settle (w.jiffies + 1) (w.nodes n).expires b = ⟨.tv1, (J + 1) % 256⟩
    · rw [Option.filter_some, if_neg (by simp [runs])] at moved
      exact .inl moved
    · rw [Option.filter_some, if_pos (decide_eq_true runs)] at moved
      have kept := (lies.settle next due).resolve_left runs
      exact .inr ⟨_, E, moved, expires ▸ due, by omega, kept⟩

theorem arm (sound : w.Sound J n) {op : WheelOp} {expiresMs : UInt32} (positive : w.tickMs ≠ 0)
    (arms : op = .add n expiresMs ∨ op = .mod n expiresMs) : (w.exec op).Sound J n := by
  have linked : ∃ place, w.At n place := by
    rcases sound.place with linked | ⟨b, -, linked, -⟩
    · exact ⟨none, linked⟩
    · exact ⟨some b, linked⟩
  obtain ⟨place, linked⟩ := linked
  obtain ⟨set, jiffies, expires⟩ := linked.arm arms
  obtain ⟨delay, bound⟩ := delayTicks_toNat positive expiresMs
  have due : (w.jiffies + delayTicks w.tickMs expiresMs).toNat =
      (J + expiresMs.toNat ⌈/⌉ w.tickMs.toNat) % 2 ^ 64 := by
    rw [UInt64.toNat_add, delay, sound.clock]
    exact Nat.mod_add_mod ..
  refine ⟨jiffies ▸ sound.clock, .inr ⟨_, _, set, expires ▸ due, by omega, ?_⟩⟩
  exact lies_vecFor sound.clock due (Nat.le_add_right ..) (by omega)

theorem exec_of_ne (sound : w.Sound J n) {op : WheelOp} (other : op.node ≠ some n)
    (still : op ≠ .tick) : (w.exec op).Sound J n := by
  rcases sound.place with linked | ⟨b, E, linked, due, bound, lies⟩
  · obtain ⟨kept, jiffies, -⟩ := linked.exec_of_ne other still
    exact ⟨jiffies ▸ sound.clock, .inl kept⟩
  · obtain ⟨kept, jiffies, node⟩ := linked.exec_of_ne other still
    exact ⟨jiffies ▸ sound.clock, .inr ⟨b, E, kept, node ▸ due, bound, lies⟩⟩

theorem del (sound : w.Sound J n) : (w.timerDel n).Sound J n := by
  have jiffies : (w.timerDel n).jiffies = w.jiffies := by
    rw [timerDel]
    split <;> rfl
  refine ⟨jiffies ▸ sound.clock, .inl ?_⟩
  rcases sound.place with linked | ⟨b, -, linked, -⟩
  · exact linked.timerDel
  · exact linked.timerDel

/-- A call keeps the invariant of every node; a tick keeps it for the next clock. -/
theorem exec (sound : w.Sound J n) (positive : w.tickMs ≠ 0) (op : WheelOp) :
    (w.exec op).Sound (J + ticks [op]) n := by
  by_cases ticking : op = .tick
  · rw [ticking]
    exact sound.tick
  have quiet : ticks [op] = 0 := by
    cases op with
    | tick => exact absurd rfl ticking
    | _ => rfl
  rw [quiet]
  by_cases named : op.node = some n
  · cases op with
    | tick => exact absurd rfl ticking
    | add m ms =>
      cases named
      exact sound.arm positive (.inl rfl)
    | mod m ms =>
      cases named
      exact sound.arm positive (.inr rfl)
    | del m =>
      cases named
      exact sound.del
  · exact sound.exec_of_ne named ticking

theorem run (sound : w.Sound J n) (positive : w.tickMs ≠ 0) (ops : List WheelOp) :
    (w.run ops).Sound (J + ticks ops) n := by
  induction ops generalizing w J with
  | nil => exact sound
  | cons op ops ih =>
    have counted : J + ticks (op :: ops) = J + ticks [op] + ticks ops := by
      rw [ticks, ← List.singleton_append, List.countP_append, ← Nat.add_assoc]
      rfl
    rw [counted]
    exact ih (sound.exec positive op) (by rwa [tickMs_exec])

end TimerWheel.Sound

/-- The lists of a run from a new wheel. -/
theorem TimerWheel.sound_run {tickMs : UInt32} {start : UInt64} {w : TimerWheel}
    (created : timerWheelCreate tickMs start = some w) (ops : List WheelOp) (n : NodeId) :
    (w.run ops).Sound (start.toNat + ticks ops) n := by
  obtain ⟨linked, -, positive, same⟩ := TimerWheel.at_timerWheelCreate created n
  have jiffies : w.jiffies = start := by
    rw [timerWheelCreate, if_neg positive] at created
    cases created
    rfl
  have initial : w.Sound start.toNat n := by
    refine ⟨?_, .inl linked⟩
    rw [jiffies]
    exact (Nat.mod_eq_of_lt start.toNat_lt).symm
  exact initial.run (same ▸ positive) ops

/-- The node is in the ring of one bucket, and of no other. -/
structure WheelMemory.InBucket (m : WheelMemory) (n : NodeId) (b : Bucket) : Prop where
  valid : b.Valid
  ring : ∃ list, m.links.Ring (.bucket b) list ∧ .entry n ∈ list
  only : ∀ c : Bucket, c.Valid → (m.Linked (.bucket c) n ↔ c = b)

theorem Stores.inBucket {m : WheelMemory} {w : TimerWheel} {n : NodeId} {b : Bucket}
    (stores : Stores m w) (linked : w.At n (some b)) : m.InBucket n b := by
  have member : ∀ c, n ∈ w.buckets c ↔ b = c := by
    intro c
    rw [← List.count_pos_iff, linked.count]
    simp only [Option.some.injEq]
    split <;> simp_all
  have here : n ∈ w.buckets b := (member b).mpr rfl
  have valid : b.Valid := by
    by_contra outside
    have none : shapes (fun _ => none) (.bucket b) = none := if_neg outside
    exact List.ne_nil_of_mem (mem_map_entry.mpr here) (stores.represents.holds.outer none)
  refine ⟨valid, ⟨_, stores.ring (shapes_bucket valid), mem_map_entry.mpr here⟩, fun c inside => ?_⟩
  rw [stores.linked_bucket_iff inside, member]
  exact eq_comm

/-- In every state between the ticks of a careful run a pending node is in one bucket, that bucket
is the one its expiry names, and it is emptied in time. -/
theorem wheel_invariant {tickMs : UInt32} {start : UInt64} {m : WheelMemory}
    (created : WheelMemory.create tickMs start = some m) {ops : List WheelOp}
    (careful : m.CarefulRun ops) :
    ∃ a, m.run ops = some a ∧ a.jiffies.toNat = (start.toNat + ticks ops) % 2 ^ 64 ∧
      ∀ n, (a.nodes n).pending = true → ∃ b, a.InBucket n b ∧
        ∃ E, (a.nodes n).expires.toNat = E % 2 ^ 64 ∧ start.toNat + ticks ops ≤ E ∧
          E < start.toNat + ticks ops + 2 ^ 32 ∧ Filed (start.toNat + ticks ops) E b := by
  obtain ⟨w, made, stores⟩ := stores_create created
  obtain ⟨a, reached, stored⟩ := stores.run careful
  refine ⟨a, reached, ?_, fun n pending => ?_⟩
  · rw [stored.represents.jiffies]
    exact (TimerWheel.sound_run made ops 0).clock
  · rw [stored.represents.nodes] at pending ⊢
    rcases (TimerWheel.sound_run made ops n).place with off | ⟨b, E, linked, due, bound, lies⟩
    · rw [off.pending] at pending
      cases pending
    · exact ⟨b, stored.inBucket linked, E, due, lies.le, bound, lies.filed⟩

/-- A node armed on the last tick before the clock wraps. -/
theorem wheel_invariant_wrap :
    ∃ m a, WheelMemory.create 10 18446744073709551615 = some m ∧
      m.run [.add 0 5000] = some a ∧ (a.nodes 0).pending = true ∧
      ∃ b E, a.InBucket 0 b ∧ 18446744073709551615 ≤ E ∧ Filed 18446744073709551615 E b := by
  have created : ∃ m, WheelMemory.create 10 18446744073709551615 = some m := ⟨_, rfl⟩
  obtain ⟨m, created⟩ := created
  have careful : m.CarefulRun [.add 0 5000] := careful_arm_ticks created 0 5000 0
  obtain ⟨a, reached, -, filed⟩ := wheel_invariant created careful
  obtain ⟨w, made, stores⟩ := stores_create created
  obtain ⟨a', reached', stored⟩ := stores.run careful
  cases reached.symm.trans reached'
  have armed := ((TimerWheel.at_timerWheelCreate made 0).1.arm
    (.inl rfl : WheelOp.add 0 5000 = .add 0 5000 ∨ _)).1
  have pending : (a.nodes 0).pending = true := by
    rw [stored.represents.nodes]
    exact armed.pending
  obtain ⟨b, inside, E, -, later, -, filed⟩ := filed 0 pending
  exact ⟨m, a, created, reached, pending, b, E, inside, later, filed⟩

/-! ## A careless run

The run below arms node 0 while the expired list still holds it.  The next node that expires is put
in front of it, which turns its `prev` from the bucket to that list.  So its deletion leaves the
bucket leading to it, and cuts off the node behind it. -/

section Careless

variable {j : UInt64} {t : UInt32} {links : LinkMem ListAddr} {nodes : NodeId → TimerNode}
  {n : NodeId} {b : Bucket}

/-- Arming a node that is not pending writes its links, whatever they are. -/
theorem timerAdd_of_idle {p : ListAddr} (expiresMs : UInt32) (idle : (nodes n).pending = false)
    (vec : vecFor j (j + TimerWheel.delayTicks t expiresMs) = b)
    (last : links.prev (.bucket b) = some p) :
    ∃ nodes', WheelMemory.timerAdd ⟨j, t, links, nodes⟩ n expiresMs =
        some ⟨j, t, listAddBetween links (.entry n) p (.bucket b), nodes'⟩ ∧
      ∀ k, (nodes' k).pending = if k = n then true else (nodes k).pending := by
  refine ⟨Function.update nodes n { nodes n with
    wheel := true
    expires := j + TimerWheel.delayTicks t expiresMs
    period := 0
    pending := true }, ?_, fun k => ?_⟩
  · simp only [WheelMemory.timerAdd, WheelMemory.unlink, idle, WheelMemory.internalAddTimer,
      WheelMemory.modNode, Function.update_self, Function.update_idem, vec, listAddTail, last,
      Option.bind_eq_bind, Option.bind_some, Bool.false_eq_true, if_false]
    rfl
  · simp only [Function.update_apply]
    split <;> rfl

theorem timerDel_of_pending {links' : LinkMem ListAddr} (pending : (nodes n).pending = true)
    (unlinked : listDel links (.entry n) = some links') :
    ∃ nodes', WheelMemory.timerDel ⟨j, t, links, nodes⟩ n = some ⟨j, t, links', nodes'⟩ ∧
      ∀ k, (nodes' k).pending = if k = n then false else (nodes k).pending := by
  refine ⟨Function.update nodes n { nodes n with period := 0, pending := false, wheel := false },
    ?_, fun k => ?_⟩
  · simp only [WheelMemory.timerDel, WheelMemory.unlink, pending, if_true, unlinked,
      Option.bind_eq_bind, Option.bind_some]
    rfl
  · rw [Function.update_apply]
    split <;> rfl

/-- The links after a tick whose bucket holds one node; `x` is what the expired list begins with. -/
def expireSingle (links : LinkMem ListAddr) (b : Bucket) (n : NodeId) (x : ListAddr) :
    LinkMem ListAddr :=
  let links := initListHead links (.stack .expired)
  let links := listDelBetween links (.bucket b) (.bucket b)
  let links := listAddBetween links (.entry n) (.stack .expired) (.stack .expired)
  let links := setNext (setPrev links (.entry n) .expiredList) .expiredList (.entry n)
  let links := setPrev (setNext links (.entry n) x) x (.entry n)
  initListHead links (.stack .expired)

theorem tick_of_single {x : ListAddr} (index : TimerWheel.indexOf (j + 1) .tv1 ≠ 0)
    (bucket : ⟨.tv1, TimerWheel.indexOf (j + 1) .tv1⟩ = b)
    (first : links.next (.bucket b) = some (.entry n))
    (last : links.next (.entry n) = some (.bucket b))
    (back : links.prev (.entry n) = some (.bucket b))
    (front : links.next .expiredList = some x) :
    ∃ nodes', WheelMemory.tick ⟨j, t, links, nodes⟩ =
        some ⟨j + 1, t, expireSingle links b n x, nodes'⟩ ∧
      ∀ k, (nodes' k).pending = if k = n then false else (nodes k).pending := by
  have advanced : WheelMemory.advance ⟨j, t, links, nodes⟩ = some ⟨j + 1, t, links, nodes⟩ :=
    if_pos index
  have looped : listForEachSafe WheelMemory.links (.bucket b) WheelMemory.expire
      ⟨j + 1, t, initListHead links (.stack .expired), nodes⟩ = some ⟨j + 1, t,
        listAddBetween (listDelBetween (initListHead links (.stack .expired)) (.bucket b)
          (.bucket b)) (.entry n) (.stack .expired) (.stack .expired),
        Function.update nodes n { nodes n with pending := false }⟩ := by
    simp only [listForEachSafe, initListHead, setNext, setPrev, Function.update_apply,
      reduceCtorEq, if_false, first, last, Option.bind_eq_bind, Option.bind_some]
    refine (@loop_again _ _ _ _ (_, .bucket b, .bucket b) ?_).trans (loop_done (if_pos rfl))
    simp [WheelMemory.expire, listEntry, listMoveTail, WheelMemory.modNode, last, back,
      listDelBetween, listAddTail, setNext, setPrev, Function.update_apply, listAddBetween]
  refine ⟨Function.update nodes n { nodes n with pending := false }, ?_, fun k => ?_⟩
  · rw [WheelMemory.tick, advanced, bucket]
    simp only [Option.bind_eq_bind, Option.bind_some, listEmpty, first]
    rw [if_neg (by simp), looped]
    simp [listSpliceInit, listEmpty, listAddBetween, listDelBetween, initListHead, setNext,
      setPrev, front, expireSingle]
  · rw [Function.update_apply]
    split <;> rfl

/-- The links after node 0 was armed while the expired list began with it, node 1 has expired in
front of it, and node 2 was put behind it. -/
def carelessLinks (links : LinkMem ListAddr) : LinkMem ListAddr :=
  let links := listAddBetween links (.entry 0) (.bucket ⟨.tv1, 101⟩) (.bucket ⟨.tv1, 101⟩)
  let links := listAddBetween links (.entry 1) (.bucket ⟨.tv1, 2⟩) (.bucket ⟨.tv1, 2⟩)
  let links := expireSingle links ⟨.tv1, 2⟩ 1 (.entry 0)
  listAddBetween links (.entry 2) (.entry 0) (.bucket ⟨.tv1, 101⟩)

theorem run_careless (idle : ∀ n, (nodes n).pending = false)
    (heads : ∀ b : Bucket, b.Valid →
      links.next (.bucket b) = some (.bucket b) ∧ links.prev (.bucket b) = some (.bucket b))
    (front : links.next .expiredList = some (.entry 0)) :
    ∃ nodes', WheelMemory.run ⟨1, 10, links, nodes⟩ [.add 0 1000, .add 1 10, .tick, .add 2 990] =
        some ⟨2, 10, carelessLinks links, nodes'⟩ ∧
      (nodes' 0).pending = true ∧ (nodes' 2).pending = true := by
  have near := heads ⟨.tv1, 2⟩ (by decide)
  have far := heads ⟨.tv1, 101⟩ (by decide)
  obtain ⟨links1, eq1⟩ : ∃ l, l = listAddBetween links (.entry 0) (.bucket ⟨.tv1, 101⟩)
    (.bucket ⟨.tv1, 101⟩) := ⟨_, rfl⟩
  obtain ⟨nodes1, first, pending1⟩ : ∃ f,
      WheelMemory.timerAdd ⟨1, 10, links, nodes⟩ 0 1000 = some ⟨1, 10, links1, f⟩ ∧
      ∀ k, (f k).pending = if k = 0 then true else (nodes k).pending :=
    eq1 ▸ timerAdd_of_idle 1000 (idle 0) (by decide) far.2
  obtain ⟨links2, eq2⟩ : ∃ l, l = listAddBetween links1 (.entry 1) (.bucket ⟨.tv1, 2⟩)
    (.bucket ⟨.tv1, 2⟩) := ⟨_, rfl⟩
  obtain ⟨nodes2, second, pending2⟩ : ∃ f,
      WheelMemory.timerAdd ⟨1, 10, links1, nodes1⟩ 1 10 = some ⟨1, 10, links2, f⟩ ∧
      ∀ k, (f k).pending = if k = 1 then true else (nodes1 k).pending :=
    eq2 ▸ timerAdd_of_idle 10 (by simp [pending1, idle]) (by decide)
      (by simp [eq1, listAddBetween, setNext, setPrev, near.2])
  obtain ⟨links3, eq3⟩ : ∃ l, l = expireSingle links2 ⟨.tv1, 2⟩ 1 (.entry 0) := ⟨_, rfl⟩
  obtain ⟨nodes3, third, pending3⟩ : ∃ f,
      WheelMemory.tick ⟨1, 10, links2, nodes2⟩ = some ⟨2, 10, links3, f⟩ ∧
      ∀ k, (f k).pending = if k = 1 then false else (nodes2 k).pending :=
    eq3 ▸ tick_of_single (by decide) (by decide)
      (by simp [eq2, eq1, listAddBetween, setNext, setPrev])
      (by simp [eq2, eq1, listAddBetween, setNext, setPrev])
      (by simp [eq2, eq1, listAddBetween, setNext, setPrev])
      (by simp [eq2, eq1, listAddBetween, setNext, setPrev, front])
  have last : carelessLinks links =
      listAddBetween links3 (.entry 2) (.entry 0) (.bucket ⟨.tv1, 101⟩) := by
    rw [eq3, eq2, eq1]
    rfl
  obtain ⟨nodes4, fourth, pending4⟩ : ∃ f,
      WheelMemory.timerAdd ⟨2, 10, links3, nodes3⟩ 2 990 =
        some ⟨2, 10, carelessLinks links, f⟩ ∧
      ∀ k, (f k).pending = if k = 2 then true else (nodes3 k).pending :=
    last ▸ timerAdd_of_idle 990 (by simp [pending3, pending2, pending1, idle]) (by decide)
      (by simp [eq3, eq2, eq1, expireSingle, initListHead, listDelBetween, listAddBetween, setNext,
        setPrev])
  refine ⟨nodes4, ?_, by simp [pending4, pending3, pending2, pending1], by simp [pending4]⟩
  simp only [WheelMemory.run, List.foldlM_cons, List.foldlM_nil, WheelMemory.exec, first, second,
    third, fourth, Option.bind_eq_bind, Option.bind_some]
  rfl

/-- Node 0 leads from the bucket to node 2, and back to node 1 in the expired list. -/
theorem carelessLinks_zero (links : LinkMem ListAddr) :
    (carelessLinks links).prev (.entry 0) = some (.entry 1) ∧
      (carelessLinks links).next (.entry 0) = some (.entry 2) := by
  constructor <;>
    simp [carelessLinks, expireSingle, initListHead, listDelBetween, listAddBetween, setNext, setPrev]

/-- When node 0 is deleted, the links lead from the heads of buckets to heads and to node 0 only. -/
theorem closed_of_careless (heads : ∀ b : Bucket, b.Valid → links.next (.bucket b) = some (.bucket b))
    {links' : LinkMem ListAddr} (unlinked : listDel (carelessLinks links) (.entry 0) = some links')
    {a c : ListAddr} (link : links'.next a = some c)
    (inside : (∃ b : Bucket, b.Valid ∧ a = .bucket b) ∨ a = .entry 0) :
    (∃ b : Bucket, b.Valid ∧ c = .bucket b) ∨ c = .entry 0 := by
  have cleared : links'.next = Function.update
      (listDelBetween (carelessLinks links) (.entry 1) (.entry 2)).next (.entry 0) none := by
    rw [listDel, (carelessLinks_zero links).1, (carelessLinks_zero links).2] at unlinked
    rw [← Option.some.inj unlinked]
  rcases inside with ⟨b, valid, rfl⟩ | rfl
  · have self := heads b valid
    simp only [cleared, carelessLinks, expireSingle, initListHead, listDelBetween, listAddBetween,
      setNext, setPrev, Function.update_apply, reduceCtorEq, if_false, ListAddr.bucket.injEq,
      self] at link
    split_ifs at link with emptied armed <;> cases link
    · exact .inl ⟨_, emptied ▸ valid, rfl⟩
    · exact .inr rfl
    · exact .inl ⟨b, valid, rfl⟩
  · rw [cleared, Function.update_self] at link
    cases link

/-- Node 0 is armed while it is linked in the expired list. -/
theorem lost_of_careless (idle : ∀ n, (nodes n).pending = false)
    (heads : ∀ b : Bucket, b.Valid →
      links.next (.bucket b) = some (.bucket b) ∧ links.prev (.bucket b) = some (.bucket b))
    (front : links.next .expiredList = some (.entry 0)) :
    ∃ a, WheelMemory.run ⟨1, 10, links, nodes⟩
        ([.add 0 1000, .add 1 10, .tick, .add 2 990] ++ [.del 0]) = some a ∧
      (a.nodes 2).pending = true ∧ ∀ b : Bucket, b.Valid → ¬ a.Linked (.bucket b) 2 := by
  obtain ⟨nodes1, armed, zero, two⟩ := run_careless idle heads front
  obtain ⟨links', unlinked⟩ : ∃ l, listDel (carelessLinks links) (.entry 0) = some l := by
    rw [listDel, (carelessLinks_zero links).1, (carelessLinks_zero links).2]
    exact ⟨_, rfl⟩
  obtain ⟨nodes2, deleted, pending⟩ := @timerDel_of_pending 2 10 _ _ _ _ zero unlinked
  refine ⟨⟨2, 10, links', nodes2⟩, ?_, ?_, fun b valid linked => ?_⟩
  · rw [WheelMemory.run_append, armed]
    exact congrArg (Option.bind · _) deleted
  · exact (pending 2).trans two
  · have outside : ∀ a, links'.Reaches (.bucket b) a →
        (∃ b : Bucket, b.Valid ∧ a = .bucket b) ∨ a = .entry 0 := by
      intro a reaches
      induction reaches with
      | single link =>
        exact closed_of_careless (fun b valid => (heads b valid).1) unlinked link
          (.inl ⟨b, valid, rfl⟩)
      | tail _ link ih =>
        exact closed_of_careless (fun b valid => (heads b valid).1) unlinked link ih
    rcases outside _ linked with ⟨c, -, same⟩ | same
    · cases same
    · cases same

def carelessOps : List WheelOp :=
  [.add 0 10, .tick, .add 0 1000, .add 1 10, .tick, .add 2 990, .del 0]

theorem exists_lost_node :
    ∃ m a, WheelMemory.create 10 0 = some m ∧ m.run carelessOps = some a ∧
      (a.nodes 2).pending = true ∧ ∀ b : Bucket, b.Valid → ¬ a.Linked (.bucket b) 2 := by
  have created : ∃ m, WheelMemory.create 10 0 = some m := ⟨_, rfl⟩
  obtain ⟨m, created⟩ := created
  obtain ⟨w, made, stores⟩ := stores_create created
  obtain ⟨m', reached, stored⟩ := stores.run (careful_arm_ticks created 0 10 1)
  cases made
  have expired : (TimerWheel.run ⟨0, 10, fun _ => [], [], fun _ => .init⟩
      ([] ++ .add 0 10 :: List.replicate 1 .tick)).expiredList = [0] := by
    decide +kernel
  have empty : ∀ b, (TimerWheel.run ⟨0, 10, fun _ => [], [], fun _ => .init⟩
      ([] ++ .add 0 10 :: List.replicate 1 .tick)).buckets b = [] := by
    intro b
    have same : vecFor 0 (0 + TimerWheel.delayTicks 10 10) = ⟨.tv1, 1⟩ := by decide
    change Function.update (Function.update (fun _ => [])
      (vecFor 0 (0 + TimerWheel.delayTicks 10 10)) [0]) ⟨.tv1, 1⟩ [] b = []
    rw [same, Function.update_idem, Function.update_apply, ite_self]
  have idle : ∀ n, (m'.nodes n).pending = false := by
    intro n
    obtain ⟨place, linked, -⟩ := stored.apart n
    rw [stored.represents.nodes, linked.pending]
    cases place with
    | none => rfl
    | some b =>
      have counted := linked.count b
      rw [empty, List.count_nil, if_pos rfl] at counted
      cases counted
  have heads : ∀ b : Bucket, b.Valid → m'.links.next (.bucket b) = some (.bucket b) ∧
      m'.links.prev (.bucket b) = some (.bucket b) := by
    intro b valid
    have ring := stored.ring (shapes_bucket valid)
    rw [entries, empty] at ring
    exact ⟨ring.next_head, ring.prev_head⟩
  have front : m'.links.next .expiredList = some (.entry 0) := by
    have ring := @Stores.ring _ _ stored .expiredList rfl
    rw [entries, expired] at ring
    exact ring.next_head
  have jiffies : m'.jiffies = 1 := stored.represents.jiffies
  have tickMs : m'.tickMs = 10 := stored.represents.tickMs
  obtain ⟨j, t, links, nodes⟩ := m'
  dsimp only at jiffies tickMs
  subst jiffies tickMs
  obtain ⟨a, later, pending, lost⟩ := lost_of_careless idle heads front
  refine ⟨m, a, created, ?_, pending, lost⟩
  have split : m.run carelessOps = _ := WheelMemory.run_append m [.add 0 10, .tick] _
  rw [split]
  exact (congrArg (Option.bind · _) reached).trans later

end Careless

end Rsvp
