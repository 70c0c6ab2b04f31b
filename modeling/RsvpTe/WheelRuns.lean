import RsvpTe.WheelMemory

/-!
# Sequential runs of the wheel in memory

The calls of the main thread and the ticks one after another, on the wheel as it is stored.
`timer_add` and `timer_mod` go by `pending`, so they link an expired node anew through the entry by
which the expired list still holds it.  A run that never does so is careful: nothing goes wrong in
memory, which holds the lists of `TimerWheel` throughout.
-/

namespace Rsvp

namespace WheelMemory

def exec (m : WheelMemory) : WheelOp → Option WheelMemory
  | .add n expiresMs => m.timerAdd n expiresMs
  | .mod n expiresMs => m.timerMod n expiresMs
  | .del n => m.timerDel n
  | .tick => m.tick

def run (m : WheelMemory) (ops : List WheelOp) : Option WheelMemory := ops.foldlM exec m

/-- The forward links lead from the head to the node. -/
def Linked (m : WheelMemory) (head : ListAddr) (n : NodeId) : Prop :=
  m.links.Reaches head (.entry n)

/-- A node that is armed is not linked in the expired list. -/
def Careful (m : WheelMemory) : WheelOp → Prop
  | .add n _ => ¬ m.Linked .expiredList n
  | .mod n _ => ¬ m.Linked .expiredList n
  | _ => True

def CarefulRun (m : WheelMemory) : List WheelOp → Prop
  | [] => True
  | op :: ops => m.Careful op ∧ ∀ next, m.exec op = some next → next.CarefulRun ops

end WheelMemory

/-- The memory holds the lists, and no node is both in a bucket and expired. -/
structure Stores (m : WheelMemory) (w : TimerWheel) : Prop where
  represents : m.Represents w (fun _ => none) (fun _ => [])
  apart : ∀ n, ∃ place, w.At n place ∧ (place.isSome = true → n ∉ w.expiredList)

section Lists

variable {m : WheelMemory} {w : TimerWheel} {n : NodeId}

theorem Stores.ring (stores : Stores m w) {head : ListAddr}
    (isRing : shapes (fun _ => none) head = some .ring) :
    m.links.Ring head (entries w (fun _ => []) head) :=
  stores.represents.holds.fits isRing

theorem Stores.linked_expiredList_iff (stores : Stores m w) :
    m.Linked .expiredList n ↔ n ∈ w.expiredList := by
  rw [WheelMemory.Linked, (stores.ring rfl).reaches_iff, List.mem_cons]
  exact (or_iff_right (by simp)).trans mem_map_entry

theorem Stores.linked_bucket_iff (stores : Stores m w) {b : Bucket} (valid : b.Valid) :
    m.Linked (.bucket b) n ↔ n ∈ w.buckets b := by
  rw [WheelMemory.Linked, (stores.ring (shapes_bucket valid)).reaches_iff, List.mem_cons]
  exact (or_iff_right (by simp)).trans mem_map_entry

theorem stores_create {tickMs : UInt32} {jiffies : UInt64}
    (created : WheelMemory.create tickMs jiffies = some m) :
    ∃ w, timerWheelCreate tickMs jiffies = some w ∧ Stores m w := by
  have positive : tickMs ≠ 0 := by
    rintro rfl
    cases created
  have made : timerWheelCreate tickMs jiffies = some _ := if_neg positive
  obtain ⟨m', stored, represents⟩ := WheelMemory.represents_create made
  cases stored.symm.trans created
  exact ⟨_, made, represents, fun n => ⟨none, (TimerWheel.at_timerWheelCreate made n).1, by simp⟩⟩

end Lists

/-! ## Careful runs -/

namespace TimerWheel

variable {w : TimerWheel} {n : NodeId}

/-- Only a node of the expired list that is armed can come to be in a bucket as well. -/
theorem apart_exec {op : WheelOp}
    (apart : ∃ place, w.At n place ∧ (place.isSome = true → n ∉ w.expiredList))
    (careful : ∀ ms, op = .add n ms ∨ op = .mod n ms → n ∉ w.expiredList) :
    ∃ place, (w.exec op).At n place ∧ (place.isSome = true → n ∉ (w.exec op).expiredList) := by
  obtain ⟨place, linked, unexpired⟩ := apart
  by_cases ticking : op = .tick
  · subst ticking
    obtain ⟨count, moved, -⟩ := linked.tick
    refine ⟨_, moved, fun kept expired => ?_⟩
    obtain ⟨b, filtered⟩ := Option.isSome_iff_exists.mp kept
    obtain ⟨settled, other⟩ := Option.filter_eq_some_iff.mp filtered
    rcases List.mem_append.mp expired with now | before
    · have counted := List.count_pos_iff.mpr now
      rw [count, settled] at counted
      split at counted
      · rename_i same
        exact of_decide_eq_true other (Option.some.inj same)
      · exact absurd counted (lt_irrefl 0)
    · refine unexpired ?_ before
      cases place with
      | none => cases settled
      | some _ => rfl
  rw [expiredList_exec w ticking]
  by_cases named : op.node = some n
  · cases op with
    | tick => exact absurd rfl ticking
    | add m ms =>
      cases named
      exact ⟨_, (linked.arm (.inl rfl)).1, fun _ => careful ms (.inl rfl)⟩
    | mod m ms =>
      cases named
      exact ⟨_, (linked.arm (.inr rfl)).1, fun _ => careful ms (.inr rfl)⟩
    | del m =>
      cases named
      exact ⟨none, linked.timerDel, by simp⟩
  · exact ⟨place, (linked.exec_of_ne named ticking).1, unexpired⟩

end TimerWheel

section Runs

variable {m : WheelMemory} {w : TimerWheel} {n : NodeId} {op : WheelOp} {ops : List WheelOp}

theorem Stores.exec (stores : Stores m w) (careful : m.Careful op) :
    ∃ next, m.exec op = some next ∧ Stores next (w.exec op) := by
  have fresh : ∀ n ms, op = .add n ms ∨ op = .mod n ms → n ∉ w.expiredList := by
    rintro n ms (rfl | rfl) <;> exact fun expired => careful (stores.linked_expiredList_iff.mpr expired)
  have apart := fun n => TimerWheel.apart_exec (stores.apart n) (fresh n)
  have free : ∀ n : NodeId, ∀ l : Local, n ∉ ([] : List NodeId) := fun _ _ => List.not_mem_nil
  cases op with
  | tick =>
    obtain ⟨next, done, represents⟩ := stores.represents.tick rfl rfl
    exact ⟨next, done, represents, apart⟩
  | add n ms =>
    obtain ⟨place, linked, -⟩ := stores.apart n
    obtain ⟨next, done, represents⟩ :=
      stores.represents.timerAdd linked (fresh n ms (.inl rfl)) (free n) ms
    exact ⟨next, done, represents, apart⟩
  | mod n ms =>
    obtain ⟨place, linked, -⟩ := stores.apart n
    obtain ⟨next, done, represents⟩ :=
      stores.represents.timerMod linked (fresh n ms (.inr rfl)) (free n) ms
    exact ⟨next, done, represents, apart⟩
  | del n =>
    obtain ⟨place, linked, unexpired⟩ := stores.apart n
    obtain ⟨next, done, represents⟩ := stores.represents.timerDel linked fun pending =>
      ⟨unexpired (linked.pending.symm.trans pending), free n⟩
    exact ⟨next, done, represents, apart⟩

theorem WheelMemory.run_append (m : WheelMemory) (front ops : List WheelOp) :
    m.run (front ++ ops) = (m.run front).bind (·.run ops) :=
  List.foldlM_append

theorem WheelMemory.run_cons (m : WheelMemory) (op : WheelOp) (ops : List WheelOp) :
    m.run (op :: ops) = (m.exec op).bind (·.run ops) :=
  List.foldlM_cons

theorem WheelMemory.carefulRun_append {front : List WheelOp} :
    m.CarefulRun (front ++ ops) ↔
      m.CarefulRun front ∧ ∀ next, m.run front = some next → next.CarefulRun ops := by
  induction front generalizing m with
  | nil =>
    refine ⟨fun careful => ⟨trivial, fun next same => ?_⟩, fun both => both.2 m rfl⟩
    exact Option.some.inj same ▸ careful
  | cons op front ih =>
    constructor
    · rintro ⟨now, later⟩
      refine ⟨⟨now, fun next done => (ih.mp (later next done)).1⟩, fun final reached => ?_⟩
      rw [run_cons] at reached
      obtain ⟨next, done, reached⟩ := Option.bind_eq_some_iff.mp reached
      exact (ih.mp (later next done)).2 final reached
    · rintro ⟨⟨now, early⟩, late⟩
      refine ⟨now, fun next done => ih.mpr ⟨early next done, fun final reached => late final ?_⟩⟩
      rw [run_cons, done]
      exact reached

/-- A careful run goes through in memory and leads to the lists that `TimerWheel` comes to. -/
theorem Stores.run (stores : Stores m w) (careful : m.CarefulRun ops) :
    ∃ next, m.run ops = some next ∧ Stores next (w.run ops) := by
  induction ops generalizing m w with
  | nil => exact ⟨m, rfl, stores⟩
  | cons op ops ih =>
    obtain ⟨now, later⟩ := careful
    obtain ⟨next, done, kept⟩ := stores.exec now
    obtain ⟨final, reached, holds⟩ := ih kept (later next done)
    refine ⟨final, ?_, holds⟩
    rw [WheelMemory.run_cons, done]
    exact reached

theorem carefulRun_ticks (m : WheelMemory) (k : Nat) :
    m.CarefulRun (List.replicate k .tick) := by
  induction k generalizing m with
  | zero => trivial
  | succ k ih => exact ⟨trivial, fun next _ => ih next⟩

theorem ticks_replicate (k : Nat) : ticks (List.replicate k .tick) = k := by
  rw [ticks, List.countP_replicate]
  rfl

theorem node_replicate (k : Nat) (n : NodeId) :
    ∀ op ∈ List.replicate k WheelOp.tick, op.node ≠ some n := by
  intro op mem
  rw [(List.mem_replicate.mp mem).2]
  rintro ⟨⟩

end Runs

/-! ## The tick of a node -/

section Expiry

variable {tickMs : UInt32} {start : UInt64} {m : WheelMemory} {n : NodeId} {op : WheelOp}
  {expiresMs : UInt32} {before after : List WheelOp}

/-- The tick after a careful run that arms a node and then leaves it alone. -/
theorem moves_iff (created : WheelMemory.create tickMs start = some m)
    (arms : op = .add n expiresMs ∨ op = .mod n expiresMs)
    (careful : m.CarefulRun (before ++ op :: after))
    (untouched : ∀ op ∈ after, op.node ≠ some n) :
    ∃ a b, m.run (before ++ op :: after) = some a ∧ a.tick = some b ∧
      (¬ a.Linked .expiredList n ∧ b.Linked .expiredList n ↔
        firesAt ((start.toNat + ticks before) % 2 ^ 64)
          ((start.toNat + ticks before) % 2 ^ 64 + expiresMs.toNat ⌈/⌉ tickMs.toNat) =
            (start.toNat + ticks before) % 2 ^ 64 + ticks after + 1) := by
  obtain ⟨w, made, stores⟩ := stores_create created
  obtain ⟨-, -, positive, same⟩ := TimerWheel.at_timerWheelCreate made n
  have jiffies : w.jiffies = start := by
    rw [← stores.represents.jiffies]
    rw [WheelMemory.create, if_neg positive] at created
    cases created
    rfl
  obtain ⟨early, late⟩ := WheelMemory.carefulRun_append.mp careful
  obtain ⟨armed, reached, holds⟩ := stores.run early
  have fresh : n ∉ (w.run before).expiredList := by
    rw [← holds.linked_expiredList_iff]
    rcases arms with rfl | rfl <;> exact (late armed reached).1
  obtain ⟨place, linked, -⟩ := holds.apart n
  have moves := TimerWheel.moves_iff linked (by rwa [TimerWheel.tickMs_run, same]) arms fresh
    untouched
  rw [TimerWheel.jiffies_run, TimerWheel.tickMs_run, jiffies, same] at moves
  obtain ⟨a, all, stored⟩ := stores.run careful
  have carefully : a.Careful .tick := trivial
  obtain ⟨b, next, moved⟩ := stored.exec carefully
  have lists : w.run (before ++ op :: after) = ((w.run before).exec op).run after :=
    List.foldl_append
  refine ⟨a, b, all, next, ?_⟩
  rw [stored.linked_expiredList_iff, moved.linked_expiredList_iff, lists]
  exact moves

/-- In every careful run a node armed at tick `j` with a delay of `d` ticks is moved to the expired
list by exactly one tick, which is `max (j + d) (j + 1)`, unless the delay takes it out of `tv1` and
its expiry is a multiple of 256. -/
theorem expires_on_tick_iff (created : WheelMemory.create tickMs start = some m)
    (arms : op = .add n expiresMs ∨ op = .mod n expiresMs)
    (careful : m.CarefulRun (before ++ [op])) :
    (∀ after : List WheelOp, m.CarefulRun (before ++ op :: after) →
      (∀ op ∈ after, op.node ≠ some n) →
        ∃ a b, m.run (before ++ op :: after) = some a ∧ a.tick = some b ∧
          (¬ a.Linked .expiredList n ∧ b.Linked .expiredList n ↔
            ticks after + 1 = max (expiresMs.toNat ⌈/⌉ tickMs.toNat) 1)) ↔
    expiresMs.toNat ⌈/⌉ tickMs.toNat < 256 ∨
      (start.toNat + ticks before + expiresMs.toNat ⌈/⌉ tickMs.toNat) % 256 ≠ 0 := by
  have moves := fun after => @moves_iff _ _ _ _ _ _ before after created arms
  generalize expiresMs.toNat ⌈/⌉ tickMs.toNat = d at moves ⊢
  generalize clock : (start.toNat + ticks before) % 2 ^ 64 = j at moves
  have low : (start.toNat + ticks before + d) % 256 = (j + d) % 256 := by omega
  rw [low]
  constructor
  · intro exact
    by_contra late
    rw [not_or, not_lt, not_not] at late
    have quiet := node_replicate (d - 1) n
    have on : m.CarefulRun (before ++ op :: List.replicate (d - 1) .tick) := by
      rw [List.append_cons]
      exact WheelMemory.carefulRun_append.mpr ⟨careful, fun next _ => carefulRun_ticks next _⟩
    obtain ⟨a, b, reached, next, wanted⟩ := exact _ on quiet
    obtain ⟨a', b', reached', next', happens⟩ := moves _ on quiet
    cases reached.symm.trans reached'
    cases next.symm.trans next'
    have missed : firesAt j (j + d) ≠ j + (d - 1) + 1 := by
      rw [firesAt]
      split_ifs <;> omega
    rw [ticks_replicate] at wanted happens
    exact missed (happens.mp (wanted.mpr (by omega)))
  · intro early after on untouched
    obtain ⟨a, b, reached, next, happens⟩ := moves _ on untouched
    refine ⟨a, b, reached, next, happens.trans ?_⟩
    rw [firesAt]
    split_ifs <;> omega

/-- A new wheel has expired nothing. -/
theorem careful_arm_ticks (created : WheelMemory.create tickMs start = some m) (n : NodeId)
    (expiresMs : UInt32) (k : Nat) :
    m.CarefulRun ([] ++ .add n expiresMs :: List.replicate k .tick) := by
  obtain ⟨w, made, stores⟩ := stores_create created
  refine ⟨fun linked => ?_, fun next _ => carefulRun_ticks next k⟩
  have expired := stores.linked_expiredList_iff.mp linked
  rw [(TimerWheel.at_timerWheelCreate made n).2.1] at expired
  cases expired

/-- A delay of 2 s on a wheel of 10 ms ticks: the node expires on tick 200. -/
theorem expires_on_tick_iff_short :
    ∃ m, WheelMemory.create 10 0 = some m ∧
      ∀ after : List WheelOp, m.CarefulRun (.add 0 2000 :: after) →
        (∀ op ∈ after, op.node ≠ some 0) →
          ∃ a b, m.run (.add 0 2000 :: after) = some a ∧ a.tick = some b ∧
            (¬ a.Linked .expiredList 0 ∧ b.Linked .expiredList 0 ↔ ticks after + 1 = 200) := by
  have delay : (2000 : UInt32).toNat ⌈/⌉ (10 : UInt32).toNat = 200 := by decide
  have created : ∃ m, WheelMemory.create 10 0 = some m := ⟨_, rfl⟩
  obtain ⟨m, created⟩ := created
  have fires := (expires_on_tick_iff created
    (.inl rfl : WheelOp.add 0 2000 = .add 0 2000 ∨ _) (careful_arm_ticks created 0 2000 0)).mpr
    (.inl (by rw [delay]; decide))
  rw [delay] at fires
  exact ⟨m, created, fires⟩

/-- A delay of 2560 ms on a wheel of 10 ms ticks: tick 256 leaves the node where it is. -/
theorem exists_late_expiry :
    ∃ m a b c, WheelMemory.create 10 0 = some m ∧
      max ((2560 : UInt32).toNat ⌈/⌉ (10 : UInt32).toNat) 1 = 256 ∧
      m.run (.add 0 2560 :: List.replicate 255 .tick) = some a ∧ a.tick = some b ∧
      b.tick = some c ∧ ¬ b.Linked .expiredList 0 ∧ c.Linked .expiredList 0 := by
  have delay : (2560 : UInt32).toNat ⌈/⌉ (10 : UInt32).toNat = 256 := by decide
  have created : ∃ m, WheelMemory.create 10 0 = some m := ⟨_, rfl⟩
  obtain ⟨m, created⟩ := created
  have careful := fun k => careful_arm_ticks created 0 2560 k
  have moves := fun k => moves_iff created (.inl rfl : WheelOp.add 0 2560 = .add 0 2560 ∨ _)
    (careful k) (node_replicate k 0)
  rw [delay] at moves
  simp only [List.nil_append] at moves
  obtain ⟨a, b, reached, next, -⟩ := moves 255
  obtain ⟨b', c, reached', later, late⟩ := moves 256
  have on : m.run (.add 0 2560 :: List.replicate 256 .tick) = some b := by
    have split : WheelOp.add 0 2560 :: List.replicate 256 .tick =
        (.add 0 2560 :: List.replicate 255 .tick) ++ [.tick] := by
      rw [List.cons_append, ← List.replicate_succ']
    rw [split, WheelMemory.run_append, reached, Option.bind_some, WheelMemory.run_cons]
    exact congrArg (Option.bind · _) next
  cases on.symm.trans reached'
  obtain ⟨missed, moved⟩ := late.mpr (by rw [ticks_replicate]; decide)
  exact ⟨m, a, b, c, created, by rw [delay]; rfl, reached, next, later, missed, moved⟩

end Expiry

end Rsvp
