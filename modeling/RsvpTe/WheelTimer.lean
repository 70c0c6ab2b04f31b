import Mathlib.Algebra.Order.Floor.Div
import Mathlib.Logic.Function.Basic

/-!
# The timer wheel (`wheel_timer.c`)

Five levels of buckets.  A node whose expiry is near lies in the bucket of its own tick, a later
one in a coarser bucket, which is emptied into finer ones (`cascade`) when its first tick comes.
The functions here are the sections of the source that run under `wheel->lock`; a list is the
sequence of the nodes linked in it.  A node is linked by one entry, so the lists are those of the
memory only as long as no node is armed that is still linked in the expired list; what is proved
about runs is proved of the memory (`WheelMemory`) or of such runs.

The wheel runs and is the only one, so the error returns for a stopped or a foreign wheel are left
out, as are `callback` and `arg`, which the wheel does not read, and `executing`, on which only the
result of `timer_del` depends.

`Placed` says where a node lies and on which tick it will expire.  Since an expiry of the current
tick is put off to the next one, a node that is cascaded on its own tick is one tick late.
-/

namespace Rsvp

/-! ## The wheel -/

/-- A `timer_node_t*`. -/
abbrev NodeId : Type := Nat

structure TimerNode : Type where
  expires : UInt64
  period : UInt64
  wheel : Bool
  pending : Bool

/-- What `timer_node_init` leaves. -/
def TimerNode.init : TimerNode := ⟨0, 0, false, false⟩

/-- The bucket arrays `tv1` to `tv5`. -/
inductive Level : Type
  | tv1
  | tv2
  | tv3
  | tv4
  | tv5
  deriving DecidableEq, Repr

structure Bucket : Type where
  level : Level
  index : Nat
  deriving DecidableEq, Repr

structure TimerWheel : Type where
  jiffies : UInt64
  tickMs : UInt32
  buckets : Bucket → List NodeId
  expiredList : List NodeId
  nodes : NodeId → TimerNode

/-- `timer_wheel_create` with the clock at `jiffies`. -/
def timerWheelCreate (tickMs : UInt32) (jiffies : UInt64) : Option TimerWheel :=
  if tickMs = 0 then none
  else some ⟨jiffies, tickMs, fun _ => [], [], fun _ => .init⟩

def wheelTvrMask : UInt64 := 255
def wheelTvnMask : UInt64 := 63

/-- The bucket `internal_add_timer` chooses. -/
def vecFor (jiffies expires : UInt64) : Bucket :=
  let idx := (expires - jiffies).toBitVec.toInt
  if idx ≤ 0 then ⟨.tv1, ((jiffies + 1) &&& wheelTvrMask).toNat⟩
  else if idx < 256 then ⟨.tv1, (expires &&& wheelTvrMask).toNat⟩
  else if idx < 16384 then ⟨.tv2, ((expires >>> 8) &&& wheelTvnMask).toNat⟩
  else if idx < 1048576 then ⟨.tv3, ((expires >>> 14) &&& wheelTvnMask).toNat⟩
  else if idx < 67108864 then ⟨.tv4, ((expires >>> 20) &&& wheelTvnMask).toNat⟩
  else ⟨.tv5, ((expires >>> 26) &&& wheelTvnMask).toNat⟩

namespace TimerWheel

def modNode (w : TimerWheel) (n : NodeId) (f : TimerNode → TimerNode) : TimerWheel :=
  { w with nodes := Function.update w.nodes n (f (w.nodes n)) }

def internalAddTimer (w : TimerWheel) (n : NodeId) : TimerWheel :=
  let vec := vecFor w.jiffies (w.nodes n).expires
  { w with buckets := Function.update w.buckets vec (w.buckets vec ++ [n]) }
    |>.modNode n fun node => { node with pending := true }

/-- `list_del`: the node leaves the bucket it is linked in. -/
def listDel (w : TimerWheel) (n : NodeId) : TimerWheel :=
  { w with buckets := fun b => (w.buckets b).erase n }

def cascade (w : TimerWheel) (tv : Level) (index : Nat) : TimerWheel :=
  (w.buckets ⟨tv, index⟩).foldl internalAddTimer
    { w with buckets := Function.update w.buckets ⟨tv, index⟩ [] }

/-- The bucket index of a tick in a level. -/
def indexOf (jiffies : UInt64) : Level → Nat
  | .tv1 => (jiffies &&& wheelTvrMask).toNat
  | .tv2 => ((jiffies >>> 8) &&& wheelTvnMask).toNat
  | .tv3 => ((jiffies >>> 14) &&& wheelTvnMask).toNat
  | .tv4 => ((jiffies >>> 20) &&& wheelTvnMask).toNat
  | .tv5 => ((jiffies >>> 26) &&& wheelTvnMask).toNat

/-- The clock advances and, where a level has come round, the next one is cascaded. -/
def advance (w : TimerWheel) : TimerWheel :=
  let next := w.jiffies + 1
  let w := { w with jiffies := next }
  if indexOf next .tv1 ≠ 0 then w
  else
    let w := w.cascade .tv2 (indexOf next .tv2)
    if indexOf next .tv2 ≠ 0 then w
    else
      let w := w.cascade .tv3 (indexOf next .tv3)
      if indexOf next .tv3 ≠ 0 then w
      else
        let w := w.cascade .tv4 (indexOf next .tv4)
        if indexOf next .tv4 ≠ 0 then w
        else w.cascade .tv5 (indexOf next .tv5)

/-- The nodes the next tick moves to the expired list. -/
def expiring (w : TimerWheel) : List NodeId :=
  w.advance.buckets ⟨.tv1, indexOf (w.jiffies + 1) .tv1⟩

/-- One round of `tick_thread_func`. -/
def tick (w : TimerWheel) : TimerWheel :=
  { w.advance with
    buckets := Function.update w.advance.buckets ⟨.tv1, indexOf (w.jiffies + 1) .tv1⟩ []
    expiredList := w.expiring ++ w.expiredList
    nodes := fun n =>
      if n ∈ w.expiring then { w.advance.nodes n with pending := false } else w.advance.nodes n }

/-- The delay of `timer_add` and `timer_mod` in ticks, rounded up. -/
def delayTicks (tickMs expiresMs : UInt32) : UInt64 :=
  (expiresMs / tickMs).toUInt64 + if expiresMs > 0 ∧ expiresMs % tickMs ≠ 0 then 1 else 0

def timerAdd (w : TimerWheel) (n : NodeId) (expiresMs : UInt32) : TimerWheel :=
  let w :=
    if (w.nodes n).pending then (w.listDel n).modNode n fun node => { node with pending := false }
    else w
  w.modNode n (fun node => { node with
      wheel := true
      expires := w.jiffies + delayTicks w.tickMs expiresMs
      period := 0 })
    |>.internalAddTimer n

/-- A period of no ticks becomes one, and one of no milliseconds is refused. -/
def timerAddPeriodic (w : TimerWheel) (n : NodeId) (periodMs : UInt32) : TimerWheel :=
  if periodMs = 0 then w
  else
    let w :=
      if (w.nodes n).pending then
        (w.listDel n).modNode n fun node => { node with pending := false }
      else w
    let ticks := (periodMs / w.tickMs).toUInt64
    let period := if ticks = 0 then 1 else ticks
    w.modNode n (fun node => { node with
        wheel := true
        period := period
        expires := w.jiffies + period })
      |>.internalAddTimer n

def timerMod (w : TimerWheel) (n : NodeId) (expiresMs : UInt32) : TimerWheel :=
  let w := if (w.nodes n).pending then w.listDel n else w
  w.modNode n (fun node => { node with
      wheel := true
      expires := w.jiffies + delayTicks w.tickMs expiresMs })
    |>.internalAddTimer n

/-- A node that is not pending only loses its period. -/
def timerDel (w : TimerWheel) (n : NodeId) : TimerWheel :=
  if (w.nodes n).pending then
    (w.listDel n).modNode n fun node => { node with period := 0, pending := false, wheel := false }
  else w.modNode n fun node => { node with period := 0 }

/-- The last section of a worker for a node whose callback has returned. -/
def finish (w : TimerWheel) (n : NodeId) : TimerWheel :=
  if (w.nodes n).period > 0 ∧ (w.nodes n).pending = false then
    w.modNode n (fun node => { node with expires := node.expires + node.period })
      |>.internalAddTimer n
  else if (w.nodes n).period = 0 ∧ (w.nodes n).pending = false then
    w.modNode n fun node => { node with wheel := false }
  else w

end TimerWheel

/-! ## Sequential runs -/

/-- The calls of the main thread and the tick. -/
inductive WheelOp : Type
  | add (n : NodeId) (expiresMs : UInt32)
  | mod (n : NodeId) (expiresMs : UInt32)
  | del (n : NodeId)
  | tick

/-- The node an operation is called on. -/
def WheelOp.node : WheelOp → Option NodeId
  | .add n _ => some n
  | .mod n _ => some n
  | .del n => some n
  | .tick => none

def TimerWheel.exec (w : TimerWheel) : WheelOp → TimerWheel
  | .add n expiresMs => w.timerAdd n expiresMs
  | .mod n expiresMs => w.timerMod n expiresMs
  | .del n => w.timerDel n
  | .tick => w.tick

def TimerWheel.run (w : TimerWheel) (ops : List WheelOp) : TimerWheel := ops.foldl exec w

/-- The number of ticks in a run. -/
def ticks (ops : List WheelOp) : Nat := ops.countP fun op => op matches .tick

/-! ## Where a node is linked -/

namespace TimerWheel

/-- The node is linked once, in the bucket `place`, or in none; its flag agrees. -/
structure At (w : TimerWheel) (n : NodeId) (place : Option Bucket) : Prop where
  count : ∀ b, (w.buckets b).count n = if place = some b then 1 else 0
  pending : (w.nodes n).pending = place.isSome

variable {w : TimerWheel} {n m : NodeId} {place : Option Bucket}

theorem modNode_self (w : TimerWheel) (n : NodeId) (f : TimerNode → TimerNode) :
    (w.modNode n f).nodes n = f (w.nodes n) :=
  Function.update_self ..

theorem modNode_of_ne (w : TimerWheel) (f : TimerNode → TimerNode) (other : m ≠ n) :
    (w.modNode n f).nodes m = w.nodes m :=
  Function.update_of_ne other ..

theorem count_internalAddTimer (w : TimerWheel) (n m : NodeId) (b : Bucket) :
    ((w.internalAddTimer n).buckets b).count m =
      (w.buckets b).count m +
        if b = vecFor w.jiffies (w.nodes n).expires ∧ n = m then 1 else 0 := by
  change (Function.update w.buckets _ _ b).count m = _
  rw [Function.update_apply]
  by_cases here : b = vecFor w.jiffies (w.nodes n).expires
  · rw [if_pos here, List.count_append, ← here, List.count_singleton]
    simp only [beq_iff_eq, true_and]
  · rw [if_neg here, if_neg fun both => here both.1, Nat.add_zero]

theorem expires_internalAddTimer (w : TimerWheel) (n m : NodeId) :
    ((w.internalAddTimer n).nodes m).expires = (w.nodes m).expires := by
  change (Function.update w.nodes n _ m).expires = _
  rw [Function.update_apply]
  split
  · rename_i same
    rw [same]
  · rfl

theorem pending_internalAddTimer (w : TimerWheel) (n m : NodeId) :
    ((w.internalAddTimer n).nodes m).pending = (decide (n = m) || (w.nodes m).pending) := by
  change (Function.update w.nodes n _ m).pending = _
  rw [Function.update_apply]
  split
  · rename_i same
    rw [same, decide_eq_true rfl, Bool.true_or]
  · rename_i other
    rw [decide_eq_false (Ne.symm other), Bool.false_or]

theorem at_internalAddTimer (free : ∀ b, (w.buckets b).count n = 0) :
    (w.internalAddTimer n).At n (some (vecFor w.jiffies (w.nodes n).expires)) := by
  refine ⟨fun b => ?_, ?_⟩
  · rw [count_internalAddTimer, free, Nat.zero_add]
    simp only [and_true, Option.some.injEq, eq_comm]
  · rw [pending_internalAddTimer, decide_eq_true rfl]
    rfl

theorem At.internalAddTimer_of_ne (linked : w.At n place) (other : n ≠ m) :
    (w.internalAddTimer m).At n place := by
  refine ⟨fun b => ?_, ?_⟩
  · rw [count_internalAddTimer, if_neg fun both => other both.2.symm]
    exact linked.count b
  · rw [pending_internalAddTimer, decide_eq_false other.symm]
    exact linked.pending

/-- Adding the nodes of a list: each goes to the bucket of its own expiry. -/
theorem foldl_internalAddTimer (list : List NodeId) (w : TimerWheel) (m : NodeId) :
    (list.foldl internalAddTimer w).jiffies = w.jiffies ∧
      ((list.foldl internalAddTimer w).nodes m).expires = (w.nodes m).expires ∧
      ((list.foldl internalAddTimer w).nodes m).pending =
        (decide (m ∈ list) || (w.nodes m).pending) ∧
      ∀ b, ((list.foldl internalAddTimer w).buckets b).count m = (w.buckets b).count m +
        if b = vecFor w.jiffies (w.nodes m).expires then list.count m else 0 := by
  induction list generalizing w with
  | nil =>
    refine ⟨rfl, rfl, rfl, fun b => ?_⟩
    rw [List.count_nil, ite_self]
    rfl
  | cons n list ih =>
    obtain ⟨jiffies, expires, pending, count⟩ := ih (w.internalAddTimer n)
    rw [List.foldl_cons]
    refine ⟨jiffies, expires.trans (expires_internalAddTimer w n m), ?_, fun b => ?_⟩
    · rw [pending, pending_internalAddTimer, ← Bool.or_assoc]
      congr 1
      by_cases same : n = m
      · have first : m ∈ n :: list := by
          rw [same]
          exact List.mem_cons_self
        rw [decide_eq_true same, decide_eq_true first, Bool.or_true]
      · rw [decide_eq_false same, Bool.or_false]
        simp only [List.mem_cons, Ne.symm same, false_or]
    · have jiffies' : (w.internalAddTimer n).jiffies = w.jiffies := rfl
      rw [count b, count_internalAddTimer, expires_internalAddTimer, jiffies', List.count_cons,
        Nat.add_assoc]
      congr 1
      by_cases same : n = m
      · subst same
        simp only [and_true, beq_self_eq_true, if_true]
        split <;> omega
      · simp only [same, and_false, if_false, beq_iff_eq, Nat.zero_add, Nat.add_zero]

/-- A cascade moves the nodes of one bucket. -/
theorem At.cascade (linked : w.At n place) (tv : Level) (index : Nat) :
    (w.cascade tv index).At n (place.map fun b =>
      if b = ⟨tv, index⟩ then vecFor w.jiffies (w.nodes n).expires else b) := by
  obtain ⟨-, -, pending, count⟩ := foldl_internalAddTimer (w.buckets ⟨tv, index⟩)
    { w with buckets := Function.update w.buckets ⟨tv, index⟩ [] } n
  dsimp only at pending count
  constructor
  · intro b
    rw [TimerWheel.cascade, count b, linked.count, Function.update_apply]
    cases place with
    | none =>
      have counted := linked.count b
      simp only [reduceCtorEq, if_false] at counted
      simp only [Option.map_none, reduceCtorEq, if_false, ite_self, Nat.add_zero]
      split
      · exact List.count_nil
      · exact counted
    | some c =>
      have counted := linked.count b
      simp only [Option.map_some, Option.some.injEq] at counted ⊢
      by_cases moved : c = ⟨tv, index⟩
      · rw [if_pos moved, if_pos moved]
        by_cases here : b = ⟨tv, index⟩
        · rw [if_pos here, List.count_nil, Nat.zero_add]
          simp only [eq_comm]
        · rw [if_neg here, counted, if_neg fun same => here (same.symm.trans moved), Nat.zero_add]
          simp only [eq_comm]
      · rw [if_neg moved, if_neg moved, ite_self, Nat.add_zero]
        by_cases here : b = ⟨tv, index⟩
        · rw [if_pos here, List.count_nil, if_neg fun same => moved (same.trans here)]
        · rw [if_neg here, counted]
  · rw [TimerWheel.cascade, pending, Option.isSome_map, linked.pending]
    cases place with
    | some _ => exact Bool.or_true _
    | none =>
      have absent : n ∉ w.buckets ⟨tv, index⟩ := by
        rw [← List.count_eq_zero, linked.count]
        rfl
      rw [decide_eq_false absent]
      rfl

theorem jiffies_cascade (w : TimerWheel) (tv : Level) (index : Nat) :
    (w.cascade tv index).jiffies = w.jiffies :=
  (foldl_internalAddTimer _ _ 0).1

theorem expires_cascade (w : TimerWheel) (tv : Level) (index : Nat) (n : NodeId) :
    ((w.cascade tv index).nodes n).expires = (w.nodes n).expires :=
  (foldl_internalAddTimer _ _ n).2.1

/-- The buckets that the tick to `next` cascades. -/
def cascaded (next : UInt64) : List Bucket :=
  if indexOf next .tv1 ≠ 0 then []
  else ⟨.tv2, indexOf next .tv2⟩ ::
    if indexOf next .tv2 ≠ 0 then []
    else ⟨.tv3, indexOf next .tv3⟩ ::
      if indexOf next .tv3 ≠ 0 then []
      else ⟨.tv4, indexOf next .tv4⟩ ::
        if indexOf next .tv4 ≠ 0 then [] else [⟨.tv5, indexOf next .tv5⟩]

theorem advance_eq (w : TimerWheel) :
    w.advance = (cascaded (w.jiffies + 1)).foldl (fun w b => w.cascade b.level b.index)
      { w with jiffies := w.jiffies + 1 } := by
  rw [advance, cascaded]
  split_ifs <;> rfl

/-- Where a node of the bucket `b` lies after the cascades of that tick. -/
def settle (next expires : UInt64) (b : Bucket) : Bucket :=
  if b ∈ cascaded next then vecFor next expires else b

/-- A node cascaded several times on one tick stays where the first cascade put it. -/
theorem At.cascades (cs : List Bucket) (linked : w.At n place) :
    (cs.foldl (fun w b => w.cascade b.level b.index) w).At n (place.map fun b =>
      if b ∈ cs then vecFor w.jiffies (w.nodes n).expires else b) ∧
    (cs.foldl (fun w b => w.cascade b.level b.index) w).jiffies = w.jiffies ∧
    ((cs.foldl (fun w b => w.cascade b.level b.index) w).nodes n).expires =
      (w.nodes n).expires := by
  induction cs generalizing w place with
  | nil =>
    refine ⟨?_, rfl, rfl⟩
    simp only [List.not_mem_nil, if_false, Option.map_id']
    exact linked
  | cons c cs ih =>
    rw [List.foldl_cons]
    obtain ⟨rest, jiffies, expires⟩ := ih (linked.cascade c.level c.index)
    rw [jiffies_cascade] at jiffies
    rw [expires_cascade] at expires
    refine ⟨?_, jiffies, expires⟩
    rw [jiffies_cascade, expires_cascade, Option.map_map] at rest
    convert rest using 2
    funext b
    by_cases here : b = c
    · rw [Function.comp_apply, if_pos (here ▸ List.mem_cons_self), if_pos here, ite_self]
    · rw [Function.comp_apply, if_neg here]
      simp only [List.mem_cons, here, false_or]

theorem At.advance (linked : w.At n place) :
    w.advance.At n (place.map (settle (w.jiffies + 1) (w.nodes n).expires)) ∧
      w.advance.jiffies = w.jiffies + 1 ∧
      (w.advance.nodes n).expires = (w.nodes n).expires := by
  have started : ({ w with jiffies := w.jiffies + 1 } : TimerWheel).At n place :=
    ⟨linked.count, linked.pending⟩
  rw [advance_eq]
  exact started.cascades _

/-- The tick expires a node iff the cascades leave it in the bucket of the tick. -/
theorem At.tick (linked : w.At n place) :
    w.expiring.count n =
      (if place.map (settle (w.jiffies + 1) (w.nodes n).expires) =
        some ⟨.tv1, indexOf (w.jiffies + 1) .tv1⟩ then 1 else 0) ∧
    w.tick.At n ((place.map (settle (w.jiffies + 1) (w.nodes n).expires)).filter
      fun b => b ≠ ⟨.tv1, indexOf (w.jiffies + 1) .tv1⟩) ∧
    w.tick.jiffies = w.jiffies + 1 ∧ (w.tick.nodes n).expires = (w.nodes n).expires := by
  obtain ⟨moved, jiffies, expires⟩ := linked.advance
  generalize place.map (settle (w.jiffies + 1) (w.nodes n).expires) = settled at moved ⊢
  have counted := moved.count ⟨.tv1, indexOf (w.jiffies + 1) .tv1⟩
  refine ⟨counted, ⟨fun b => ?_, ?_⟩, jiffies, ?_⟩
  · change (Function.update w.advance.buckets _ _ b).count n = _
    rw [Function.update_apply]
    split
    · rename_i here
      rw [List.count_nil, if_neg fun kept => ?_]
      obtain ⟨-, other⟩ := Option.filter_eq_some_iff.mp kept
      exact of_decide_eq_true other here
    · rename_i other
      rw [moved.count]
      congr 1
      simp only [Option.filter_eq_some_iff, ne_eq, other, not_false_eq_true, decide_true, and_true]
  · change (if n ∈ w.expiring then _ else w.advance.nodes n : TimerNode).pending = _
    have member : n ∈ w.expiring ↔ settled = some ⟨.tv1, indexOf (w.jiffies + 1) .tv1⟩ := by
      change n ∈ w.advance.buckets _ ↔ _
      rw [← List.count_pos_iff, counted]
      split <;> simp_all
    simp only [member]
    cases settled with
    | none => exact moved.pending
    | some b =>
      by_cases here : b = ⟨.tv1, indexOf (w.jiffies + 1) .tv1⟩
      · simp only [here, if_true, Option.filter_some, ne_eq, not_true, decide_false]
        rfl
      · simp only [Option.some.injEq, here, if_false, Option.filter_some, ne_eq,
          not_false_eq_true, decide_true, if_true]
        exact moved.pending
  · change (if n ∈ w.expiring then _ else w.advance.nodes n : TimerNode).expires = _
    split <;> exact expires

/-- The wheel without the links of `n`, as `timer_add` and `timer_mod` leave it. -/
def unlink (w : TimerWheel) (n : NodeId) : TimerWheel :=
  if (w.nodes n).pending then w.listDel n else w

theorem count_unlink (linked : w.At n place) (b : Bucket) :
    ((w.unlink n).buckets b).count n = 0 := by
  rw [unlink, linked.pending]
  have counted := linked.count b
  split
  · change ((w.buckets b).erase n).count n = 0
    rw [List.count_erase_self, counted]
    split <;> rfl
  · rename_i absent
    rw [counted, if_neg]
    intro here
    rw [here] at absent
    exact absent rfl

theorem count_unlink_of_ne (w : TimerWheel) (other : m ≠ n) (b : Bucket) :
    ((w.unlink n).buckets b).count m = (w.buckets b).count m := by
  rw [unlink]
  split
  · exact List.count_erase_of_ne other
  · rfl

/-- Unlink a node, give it new fields and link it in the bucket of its expiry. -/
def relink (w : TimerWheel) (n : NodeId) (node : TimerNode) : TimerWheel :=
  ({ w with
    buckets := (w.unlink n).buckets
    nodes := Function.update w.nodes n node } : TimerWheel).internalAddTimer n

theorem At.relink (linked : w.At n place) (node : TimerNode) :
    (w.relink n node).At n (some (vecFor w.jiffies node.expires)) ∧
      ((w.relink n node).nodes n).expires = node.expires := by
  have set : Function.update w.nodes n node n = node := Function.update_self _ _ _
  have added := @at_internalAddTimer { w with
    buckets := (w.unlink n).buckets
    nodes := Function.update w.nodes n node } n (count_unlink linked)
  dsimp only at added
  rw [set] at added
  refine ⟨added, ?_⟩
  rw [TimerWheel.relink, expires_internalAddTimer]
  exact congrArg TimerNode.expires set

theorem nodes_internalAddTimer_of_ne (w : TimerWheel) (other : n ≠ m) :
    (w.internalAddTimer m).nodes n = w.nodes n :=
  Function.update_of_ne other ..

theorem nodes_relink_of_ne (w : TimerWheel) (node : TimerNode) (other : n ≠ m) :
    (w.relink m node).nodes n = w.nodes n := by
  rw [relink, nodes_internalAddTimer_of_ne _ other]
  exact Function.update_of_ne other ..

theorem At.relink_of_ne (linked : w.At n place) (node : TimerNode) (other : n ≠ m) :
    (w.relink m node).At n place := by
  refine At.internalAddTimer_of_ne ⟨fun b => ?_, ?_⟩ other
  · rw [← linked.count b]
    exact count_unlink_of_ne w other b
  · rw [← linked.pending]
    exact congrArg TimerNode.pending (Function.update_of_ne other ..)

/-- Both ways of arming a node link it anew with the expiry they are given. -/
theorem exec_arm {op : WheelOp} {ms : UInt32} (w : TimerWheel)
    (arms : op = .add n ms ∨ op = .mod n ms) :
    ∃ node : TimerNode, node.expires = w.jiffies + delayTicks w.tickMs ms ∧
      w.exec op = w.relink n node := by
  rcases arms with rfl | rfl
  · by_cases pending : (w.nodes n).pending
    · refine ⟨{ w.nodes n with
        pending := false
        wheel := true
        expires := w.jiffies + delayTicks w.tickMs ms
        period := 0 }, rfl, ?_⟩
      simp only [exec, timerAdd, relink, unlink, pending, if_true, modNode, listDel,
        Function.update_self, Function.update_idem]
    · refine ⟨{ w.nodes n with
        wheel := true
        expires := w.jiffies + delayTicks w.tickMs ms
        period := 0 }, rfl, ?_⟩
      simp only [exec, timerAdd, relink, unlink, if_neg pending]
      rfl
  · refine ⟨{ w.nodes n with
      wheel := true
      expires := w.jiffies + delayTicks w.tickMs ms }, rfl, ?_⟩
    rw [exec, timerMod, relink, unlink]
    split <;> rfl

theorem timerAddPeriodic_cases (w : TimerWheel) (n : NodeId) (periodMs : UInt32) :
    w.timerAddPeriodic n periodMs = w ∨ ∃ node, w.timerAddPeriodic n periodMs = w.relink n node := by
  by_cases refused : periodMs = 0
  · exact .inl (if_pos refused)
  rw [timerAddPeriodic, if_neg refused]
  right
  by_cases pending : (w.nodes n).pending
  · refine ⟨{ w.nodes n with
      pending := false
      wheel := true
      period := if (periodMs / w.tickMs).toUInt64 = 0 then 1 else (periodMs / w.tickMs).toUInt64
      expires := w.jiffies +
        if (periodMs / w.tickMs).toUInt64 = 0 then 1 else (periodMs / w.tickMs).toUInt64 }, ?_⟩
    simp only [relink, unlink, pending, if_true, modNode, listDel, Function.update_self,
      Function.update_idem]
  · refine ⟨{ w.nodes n with
      wheel := true
      period := if (periodMs / w.tickMs).toUInt64 = 0 then 1 else (periodMs / w.tickMs).toUInt64
      expires := w.jiffies +
        if (periodMs / w.tickMs).toUInt64 = 0 then 1 else (periodMs / w.tickMs).toUInt64 }, ?_⟩
    simp only [relink, unlink, if_neg pending]
    rfl

theorem At.arm {op : WheelOp} {ms : UInt32} (linked : w.At n place)
    (arms : op = .add n ms ∨ op = .mod n ms) :
    (w.exec op).At n (some (vecFor w.jiffies (w.jiffies + delayTicks w.tickMs ms))) ∧
      (w.exec op).jiffies = w.jiffies ∧
      ((w.exec op).nodes n).expires = w.jiffies + delayTicks w.tickMs ms := by
  obtain ⟨node, due, eq⟩ := exec_arm w arms
  obtain ⟨added, expires⟩ := linked.relink node
  rw [due] at added expires
  rw [eq]
  exact ⟨added, rfl, expires⟩

/-- An operation on another node leaves a node where it is. -/
theorem At.exec_of_ne {op : WheelOp} (linked : w.At n place) (other : op.node ≠ some n)
    (still : op ≠ .tick) :
    (w.exec op).At n place ∧ (w.exec op).jiffies = w.jiffies ∧
      (w.exec op).nodes n = w.nodes n := by
  have armed : ∀ {m ms}, op = .add m ms ∨ op = .mod m ms → n ≠ m →
      (w.exec op).At n place ∧ (w.exec op).jiffies = w.jiffies ∧
        (w.exec op).nodes n = w.nodes n := by
    intro m ms arms apart
    obtain ⟨node, -, eq⟩ := exec_arm w arms
    rw [eq]
    exact ⟨linked.relink_of_ne node apart, rfl, nodes_relink_of_ne w node apart⟩
  cases op with
  | add m ms => exact armed (.inl rfl) fun same => other (same ▸ rfl)
  | mod m ms => exact armed (.inr rfl) fun same => other (same ▸ rfl)
  | tick => exact absurd rfl still
  | del m =>
    have apart : n ≠ m := fun same => other (same ▸ rfl)
    rw [exec, timerDel]
    split
    · rw [modNode_of_ne _ _ apart]
      refine ⟨⟨fun b => ?_, ?_⟩, rfl, rfl⟩
      · rw [← linked.count b]
        exact List.count_erase_of_ne apart
      · rw [modNode_of_ne _ _ apart]
        exact linked.pending
    · rw [modNode_of_ne _ _ apart]
      refine ⟨⟨linked.count, ?_⟩, rfl, rfl⟩
      rw [modNode_of_ne _ _ apart, linked.pending]

theorem At.timerDel (linked : w.At n place) : (w.timerDel n).At n none := by
  have free := count_unlink linked
  rw [TimerWheel.timerDel]
  rw [unlink] at free
  split
  · rename_i pending
    rw [if_pos pending] at free
    refine ⟨free, ?_⟩
    rw [modNode_self]
    rfl
  · rename_i idle
    rw [if_neg idle] at free
    refine ⟨free, ?_⟩
    rw [modNode_self]
    exact Bool.eq_false_iff.mpr idle

/-- A pending node is left alone. -/
theorem At.finish (linked : w.At n place) : ∃ place, (w.finish n).At n place := by
  cases place with
  | none =>
    rw [TimerWheel.finish]
    split_ifs
    · exact ⟨_, at_internalAddTimer linked.count⟩
    · refine ⟨none, linked.count, ?_⟩
      rw [modNode_self]
      exact linked.pending
    · exact ⟨none, linked⟩
  | some b =>
    have pending : (w.nodes n).pending = true := linked.pending
    refine ⟨some b, ?_⟩
    simpa only [TimerWheel.finish, pending, Bool.true_eq_false, and_false, if_false] using linked

theorem nodes_finish_of_ne (w : TimerWheel) (other : n ≠ m) :
    (w.finish m).nodes n = w.nodes n := by
  rw [TimerWheel.finish]
  split_ifs
  · rw [nodes_internalAddTimer_of_ne _ other, modNode_of_ne _ _ other]
  · exact modNode_of_ne _ _ other
  · rfl

theorem At.finish_of_ne (linked : w.At n place) (other : n ≠ m) : (w.finish m).At n place := by
  have kept : ∀ f, (w.modNode m f).At n place := by
    intro f
    refine ⟨linked.count, ?_⟩
    rw [modNode_of_ne _ _ other]
    exact linked.pending
  rw [TimerWheel.finish]
  split_ifs
  · exact (kept _).internalAddTimer_of_ne other
  · exact kept _
  · exact linked

/-- In every wheel that a run reaches a node is linked in at most one bucket. -/
theorem exists_at_exec (op : WheelOp) (linked : ∃ place, w.At n place) :
    ∃ place, (w.exec op).At n place := by
  obtain ⟨place, linked⟩ := linked
  by_cases ticks : op = .tick
  · rw [ticks]
    exact ⟨_, linked.tick.2.1⟩
  by_cases named : op.node = some n
  · cases op with
    | tick => exact absurd rfl ticks
    | add m ms =>
      cases named
      exact ⟨_, (linked.arm (.inl rfl)).1⟩
    | mod m ms =>
      cases named
      exact ⟨_, (linked.arm (.inr rfl)).1⟩
    | del m =>
      cases named
      exact ⟨none, linked.timerDel⟩
  · exact ⟨place, (linked.exec_of_ne named ticks).1⟩

theorem at_timerWheelCreate {tickMs : UInt32} {jiffies : UInt64}
    (created : timerWheelCreate tickMs jiffies = some w) (n : NodeId) :
    w.At n none ∧ w.expiredList = [] ∧ tickMs ≠ 0 ∧ w.tickMs = tickMs := by
  rw [timerWheelCreate] at created
  split at created
  · cases created
  · rename_i positive
    cases created
    exact ⟨⟨fun _ => rfl, rfl⟩, rfl, positive, rfl⟩

end TimerWheel

/-! ## The tick on which a node expires

`T` and `E` are the clock and the expiry of a node without the wrap of 64 bits, and `F` the tick
on which the node does expire. -/

/-- The number of ticks that one bucket of a level covers. -/
def Level.unit : Level → Nat
  | .tv1 => 1
  | .tv2 => 256
  | .tv3 => 16384
  | .tv4 => 1048576
  | .tv5 => 67108864

/-- A near node lies in the bucket of its tick; a far one in a bucket that is cascaded when the
first tick it covers comes, before any other of the same index. -/
inductive Placed (T E F : Nat) : Bucket → Prop
  | near (later : T < F) (soon : F < T + 256) : Placed T E F ⟨.tv1, F % 256⟩
  | far {level : Level} (coarse : level ≠ .tv1) (later : T < E / level.unit * level.unit)
      (round : E / level.unit * level.unit ≤ T + 64 * level.unit)
      (fires : F = if E % 256 = 0 then E + 1 else E) :
      Placed T E F ⟨level, E / level.unit % 64⟩

/-- The tick on which a node placed at the time `T` expires. -/
def firesAt (T E : Nat) : Nat :=
  if E = T then T + 1 else if 256 ≤ E - T ∧ E % 256 = 0 then E + 1 else E

section Ticks

variable {jiffies expires : UInt64} {T E F : Nat} {b : Bucket}

theorem indexOf_tv1 (clock : jiffies.toNat = T % 2 ^ 64) :
    TimerWheel.indexOf jiffies .tv1 = T % 256 := by
  have mask : wheelTvrMask.toNat = 2 ^ 8 - 1 := rfl
  rw [TimerWheel.indexOf, UInt64.toNat_and, mask, Nat.and_two_pow_sub_one_eq_mod, clock]
  omega

theorem shifted (clock : jiffies.toNat = T % 2 ^ 64) (s : UInt64) (k : Nat)
    (amount : s.toNat = k) (small : k + 6 ≤ 64) :
    ((jiffies >>> s) &&& wheelTvnMask).toNat = T / 2 ^ k % 64 := by
  have mask : wheelTvnMask.toNat = 2 ^ 6 - 1 := rfl
  rw [UInt64.toNat_and, mask, Nat.and_two_pow_sub_one_eq_mod, UInt64.toNat_shiftRight, amount,
    Nat.mod_eq_of_lt (show k < 64 by omega), Nat.shiftRight_eq_div_pow, clock]
  have divides : 2 ^ k * 2 ^ 6 ∣ 2 ^ 64 := by
    rw [← pow_add]
    exact pow_dvd_pow 2 small
  calc T % 2 ^ 64 / 2 ^ k % 2 ^ 6
      = T % 2 ^ 64 % (2 ^ k * 2 ^ 6) / 2 ^ k := (Nat.mod_mul_right_div_self ..).symm
    _ = T % (2 ^ k * 2 ^ 6) / 2 ^ k := by rw [Nat.mod_mod_of_dvd _ divides]
    _ = T / 2 ^ k % 64 := Nat.mod_mul_right_div_self ..

theorem indexOf_eq (clock : jiffies.toNat = T % 2 ^ 64) {level : Level} (coarse : level ≠ .tv1) :
    TimerWheel.indexOf jiffies level = T / level.unit % 64 := by
  cases level with
  | tv1 => exact absurd rfl coarse
  | tv2 => exact shifted clock 8 8 rfl (by decide)
  | tv3 => exact shifted clock 14 14 rfl (by decide)
  | tv4 => exact shifted clock 20 20 rfl (by decide)
  | tv5 => exact shifted clock 26 26 rfl (by decide)

/-- The bucket of a node that expires within 2^32 ticks. -/
theorem vecFor_eq (clock : jiffies.toNat = T % 2 ^ 64) (due : expires.toNat = E % 2 ^ 64)
    (later : T ≤ E) (bound : E < T + 2 ^ 32) :
    vecFor jiffies expires =
      if E = T then ⟨.tv1, (T + 1) % 256⟩
      else if E - T < 256 then ⟨.tv1, E % 256⟩
      else if E - T < 16384 then ⟨.tv2, E / 256 % 64⟩
      else if E - T < 1048576 then ⟨.tv3, E / 16384 % 64⟩
      else if E - T < 67108864 then ⟨.tv4, E / 1048576 % 64⟩
      else ⟨.tv5, E / 67108864 % 64⟩ := by
  have distance : (expires - jiffies).toNat = E - T := by
    rw [UInt64.toNat_sub, clock, due]
    omega
  have idx : (expires - jiffies).toBitVec.toInt = ((E - T : Nat) : Int) := by
    rw [BitVec.toInt_eq_toNat_of_lt]
    · exact congrArg Nat.cast distance
    · change 2 * (expires - jiffies).toNat < 2 ^ 64
      omega
  have next : (jiffies + 1).toNat = (T + 1) % 2 ^ 64 := by
    rw [UInt64.toNat_add, clock]
    exact Nat.mod_add_mod ..
  have first : ((jiffies + 1) &&& wheelTvrMask).toNat = (T + 1) % 256 := indexOf_tv1 next
  have low : (expires &&& wheelTvrMask).toNat = E % 256 := indexOf_tv1 due
  have zero : ((E - T : Nat) : Int) ≤ 0 ↔ E = T := by omega
  have below : ∀ k : Nat, ((E - T : Nat) : Int) < k ↔ E - T < k := fun k => Int.ofNat_lt
  rw [vecFor, idx, first, low, shifted due 8 8 rfl (by decide), shifted due 14 14 rfl (by decide),
    shifted due 20 20 rfl (by decide), shifted due 26 26 rfl (by decide)]
  simp only [zero]
  have h1 := below 256
  have h2 := below 16384
  have h3 := below 1048576
  have h4 := below 67108864
  push_cast at h1 h2 h3 h4
  simp only [h1, h2, h3, h4]
  rfl

/-- A node goes to the next tick, to its own tick, or to a coarse bucket whose first tick is yet to
come and comes before the level is round again. -/
theorem vecFor_cases (clock : jiffies.toNat = T % 2 ^ 64) (due : expires.toNat = E % 2 ^ 64)
    (later : T ≤ E) (bound : E < T + 2 ^ 32) :
    (E = T ∧ vecFor jiffies expires = ⟨.tv1, (T + 1) % 256⟩) ∨
    (T < E ∧ E < T + 256 ∧ vecFor jiffies expires = ⟨.tv1, E % 256⟩) ∨
    ∃ level, level ≠ Level.tv1 ∧ T + 256 ≤ E ∧ T < E / level.unit * level.unit ∧
      E / level.unit * level.unit ≤ T + 64 * level.unit ∧
      vecFor jiffies expires = ⟨level, E / level.unit % 64⟩ := by
  rw [vecFor_eq clock due later bound]
  by_cases now : E = T
  · exact .inl ⟨now, if_pos now⟩
  rw [if_neg now]
  by_cases soon : E - T < 256
  · exact .inr (.inl ⟨by omega, by omega, if_pos soon⟩)
  rw [if_neg soon]
  right
  right
  clear clock due
  split
  · exact ⟨.tv2, by decide, by omega, by simp only [Level.unit]; omega,
      by simp only [Level.unit]; omega, rfl⟩
  split
  · exact ⟨.tv3, by decide, by omega, by simp only [Level.unit]; omega,
      by simp only [Level.unit]; omega, rfl⟩
  split
  · exact ⟨.tv4, by decide, by omega, by simp only [Level.unit]; omega,
      by simp only [Level.unit]; omega, rfl⟩
  · exact ⟨.tv5, by decide, by omega, by simp only [Level.unit]; omega,
      by simp only [Level.unit]; omega, rfl⟩

theorem placed_vecFor (clock : jiffies.toNat = T % 2 ^ 64) (due : expires.toNat = E % 2 ^ 64)
    (later : T ≤ E) (bound : E < T + 2 ^ 32) :
    Placed T E (firesAt T E) (vecFor jiffies expires) := by
  rw [firesAt]
  rcases vecFor_cases clock due later bound with
    ⟨now, vec⟩ | ⟨after, soon, vec⟩ | ⟨level, coarse, distant, first, round, vec⟩
  · rw [if_pos now, vec, ← now]
    exact .near (by omega) (by omega)
  · rw [if_neg (by omega), if_neg (by omega), vec]
    exact .near after soon
  · rw [if_neg (by omega), vec]
    apply Placed.far coarse first round
    congr 1
    simp only [eq_iff_iff, and_iff_right_iff_imp]
    omega

/-- The tick to `T` cascades the bucket whose first tick is `T`. -/
theorem mem_cascaded_iff (clock : jiffies.toNat = T % 2 ^ 64) :
    b ∈ TimerWheel.cascaded jiffies ↔
      b.level ≠ .tv1 ∧ T % b.level.unit = 0 ∧ b.index = T / b.level.unit % 64 := by
  have index := @indexOf_eq _ _ clock
  rw [TimerWheel.cascaded, indexOf_tv1 clock, index (by decide), index (by decide),
    index (by decide), index (by decide)]
  rcases b with ⟨level, i⟩
  have second : T / Level.tv2.unit % 64 = 0 ∧ T % 256 = 0 ↔ T % Level.tv3.unit = 0 := by
    simp only [Level.unit]
    omega
  have third : T / Level.tv3.unit % 64 = 0 ∧ T % Level.tv3.unit = 0 ↔ T % Level.tv4.unit = 0 := by
    simp only [Level.unit]
    omega
  have fourth :
      T / Level.tv4.unit % 64 = 0 ∧ T % Level.tv4.unit = 0 ↔ T % Level.tv5.unit = 0 := by
    simp only [Level.unit]
    omega
  clear clock index
  cases level with
  | tv1 => split_ifs <;> simp
  | tv2 => split_ifs <;> simp_all [Level.unit]
  | tv3 => split_ifs <;> simp_all
  | tv4 => split_ifs <;> simp_all
  | tv5 => split_ifs <;> simp_all

/-- A bucket whose first tick is later than `T` is not cascaded on `T`. -/
theorem not_first {T E : Nat} {level : Level} (coarse : level ≠ .tv1)
    (later : T < E / level.unit * level.unit)
    (round : E / level.unit * level.unit < T + 64 * level.unit) (first : T % level.unit = 0) :
    E / level.unit % 64 ≠ T / level.unit % 64 := by
  cases level with
  | tv1 => exact absurd rfl coarse
  | tv2 | tv3 | tv4 | tv5 =>
    simp only [Level.unit] at later round first ⊢
    omega

/-- A coarse bucket is left on its first tick, and not before. -/
theorem settle_coarse (clock : jiffies.toNat = (T + 1) % 2 ^ 64) {level : Level}
    (coarse : level ≠ .tv1) (later : T < E / level.unit * level.unit)
    (round : E / level.unit * level.unit ≤ T + 64 * level.unit) :
    (T + 1 ≤ E ∧ E < T + 1 + 2 ^ 32 ∧ (T + 1) % 256 = 0 ∧
      TimerWheel.settle jiffies expires ⟨level, E / level.unit % 64⟩ = vecFor jiffies expires) ∨
    (T + 1 < E / level.unit * level.unit ∧
      TimerWheel.settle jiffies expires ⟨level, E / level.unit % 64⟩ =
        ⟨level, E / level.unit % 64⟩) := by
  have cascaded := @mem_cascaded_iff _ _ ⟨level, E / level.unit % 64⟩ clock
  rw [TimerWheel.settle]
  by_cases first : E / level.unit * level.unit = T + 1
  · have here : T + 1 ≤ E ∧ E < T + 1 + 2 ^ 32 ∧ (T + 1) % level.unit = 0 ∧
        (T + 1) % 256 = 0 ∧ E / level.unit = (T + 1) / level.unit := by
      cases level with
      | tv1 => exact absurd rfl coarse
      | tv2 | tv3 | tv4 | tv5 =>
        simp only [Level.unit] at first ⊢
        omega
    obtain ⟨reached, bound, start, whole, same⟩ := here
    rw [if_pos (cascaded.mpr ⟨coarse, start, by rw [same]⟩)]
    exact .inl ⟨reached, bound, whole, rfl⟩
  · rw [if_neg fun here => ?_]
    · exact .inr ⟨by omega, rfl⟩
    · obtain ⟨-, start, index⟩ := cascaded.mp here
      exact not_first coarse (by omega) (by omega) start index

theorem settle_tv1 (clock : jiffies.toNat = T % 2 ^ 64) (i : Nat) :
    TimerWheel.settle jiffies expires ⟨.tv1, i⟩ = ⟨.tv1, i⟩ :=
  if_neg fun here => ((mem_cascaded_iff clock).mp here).1 rfl

/-- A tick either expires the node, which then lies in the bucket of the tick, or leaves it in a
place for the same tick as before. -/
theorem Placed.settle (clock : jiffies.toNat = (T + 1) % 2 ^ 64)
    (due : expires.toNat = E % 2 ^ 64) (placed : Placed T E F b) :
    F = T + 1 ∧ TimerWheel.settle jiffies expires b = ⟨.tv1, (T + 1) % 256⟩ ∨
      Placed (T + 1) E F (TimerWheel.settle jiffies expires b) := by
  cases placed with
  | near later soon =>
    rw [settle_tv1 clock]
    rcases Nat.lt_or_eq_of_le (Nat.succ_le_of_lt later) with more | now
    · exact .inr (.near more (by omega))
    · exact .inl ⟨now.symm, by rw [← now]⟩
  | @far level coarse later round fires =>
    right
    rcases @settle_coarse _ expires _ _ clock _ coarse later round with
      ⟨reached, bound, whole, moved⟩ | ⟨more, stays⟩
    · have again := placed_vecFor clock due reached bound
      have fires' : firesAt (T + 1) E = F := by
        rw [firesAt, fires]
        split_ifs <;> omega
      rw [fires'] at again
      rw [moved]
      exact again
    · rw [stays]
      exact .far coarse more (by omega) fires

end Ticks

/-! ## Runs -/

section Runs

variable {w : TimerWheel} {n : NodeId} {T E F : Nat}

/-- The node expires on tick `F`: it lies in a place for that tick or, from then on, in none. -/
structure TimerWheel.Due (w : TimerWheel) (n : NodeId) (T E F : Nat) : Prop where
  clock : w.jiffies.toNat = T % 2 ^ 64
  expires : (w.nodes n).expires.toNat = E % 2 ^ 64
  place : (∃ b, w.At n (some b) ∧ Placed T E F b) ∨ F ≤ T ∧ w.At n none

theorem Placed.lt {b : Bucket} (placed : Placed T E F b) : T < F := by
  cases placed with
  | near later soon => exact later
  | @far level coarse later round fires =>
    have below : E / level.unit * level.unit ≤ E := Nat.div_mul_le_self ..
    rw [fires]
    split_ifs <;> omega

theorem Placed.ne {b : Bucket} (placed : Placed T E F b) : b ≠ ⟨.tv1, T % 256⟩ := by
  cases placed with
  | near later soon =>
    intro same
    have index := congrArg Bucket.index same
    dsimp only at index
    omega
  | far coarse later round fires =>
    intro same
    exact coarse (congrArg Bucket.level same)

theorem TimerWheel.Due.tick (due : w.Due n T E F) :
    w.tick.Due n (T + 1) E F ∧ w.expiring.count n = if F = T + 1 then 1 else 0 := by
  have next : (w.jiffies + 1).toNat = (T + 1) % 2 ^ 64 := by
    rw [UInt64.toNat_add, due.clock]
    exact Nat.mod_add_mod ..
  have bucket := indexOf_tv1 next
  rcases due.place with ⟨b, linked, placed⟩ | ⟨past, linked⟩
  · obtain ⟨count, moved, jiffies, expires⟩ := linked.tick
    rw [Option.map_some, bucket] at count moved
    rcases placed.settle next due.expires with ⟨now, here⟩ | later
    · rw [here] at count moved
      rw [count, if_pos rfl, if_pos now]
      refine ⟨⟨jiffies ▸ next, expires ▸ due.expires, .inr ⟨now.le, ?_⟩⟩, rfl⟩
      rw [Option.filter_some, if_neg (by simp)] at moved
      exact moved
    · have apart := later.ne
      rw [count, if_neg fun same => apart (Option.some.inj same), if_neg (by have := later.lt; omega)]
      refine ⟨⟨jiffies ▸ next, expires ▸ due.expires, .inl ⟨_, ?_, later⟩⟩, rfl⟩
      rw [Option.filter_some, if_pos (decide_eq_true apart)] at moved
      exact moved
  · obtain ⟨count, moved, jiffies, expires⟩ := linked.tick
    rw [count, if_neg (by simp), if_neg (by omega)]
    exact ⟨⟨jiffies ▸ next, expires ▸ due.expires, .inr ⟨by omega, moved⟩⟩, rfl⟩

theorem TimerWheel.Due.run (due : w.Due n T E F) {after : List WheelOp}
    (untouched : ∀ op ∈ after, op.node ≠ some n) : (w.run after).Due n (T + ticks after) E F := by
  induction after generalizing w T with
  | nil => exact due
  | cons op after ih =>
    have rest : ∀ op ∈ after, op.node ≠ some n := fun o mem =>
      untouched o (List.mem_cons_of_mem _ mem)
    by_cases ticking : op = .tick
    · have counted : T + ticks (op :: after) = T + 1 + ticks after := by
        rw [ticking, ticks, List.countP_cons]
        change T + (ticks after + 1) = _
        omega
      rw [counted, ticking]
      exact ih due.tick.1 rest
    · have counted : ticks (op :: after) = ticks after := by
        rw [ticks, List.countP_cons_of_neg]
        · rfl
        · cases op <;> simp_all
      have still := fun {place} (linked : w.At n place) =>
        linked.exec_of_ne (untouched op List.mem_cons_self) ticking
      rw [counted]
      refine ih ?_ rest
      rcases due.place with ⟨b, linked, placed⟩ | ⟨past, linked⟩
      · obtain ⟨kept, jiffies, expires⟩ := still linked
        exact ⟨jiffies ▸ due.clock, expires ▸ due.expires, .inl ⟨b, kept, placed⟩⟩
      · obtain ⟨kept, jiffies, expires⟩ := still linked
        exact ⟨jiffies ▸ due.clock, expires ▸ due.expires, .inr ⟨past, kept⟩⟩

theorem ceilDiv_eq {m t : Nat} (pos : 0 < t) :
    m ⌈/⌉ t = m / t + if m % t ≠ 0 then 1 else 0 := by
  have parts := Nat.div_add_mod' m t
  have below := Nat.mod_lt m pos
  rw [Nat.ceilDiv_eq_add_pred_div, Nat.div_eq_iff pos, Nat.add_mul]
  split_ifs <;> omega

/-- The rounded quotient of two `unsigned int`s. -/
theorem delayTicks_toNat {tickMs : UInt32} (positive : tickMs ≠ 0) (expiresMs : UInt32) :
    (TimerWheel.delayTicks tickMs expiresMs).toNat = expiresMs.toNat ⌈/⌉ tickMs.toNat ∧
      expiresMs.toNat ⌈/⌉ tickMs.toNat < 2 ^ 32 := by
  have pos : 0 < tickMs.toNat :=
    Nat.pos_of_ne_zero fun zero => positive (UInt32.toNat_inj.mp zero)
  have small : expiresMs.toNat < 2 ^ 32 := expiresMs.toNat_lt
  have remainder : expiresMs % tickMs = 0 ↔ expiresMs.toNat % tickMs.toNat = 0 := by
    rw [← UInt32.toNat_inj, UInt32.toNat_mod]
    rfl
  have rounds : (expiresMs > 0 ∧ expiresMs % tickMs ≠ 0) ↔
      expiresMs.toNat % tickMs.toNat ≠ 0 := by
    rw [ne_eq, remainder]
    refine ⟨And.right, fun some => ⟨?_, some⟩⟩
    refine UInt32.lt_iff_toNat_lt.mpr (Nat.pos_of_ne_zero fun zero => some ?_)
    rw [zero, Nat.zero_mod]
  have parts := Nat.div_add_mod' expiresMs.toNat tickMs.toNat
  have quotient : expiresMs.toNat / tickMs.toNat ≤ expiresMs.toNat / tickMs.toNat * tickMs.toNat :=
    Nat.le_mul_of_pos_right _ pos
  rw [TimerWheel.delayTicks, UInt64.toNat_add, UInt32.toNat_toUInt64, UInt32.toNat_div,
    ceilDiv_eq pos]
  simp only [rounds]
  generalize expiresMs.toNat / tickMs.toNat = q at parts quotient ⊢
  split_ifs
  · rw [UInt64.toNat_one]
    omega
  · rw [UInt64.toNat_zero]
    omega

theorem TimerWheel.tickMs_exec (w : TimerWheel) (op : WheelOp) : (w.exec op).tickMs = w.tickMs := by
  have folded : ∀ (list : List NodeId) (v : TimerWheel),
      (list.foldl internalAddTimer v).tickMs = v.tickMs := by
    intro list
    induction list with
    | nil => exact fun v => rfl
    | cons m list ih => exact fun v => ih (v.internalAddTimer m)
  have cascades : ∀ (cs : List Bucket) (v : TimerWheel),
      (cs.foldl (fun w b => w.cascade b.level b.index) v).tickMs = v.tickMs := by
    intro cs
    induction cs with
    | nil => exact fun v => rfl
    | cons c cs ih => exact fun v => (ih _).trans (folded _ _)
  cases op with
  | add n ms =>
    obtain ⟨node, -, eq⟩ := exec_arm w (.inl rfl : WheelOp.add n ms = .add n ms ∨ _)
    rw [eq]
    rfl
  | mod n ms =>
    obtain ⟨node, -, eq⟩ := exec_arm w (.inr rfl : _ ∨ WheelOp.mod n ms = .mod n ms)
    rw [eq]
    rfl
  | del n =>
    rw [exec, timerDel]
    split <;> rfl
  | tick =>
    change w.advance.tickMs = w.tickMs
    rw [advance_eq]
    exact cascades _ _

theorem TimerWheel.tickMs_run (w : TimerWheel) (ops : List WheelOp) :
    (w.run ops).tickMs = w.tickMs := by
  induction ops generalizing w with
  | nil => rfl
  | cons op ops ih => exact (ih (w.exec op)).trans (tickMs_exec w op)

/-- Arming a node at time `J` with a delay of `D` ticks. -/
theorem TimerWheel.due_exec {op : WheelOp} {expiresMs : UInt32} {place : Option Bucket}
    (linked : w.At n place) (positive : w.tickMs ≠ 0)
    (arms : op = .add n expiresMs ∨ op = .mod n expiresMs) :
    (w.exec op).Due n w.jiffies.toNat
      (w.jiffies.toNat + expiresMs.toNat ⌈/⌉ w.tickMs.toNat)
      (firesAt w.jiffies.toNat (w.jiffies.toNat + expiresMs.toNat ⌈/⌉ w.tickMs.toNat)) := by
  obtain ⟨set, jiffies, expires⟩ := linked.arm arms
  obtain ⟨delay, bound⟩ := delayTicks_toNat positive expiresMs
  have clock : w.jiffies.toNat = w.jiffies.toNat % 2 ^ 64 :=
    (Nat.mod_eq_of_lt w.jiffies.toNat_lt).symm
  have due : (w.jiffies + delayTicks w.tickMs expiresMs).toNat =
      (w.jiffies.toNat + expiresMs.toNat ⌈/⌉ w.tickMs.toNat) % 2 ^ 64 := by
    rw [UInt64.toNat_add, delay]
  refine ⟨jiffies ▸ clock, expires ▸ due, .inl ⟨_, set, ?_⟩⟩
  exact placed_vecFor clock due (Nat.le_add_right ..) (by omega)

theorem TimerWheel.expiredList_exec (w : TimerWheel) {op : WheelOp} (still : op ≠ .tick) :
    (w.exec op).expiredList = w.expiredList := by
  cases op with
  | add n ms =>
    obtain ⟨node, -, eq⟩ := exec_arm w (.inl rfl : WheelOp.add n ms = .add n ms ∨ _)
    rw [eq]
    rfl
  | mod n ms =>
    obtain ⟨node, -, eq⟩ := exec_arm w (.inr rfl : _ ∨ WheelOp.mod n ms = .mod n ms)
    rw [eq]
    rfl
  | del n =>
    rw [exec, timerDel]
    split <;> rfl
  | tick => exact absurd rfl still

/-- A run that leaves the node alone brings it to the expired list on its tick. -/
theorem TimerWheel.Due.mem_expiredList_run (due : w.Due n T E F)
    (expired : n ∈ w.expiredList ↔ F ≤ T) {after : List WheelOp}
    (untouched : ∀ op ∈ after, op.node ≠ some n) :
    n ∈ (w.run after).expiredList ↔ F ≤ T + ticks after := by
  induction after generalizing w T with
  | nil => exact expired
  | cons op after ih =>
    have once : ∀ o ∈ [op], o.node ≠ some n := fun o mem =>
      untouched o (List.mem_cons.mpr (.inl (List.mem_singleton.mp mem)))
    have rest : ∀ o ∈ after, o.node ≠ some n := fun o mem =>
      untouched o (List.mem_cons_of_mem _ mem)
    have counted : T + ticks (op :: after) = T + ticks [op] + ticks after := by
      rw [ticks, ← List.singleton_append, List.countP_append, ← Nat.add_assoc]
      rfl
    rw [counted]
    refine ih (due.run once) ?_ rest
    by_cases ticking : op = .tick
    · subst ticking
      have arrives : n ∈ w.expiring ↔ F = T + 1 := by
        rw [← List.count_pos_iff, due.tick.2]
        split <;> simp_all
      change n ∈ w.expiring ++ w.expiredList ↔ F ≤ T + 1
      rw [List.mem_append, arrives, expired]
      omega
    · have quiet : ticks [op] = 0 := by
        cases op with
        | tick => exact absurd rfl ticking
        | _ => rfl
      change n ∈ (w.exec op).expiredList ↔ _
      rw [quiet, expiredList_exec w ticking]
      exact expired

/-- The tick after a run that leaves the node alone moves it iff it is the tick of the node. -/
theorem TimerWheel.moves_iff {op : WheelOp} {expiresMs : UInt32} {place : Option Bucket}
    (linked : w.At n place) (positive : w.tickMs ≠ 0)
    (arms : op = .add n expiresMs ∨ op = .mod n expiresMs) (fresh : n ∉ w.expiredList)
    {after : List WheelOp} (untouched : ∀ op ∈ after, op.node ≠ some n) :
    n ∉ ((w.exec op).run after).expiredList ∧ n ∈ ((w.exec op).run after).tick.expiredList ↔
      firesAt w.jiffies.toNat (w.jiffies.toNat + expiresMs.toNat ⌈/⌉ w.tickMs.toNat) =
        w.jiffies.toNat + ticks after + 1 := by
  have due := TimerWheel.due_exec linked positive arms
  have still : op ≠ .tick := by
    rcases arms with rfl | rfl <;> exact fun same => by cases same
  have later : w.jiffies.toNat < firesAt w.jiffies.toNat
      (w.jiffies.toNat + expiresMs.toNat ⌈/⌉ w.tickMs.toNat) := by
    rw [firesAt]
    split_ifs <;> omega
  have early : n ∈ (w.exec op).expiredList ↔
      firesAt w.jiffies.toNat (w.jiffies.toNat + expiresMs.toNat ⌈/⌉ w.tickMs.toNat) ≤
        w.jiffies.toNat := by
    rw [TimerWheel.expiredList_exec w still]
    exact iff_of_false fresh (by omega)
  have before := due.mem_expiredList_run early untouched
  have ticking : ∀ o ∈ [WheelOp.tick], o.node ≠ some n := by simp [WheelOp.node]
  have next : n ∈ ((w.exec op).run after).tick.expiredList ↔ _ :=
    (due.run untouched).mem_expiredList_run before ticking
  rw [before, next]
  change _ ∧ _ ≤ _ + 1 ↔ _
  omega

theorem TimerWheel.jiffies_exec (w : TimerWheel) (op : WheelOp) :
    (w.exec op).jiffies = w.jiffies + .ofNat (ticks [op]) := by
  cases op with
  | tick =>
    have cascades : ∀ (cs : List Bucket) (v : TimerWheel),
        (cs.foldl (fun w b => w.cascade b.level b.index) v).jiffies = v.jiffies := by
      intro cs
      induction cs with
      | nil => exact fun v => rfl
      | cons c cs ih => exact fun v => (ih _).trans (jiffies_cascade v c.level c.index)
    change w.advance.jiffies = w.jiffies + 1
    rw [advance_eq]
    exact cascades _ _
  | add n ms =>
    obtain ⟨node, -, eq⟩ := exec_arm w (.inl rfl : WheelOp.add n ms = .add n ms ∨ _)
    rw [eq]
    exact (UInt64.add_zero _).symm
  | mod n ms =>
    obtain ⟨node, -, eq⟩ := exec_arm w (.inr rfl : _ ∨ WheelOp.mod n ms = .mod n ms)
    rw [eq]
    exact (UInt64.add_zero _).symm
  | del n =>
    rw [exec, timerDel]
    split <;> exact (UInt64.add_zero _).symm

/-- The clock counts the ticks, without those that its 64 bits lose. -/
theorem TimerWheel.jiffies_run (w : TimerWheel) (ops : List WheelOp) :
    (w.run ops).jiffies.toNat = (w.jiffies.toNat + ticks ops) % 2 ^ 64 := by
  induction ops generalizing w with
  | nil => exact (Nat.mod_eq_of_lt w.jiffies.toNat_lt).symm
  | cons op ops ih =>
    have counted : ticks (op :: ops) = ticks [op] + ticks ops := by
      rw [ticks, ← List.singleton_append, List.countP_append]
      rfl
    have next := ih (w.exec op)
    rw [jiffies_exec, UInt64.toNat_add, UInt64.toNat_ofNat', Nat.add_mod_mod, Nat.mod_add_mod,
      Nat.add_assoc, ← counted] at next
    exact next

end Runs

end Rsvp
