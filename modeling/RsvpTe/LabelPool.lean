import Mathlib.Data.Finset.Basic
import RsvpTe.LabelMgr

/-!
# The pool as a finite set

`LabelRun` are the sequences of calls after `label_mgr_init`, each with the set of the labels that
were returned and not freed since.  `LabelMgr.Represents` is what ties the bitmap to that set; it
speaks of all its bits, those behind the last label included.
-/

namespace Rsvp

/-- A call of the label manager. -/
inductive LabelCall : Type
  | alloc
  | free (label : UInt32)
  deriving DecidableEq, Repr

namespace LabelCall

/-- The answer, 0 for a free, and the state after the call. -/
def run (m : LabelMgr) : LabelCall → UInt32 × LabelMgr
  | alloc => labelMgrAlloc m
  | free label => (0, labelMgrFree m label)

/-- The labels returned and not freed, after a call with this answer. -/
def update (live : Finset UInt32) (answer : UInt32) : LabelCall → Finset UInt32
  | alloc => if answer = 0 then live else insert answer live
  | free label => live.erase label

end LabelCall

/-- Sequences of calls after `label_mgr_init(min, max)`. -/
inductive LabelRun (min max : UInt32) : LabelMgr → Finset UInt32 → Prop
  | init : LabelRun min max (labelMgrInit min max true) ∅
  | call {m : LabelMgr} {live : Finset UInt32} (call : LabelCall) : LabelRun min max m live →
    LabelRun min max (call.run m).2 (call.update live (call.run m).1)

namespace LabelMgr

/-- The bits that are set are those of the live labels, all of the pool. -/
structure Represents (min max : UInt32) (m : LabelMgr) (live : Finset UInt32) : Prop where
  wf : m.Wf
  bounds : m.labelMin = min ∧ m.labelMax = max
  within : ∀ label ∈ live, m.labelInRange label = true
  bits : ∃ bits, m.labelBitmap = some bits ∧
    ∀ i, Bitmap.get bits i = true ↔ ∃ label ∈ live, m.index label = i

namespace Represents

variable {min max : UInt32} {m : LabelMgr} {live : Finset UInt32}

theorem inUse_iff (rep : m.Represents min max live) {label : UInt32} :
    m.InUse label ↔ label ∈ live := by
  obtain ⟨bits, held, set⟩ := rep.bits
  rw [inUse_iff_get held, set]
  constructor
  · rintro ⟨inside, other, mem, same⟩
    rwa [← eq_of_index_eq (rep.within other mem) inside same]
  · exact fun mem => ⟨rep.within label mem, label, mem, rfl⟩

theorem init (low : 1 ≤ min) (ordered : min ≤ max) (high : max < 1048576) :
    (labelMgrInit min max true).Represents min max ∅ := by
  refine ⟨(labelMgrInit_wf low ordered high).1, ⟨rfl, rfl⟩, fun label mem => ?_, _, rfl, fun i => ?_⟩
  · cases mem
  · rw [Bitmap.get_replicate_zero]
    constructor
    · intro set
      cases set
    · rintro ⟨label, mem, -⟩
      cases mem

/-- Another bitmap, and what it stands for. -/
theorem with_bits (rep : m.Represents min max live) {new : Bytes} {next : UInt32}
    {live' : Finset UInt32}
    (wf : ({ m with labelNext := next, labelBitmap := some new } : LabelMgr).Wf)
    (within : ∀ label ∈ live', m.labelInRange label = true)
    (set : ∀ i, Bitmap.get new i = true ↔ ∃ label ∈ live', m.index label = i) :
    ({ m with labelNext := next, labelBitmap := some new } : LabelMgr).Represents min max live' :=
  ⟨wf, rep.bounds, within, new, rfl, set⟩

/-- A free label is taken. -/
theorem take (rep : m.Represents min max live) {label : UInt32}
    (inside : m.labelInRange label = true) (free : ¬ m.InUse label) :
    (m.take label).Represents min max (insert label live) := by
  obtain ⟨bits, held, set⟩ := rep.bits
  have wf := (allocates_take rep.wf inside free).wf
  rw [LabelMgr.take, labelSetAllocated_eq held inside] at wf ⊢
  refine rep.with_bits wf (fun other mem => ?_) fun i => ?_
  · rcases Finset.mem_insert.mp mem with rfl | old
    · exact inside
    · exact rep.within other old
  · rw [Bitmap.get_set (index_lt rep.wf held inside), Bool.or_eq_true, decide_eq_true_iff, set]
    simp only [Finset.mem_insert, exists_eq_or_imp, @eq_comm Nat i]

/-- A label is given back, if it was out. -/
theorem free (rep : m.Represents min max live) (label : UInt32) :
    (labelMgrFree m label).Represents min max (live.erase label) := by
  by_cases used : m.InUse label
  · have inside := used.inRange
    obtain ⟨bits, held, set⟩ := rep.bits
    have wf := (labelMgrFree_spec rep.wf label).1
    rw [labelMgrFree_used held used] at wf ⊢
    refine rep.with_bits wf (fun other mem => rep.within other (Finset.mem_of_mem_erase mem))
      fun i => ?_
    rw [Bitmap.get_clear (index_lt rep.wf held inside), Bool.and_eq_true, decide_eq_true_iff, set]
    constructor
    · rintro ⟨away, other, mem, rfl⟩
      exact ⟨other, Finset.mem_erase.mpr ⟨fun same => away (same ▸ rfl), mem⟩, rfl⟩
    · rintro ⟨other, mem, rfl⟩
      obtain ⟨away, old⟩ := Finset.mem_erase.mp mem
      exact ⟨fun same => away (eq_of_index_eq (rep.within other old) inside same), other, old, rfl⟩
  · rw [labelMgrFree_unused used, Finset.erase_eq_of_notMem fun mem => used (rep.inUse_iff.mpr mem)]
    exact rep

theorem alloc (rep : m.Represents min max live) :
    (labelMgrAlloc m).2.Represents min max (LabelCall.alloc.update live (labelMgrAlloc m).1) := by
  rcases labelMgrAlloc_result rep.wf with ⟨none, -⟩ | ⟨label, inside, free, taken⟩
  · rw [none]
    exact rep
  · rw [taken, LabelCall.update, if_neg (rep.wf.ne_zero inside)]
    exact rep.take inside free

/-- What is handed out: a label of the pool that was not live, or 0 when all are. -/
theorem alloc_answer (rep : m.Represents min max live) :
    ((labelMgrAlloc m).1 = 0 ↔ ∀ label, min ≤ label → label ≤ max → label ∈ live) ∧
      ((labelMgrAlloc m).1 ≠ 0 → min ≤ (labelMgrAlloc m).1 ∧ (labelMgrAlloc m).1 ≤ max ∧
        (labelMgrAlloc m).1 ∉ live) := by
  obtain ⟨rfl, rfl⟩ := rep.bounds
  rcases labelMgrAlloc_result rep.wf with ⟨none, all⟩ | ⟨label, inside, free, taken⟩
  · rw [none]
    refine ⟨⟨fun _ label low high => ?_, fun _ => rfl⟩, fun pos => absurd rfl pos⟩
    exact rep.inUse_iff.mp (all label (decide_eq_true ⟨low, high⟩))
  · rw [taken]
    have absent : label ∉ live := fun mem => free (rep.inUse_iff.mpr mem)
    obtain ⟨low, high⟩ := of_decide_eq_true inside
    refine ⟨⟨fun zero => absurd zero (rep.wf.ne_zero inside), fun all => ?_⟩, fun _ =>
      ⟨low, high, absent⟩⟩
    exact absurd (all label low high) absent

end Represents

end LabelMgr

open LabelMgr

variable {min max : UInt32} {m : LabelMgr} {live : Finset UInt32}

theorem LabelRun.represents (low : 1 ≤ min) (ordered : min ≤ max) (high : max < 1048576)
    (run : LabelRun min max m live) : m.Represents min max live := by
  induction run with
  | init => exact .init low ordered high
  | call call _ ih =>
    cases call with
    | alloc => exact ih.alloc
    | free label => exact ih.free label

/-- After any sequence of calls the bits that are set are those of the live labels, an allocation
returns a label of the pool that is not live, or 0 exactly when all are, the cursor is in the pool,
and so is, in the bitmap, the octet of every label that gets past `label_in_range`. -/
theorem labelMgr_refines (low : 1 ≤ min) (ordered : min ≤ max) (high : max < 1048576)
    (run : LabelRun min max m live) :
    (∃ bits, m.labelBitmap = some bits ∧
      (∀ i, Bitmap.get bits i = true ↔ ∃ label ∈ live, label.toNat = min.toNat + i) ∧
      ∀ label, m.labelInRange label = true → m.index label / 8 < bits.length) ∧
    (∀ label ∈ live, min ≤ label ∧ label ≤ max) ∧
    ((labelMgrAlloc m).1 = 0 ↔ ∀ label, min ≤ label → label ≤ max → label ∈ live) ∧
    ((labelMgrAlloc m).1 ≠ 0 → min ≤ (labelMgrAlloc m).1 ∧ (labelMgrAlloc m).1 ≤ max ∧
      (labelMgrAlloc m).1 ∉ live) ∧
    min ≤ m.labelNext ∧ m.labelNext ≤ max := by
  have rep := run.represents low ordered high
  obtain ⟨zero, answer⟩ := rep.alloc_answer
  obtain ⟨bits, held, set⟩ := rep.bits
  have at' : ∀ label ∈ live, ∀ i, m.index label = i ↔ label.toNat = min.toNat + i := by
    intro label mem i
    have inside := rep.within label mem
    have above := (inRange_iff.mp inside).1
    rw [index_eq inside, rep.bounds.1] at *
    omega
  refine ⟨⟨bits, held, fun i => ?_, fun label => index_lt rep.wf held⟩, fun label mem => ?_, zero,
    answer, ?_, ?_⟩
  · rw [set]
    exact exists_congr fun label => and_congr_right fun mem => at' label mem i
  · have inside := of_decide_eq_true (rep.within label mem)
    rwa [rep.bounds.1, rep.bounds.2] at inside
  · exact rep.bounds.1 ▸ rep.wf.nextLow
  · exact rep.bounds.2 ▸ rep.wf.nextHigh

/-- A call, with the labels that are live after it. -/
def LabelCall.advance (s : LabelMgr × Finset UInt32) (call : LabelCall) :
    LabelMgr × Finset UInt32 :=
  ((call.run s.1).2, call.update s.2 (call.run s.1).1)

theorem LabelRun.calls (calls : List LabelCall) (run : LabelRun min max m live) :
    LabelRun min max (calls.foldl LabelCall.advance (m, live)).1
      (calls.foldl LabelCall.advance (m, live)).2 := by
  induction calls generalizing m live with
  | nil => exact run
  | cons call calls ih => exact ih (.call call run)

/-- All eleven labels are taken, so that the cursor wraps; the third is given back and taken again,
and then the second, which is behind the cursor, is given back. -/
def poolCalls : List LabelCall :=
  List.replicate 11 LabelCall.alloc ++ [.free 18, .alloc, .free 17]

theorem mem_pool {label : UInt32} (low : 16 ≤ label) (high : label ≤ 26) :
    label ∈ ({16, 17, 18, 19, 20, 21, 22, 23, 24, 25, 26} : Finset UInt32) := by
  simp only [Finset.mem_insert, Finset.mem_singleton, ← UInt32.toNat_inj]
  rw [UInt32.le_iff_toNat_le] at low high
  change 16 ≤ label.toNat at low
  change label.toNat ≤ 26 at high
  simp only [UInt32.reduceToNat]
  omega

theorem mem_pool_of_taken {label : UInt32}
    (inside : label ∈ ({16, 17, 18, 19, 20, 21, 22, 23, 24, 25, 26} : Finset UInt32))
    (fresh : label ∉ ({16, 18, 19, 20, 21, 22, 23, 24, 25, 26} : Finset UInt32)) : label = 17 := by
  simp only [Finset.mem_insert, Finset.mem_singleton] at inside fresh
  tauto

/-- The cursor is back at the label that was given back; then the scan wraps and finds none. -/
theorem labelMgr_refines_wrap :
    (labelMgrAlloc (poolCalls.foldl LabelCall.advance (labelMgrInit 16 26 true, ∅)).1).1 = 17 ∧
      (labelMgrAlloc ((poolCalls ++ [LabelCall.alloc]).foldl LabelCall.advance
        (labelMgrInit 16 26 true, ∅)).1).1 = 0 := by
  have first := LabelRun.calls poolCalls (.init : LabelRun 16 26 _ _)
  have second := LabelRun.calls (poolCalls ++ [LabelCall.alloc]) (.init : LabelRun 16 26 _ _)
  obtain ⟨-, -, full, answer, -⟩ := labelMgr_refines (by decide) (by decide) (by decide) first
  obtain ⟨-, -, empty, -⟩ := labelMgr_refines (by decide) (by decide) (by decide) second
  have live : (poolCalls.foldl LabelCall.advance (labelMgrInit 16 26 true, ∅)).2 =
      {16, 18, 19, 20, 21, 22, 23, 24, 25, 26} := by
    decide +kernel
  have live' : ((poolCalls ++ [LabelCall.alloc]).foldl LabelCall.advance
      (labelMgrInit 16 26 true, ∅)).2 = {16, 17, 18, 19, 20, 21, 22, 23, 24, 25, 26} := by
    decide +kernel
  rw [live] at full answer
  rw [live'] at empty
  constructor
  · have some : (labelMgrAlloc (poolCalls.foldl LabelCall.advance
        (labelMgrInit 16 26 true, ∅)).1).1 ≠ 0 := fun none =>
      absurd (full.mp none 17 (by decide) (by decide)) (by decide)
    obtain ⟨low, high, fresh⟩ := answer some
    have inside := mem_pool low high
    exact mem_pool_of_taken inside fresh
  · exact empty.mpr fun _ => mem_pool

end Rsvp
