import RsvpTe.Lib.Bitmap
import RsvpTe.Lib.Words

/-!
# The label manager (`label_mgr.c`)

A bitmap allocator: bit `idx % 8` of byte `idx / 8` tells whether label `label_min + idx` is
allocated, and a circular search from `label_next` finds the next free one.

`LabelMgr.Wf` is what `label_mgr_init` establishes; under it `labelIsAllocated` is a set of
labels that `labelMgrAlloc` extends by one and `labelMgrFree` shrinks by one.
-/

namespace Rsvp

/-- The module state; `labelBitmap` is `none` before `label_mgr_init` and when it ran out of
memory. -/
structure LabelMgr : Type where
  labelMin : UInt32
  labelMax : UInt32
  labelNext : UInt32
  labelBitmap : Option Bytes
  deriving DecidableEq, Repr

namespace LabelMgr

def labelInRange (m : LabelMgr) (label : UInt32) : Bool :=
  m.labelMin ≤ label ∧ label ≤ m.labelMax

/-- The bit index of a label. -/
def index (m : LabelMgr) (label : UInt32) : Nat := (label - m.labelMin).toNat

def labelIsAllocated (m : LabelMgr) (label : UInt32) : Bool :=
  match m.labelBitmap with
  | none => false
  | some bits =>
    if m.labelInRange label then
      (bits.getD (m.index label / 8) 0).toNat.testBit (m.index label % 8)
    else false

def labelSetAllocated (m : LabelMgr) (label : UInt32) : LabelMgr :=
  match m.labelBitmap with
  | none => m
  | some bits =>
    if m.labelInRange label then
      let old := bits.getD (m.index label / 8) 0
      let new := UInt8.ofNat (old.toNat ||| 2 ^ (m.index label % 8))
      { m with labelBitmap := some (bits.set (m.index label / 8) new) }
    else m

def labelClearAllocated (m : LabelMgr) (label : UInt32) : LabelMgr :=
  match m.labelBitmap with
  | none => m
  | some bits =>
    if m.labelInRange label then
      let old := bits.getD (m.index label / 8) 0
      let new := UInt8.ofNat (old.toNat &&& (255 ^^^ 2 ^ (m.index label % 8)))
      { m with labelBitmap := some (bits.set (m.index label / 8) new) }
    else m

/-- The number of labels of the pool. -/
def range (m : LabelMgr) : Nat := m.labelMax.toNat - m.labelMin.toNat + 1

/-- `label_next + offset`, wrapped at the end of the pool. -/
def candidate (m : LabelMgr) (offset : Nat) : UInt32 :=
  let label := m.labelNext + UInt32.ofNat offset
  if label > m.labelMax then m.labelMin + (label - m.labelMax - 1) else label

/-- The search loop of `label_mgr_alloc`, from `offset` on. -/
def allocFrom (m : LabelMgr) : Nat → Nat → UInt32 × LabelMgr
  | 0, _ => (0, m)
  | fuel + 1, offset =>
    let label := m.candidate offset
    if !m.labelIsAllocated label then
      let next := if label + 1 > m.labelMax then m.labelMin else label + 1
      (label, { m.labelSetAllocated label with labelNext := next })
    else m.allocFrom fuel (offset + 1)

end LabelMgr

/-- A fresh pool; `mem` tells whether `calloc` succeeded. -/
def labelMgrInit (min max : UInt32) (mem : Bool) : LabelMgr where
  labelMin := min
  labelMax := max
  labelNext := min
  labelBitmap :=
    if mem then some (List.replicate ((max.toNat - min.toNat + 1 + 7) / 8) 0) else none

/-- The label handed out, 0 when there is none. -/
def labelMgrAlloc (m : LabelMgr) : UInt32 × LabelMgr :=
  if m.labelBitmap = none ∨ m.labelMin > m.labelMax then (0, m) else m.allocFrom m.range 0

def labelMgrFree (m : LabelMgr) (label : UInt32) : LabelMgr :=
  if !m.labelInRange label then m
  else if !m.labelIsAllocated label then m
  else
    let cleared := m.labelClearAllocated label
    if label < m.labelNext then { cleared with labelNext := label } else cleared

/-! ## The bitmap is a set of labels -/

namespace LabelMgr

/-- The state after `label_mgr_init(min, max)` with `1 <= min <= max < 2^20`. -/
structure Wf (m : LabelMgr) : Prop where
  low : 1 ≤ m.labelMin
  ordered : m.labelMin ≤ m.labelMax
  high : m.labelMax < 1048576
  nextLow : m.labelMin ≤ m.labelNext
  nextHigh : m.labelNext ≤ m.labelMax
  bitmap : ∃ bits, m.labelBitmap = some bits ∧ bits.length = (m.range + 7) / 8

/-- The labels in use. -/
def InUse (m : LabelMgr) (label : UInt32) : Prop := m.labelIsAllocated label = true

variable {m : LabelMgr}

theorem inRange_iff {label : UInt32} :
    m.labelInRange label = true ↔ m.labelMin.toNat ≤ label.toNat ∧
      label.toNat ≤ m.labelMax.toNat := by
  simp only [labelInRange, decide_eq_true_eq, UInt32.le_iff_toNat_le]

theorem not_inUse {label : UInt32} : ¬ m.InUse label ↔ m.labelIsAllocated label = false :=
  Bool.not_eq_true _ ▸ Iff.rfl

theorem InUse.inRange {label : UInt32} (used : m.InUse label) : m.labelInRange label = true := by
  unfold InUse labelIsAllocated at used
  split at used
  · cases used
  · split at used
    · assumption
    · cases used

theorem index_eq {label : UInt32} (inside : m.labelInRange label = true) :
    m.index label = label.toNat - m.labelMin.toNat := by
  obtain ⟨low, -⟩ := inRange_iff.mp inside
  exact UInt32.toNat_sub_of_le _ _ (UInt32.le_iff_toNat_le.mpr low)

/-- The byte of a label of the pool is inside the bitmap. -/
theorem index_lt (wf : m.Wf) {bits : Bytes} (held : m.labelBitmap = some bits) {label : UInt32}
    (inside : m.labelInRange label = true) : m.index label / 8 < bits.length := by
  obtain ⟨bits', held', len⟩ := wf.bitmap
  rw [held] at held'
  cases held'
  obtain ⟨low, high⟩ := inRange_iff.mp inside
  rw [len, index_eq inside, range]
  omega

/-- Two labels of the pool have one bit only if they are one label. -/
theorem eq_of_index_eq {label other : UInt32} (inside : m.labelInRange label = true)
    (inside' : m.labelInRange other = true) (same : m.index label = m.index other) :
    label = other := by
  obtain ⟨low, -⟩ := inRange_iff.mp inside
  obtain ⟨low', -⟩ := inRange_iff.mp inside'
  rw [index_eq inside, index_eq inside'] at same
  apply UInt32.toNat_inj.mp
  omega

/-- A label is in use iff its bit is set. -/
theorem inUse_iff_get {bits : Bytes} (held : m.labelBitmap = some bits) {label : UInt32} :
    m.InUse label ↔ m.labelInRange label = true ∧ Bitmap.get bits (m.index label) = true := by
  rw [InUse, labelIsAllocated, held]
  dsimp only
  split
  · rename_i inside
    exact ⟨fun used => ⟨inside, used⟩, And.right⟩
  · rename_i outside
    constructor
    · intro unused
      cases unused
    · exact fun both => absurd both.1 outside

/-- The pool with another bitmap. -/
theorem inUse_with {new : Bytes} {next other : UInt32} :
    ({ m with labelNext := next, labelBitmap := some new } : LabelMgr).InUse other ↔
      m.labelInRange other = true ∧ Bitmap.get new (m.index other) = true :=
  inUse_iff_get rfl

theorem labelSetAllocated_eq {bits : Bytes} (held : m.labelBitmap = some bits) {label : UInt32}
    (inside : m.labelInRange label = true) :
    m.labelSetAllocated label =
      { m with labelBitmap := some (Bitmap.set bits (m.index label)) } := by
  rw [labelSetAllocated, held]
  exact if_pos inside

theorem labelClearAllocated_eq {bits : Bytes} (held : m.labelBitmap = some bits) {label : UInt32}
    (inside : m.labelInRange label = true) :
    m.labelClearAllocated label =
      { m with labelBitmap := some (Bitmap.clear bits (m.index label)) } := by
  rw [labelClearAllocated, held]
  exact if_pos inside

theorem labelSetAllocated_inUse (wf : m.Wf) {label : UInt32}
    (inside : m.labelInRange label = true) (other : UInt32) :
    (m.labelSetAllocated label).InUse other ↔ other = label ∨ m.InUse other := by
  obtain ⟨bits, held, -⟩ := wf.bitmap
  rw [labelSetAllocated_eq held inside, inUse_with, inUse_iff_get held,
    Bitmap.get_set (index_lt wf held inside), Bool.or_eq_true, decide_eq_true_iff]
  constructor
  · rintro ⟨inside', same | old⟩
    · exact .inl (eq_of_index_eq inside' inside same)
    · exact .inr ⟨inside', old⟩
  · rintro (rfl | ⟨inside', old⟩)
    · exact ⟨inside, .inl rfl⟩
    · exact ⟨inside', .inr old⟩

theorem labelClearAllocated_inUse (wf : m.Wf) {label : UInt32}
    (inside : m.labelInRange label = true) (other : UInt32) :
    (m.labelClearAllocated label).InUse other ↔ other ≠ label ∧ m.InUse other := by
  obtain ⟨bits, held, -⟩ := wf.bitmap
  rw [labelClearAllocated_eq held inside, inUse_with, inUse_iff_get held,
    Bitmap.get_clear (index_lt wf held inside), Bool.and_eq_true, decide_eq_true_iff]
  constructor
  · rintro ⟨inside', other', old⟩
    exact ⟨fun same => other' (same ▸ rfl), inside', old⟩
  · rintro ⟨other', inside', old⟩
    exact ⟨inside', fun same => other' (eq_of_index_eq inside' inside same), old⟩

/-- The pool bounds and the size of the bitmap survive a change of its bits and of the cursor. -/
theorem Wf.with (wf : m.Wf) {bits new : Bytes} (held : m.labelBitmap = some bits)
    (len : new.length = bits.length) {next : UInt32} (low : m.labelMin ≤ next)
    (high : next ≤ m.labelMax) :
    ({ m with labelNext := next, labelBitmap := some new } : LabelMgr).Wf := by
  obtain ⟨bits', held', len'⟩ := wf.bitmap
  rw [held] at held'
  cases held'
  exact ⟨wf.low, wf.ordered, wf.high, low, high, new, rfl, len.trans len'⟩

/-- `label` was free, belongs to the pool, and is the only label that `m'` adds. -/
structure Allocates (m : LabelMgr) (label : UInt32) (m' : LabelMgr) : Prop where
  inRange : m.labelInRange label = true
  free : ¬ m.InUse label
  wf : m'.Wf
  inUse : ∀ other, m'.InUse other ↔ other = label ∨ m.InUse other
  bounds : m'.labelMin = m.labelMin ∧ m'.labelMax = m.labelMax

theorem Wf.ne_zero (wf : m.Wf) {label : UInt32} (inside : m.labelInRange label = true) :
    label ≠ 0 := by
  rintro rfl
  obtain ⟨low, -⟩ := inRange_iff.mp inside
  have one := UInt32.le_iff_toNat_le.mp wf.low
  exact absurd (Nat.le_trans one low) (by decide)

/-- The search only looks at labels of the pool. -/
theorem candidate_inRange (wf : m.Wf) {offset : Nat} (inside : offset < m.range) :
    m.labelInRange (m.candidate offset) = true := by
  have ordered := UInt32.le_iff_toNat_le.mp wf.ordered
  have high : m.labelMax.toNat < 1048576 := UInt32.lt_iff_toNat_lt.mp wf.high
  have nextLow := UInt32.le_iff_toNat_le.mp wf.nextLow
  have nextHigh := UInt32.le_iff_toNat_le.mp wf.nextHigh
  rw [range] at inside
  have label : (m.labelNext + UInt32.ofNat offset).toNat = m.labelNext.toNat + offset := by
    rw [UInt32.toNat_add, UInt32.toNat_ofNat']
    omega
  rw [inRange_iff, candidate]
  split
  · rename_i beyond
    have beyond := UInt32.lt_iff_toNat_lt.mp beyond
    rw [label] at beyond
    have one : UInt32.toNat 1 = 1 := rfl
    have wrapped : (m.labelMin + (m.labelNext + UInt32.ofNat offset - m.labelMax - 1)).toNat =
        m.labelMin.toNat + (m.labelNext.toNat + offset - m.labelMax.toNat - 1) := by
      rw [UInt32.toNat_add, UInt32.toNat_sub_of_le, UInt32.toNat_sub_of_le, label, one]
      · omega
      · rw [UInt32.le_iff_toNat_le, label]
        omega
      · rw [UInt32.le_iff_toNat_le, UInt32.toNat_sub_of_le, label, one]
        · omega
        · rw [UInt32.le_iff_toNat_le, label]
          omega
    rw [wrapped]
    omega
  · rename_i inside'
    have inside' := UInt32.le_iff_toNat_le.mp (UInt32.not_lt.mp inside')
    rw [label] at inside' ⊢
    omega

/-- The search looks at every label of the pool. -/
theorem exists_candidate (wf : m.Wf) {label : UInt32} (inside : m.labelInRange label = true) :
    ∃ offset < m.range, m.candidate offset = label := by
  obtain ⟨low, high⟩ := inRange_iff.mp inside
  have bound : m.labelMax.toNat < 1048576 := UInt32.lt_iff_toNat_lt.mp wf.high
  have nextLow := UInt32.le_iff_toNat_le.mp wf.nextLow
  have nextHigh := UInt32.le_iff_toNat_le.mp wf.nextHigh
  -- A label before the cursor comes after the wrap.
  refine ⟨if m.labelNext.toNat ≤ label.toNat then label.toNat - m.labelNext.toNat
    else m.labelMax.toNat - m.labelNext.toNat + 1 + (label.toNat - m.labelMin.toNat), ?_, ?_⟩
  · rw [range]
    split <;> omega
  · have one : UInt32.toNat 1 = 1 := rfl
    have offset : ∀ k < 2 ^ 21, (m.labelNext + UInt32.ofNat k).toNat = m.labelNext.toNat + k := by
      intro k small
      rw [UInt32.toNat_add, UInt32.toNat_ofNat']
      omega
    apply UInt32.toNat_inj.mp
    rw [candidate]
    split
    · rename_i ahead
      have same := offset (label.toNat - m.labelNext.toNat) (by omega)
      rw [if_neg (by rw [gt_iff_lt, UInt32.lt_iff_toNat_lt, same]; omega), same]
      omega
    · rename_i behind
      have same := offset (m.labelMax.toNat - m.labelNext.toNat + 1 +
        (label.toNat - m.labelMin.toNat)) (by omega)
      rw [if_pos (by rw [gt_iff_lt, UInt32.lt_iff_toNat_lt, same]; omega), UInt32.toNat_add,
        UInt32.toNat_sub_of_le, UInt32.toNat_sub_of_le, same, one]
      · omega
      · rw [UInt32.le_iff_toNat_le, same]
        omega
      · rw [UInt32.le_iff_toNat_le, UInt32.toNat_sub_of_le, same, one]
        · omega
        · rw [UInt32.le_iff_toNat_le, same]
          omega

/-- The pool without `label`, with the cursor behind it. -/
def take (m : LabelMgr) (label : UInt32) : LabelMgr :=
  { m.labelSetAllocated label with
    labelNext := if label + 1 > m.labelMax then m.labelMin else label + 1 }

/-- Taking a free label of the pool. -/
theorem allocates_take (wf : m.Wf) {label : UInt32} (inside : m.labelInRange label = true)
    (free : ¬ m.InUse label) : m.Allocates label (m.take label) := by
  obtain ⟨bits, held, -⟩ := wf.bitmap
  obtain ⟨low, high⟩ := inRange_iff.mp inside
  have set := labelSetAllocated_inUse wf inside
  have update := labelSetAllocated_eq held inside
  refine ⟨inside, free, ?_, set, ?_⟩
  · rw [take, update]
    refine wf.with held (by simp) ?_ ?_
    · split
      · exact UInt32.le_refl _
      · rw [UInt32.le_iff_toNat_le, UInt32.toNat_add]
        have bound := UInt32.lt_iff_toNat_lt.mp wf.high
        have one : UInt32.toNat 1 = 1 := rfl
        have limit : UInt32.toNat 1048576 = 1048576 := rfl
        omega
    · split
      · exact wf.ordered
      · rename_i inside'
        exact UInt32.not_lt.mp inside'
  · rw [take, update]
    exact ⟨rfl, rfl⟩

/-- The search finds a free label, or every label it looked at is in use. -/
theorem allocFrom_cases (wf : m.Wf) (fuel offset : Nat) (inside : offset + fuel ≤ m.range) :
    (m.allocFrom fuel offset = (0, m) ∧
        ∀ i, offset ≤ i → i < offset + fuel → m.InUse (m.candidate i)) ∨
      ∃ label, m.labelInRange label = true ∧ ¬ m.InUse label ∧
        m.allocFrom fuel offset = (label, m.take label) := by
  induction fuel generalizing offset with
  | zero => exact .inl ⟨rfl, fun i low high => by omega⟩
  | succ fuel ih =>
    have candidate := candidate_inRange wf (show offset < m.range by omega)
    by_cases used : m.InUse (m.candidate offset)
    · have next : m.allocFrom (fuel + 1) offset = m.allocFrom fuel (offset + 1) := by
        rw [allocFrom]
        exact if_neg (by rw [show m.labelIsAllocated (m.candidate offset) = true from used]; decide)
      rw [next]
      rcases ih (offset + 1) (by omega) with ⟨none, all⟩ | found
      · refine .inl ⟨none, fun i low high => ?_⟩
        by_cases here : i = offset
        · rw [here]
          exact used
        · exact all i (by omega) (by omega)
      · exact .inr found
    · refine .inr ⟨_, candidate, used, ?_⟩
      rw [allocFrom]
      exact if_pos (by rw [not_inUse.mp used]; rfl)

end LabelMgr

open LabelMgr

/-- `label_mgr_alloc` takes a free label, or there is none. -/
theorem labelMgrAlloc_result {m : LabelMgr} (wf : m.Wf) :
    (labelMgrAlloc m = (0, m) ∧ ∀ label, m.labelInRange label = true → m.InUse label) ∨
      ∃ label, m.labelInRange label = true ∧ ¬ m.InUse label ∧
        labelMgrAlloc m = (label, m.take label) := by
  obtain ⟨bits, held, -⟩ := wf.bitmap
  have search : labelMgrAlloc m = m.allocFrom m.range 0 := by
    apply if_neg
    rintro (missing | empty)
    · rw [held] at missing
      cases missing
    · exact UInt32.not_lt.mpr wf.ordered empty
  rw [search]
  refine (allocFrom_cases wf m.range 0 (by omega)).imp_left fun full => ⟨full.1, ?_⟩
  intro label inside
  obtain ⟨offset, small, rfl⟩ := exists_candidate wf inside
  exact full.2 offset (Nat.zero_le offset) (by omega)

/-- `label_mgr_alloc` hands out a free label of the pool, or 0 and nothing changes. -/
theorem labelMgrAlloc_cases {m : LabelMgr} (wf : m.Wf) :
    labelMgrAlloc m = (0, m) ∨
      ∃ label m', labelMgrAlloc m = (label, m') ∧ m.Allocates label m' := by
  rcases labelMgrAlloc_result wf with ⟨none, -⟩ | ⟨label, inside, free, taken⟩
  · exact .inl none
  · exact .inr ⟨label, _, taken, allocates_take wf inside free⟩

/-- `label_mgr_free` ignores a label that is not in use. -/
theorem labelMgrFree_unused {m : LabelMgr} {label : UInt32} (unused : ¬ m.InUse label) :
    labelMgrFree m label = m := by
  unfold labelMgrFree
  split
  · rfl
  · exact if_pos (by rw [not_inUse.mp unused]; rfl)

/-- Of any other it clears the bit, and the cursor goes back to it. -/
theorem labelMgrFree_used {m : LabelMgr} {bits : Bytes} (held : m.labelBitmap = some bits)
    {label : UInt32} (used : m.InUse label) :
    labelMgrFree m label = { m with
      labelNext := if label < m.labelNext then label else m.labelNext
      labelBitmap := some (Bitmap.clear bits (m.index label)) } := by
  have update := labelClearAllocated_eq held used.inRange
  unfold labelMgrFree
  rw [if_neg (by rw [used.inRange]; decide),
    if_neg (by rw [show m.labelIsAllocated label = true from used]; decide), update]
  dsimp only
  split
  · rfl
  · rfl

/-- `label_mgr_free` gives back exactly its argument. -/
theorem labelMgrFree_spec {m : LabelMgr} (wf : m.Wf) (label : UInt32) :
    (labelMgrFree m label).Wf ∧
      (∀ other, (labelMgrFree m label).InUse other ↔ other ≠ label ∧ m.InUse other) ∧
      (labelMgrFree m label).labelMin = m.labelMin ∧
      (labelMgrFree m label).labelMax = m.labelMax := by
  by_cases used : m.InUse label
  case neg =>
    rw [labelMgrFree_unused used]
    refine ⟨wf, fun other => ⟨fun h => ⟨?_, h⟩, fun h => h.2⟩, rfl, rfl⟩
    rintro rfl
    exact used h
  have inside := used.inRange
  obtain ⟨low, high⟩ := inRange_iff.mp inside
  obtain ⟨bits, held, -⟩ := wf.bitmap
  have clear := labelClearAllocated_inUse wf inside
  rw [labelClearAllocated_eq held inside] at clear
  rw [labelMgrFree_used held used]
  refine ⟨?_, clear, rfl, rfl⟩
  refine wf.with held (by simp) ?_ ?_
  · split
    · exact UInt32.le_iff_toNat_le.mpr low
    · exact wf.nextLow
  · split
    · exact UInt32.le_iff_toNat_le.mpr high
    · exact wf.nextHigh

theorem labelMgrInit_wf {min max : UInt32} (low : 1 ≤ min) (ordered : min ≤ max)
    (high : max < 1048576) :
    (labelMgrInit min max true).Wf ∧ ∀ label, ¬ (labelMgrInit min max true).InUse label := by
  refine ⟨⟨low, ordered, high, UInt32.le_refl _, ordered, _, rfl, List.length_replicate⟩, ?_⟩
  intro label used
  have set := (inUse_iff_get rfl).mp used
  rw [Bitmap.get_replicate_zero] at set
  cases set.2

end Rsvp
