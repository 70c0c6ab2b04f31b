import Mathlib.Data.Nat.Bitwise

/-!
# Bitmaps

A string of octets as a set of indices: bit `i % 8` of octet `i / 8` tells whether `i` is in it.
`set` and `clear` rewrite one octet, and change the set at one index.
-/

namespace Bitmap

def get (bits : List UInt8) (i : Nat) : Bool := (bits.getD (i / 8) 0).toNat.testBit (i % 8)

def set (bits : List UInt8) (i : Nat) : List UInt8 :=
  bits.set (i / 8) (UInt8.ofNat ((bits.getD (i / 8) 0).toNat ||| 2 ^ (i % 8)))

def clear (bits : List UInt8) (i : Nat) : List UInt8 :=
  bits.set (i / 8) (UInt8.ofNat ((bits.getD (i / 8) 0).toNat &&& (255 ^^^ 2 ^ (i % 8))))

variable {bits : List UInt8} {i : Nat}

@[simp] theorem length_set (bits : List UInt8) (i : Nat) : (set bits i).length = bits.length :=
  List.length_set ..

@[simp] theorem length_clear (bits : List UInt8) (i : Nat) : (clear bits i).length = bits.length :=
  List.length_set ..

theorem get_replicate_zero (n i : Nat) : get (List.replicate n 0) i = false := by
  have zero : (List.replicate n (0 : UInt8)).getD (i / 8) 0 = 0 := by
    rw [List.getD_eq_getElem?_getD, List.getElem?_replicate]
    split <;> rfl
  rw [get, zero]
  exact Nat.zero_testBit _

/-- Setting bit `k` of an octet. -/
theorem testBit_set (old : UInt8) {k : Nat} (inside : k < 8) (j : Nat) :
    (UInt8.ofNat (old.toNat ||| 2 ^ k)).toNat.testBit j =
      (decide (j = k) || old.toNat.testBit j) := by
  have small : old.toNat ||| 2 ^ k < 2 ^ 8 :=
    Nat.or_lt_two_pow old.toNat_lt (Nat.pow_lt_pow_right (by decide) inside)
  rw [UInt8.toNat_ofNat', Nat.mod_eq_of_lt small, Nat.testBit_or, Nat.testBit_two_pow,
    Bool.or_comm]
  congr 1
  exact decide_eq_decide.mpr eq_comm

/-- Clearing bit `k` of an octet. -/
theorem testBit_clear (old : UInt8) {k : Nat} (inside : k < 8) (j : Nat) :
    (UInt8.ofNat (old.toNat &&& (255 ^^^ 2 ^ k))).toNat.testBit j =
      (decide (j ≠ k) && old.toNat.testBit j) := by
  have small : old.toNat &&& (255 ^^^ 2 ^ k) < 2 ^ 8 :=
    Nat.lt_of_le_of_lt Nat.and_le_left old.toNat_lt
  have ones : Nat.testBit 255 j = decide (j < 8) := by
    rw [show 255 = 2 ^ 8 - 1 from rfl, Nat.testBit_two_pow_sub_one]
  rw [UInt8.toNat_ofNat', Nat.mod_eq_of_lt small, Nat.testBit_and, Nat.testBit_xor, ones,
    Nat.testBit_two_pow]
  by_cases far : j < 8
  · by_cases same : j = k
    · simp [same, inside]
    · have other : k ≠ j := fun h => same h.symm
      simp [far, same, other]
  · have clear : old.toNat.testBit j = false := by
      apply Nat.testBit_lt_two_pow
      exact Nat.lt_of_lt_of_le old.toNat_lt (Nat.pow_le_pow_right (by decide) (by omega))
    simp [clear]

/-- The one update: rewriting the bit of one index in its octet. -/
theorem get_rewrite (inside : i / 8 < bits.length) {new : UInt8} {value : Bool}
    (bit : ∀ k, new.toNat.testBit k = if k = i % 8 then value else
      (bits.getD (i / 8) 0).toNat.testBit k) (j : Nat) :
    get (bits.set (i / 8) new) j = if j = i then value else get bits j := by
  rw [get, List.getD_eq_getElem?_getD, List.getElem?_set]
  by_cases octet : i / 8 = j / 8
  · rw [if_pos octet, if_pos inside, Option.getD_some, bit]
    by_cases same : j = i
    · rw [if_pos (same ▸ rfl), if_pos same]
    · rw [if_neg (by omega), if_neg same, get, octet]
  · rw [if_neg octet, if_neg (by omega), get, List.getD_eq_getElem?_getD]

theorem get_set (inside : i / 8 < bits.length) (j : Nat) :
    get (set bits i) j = (decide (j = i) || get bits j) := by
  rw [set, @get_rewrite bits i inside _ true ?_ j]
  · by_cases same : j = i
    · simp [same]
    · simp [same]
  · intro k
    rw [testBit_set _ (Nat.mod_lt i (by decide))]
    by_cases same : k = i % 8
    · simp [same]
    · simp [same]

theorem get_clear (inside : i / 8 < bits.length) (j : Nat) :
    get (clear bits i) j = (decide (j ≠ i) && get bits j) := by
  rw [clear, @get_rewrite bits i inside _ false ?_ j]
  · by_cases same : j = i
    · simp [same]
    · simp [same]
  · intro k
    rw [testBit_clear _ (Nat.mod_lt i (by decide))]
    by_cases same : k = i % 8
    · simp [same]
    · simp [same]

end Bitmap
