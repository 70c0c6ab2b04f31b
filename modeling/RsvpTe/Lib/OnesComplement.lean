import Mathlib.Data.Nat.Bitwise
import Mathlib.Data.Nat.ModEq
import Mathlib.Tactic.Ring
import RsvpTe.Lib.Words

/-!
# One's-complement sums

`wordSum` adds the big-endian two-byte words of a string, with no bound on the sum.  An end-around
carry keeps a number modulo the radix less one (`carry_modEq`), and a single bit is worth less than
that modulus, so flipping one always changes the residue of the sum: `wordSum_flipBit`.
-/

namespace OnesComplement

open Words

/-- The sum of the two-byte words, a left-over byte as a high half. -/
def wordSum : Bytes → Nat
  | a :: b :: rest => 256 * a.toNat + b.toNat + wordSum rest
  | [a] => 256 * a.toNat
  | [] => 0

/-- What the byte at an offset counts. -/
def weight (i : Nat) : Nat := if i % 2 = 0 then 256 else 1

theorem weight_add_two (i : Nat) : weight (i + 2) = weight i := by
  rw [weight, weight, Nat.add_mod_right]

/-- Each word is at most 65535. -/
theorem wordSum_le (bytes : Bytes) : 2 * wordSum bytes ≤ 65535 * (bytes.length + 1) := by
  induction bytes using wordSum.induct with
  | case1 a b rest ih =>
    have high := a.toNat_lt
    have low := b.toNat_lt
    rw [wordSum, List.length_cons, List.length_cons]
    omega
  | case2 a =>
    have high := a.toNat_lt
    rw [wordSum, List.length_cons, List.length_nil]
    omega
  | case3 => exact Nat.zero_le _

/-- Replacing a byte exchanges its share of the sum. -/
theorem wordSum_set {bytes : Bytes} {i : Nat} (inside : i < bytes.length) (v : UInt8) :
    wordSum (bytes.set i v) + weight i * (u8At bytes i).toNat =
      wordSum bytes + weight i * v.toNat := by
  induction bytes using wordSum.induct generalizing i with
  | case1 a b rest ih =>
    rcases i with _ | _ | i
    · change 256 * v.toNat + b.toNat + wordSum rest + 256 * a.toNat =
        256 * a.toNat + b.toNat + wordSum rest + 256 * v.toNat
      ring
    · change 256 * a.toNat + v.toNat + wordSum rest + 1 * b.toNat =
        256 * a.toNat + b.toNat + wordSum rest + 1 * v.toNat
      ring
    · have rest_inside : i < rest.length := by
        rw [List.length_cons, List.length_cons] at inside
        omega
      have behind := ih rest_inside
      change 256 * a.toNat + b.toNat + wordSum (rest.set i v) +
          weight (i + 2) * (u8At rest i).toNat =
        256 * a.toNat + b.toNat + wordSum rest + weight (i + 2) * v.toNat
      rw [weight_add_two]
      omega
  | case2 a =>
    have first : i = 0 := by
      rw [List.length_cons, List.length_nil] at inside
      omega
    subst first
    change 256 * v.toNat + 256 * a.toNat = 256 * a.toNat + 256 * v.toNat
    exact Nat.add_comm _ _
  | case3 => exact absurd inside (Nat.not_lt_zero i)

/-! ## Carries -/

/-- Adding the carry of a number to its low digit keeps it modulo the radix less one. -/
theorem carry_modEq {radix : Nat} (pos : 0 < radix) (n : Nat) :
    n % radix + n / radix ≡ n [MOD radix - 1] := by
  have one : radix ≡ 1 [MOD radix - 1] := by
    have split : radix = radix - 1 + 1 := (Nat.sub_add_cancel pos).symm
    calc radix = radix - 1 + 1 := split
      _ ≡ 1 [MOD radix - 1] := Nat.add_modEq_left
  calc n % radix + n / radix = n % radix + 1 * (n / radix) := by rw [Nat.one_mul]
    _ ≡ n % radix + radix * (n / radix) [MOD radix - 1] :=
      Nat.ModEq.add_left _ (one.symm.mul_right _)
    _ = n := Nat.mod_add_div n radix

/-! ## Single bits -/

/-- Flipping a bit adds or subtracts its power of two. -/
theorem xor_two_pow_cases (n k : Nat) : n ^^^ 2 ^ k = n + 2 ^ k ∨ (n ^^^ 2 ^ k) + 2 ^ k = n := by
  induction k generalizing n with
  | zero =>
    have half : (n ^^^ 1) / 2 = n / 2 := by rw [Nat.xor_div_two, show 1 / 2 = 0 from rfl, Nat.xor_zero]
    have low : (n ^^^ 1) % 2 = (n + 1) % 2 := Nat.xor_mod_two_eq
    rw [Nat.pow_zero]
    omega
  | succ k ih =>
    have half : (n ^^^ 2 ^ (k + 1)) / 2 = n / 2 ^^^ 2 ^ k := by
      rw [Nat.xor_div_two, Nat.pow_succ, Nat.mul_div_cancel _ (by decide)]
    have low : (n ^^^ 2 ^ (k + 1)) % 2 = n % 2 := by
      rw [Nat.xor_mod_two_eq, Nat.pow_succ, Nat.add_mul_mod_self_right]
    have halves := ih (n / 2)
    rw [Nat.pow_succ]
    rw [Nat.pow_succ] at half low
    omega

/-- Bit `k` of the byte at offset `i`, inverted. -/
def flipBit (bytes : Bytes) (i k : Nat) : Bytes :=
  bytes.set i (u8At bytes i ^^^ UInt8.ofNat (2 ^ k))

theorem length_flipBit (bytes : Bytes) (i k : Nat) : (flipBit bytes i k).length = bytes.length :=
  List.length_set

theorem u8At_flipBit_of_ne (bytes : Bytes) {i j : Nat} (k : Nat) (other : j ≠ i) :
    u8At (flipBit bytes i k) j = u8At bytes j := by
  unfold u8At flipBit
  rw [List.getD_eq_getElem?_getD, List.getElem?_set_ne other.symm, List.getD_eq_getElem?_getD]

/-- No two strings that differ in one bit have the same sum modulo 65535. -/
theorem wordSum_flipBit {bytes : Bytes} {i k : Nat} (inside : i < bytes.length) (bit : k < 8) :
    ¬ wordSum (flipBit bytes i k) ≡ wordSum bytes [MOD 65535] := by
  have power : (UInt8.ofNat (2 ^ k)).toNat = 2 ^ k := by
    rw [UInt8.toNat_ofNat']
    exact Nat.mod_eq_of_lt (Nat.pow_lt_pow_right (by decide) bit)
  have share := wordSum_set inside (u8At bytes i ^^^ UInt8.ofNat (2 ^ k))
  rw [UInt8.toNat_xor, power] at share
  have small : 2 ^ k ≤ 128 := Nat.pow_le_pow_right (by decide) (by omega : k ≤ 7)
  have pos : 0 < 2 ^ k := Nat.two_pow_pos k
  have cases := xor_two_pow_cases (u8At bytes i).toNat k
  rw [flipBit, Nat.ModEq]
  generalize wordSum (bytes.set i _) = flipped at share ⊢
  generalize (u8At bytes i).toNat ^^^ 2 ^ k = byte at share cases
  rw [weight] at share
  split at share
  · omega
  · omega

end OnesComplement
