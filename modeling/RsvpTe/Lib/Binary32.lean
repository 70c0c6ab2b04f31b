import Mathlib.Algebra.Group.Nat.Defs
import Mathlib.Data.Nat.Log

/-!
# Single-precision patterns

An IEEE 754 `binary32` value as its 32-bit pattern: comparison, the test against zero, and the
conversions from and to an unsigned 32-bit integer.  A conversion that C leaves undefined
(negative, too large, infinite or not a number) is what a 64-bit truncating conversion followed
by taking the low half yields.
-/

namespace Binary32

/-- The pattern without its sign bit. -/
def magnitude (w : UInt32) : Nat := w.toNat % 2 ^ 31

def negative (w : UInt32) : Bool := 2 ^ 31 ≤ w.toNat

def exponent (w : UInt32) : Nat := magnitude w / 2 ^ 23

def isNaN (w : UInt32) : Bool := 255 * 2 ^ 23 < magnitude w

/-- Position on the line of all values: patterns of one sign are ordered as integers. -/
def rank (w : UInt32) : Int := if negative w then -(magnitude w : Int) else magnitude w

/-- `a >= b`; false when either is not a number. -/
def ge (a b : UInt32) : Bool := !isNaN a && !isNaN b && decide (rank b ≤ rank a)

/-- `a == 0.0f`. -/
def isZero (w : UInt32) : Bool := magnitude w = 0

/-- `(uint32_t)f`. -/
def toUInt32 (w : UInt32) : UInt32 :=
  let e := exponent w
  let significand := 2 ^ 23 + magnitude w % 2 ^ 23
  let whole :=
    if e < 127 then 0
    else if e < 150 then significand / 2 ^ (150 - e)
    else significand * 2 ^ (e - 150)
  if e = 255 ∨ 2 ^ 63 ≤ whole then 0
  else if negative w then 0 - UInt32.ofNat whole
  else UInt32.ofNat whole

/-- `(float)n`, rounded to nearest, ties to even. -/
def ofUInt32 (n : UInt32) : UInt32 :=
  if n = 0 then 0
  else
    let top := Nat.log2 n.toNat
    if top ≤ 23 then
      UInt32.ofNat ((127 + top) * 2 ^ 23 + (n.toNat * 2 ^ (23 - top) - 2 ^ 23))
    else
      let unit := 2 ^ (top - 23)
      let kept := n.toNat / unit
      let rest := n.toNat % unit
      let up := unit < 2 * rest ∨ (unit = 2 * rest ∧ kept % 2 = 1)
      -- A carry out of the significand moves into the exponent by itself.
      UInt32.ofNat ((127 + top) * 2 ^ 23 + (kept - 2 ^ 23) + if up then 1 else 0)

example : ofUInt32 1000000 = 0x49742400 := by decide

example : toUInt32 0x49742400 = 1000000 := by decide

end Binary32
