import Mathlib.Data.List.Basic
import Mathlib.Data.List.TakeDrop

/-!
# Flat buffers

A buffer is a list.  `write` is a `memcpy` into it and `read` is a bounds-checked
`memcpy` out of it: a read that leaves the buffer is `none`, so a reader that never
answers `none` never touches a cell outside.

Nothing here mentions what the cells hold.
-/

namespace Buffer

variable {α : Type}

/-- Overwrite the cells of `buf` from `off` on with `ys`. -/
def write (buf : List α) (off : Nat) (ys : List α) : List α :=
  buf.take off ++ ys ++ buf.drop (off + ys.length)

/-- The `n` cells of `buf` from `off` on, or `none` when they leave the buffer. -/
def read (buf : List α) (off n : Nat) : Option (List α) :=
  if off + n ≤ buf.length then some ((buf.drop off).take n) else none

/-- Writing over a middle segment of the same length replaces exactly that segment. -/
theorem write_append {front old back ys : List α} {off : Nat}
    (at_off : front.length = off) (same : old.length = ys.length) :
    write (front ++ old ++ back) off ys = front ++ ys ++ back := by
  subst at_off
  have taken : (front ++ old ++ back).take front.length = front := by
    rw [List.append_assoc, List.take_left' rfl]
  have dropped : (front ++ old ++ back).drop (front.length + ys.length) = back := by
    rw [← same, List.drop_left' (by rw [List.length_append])]
  rw [write, taken, dropped]

theorem read_of_le {buf : List α} {off n : Nat} (inside : off + n ≤ buf.length) :
    read buf off n = some ((buf.drop off).take n) :=
  if_pos inside

/-- Reading a middle segment returns exactly that segment. -/
theorem read_append {front mid back : List α} {off n : Nat}
    (at_off : front.length = off) (len : mid.length = n) :
    read (front ++ mid ++ back) off n = some mid := by
  subst at_off len
  rw [read_of_le (by simp only [List.length_append]; omega), List.append_assoc,
    List.drop_left' rfl, List.take_left' rfl]

end Buffer
