import Mathlib.Data.List.Basic
import Mathlib.Data.List.Perm.Basic

/-!
# Arrays of slots scanned from the front

A fixed array whose cells are free or hold an entry.  Every operation scans from cell 0 and
acts on the first cell that qualifies: `put` fills the first free one, `clear` empties the
first one whose entry satisfies a predicate, `find` reads it.  `entries` lists what is held,
and each operation is an operation on that list.
-/

namespace Slots

variable {α κ : Type}

/-- The entries held, in array order. -/
def entries (cells : List (Option α)) : List α := cells.filterMap id

/-- Fill the first free cell; a full array is left as it is. -/
def put (x : α) : List (Option α) → List (Option α)
  | [] => []
  | none :: cells => some x :: cells
  | some y :: cells => some y :: put x cells

/-- Empty the first cell whose entry satisfies `p`. -/
def clear (p : α → Bool) : List (Option α) → List (Option α)
  | [] => []
  | none :: cells => none :: clear p cells
  | some y :: cells => if p y then none :: cells else some y :: clear p cells

/-- The first entry that satisfies `p`. -/
def find (p : α → Bool) : List (Option α) → Option α
  | [] => none
  | none :: cells => find p cells
  | some y :: cells => if p y then some y else find p cells

theorem entries_put (x : α) (cells : List (Option α)) :
    entries (put x cells) = entries cells ∨
      (entries (put x cells)).Perm (x :: entries cells) := by
  induction cells with
  | nil => exact .inl rfl
  | cons cell cells ih =>
    cases cell with
    | none => exact .inr (List.Perm.refl _)
    | some y =>
      rcases ih with same | perm
      · exact .inl (congrArg (y :: ·) same)
      · exact .inr ((perm.cons y).trans (.swap x y _))

theorem entries_put_of_free (x : α) {cells : List (Option α)} (free : none ∈ cells) :
    (entries (put x cells)).Perm (x :: entries cells) := by
  induction cells with
  | nil => cases free
  | cons cell cells ih =>
    cases cell with
    | none => exact List.Perm.refl _
    | some y =>
      have later : none ∈ cells := (List.mem_cons.mp free).resolve_left (by rintro ⟨⟩)
      exact ((ih later).cons y).trans (.swap x y _)

theorem entries_clear (p : α → Bool) (cells : List (Option α)) :
    entries (clear p cells) = (entries cells).eraseP p := by
  induction cells with
  | nil => rfl
  | cons cell cells ih =>
    cases cell with
    | none => exact ih
    | some y =>
      change entries (if p y then none :: cells else some y :: clear p cells) =
        (y :: entries cells).eraseP p
      cases holds : p y with
      | true =>
        rw [List.eraseP_cons_of_pos holds]
        rfl
      | false =>
        rw [List.eraseP_cons_of_neg (by rw [holds]; exact Bool.false_ne_true), ← ih]
        rfl

/-- An entry outside a class goes into its slot without moving those of the class. -/
theorem filter_entries_put (q : α → Bool) {x : α} (other : q x = false)
    (cells : List (Option α)) : (entries (put x cells)).filter q = (entries cells).filter q := by
  induction cells with
  | nil => rfl
  | cons cell cells ih =>
    cases cell with
    | none =>
      change (x :: entries cells).filter q = (entries cells).filter q
      rw [List.filter_cons_of_neg (by rw [other]; exact Bool.false_ne_true)]
    | some y =>
      change (y :: entries (put x cells)).filter q = (y :: entries cells).filter q
      rw [List.filter_cons, List.filter_cons, ih]

theorem filter_eraseP_of_disjoint {p q : α → Bool} (disjoint : ∀ x, p x = true → q x = false)
    (l : List α) : (l.eraseP p).filter q = l.filter q := by
  induction l with
  | nil => rfl
  | cons x l ih =>
    cases holds : p x with
    | true =>
      rw [List.eraseP_cons_of_pos holds, List.filter_cons_of_neg]
      rw [disjoint x holds]
      exact Bool.false_ne_true
    | false =>
      rw [List.eraseP_cons_of_neg (by rw [holds]; exact Bool.false_ne_true), List.filter_cons,
        List.filter_cons, ih]

theorem filter_eraseP_self (p : α → Bool) (l : List α) :
    (l.eraseP p).filter p = (l.filter p).tail := by
  induction l with
  | nil => rfl
  | cons x l ih =>
    cases holds : p x with
    | true => rw [List.eraseP_cons_of_pos holds, List.filter_cons_of_pos holds, List.tail_cons]
    | false =>
      have fails : ¬ p x = true := by rw [holds]; exact Bool.false_ne_true
      rw [List.eraseP_cons_of_neg fails, List.filter_cons_of_neg fails,
        List.filter_cons_of_neg fails, ih]

theorem find_eq (p : α → Bool) (cells : List (Option α)) :
    find p cells = (entries cells).find? p := by
  induction cells with
  | nil => rfl
  | cons cell cells ih =>
    cases cell with
    | none => exact ih
    | some y =>
      change (if p y then some y else find p cells) = (y :: entries cells).find? p
      rw [List.find?_cons, ih]
      cases p y <;> rfl

/-- With distinct keys, clearing a key leaves no entry with it. -/
theorem key_ne_of_mem_eraseP [DecidableEq κ] (key : α → κ) (k : κ) {l : List α}
    (nodup : (l.map key).Nodup) {x : α} (mem : x ∈ l.eraseP (key · = k)) : key x ≠ k := by
  induction l with
  | nil => cases mem
  | cons y l ih =>
    rw [List.map_cons, List.nodup_cons] at nodup
    by_cases same : key y = k
    · rw [List.eraseP_cons_of_pos (by simpa using same)] at mem
      rintro rfl
      exact nodup.1 (same ▸ List.mem_map_of_mem mem)
    · rw [List.eraseP_cons_of_neg (by simpa using same)] at mem
      rcases List.mem_cons.mp mem with rfl | tail
      · exact same
      · exact ih nodup.2 tail

theorem nodup_map_eraseP (key : α → κ) (p : α → Bool) {l : List α}
    (nodup : (l.map key).Nodup) : ((l.eraseP p).map key).Nodup :=
  nodup.sublist (List.eraseP_sublist.map key)

/-- With distinct keys, an entry is the first one with its key. -/
theorem find?_key_of_mem [DecidableEq κ] (key : α → κ) {l : List α}
    (nodup : (l.map key).Nodup) {x : α} (mem : x ∈ l) :
    l.find? (key · = key x) = some x := by
  induction l with
  | nil => cases mem
  | cons y l ih =>
    rw [List.map_cons, List.nodup_cons] at nodup
    rcases List.mem_cons.mp mem with rfl | tail
    · rw [List.find?_cons_of_pos (by simp)]
    · have other : key y ≠ key x := fun same => nodup.1 (same ▸ List.mem_map_of_mem tail)
      rw [List.find?_cons_of_neg (by simpa using other)]
      exact ih nodup.2 tail

end Slots
