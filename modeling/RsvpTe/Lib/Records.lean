import Mathlib.Data.List.Basic
import RsvpTe.Lib.Words

/-!
# Aligned records

A buffer of records, each of which starts with a header that holds its length and is padded to a
multiple of four bytes.  `scan` walks over the records of a region as the usual macros do: it stops
where no header fits, or at a length that is shorter than a header or longer than the region.  A
record that is found is the rest of the buffer from its header on, which is what a pointer to it
gives.

The length field is a parameter, so records may be nested.
-/

namespace Records

/-- The next multiple of four. -/
def align (n : Nat) : Nat := (n + 3) / 4 * 4

theorem le_align (n : Nat) : n ≤ align n := by
  rw [align]
  omega

theorem align_add {m n : Nat} (aligned : align m = m) : align (m + n) = m + align n := by
  rw [align] at aligned ⊢
  rw [align]
  omega

theorem align_align (n : Nat) : align (align n) = align n := by
  simp only [align]
  omega

/-- A record with its padding. -/
def pad (record : Bytes) : Bytes :=
  record ++ List.replicate (align record.length - record.length) 0

theorem length_pad (record : Bytes) : (pad record).length = align record.length := by
  have le := le_align record.length
  rw [pad, List.length_append, List.length_replicate]
  omega

theorem pad_of_aligned {record : Bytes} (aligned : align record.length = record.length) :
    pad record = record := by
  rw [pad, aligned, Nat.sub_self, List.replicate_zero, List.append_nil]

theorem length_flatMap_pad (records : List Bytes) :
    align (records.flatMap pad).length = (records.flatMap pad).length := by
  induction records with
  | nil => rfl
  | cons record records ih =>
    rw [List.flatMap_cons, List.length_append, length_pad, align_add (align_align _), ih]

section Scan

variable (header : Nat) (lenAt : Bytes → Nat)

/-- The records of the first `len` bytes of a buffer.  Every turn is at least a header long, so
`len` turns are enough. -/
def scanFrom : Nat → Bytes → Nat → List Bytes
  | 0, _, _ => []
  | turns + 1, buf, len =>
    let n := lenAt buf
    if header ≤ len ∧ header ≤ n ∧ n ≤ len then
      buf :: scanFrom turns (buf.drop (align n)) (len - align n)
    else []

def scan (buf : Bytes) (len : Nat) : List Bytes := scanFrom header lenAt len buf len

/-- The length field of a record is its length, whatever follows. -/
structure Formed (record : Bytes) : Prop where
  long : header ≤ record.length
  length : ∀ rest, lenAt (record ++ rest) = record.length

variable {header lenAt}

/-- The buffer from each record on. -/
def suffixes (rest : Bytes) : List Bytes → List Bytes
  | [] => []
  | record :: records => (pad record ++ (records.flatMap pad ++ rest)) :: suffixes rest records

/-- More turns than bytes change nothing. -/
theorem scanFrom_eq_scan (positive : 0 < header) {turns : Nat} (buf : Bytes) {len : Nat}
    (enough : len ≤ turns) : scanFrom header lenAt turns buf len = scan header lenAt buf len := by
  have both : ∀ (m turns : Nat) (buf : Bytes) (len : Nat), len ≤ turns → len ≤ m →
      scanFrom header lenAt turns buf len = scanFrom header lenAt m buf len := by
    intro m
    induction m with
    | zero =>
      intro turns buf len _ le
      obtain rfl := Nat.le_zero.mp le
      cases turns with
      | zero => rfl
      | succ turns => exact if_neg fun fits => absurd fits.1 (by omega)
    | succ m ih =>
      intro turns buf len enough le
      cases turns with
      | zero =>
        obtain rfl := Nat.le_zero.mp enough
        exact (if_neg fun fits => absurd fits.1 (by omega)).symm
      | succ turns =>
        rw [scanFrom, scanFrom]
        split
        · rename_i fits
          have forward := le_align (lenAt buf)
          rw [ih turns _ _ (by omega) (by omega)]
        · rfl
  exact both len turns buf len enough (Nat.le_refl len)

/-- The records that were put into a buffer are found again. -/
theorem scan_flatMap_pad (positive : 0 < header) {records : List Bytes}
    (formed : ∀ record ∈ records, Formed header lenAt record) (rest : Bytes) :
    scan header lenAt (records.flatMap pad ++ rest) (records.flatMap pad).length =
      suffixes rest records := by
  induction records with
  | nil => rfl
  | cons record records ih =>
    obtain ⟨long, length⟩ := formed record List.mem_cons_self
    have bytes : (record :: records).flatMap pad ++ rest =
        record ++ (List.replicate (align record.length - record.length) 0 ++
          (records.flatMap pad ++ rest)) := by
      rw [List.flatMap_cons, pad, List.append_assoc, List.append_assoc]
    have total : ((record :: records).flatMap pad).length =
        align record.length + (records.flatMap pad).length := by
      rw [List.flatMap_cons, List.length_append, length_pad]
    have le := le_align record.length
    obtain ⟨turns, turnsEq⟩ : ∃ turns, ((record :: records).flatMap pad).length = turns + 1 :=
      ⟨_, (Nat.succ_pred_eq_of_pos (by omega)).symm⟩
    have next : ((record :: records).flatMap pad ++ rest).drop (align record.length) =
        records.flatMap pad ++ rest := by
      rw [List.flatMap_cons, List.append_assoc]
      exact List.drop_left' (length_pad record)
    rw [scan, turnsEq, scanFrom, ← turnsEq]
    rw [bytes, length, ← bytes, if_pos ⟨by omega, long, by omega⟩, next, total,
      Nat.add_sub_cancel_left, scanFrom_eq_scan positive _ (by omega),
      ih fun record member => formed record (List.mem_cons_of_mem _ member), suffixes,
      List.flatMap_cons, List.append_assoc]

/-- If a record can be read whatever follows it, so can all that were put into a buffer. -/
theorem mapM_suffixes {α : Type} {encode : α → Bytes} {decode : Bytes → Option α}
    (decodes : ∀ a rest, decode (pad (encode a) ++ rest) = some a) (items : List α)
    (rest : Bytes) : (suffixes rest (items.map encode)).mapM decode = some items := by
  induction items with
  | nil => rfl
  | cons a items ih =>
    rw [List.map_cons, suffixes, List.mapM_cons, decodes, ih]
    rfl

/-- A walk that looks at each record alone is a walk over what the records say. -/
theorem foldl_suffixes {α σ : Type} {encode : α → Bytes} {read : σ → Bytes → σ} {step : σ → α → σ}
    (reads : ∀ s a rest, read s (pad (encode a) ++ rest) = step s a) (s : σ) (items : List α)
    (rest : Bytes) : (suffixes rest (items.map encode)).foldl read s = items.foldl step s := by
  induction items generalizing s with
  | nil => rfl
  | cons a items ih => rw [List.map_cons, suffixes, List.foldl_cons, List.foldl_cons, reads, ih]

end Scan

end Records
