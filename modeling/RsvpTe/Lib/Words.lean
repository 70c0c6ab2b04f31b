import Mathlib.Algebra.GroupWithZero.Nat
import Mathlib.Data.List.Basic

/-!
# Fixed-width words in a little-endian memory

A word of two or four bytes is stored low byte first.  `bytes16`, `bytes32` store a word,
`le16`, `le32` load it back, and `bswap16`, `bswap32` reverse its byte order (the
network-to-host conversions of a little-endian machine, each its own inverse).
`u8At`, `u16At`, `u32At` load a field of a packed record at a byte offset.
-/

/-- A string of octets. -/
abbrev Bytes : Type := List UInt8

namespace Words

/-- Load two bytes, low byte first. -/
def le16 (a b : UInt8) : UInt16 := UInt16.ofNat (a.toNat + 256 * b.toNat)

/-- Load four bytes, low byte first. -/
def le32 (a b c d : UInt8) : UInt32 :=
  UInt32.ofNat (a.toNat + 256 * b.toNat + 65536 * c.toNat + 16777216 * d.toNat)

/-- Store two bytes, low byte first. -/
def bytes16 (v : UInt16) : Bytes :=
  [v.toUInt8, UInt8.ofNat (v.toNat / 256)]

/-- Store four bytes, low byte first. -/
def bytes32 (v : UInt32) : Bytes :=
  [v.toUInt8, UInt8.ofNat (v.toNat / 256), UInt8.ofNat (v.toNat / 65536),
    UInt8.ofNat (v.toNat / 16777216)]

/-- Reverse the bytes of a two-byte word. -/
def bswap16 (v : UInt16) : UInt16 :=
  le16 (UInt8.ofNat (v.toNat / 256)) v.toUInt8

/-- Reverse the bytes of a four-byte word. -/
def bswap32 (v : UInt32) : UInt32 :=
  le32 (UInt8.ofNat (v.toNat / 16777216)) (UInt8.ofNat (v.toNat / 65536))
    (UInt8.ofNat (v.toNat / 256)) v.toUInt8

/-- The byte at offset `i` of a record. -/
def u8At (d : Bytes) (i : Nat) : UInt8 := d.getD i 0

/-- The two-byte field at offset `i` of a record. -/
def u16At (d : Bytes) (i : Nat) : UInt16 := le16 (u8At d i) (u8At d (i + 1))

/-- The four-byte field at offset `i` of a record. -/
def u32At (d : Bytes) (i : Nat) : UInt32 :=
  le32 (u8At d i) (u8At d (i + 1)) (u8At d (i + 2)) (u8At d (i + 3))

@[simp] theorem length_bytes16 (v : UInt16) : (bytes16 v).length = 2 := rfl

@[simp] theorem length_bytes32 (v : UInt32) : (bytes32 v).length = 4 := rfl

theorem toNat_le16 (a b : UInt8) : (le16 a b).toNat = a.toNat + 256 * b.toNat := by
  have ha := a.toNat_lt
  have hb := b.toNat_lt
  simp only [le16, UInt16.toNat_ofNat']
  omega

theorem toNat_le32 (a b c d : UInt8) :
    (le32 a b c d).toNat =
      a.toNat + 256 * b.toNat + 65536 * c.toNat + 16777216 * d.toNat := by
  have ha := a.toNat_lt
  have hb := b.toNat_lt
  have hc := c.toNat_lt
  have hd := d.toNat_lt
  simp only [le32, UInt32.toNat_ofNat']
  omega

/-- A stored two-byte word loads back. -/
@[simp] theorem le16_bytes (v : UInt16) :
    le16 v.toUInt8 (UInt8.ofNat (v.toNat / 256)) = v := by
  have hv := v.toNat_lt
  apply UInt16.toNat_inj.mp
  rw [toNat_le16]
  simp only [UInt8.toNat_ofNat', UInt16.toNat_toUInt8]
  omega

/-- A stored four-byte word loads back. -/
@[simp] theorem le32_bytes (v : UInt32) :
    le32 v.toUInt8 (UInt8.ofNat (v.toNat / 256)) (UInt8.ofNat (v.toNat / 65536))
      (UInt8.ofNat (v.toNat / 16777216)) = v := by
  have hv := v.toNat_lt
  apply UInt32.toNat_inj.mp
  rw [toNat_le32]
  simp only [UInt8.toNat_ofNat', UInt32.toNat_toUInt8]
  omega

theorem toNat_bswap16 (v : UInt16) :
    (bswap16 v).toNat = v.toNat / 256 + 256 * (v.toNat % 256) := by
  have hv := v.toNat_lt
  rw [bswap16, toNat_le16]
  simp only [UInt8.toNat_ofNat', UInt16.toNat_toUInt8]
  omega

theorem toNat_bswap32 (v : UInt32) :
    (bswap32 v).toNat =
      v.toNat / 16777216 + 256 * (v.toNat / 65536 % 256) + 65536 * (v.toNat / 256 % 256) +
        16777216 * (v.toNat % 256) := by
  have hv := v.toNat_lt
  rw [bswap32, toNat_le32]
  simp only [UInt8.toNat_ofNat', UInt32.toNat_toUInt8]
  omega

@[simp] theorem bswap16_bswap16 (v : UInt16) : bswap16 (bswap16 v) = v := by
  have hv := v.toNat_lt
  apply UInt16.toNat_inj.mp
  rw [toNat_bswap16, toNat_bswap16]
  omega

/-- A word loaded from four bytes swaps to the word loaded from them in reverse. -/
theorem bswap32_le32 (a b c d : UInt8) : bswap32 (le32 a b c d) = le32 d c b a := by
  have ha := a.toNat_lt
  have hb := b.toNat_lt
  have hc := c.toNat_lt
  have hd := d.toNat_lt
  apply UInt32.toNat_inj.mp
  rw [toNat_bswap32, toNat_le32, toNat_le32]
  omega

@[simp] theorem bswap32_bswap32 (v : UInt32) : bswap32 (bswap32 v) = v := by
  change bswap32 (le32 _ _ _ _) = v
  rw [bswap32_le32, le32_bytes]

/-- A two-byte word loaded from two bytes stores those bytes back. -/
theorem bytes16_le16 (a b : UInt8) : bytes16 (le16 a b) = [a, b] := by
  have ha := a.toNat_lt
  have hb := b.toNat_lt
  simp only [bytes16, List.cons.injEq, and_true]
  constructor <;> apply UInt8.toNat_inj.mp
  · rw [UInt16.toNat_toUInt8, toNat_le16]
    omega
  · rw [UInt8.toNat_ofNat', toNat_le16]
    omega

/-- A four-byte word loaded from four bytes stores those bytes back. -/
theorem bytes32_le32 (a b c d : UInt8) : bytes32 (le32 a b c d) = [a, b, c, d] := by
  have ha := a.toNat_lt
  have hb := b.toNat_lt
  have hc := c.toNat_lt
  have hd := d.toNat_lt
  simp only [bytes32, List.cons.injEq, and_true]
  refine ⟨?_, ?_, ?_, ?_⟩ <;> apply UInt8.toNat_inj.mp
  · rw [UInt32.toNat_toUInt8, toNat_le32]
    omega
  all_goals
    rw [UInt8.toNat_ofNat', toNat_le32]
    omega

/-- A swap leaves a two-byte word alone iff its bytes are equal. -/
theorem bswap16_le16_eq_iff (a b : UInt8) : bswap16 (le16 a b) = le16 a b ↔ a = b := by
  have ha := a.toNat_lt
  have hb := b.toNat_lt
  rw [← UInt16.toNat_inj, toNat_bswap16, toNat_le16, ← UInt8.toNat_inj]
  omega

/-! ## The fields of a record are its bytes -/

theorem drop_eq_cons_u8At {d : Bytes} {i : Nat} (inside : i < d.length) :
    d.drop i = u8At d i :: d.drop (i + 1) := by
  rw [List.drop_eq_getElem_cons inside, u8At, List.getD_eq_getElem?_getD,
    List.getElem?_eq_getElem inside, Option.getD_some]

theorem singleton_u8At_append {d : Bytes} {i : Nat} (inside : i < d.length) :
    [u8At d i] ++ d.drop (i + 1) = d.drop i :=
  (drop_eq_cons_u8At inside).symm

theorem bytes16_u16At_append {d : Bytes} {i : Nat} (inside : i + 1 < d.length) :
    bytes16 (u16At d i) ++ d.drop (i + 2) = d.drop i := by
  rw [u16At, bytes16_le16, drop_eq_cons_u8At (show i < d.length by omega),
    drop_eq_cons_u8At inside]
  rfl

theorem bytes32_u32At_append {d : Bytes} {i : Nat} (inside : i + 3 < d.length) :
    bytes32 (u32At d i) ++ d.drop (i + 4) = d.drop i := by
  rw [u32At, bytes32_le32, drop_eq_cons_u8At (show i < d.length by omega),
    drop_eq_cons_u8At (show i + 1 < d.length by omega),
    drop_eq_cons_u8At (show i + 2 < d.length by omega), drop_eq_cons_u8At inside]
  rfl

end Words
