import RsvpTe.Lib.OnesComplement
import RsvpTe.RoundTrip

/-!
# The checksum

`rsvp_checksum` and `rsvp_checksum_verify` are written separately.  Both are the complement of the
folded `wordSum` of the message with its checksum field left out, so they agree on every message,
and as folding keeps the sum modulo 65535 a message with one bit flipped never has the same
checksum.
-/

namespace Rsvp

open Words OnesComplement

/-! ## Summing -/

/-- The accumulator never exceeds 32 bits while the words of a string are added. -/
def NoOverflow (acc : Nat) : Bytes → Prop
  | a :: b :: rest =>
    acc + (ntohs (le16 a b)).toNat < 2 ^ 32 ∧ NoOverflow (acc + (ntohs (le16 a b)).toNat) rest
  | [a] => acc + a.toNat * 256 < 2 ^ 32
  | [] => True

theorem toNat_ntohs_le16 (a b : UInt8) : (ntohs (le16 a b)).toNat = 256 * a.toNat + b.toNat := by
  have first := a.toNat_lt
  have second := b.toNat_lt
  rw [toNat_bswap16, toNat_le16]
  omega

theorem noOverflow {acc : Nat} {bytes : Bytes} (fits : acc + wordSum bytes < 2 ^ 32) :
    NoOverflow acc bytes := by
  induction bytes using wordSum.induct generalizing acc with
  | case1 a b rest ih =>
    rw [wordSum] at fits
    rw [NoOverflow, toNat_ntohs_le16]
    exact ⟨by omega, ih (by omega)⟩
  | case2 a =>
    rw [wordSum] at fits
    rw [NoOverflow]
    omega
  | case3 => trivial

/-- Without overflow the loop computes the sum itself. -/
theorem sumWords_eq {acc : Nat} {bytes : Bytes} (fits : acc + wordSum bytes < 2 ^ 32) :
    sumWords acc bytes = acc + wordSum bytes := by
  induction bytes using wordSum.induct generalizing acc with
  | case1 a b rest ih =>
    rw [wordSum] at fits
    rw [sumWords, wordSum, toNat_ntohs_le16, Nat.mod_eq_of_lt (by omega), ih (by omega)]
    omega
  | case2 a =>
    rw [wordSum] at fits
    rw [sumWords, wordSum, Nat.mod_eq_of_lt (by omega), Nat.mul_comm]
  | case3 => rfl

theorem wordSum_lt {bytes : Bytes} (max : bytes.length ≤ 65535) : wordSum bytes < 2 ^ 31 := by
  have bound := wordSum_le bytes
  omega

/-! ## Folding -/

theorem foldCarry_modEq (fuel sum : Nat) : foldCarry fuel sum ≡ sum [MOD 65535] := by
  induction fuel generalizing sum with
  | zero => exact Nat.ModEq.refl sum
  | succ fuel ih =>
    rw [foldCarry]
    split
    · exact Nat.ModEq.refl sum
    · exact (ih _).trans (carry_modEq (by decide) sum)

/-- Sums with the same complement agree modulo 65535. -/
theorem modEq_of_complementSum {sum sum' : Nat} (bound : sum < 2 ^ 32) (bound' : sum' < 2 ^ 32)
    (same : complementSum sum = complementSum sum') : sum ≡ sum' [MOD 65535] := by
  have folded := foldCarry_lt bound
  have folded' := foldCarry_lt bound'
  have complements : UInt16.ofNat (65535 - foldCarry 3 sum % 65536) =
      UInt16.ofNat (65535 - foldCarry 3 sum' % 65536) := by
    have swapped := congrArg bswap16 same
    rwa [complementSum, complementSum, bswap16_bswap16, bswap16_bswap16] at swapped
  have equal : foldCarry 3 sum = foldCarry 3 sum' := by
    have values := congrArg UInt16.toNat complements
    rw [UInt16.toNat_ofNat', UInt16.toNat_ofNat'] at values
    omega
  calc sum ≡ foldCarry 3 sum [MOD 65535] := (foldCarry_modEq 3 sum).symm
    _ = foldCarry 3 sum' := equal
    _ ≡ sum' [MOD 65535] := foldCarry_modEq 3 sum'

/-- One flipped bit changes the checksum. -/
theorem rsvpChecksum_flipBit {bytes : Bytes} {i k : Nat} (max : bytes.length ≤ 65535)
    (inside : i < bytes.length) (bit : k < 8) :
    rsvpChecksum (flipBit bytes i k) ≠ rsvpChecksum bytes := by
  intro same
  have sum := wordSum_lt max
  have sum' : wordSum (flipBit bytes i k) < 2 ^ 31 :=
    wordSum_lt ((length_flipBit bytes i k).trans_le max)
  rw [rsvpChecksum, rsvpChecksum, sumWords_eq (by omega), sumWords_eq (by omega), Nat.zero_add,
    Nat.zero_add] at same
  exact wordSum_flipBit inside bit (modEq_of_complementSum (by omega) (by omega) same)

/-! ## Verifying -/

/-- A message with a zero in its checksum field. -/
def zeroSum (bytes : Bytes) : Bytes := Buffer.write bytes 2 (bytes16 0)

theorem exists_first_four {bytes : Bytes} (min : 4 ≤ bytes.length) :
    ∃ a b c d rest, bytes = a :: b :: c :: d :: rest := by
  rcases bytes with _ | ⟨a, _ | ⟨b, _ | ⟨c, _ | ⟨d, rest⟩⟩⟩⟩
  · exact absurd min (by decide)
  · exact absurd min (Nat.not_le.mpr (by rw [List.length_cons, List.length_nil]; decide))
  · exact absurd min (Nat.not_le.mpr (by simp only [List.length_cons, List.length_nil]; decide))
  · exact absurd min (Nat.not_le.mpr (by simp only [List.length_cons, List.length_nil]; decide))
  · exact ⟨a, b, c, d, rest, rfl⟩

theorem rsvpChecksum_zeroSum (a b c d : UInt8) (rest : Bytes) :
    rsvpChecksum (zeroSum (a :: b :: c :: d :: rest)) =
      complementSum (sumWords (ntohs (le16 a b)).toNat rest) := by
  have first := (ntohs (le16 a b)).toNat_lt
  have step : (0 + (ntohs (le16 a b)).toNat) % 2 ^ 32 = (ntohs (le16 a b)).toNat := by
    rw [Nat.zero_add]
    exact Nat.mod_eq_of_lt (by omega)
  change complementSum (sumWords (((0 + (ntohs (le16 a b)).toNat) % 2 ^ 32 + 0) % 2 ^ 32) rest) = _
  rw [step, Nat.add_zero, Nat.mod_eq_of_lt (by omega)]

/-- The verification compares the checksum field with the checksum of the rest. -/
theorem rsvpChecksumVerify_eq_zero_iff {bytes : Bytes} (min : 4 ≤ bytes.length) :
    rsvpChecksumVerify bytes = 0 ↔ u16At bytes 2 = rsvpChecksum (zeroSum bytes) := by
  obtain ⟨a, b, c, d, rest, rfl⟩ := exists_first_four min
  rw [rsvpChecksum_zeroSum]
  change (if le16 c d = complementSum _ then (0 : Int) else -1) = 0 ↔ le16 c d = complementSum _
  split
  · exact iff_of_true rfl ‹_›
  · exact iff_of_false (by decide) ‹_›

theorem zeroSum_flipBit {bytes : Bytes} (min : 4 ≤ bytes.length) {i : Nat} (k : Nat) (low : i ≠ 2)
    (high : i ≠ 3) : zeroSum (flipBit bytes i k) = flipBit (zeroSum bytes) i k := by
  obtain ⟨a, b, c, d, rest, rfl⟩ := exists_first_four min
  rcases i with _ | _ | _ | _ | i
  · rfl
  · rfl
  · exact absurd rfl low
  · exact absurd rfl high
  · rfl

/-- A message with one bit outside its checksum field flipped verifies only if it did not before. -/
theorem rsvpChecksumVerify_flipBit {bytes : Bytes} (min : 4 ≤ bytes.length)
    (max : bytes.length ≤ 65535) (verified : rsvpChecksumVerify bytes = 0) {i k : Nat}
    (inside : i < bytes.length) (low : i ≠ 2) (high : i ≠ 3) (bit : k < 8) :
    rsvpChecksumVerify (flipBit bytes i k) ≠ 0 := by
  intro verified'
  have size : (zeroSum bytes).length = bytes.length := by
    obtain ⟨a, b, c, d, rest, rfl⟩ := exists_first_four min
    rfl
  have field := (rsvpChecksumVerify_eq_zero_iff min).mp verified
  have field' := (rsvpChecksumVerify_eq_zero_iff
    (min.trans_eq (length_flipBit bytes i k).symm)).mp verified'
  have kept : u16At (flipBit bytes i k) 2 = u16At bytes 2 := by
    rw [u16At, u16At, u8At_flipBit_of_ne _ _ low.symm, u8At_flipBit_of_ne _ _ high.symm]
  rw [kept, zeroSum_flipBit min k low high] at field'
  exact rsvpChecksum_flipBit (size.trans_le max) (size ▸ inside) bit (field'.symm.trans field)

/-! ## Finished messages -/

/-- A message that `rsvp_builder_finalize` leaves in a buffer, whatever the buffer held. -/
def Finished (msg : Bytes) : Prop :=
  ∃ b : Builder, commonHdrLen ≤ b.offset ∧ b.offset ≤ b.buffer.length ∧ b.finish = msg

theorem exists_common_header {bytes : Bytes} (min : 8 ≤ bytes.length) :
    ∃ a b c d e f g h rest, bytes = a :: b :: c :: d :: e :: f :: g :: h :: rest := by
  obtain ⟨a, b, c, d, rest, rfl⟩ := exists_first_four (Nat.le_trans (by decide) min)
  have more : 4 ≤ rest.length := by
    simp only [List.length_cons] at min
    omega
  obtain ⟨e, f, g, h, rest, rfl⟩ := exists_first_four more
  exact ⟨a, b, c, d, e, f, g, h, rest, rfl⟩

/-- A finished message verifies, and its length field is its length. -/
theorem Finished.spec {msg : Bytes} (finished : Finished msg) (max : msg.length ≤ 65535) :
    commonHdrLen ≤ msg.length ∧ rsvpChecksumVerify msg = 0 ∧
      (ntohs (u16At msg 6)).toNat = msg.length := by
  obtain ⟨builder, min, room, rfl⟩ := finished
  obtain ⟨a, b, c, d, e, f, g, h, rest, buffer⟩ := exists_common_header (Nat.le_trans min room)
  obtain ⟨n, offset⟩ := Nat.exists_eq_add_of_le' min
  change builder.offset = n + 8 at offset
  have image : builder.finish = [a, b] ++
      bytes16 (rsvpChecksum ([a, b] ++ bytes16 0 ++
        ([e, f] ++ bytes16 (htons (UInt16.ofNat builder.offset)) ++ rest.take n))) ++
      ([e, f] ++ bytes16 (htons (UInt16.ofNat builder.offset)) ++ rest.take n) := by
    rw [Builder.finish]
    simp only [rsvpBuilderFinalize]
    rw [buffer, offset]
    rfl
  have length : builder.finish.length = builder.offset := by
    rw [buffer] at room
    simp only [List.length_cons] at room
    rw [image]
    simp only [List.length_append, List.length_cons, List.length_nil, length_bytes16,
      List.length_take]
    omega
  refine ⟨length ▸ min, ?_, ?_⟩
  · rw [image]
    exact rsvpChecksumVerify_rsvpChecksum a b _
  · have field : u16At builder.finish 6 = htons (UInt16.ofNat builder.offset) := by
      rw [image]
      exact le16_bytes _
    rw [field]
    change (bswap16 (bswap16 _)).toNat = _
    rw [bswap16_bswap16, UInt16.toNat_ofNat', length]
    exact Nat.mod_eq_of_lt (by omega)

theorem u16At_append {front : Bytes} (back : Bytes) {i : Nat} (inside : i + 1 < front.length) :
    u16At (front ++ back) i = u16At front i := by
  unfold u16At u8At
  rw [List.getD_append _ _ _ _ (by omega), List.getD_append _ _ _ _ inside]

/-- The parser refuses a finished message with a bit outside the checksum and the length flipped,
behind any IPv4 header and before any trailer. -/
theorem Finished.parse_flipBit {msg : Bytes} (finished : Finished msg) (max : msg.length ≤ 65535)
    (nonzero : u16At msg 2 ≠ 0) {ip : Bytes} (header : IpHeader ip) (trailer : Bytes) {i k : Nat}
    (inside : i < msg.length) (fields : i ∉ [2, 3, 6, 7]) (bit : k < 8) (info : MessageInfo) :
    rsvpParsePacket (ip ++ (flipBit msg i k ++ trailer)) ≠ .ok info := by
  intro parsed
  obtain ⟨min, verified, length⟩ := finished.spec max
  have min' : 8 ≤ msg.length := min
  have size : (flipBit msg i k).length = msg.length := length_flipBit msg i k
  simp only [List.mem_cons, List.not_mem_nil, or_false, not_or] at fields
  have dropped : (ip ++ (flipBit msg i k ++ trailer)).drop ip.length = flipBit msg i k ++ trailer :=
    List.drop_left' rfl
  have hdr : rsvpHdr (ip ++ (flipBit msg i k ++ trailer)) =
      CommonHdr.ofBytes (flipBit msg i k ++ trailer) := by
    rw [rsvpHdr, header.ipHdrLen_append, dropped]
  have field : ∀ j, j + 1 < msg.length → i ≠ j → i ≠ j + 1 →
      u16At (flipBit msg i k ++ trailer) j = u16At msg j := by
    intro j room low high
    rw [u16At_append trailer (size ▸ room), u16At, u16At, u8At_flipBit_of_ne _ _ low.symm,
      u8At_flipBit_of_ne _ _ high.symm]
  have len : rsvpLen (ip ++ (flipBit msg i k ++ trailer)) = msg.length := by
    rw [rsvpLen, hdr, CommonHdr.ofBytes]
    dsimp only
    rw [field 6 (by omega) fields.2.2.1 fields.2.2.2, length]
  have whole : rsvpMessage (ip ++ (flipBit msg i k ++ trailer)) = flipBit msg i k := by
    rw [rsvpMessage, header.ipHdrLen_append, dropped, len, ← size, List.take_left' rfl]
  rcases (Headers.of_ok parsed).checksum with zero | verified'
  · rw [hdr, CommonHdr.ofBytes] at zero
    dsimp only at zero
    rw [field 2 (by omega) fields.1 fields.2.1] at zero
    exact nonzero zero
  · rw [whole] at verified'
    exact rsvpChecksumVerify_flipBit (by omega) max verified inside fields.1 fields.2.1 bit verified'

/-- The two checksum functions agree, neither overflows, and no single flipped bit of a finished
message goes unnoticed. -/
theorem rsvpChecksum_detects {msg : Bytes} (min : 8 ≤ msg.length) (max : msg.length ≤ 65535) :
    (rsvpChecksumVerify msg = 0 ↔ u16At msg 2 = rsvpChecksum (zeroSum msg)) ∧
    NoOverflow 0 msg ∧ NoOverflow (ntohs (u16At msg 0)).toNat (msg.drop 4) ∧
    (Finished msg → u16At msg 2 ≠ 0 → ∀ ip, IpHeader ip → ∀ trailer i k, i < msg.length →
      i ∉ [2, 3, 6, 7] → k < 8 → ∀ info,
        rsvpParsePacket (ip ++ (flipBit msg i k ++ trailer)) ≠ .ok info) := by
  have sum := wordSum_lt max
  have skipped : wordSum (msg.drop 4) < 2 ^ 31 := by
    refine wordSum_lt ?_
    rw [List.length_drop]
    omega
  have first := (ntohs (u16At msg 0)).toNat_lt
  refine ⟨rsvpChecksumVerify_eq_zero_iff (by omega), noOverflow (by omega), noOverflow (by omega),
    ?_⟩
  intro finished nonzero ip header trailer i k inside fields bit info
  exact finished.parse_flipBit max nonzero header trailer inside fields bit info

section Sample

/-- A bare PATH header. -/
def bareMessage : Bytes := (rsvpBuilderInit 8 msgPath).finish

def bareIpHeader : Bytes := 0x45 :: List.replicate 19 0

/-- A bit of its TTL is flipped. -/
theorem rsvpChecksum_detects_ttl :
    rsvpChecksumVerify bareMessage = 0 ∧
      ¬ ∃ info, rsvpParsePacket (bareIpHeader ++ (flipBit bareMessage 4 0 ++ [])) = .ok info := by
  have min : 8 ≤ bareMessage.length := by decide
  have max : bareMessage.length ≤ 65535 := by decide
  have finished : Finished bareMessage := ⟨rsvpBuilderInit 8 msgPath, by decide, by decide, rfl⟩
  obtain ⟨agrees, -, -, detects⟩ := rsvpChecksum_detects min max
  refine ⟨agrees.mpr (by decide), ?_⟩
  rintro ⟨info, parsed⟩
  exact detects finished (by decide) bareIpHeader ⟨by decide, by decide⟩ [] 4 0 (by decide)
    (by decide) (by decide) info parsed

end Sample

end Rsvp
