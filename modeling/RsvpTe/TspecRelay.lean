import Mathlib.Logic.Function.Iterate
import RsvpTe.PathRelay

/-!
# The traffic specification along a chain of transit nodes

A transit node decodes the SENDER_TSPEC of a PATH into its PSB and encodes it again for the PATH it
sends on.  `tspecCopyAndNtoh` converts the five 32-bit fields and `wireTspec` converts these and the
two 16-bit lengths of the service data, so the bytes of those lengths change places at every node.

`relayTspec` is what one node makes of a payload, `TspecChain` follows the payload through any number
of nodes that each handle the PATH of the one before.
-/

namespace Rsvp

open Words

/-! ## One node -/

/-- A structure stored where it was read is itself. -/
theorem SenderTspec.bytes_ofBytes {w : Bytes} (len : w.length = 32) :
    (SenderTspec.ofBytes w).bytes = w := by
  have one : ∀ i < 32, [u8At w i] ++ w.drop (i + 1) = w.drop i := fun i lt =>
    singleton_u8At_append (by omega)
  have two : ∀ i < 31, bytes16 (u16At w i) ++ w.drop (i + 2) = w.drop i := fun i lt =>
    bytes16_u16At_append (by omega)
  have four : ∀ i < 29, bytes32 (u32At w i) ++ w.drop (i + 4) = w.drop i := fun i lt =>
    bytes32_u32At_append (by omega)
  have pair : ∀ i < 31, [u8At w i, u8At w (i + 1)] ++ w.drop (i + 2) = w.drop i := by
    intro i lt
    rw [← one i (by omega), ← one (i + 1) (by omega)]
    rfl
  have tail : w.drop 32 = [] := List.drop_eq_nil_of_le (Nat.le_of_eq len)
  have last := four 28 (by decide)
  rw [tail, List.append_nil] at last
  simp only [bytes, ofBytes, List.append_assoc]
  rw [last, four 24 (by decide), four 20 (by decide), four 16 (by decide), four 12 (by decide),
    two 10 (by decide), pair 8 (by decide), two 6 (by decide), pair 4 (by decide),
    two 2 (by decide)]
  exact pair 0 (by decide)

theorem SenderTspec.ofBytes_bytes (t : SenderTspec) : SenderTspec.ofBytes t.bytes = t := by
  simp [ofBytes, bytes, bytes32, bytes16, u32At, u16At, u8At]

/-- What a node that decodes a specification sends on. -/
theorem wireTspec_tspecCopyAndNtoh (t : SenderTspec) :
    wireTspec (tspecCopyAndNtoh t) =
      { t with
        length := htons 7
        svcLength := htons t.svcLength
        paramLength := htons t.paramLength } := by
  simp only [wireTspec, tspecCopyAndNtoh, bswap32_bswap32]

/-- A SENDER_TSPEC payload after one node. -/
def relayTspec (w : Bytes) : Bytes := (wireTspec (tspecCopyAndNtoh (.ofBytes w))).bytes

/-- The two lengths of the service data read the same in both byte orders. -/
def LengthsPalindromic (w : Bytes) : Prop := u8At w 6 = u8At w 7 ∧ u8At w 10 = u8At w 11

theorem ofBytes_relayTspec (w : Bytes) :
    SenderTspec.ofBytes (relayTspec w) =
      { SenderTspec.ofBytes w with
        length := htons 7
        svcLength := htons (u16At w 6)
        paramLength := htons (u16At w 10) } := by
  rw [relayTspec, SenderTspec.ofBytes_bytes, wireTspec_tspecCopyAndNtoh]
  rfl

theorem length_relayTspec (w : Bytes) : (relayTspec w).length = 32 := SenderTspec.length_bytes _

/-- A payload is relayed unchanged iff swapping the two lengths of the service data leaves them. -/
theorem relayTspec_eq_self_iff {w : Bytes} (len : w.length = 32) (words : u16At w 2 = htons 7) :
    relayTspec w = w ↔ LengthsPalindromic w := by
  have read : relayTspec w = w ↔ SenderTspec.ofBytes (relayTspec w) = SenderTspec.ofBytes w := by
    constructor
    · exact congrArg SenderTspec.ofBytes
    · intro same
      rw [← SenderTspec.bytes_ofBytes (length_relayTspec w), same, SenderTspec.bytes_ofBytes len]
  have swaps : ∀ i, htons (u16At w i) = u16At w i ↔ u8At w i = u8At w (i + 1) :=
    fun i => bswap16_le16_eq_iff _ _
  have field : (SenderTspec.ofBytes w).length = htons 7 := words
  rw [read, ofBytes_relayTspec, LengthsPalindromic, ← swaps, ← swaps, ← field]
  constructor
  · intro same
    exact ⟨congrArg SenderTspec.svcLength same, congrArg SenderTspec.paramLength same⟩
  · rintro ⟨svc, param⟩
    rw [svc, param]
    rfl

/-- Two nodes undo each other. -/
theorem relayTspec_relayTspec {w : Bytes} (len : w.length = 32) (words : u16At w 2 = htons 7) :
    relayTspec (relayTspec w) = w := by
  have field : (SenderTspec.ofBytes w).length = htons 7 := words
  have svc : u16At (relayTspec w) 6 = htons (u16At w 6) :=
    congrArg SenderTspec.svcLength (ofBytes_relayTspec w)
  have param : u16At (relayTspec w) 10 = htons (u16At w 10) :=
    congrArg SenderTspec.paramLength (ofBytes_relayTspec w)
  have twice : ∀ v, htons (htons v) = v := bswap16_bswap16
  have same : SenderTspec.ofBytes (relayTspec (relayTspec w)) = SenderTspec.ofBytes w := by
    rw [ofBytes_relayTspec, ofBytes_relayTspec, svc, param, twice, twice, ← field]
    rfl
  rw [← SenderTspec.bytes_ofBytes (length_relayTspec _), same, SenderTspec.bytes_ofBytes len]

/-- After any number of nodes the payload is what it was iff the number is even or one node would
not change it. -/
theorem iterate_relayTspec_eq_self_iff {w : Bytes} (len : w.length = 32)
    (words : u16At w 2 = htons 7) (n : Nat) :
    relayTspec^[n] w = w ↔ n % 2 = 0 ∨ LengthsPalindromic w := by
  induction n using Nat.twoStepInduction with
  | zero => exact ⟨fun _ => .inl rfl, fun _ => rfl⟩
  | one =>
    have odd : ¬ 1 % 2 = 0 := by decide
    rw [Function.iterate_one, relayTspec_eq_self_iff len words, or_iff_right odd]
  | more n ih _ =>
    have parity : (n + 2) % 2 = n % 2 := Nat.add_mod_right n 2
    rw [Function.iterate_add_apply, parity, ← ih]
    change relayTspec^[n] (relayTspec (relayTspec w)) = w ↔ _
    rw [relayTspec_relayTspec len words]

/-! ## Nodes that pass a PATH on -/

/-- The non-zero rate of a specification, which no node replaces by its default. -/
def HasRate (w : Bytes) : Prop := Binary32.isZero (ntohl (u32At w 12)) = false

/-- A node in transit that handles a PATH with the SENDER_TSPEC payload `w` sends one with `w'`. -/
inductive TspecHop (w : Bytes) : Bytes → Prop
  | sent {env : Env} {s : Node} {info info' : MessageInfo} {sent : List Output} {dest : InAddr}
    {useRao : Bool} {bytes : Bytes} {o o' : Obj} :
    info.objs .tspec = some o → o.data = w →
    env.isLocalAddr info.key.session.destAddr = false →
    env.isLocalAddr info.key.sender.sourceAddr = false →
    (handlePathMessage env s info).out = s.out ++ sent → .packet dest useRao bytes ∈ sent →
    rsvpParsePacket bytes = .ok info' → info'.commonHdr.msgType = msgPath →
    info'.objs .tspec = some o' → TspecHop w o'.data

/-- The payload of an ingress after `n` nodes in transit. -/
inductive TspecChain (w : Bytes) : Nat → Bytes → Prop
  | ingress : TspecChain w 0 w
  | hop {n : Nat} {w' w'' : Bytes} : TspecChain w n w' → TspecHop w' w'' → TspecChain w (n + 1) w''

theorem hasRate_relayTspec (w : Bytes) : HasRate (relayTspec w) ↔ HasRate w := by
  have rate : u32At (relayTspec w) 12 = u32At w 12 :=
    congrArg SenderTspec.tokenBucketRate (ofBytes_relayTspec w)
  rw [HasRate, HasRate, rate]

/-- The specification of a PATH with a rate is what its PSB sends on. -/
theorem pathTspec_passedOn {env : Env} {info : MessageInfo} {o : Obj}
    (held : info.objs .tspec = some o) (rate : HasRate o.data) (old : PsbState)
    (ifindex : UInt32) :
    pathTspec (info.passedOn env old ifindex) = tspecCopyAndNtoh (.ofBytes o.data) := by
  have stored : (info.passedOn env old ifindex).tspec = tspecCopyAndNtoh (.ofBytes o.data) := by
    rw [MessageInfo.passedOn, pathUpdate_eq, held]
    rfl
  have nonzero : ¬ Binary32.isZero (tspecCopyAndNtoh (.ofBytes o.data)).tokenBucketRate = true :=
    fun zero => absurd (rate.symm.trans zero) Bool.false_ne_true
  rw [pathTspec, stored]
  exact if_neg nonzero

/-- The SENDER_TSPEC of a PATH that is passed on is what was decoded. -/
theorem PathRelay.tspec_eq {env : Env} {s : Node} {info info' : MessageInfo} {o : Obj}
    (relay : PathRelay env s info info') (held : info.objs .tspec = some o)
    (rate : HasRate o.data) :
    ∃ o', info'.objs .tspec = some o' ∧ o'.data = relayTspec o.data := by
  obtain ⟨-, ifindex, ttl, decodes⟩ := relay.decodes
  obtain ⟨-, -, -, -, first⟩ := firstCall_pathCalls info.key
    (info.passedOn env (s.pathStart info.key) ifindex) (ownAddr env.toHal info.key ifindex) ifindex
  obtain ⟨o', found, data⟩ := decodes.data_eq first
  refine ⟨o', found, data.trans ?_⟩
  rw [tspecCall, pathTspec_passedOn held rate]
  rfl

/-- A node in transit sends on what it decoded. -/
theorem TspecHop.eq {w w' : Bytes} (rate : HasRate w) (hop : TspecHop w w') :
    w' = relayTspec w := by
  cases hop with
  | @sent env s info info' sent dest useRao bytes o o' held data transit foreign logged mem parsed
      type held' =>
    subst data
    have relay : PathRelay env s info info' :=
      ⟨transit, foreign, ⟨sent, dest, useRao, bytes, logged, mem, parsed⟩, type⟩
    obtain ⟨o'', found, same⟩ := relay.tspec_eq held rate
    cases found.symm.trans held'
    exact same

/-- Every PATH that is passed on makes such a step. -/
theorem tspecHop_of_forwarded {env : Env} {s : Node} {info : MessageInfo} {o : Obj}
    (held : info.objs .tspec = some o) (rate : HasRate o.data)
    (transit : env.isLocalAddr info.key.session.destAddr = false)
    (foreign : env.isLocalAddr info.key.sender.sourceAddr = false)
    (forwarded : PathForwarded env s info) : TspecHop o.data (relayTspec o.data) := by
  obtain ⟨info', relay⟩ := exists_pathRelay transit foreign forwarded
  obtain ⟨o', held', same⟩ := relay.tspec_eq held rate
  obtain ⟨-, -, ⟨sent, dest, useRao, bytes, logged, mem, parsed⟩, type⟩ := relay
  rw [← same]
  exact .sent held rfl transit foreign logged mem parsed type held'

/-- Along a chain every node relays the payload of the one before. -/
theorem TspecChain.eq {w w' : Bytes} {n : Nat} (rate : HasRate w) (chain : TspecChain w n w') :
    w' = relayTspec^[n] w ∧ HasRate w' := by
  induction chain with
  | ingress => exact ⟨rfl, rate⟩
  | @hop n w' w'' _ hop ih =>
    obtain ⟨eq, rate'⟩ := ih
    have next := hop.eq rate'
    rw [Function.iterate_succ_apply', ← eq, next, hasRate_relayTspec]
    exact ⟨rfl, rate'⟩

/-- A SENDER_TSPEC is encoded as it was received iff the two lengths of its service data read the
same in both byte orders; after `n` nodes in transit it is what the ingress sent iff that is so or
`n` is even. -/
theorem tspec_relayed_iff {w : Bytes} (len : w.length = 32) (words : u16At w 2 = htons 7) :
    (relayTspec w = w ↔ LengthsPalindromic w) ∧
      (HasRate w → ∀ n w', TspecChain w n w' → (w' = w ↔ n % 2 = 0 ∨ LengthsPalindromic w)) := by
  refine ⟨relayTspec_eq_self_iff len words, fun rate n w' chain => ?_⟩
  rw [(chain.eq rate).1]
  exact iterate_relayTspec_eq_self_iff len words n

/-- The SENDER_TSPEC of an ingress that was given none. -/
def defaultTspec : Bytes := (wireTspec (pathTspec .zero)).bytes

theorem defaultTspec_words : u16At defaultTspec 2 = htons 7 ∧ HasRate defaultTspec ∧
    ¬ LengthsPalindromic defaultTspec := by
  unfold HasRate LengthsPalindromic
  decide +kernel

theorem tspec_relayed_iff_default :
    relayTspec defaultTspec ≠ defaultTspec ∧
      ∀ w', TspecChain defaultTspec 2 w' → w' = defaultTspec := by
  obtain ⟨words, rate, uneven⟩ := defaultTspec_words
  obtain ⟨once, chains⟩ := tspec_relayed_iff (SenderTspec.length_bytes _) words
  exact ⟨fun same => uneven (once.mp same), fun w' chain => (chains rate 2 w' chain).mpr (.inl rfl)⟩

/-- One node in transit changes the specification that an ingress sends by default. -/
theorem exists_tspec_changed : ∃ w w', w.length = 32 ∧ u16At w 2 = htons 7 ∧ HasRate w ∧
    TspecChain w 1 w' ∧ w' = relayTspec w ∧ w' ≠ w := by
  obtain ⟨words, rate, uneven⟩ := defaultTspec_words
  have len : defaultTspec.length = 32 := SenderTspec.length_bytes _
  refine ⟨defaultTspec, _, len, words, rate, .hop .ingress ?_, rfl,
    fun same => uneven ((relayTspec_eq_self_iff len words).mp same)⟩
  let key := sampleKey 0x0200000A 1
  obtain ⟨info, parsed, -, -, -, valid, -⟩ := parse_pathMessage key .zero 0x0900000A 2 0 0 true
  obtain ⟨info', parsed', decodes, -⟩ := parse_pathCalls key .zero 0x0900000A 2 0 0 true
  cases parsed'.symm.trans parsed
  obtain ⟨-, -, -, -, first⟩ := firstCall_pathCalls key .zero 0x0900000A 2
  obtain ⟨o, held, data⟩ := decodes.data_eq first
  have carried : o.data = defaultTspec := data
  rw [← carried] at rate ⊢
  exact tspecHop_of_forwarded held rate rfl rfl (pathForwarded_sample valid)

end Rsvp
