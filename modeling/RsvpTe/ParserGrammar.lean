import RsvpTe.Parser

/-!
# What the parser accepts

`ObjSeq` is the grammar of an RSVP payload: objects one after another, each advancing by its
length rounded up to four, followed by at most three unused bytes or ended by an object whose
padding leaves the message.  `Accepted` adds the header conditions, the unknown-class rule and
the mandatory objects, and `extracted` reads the message information off the object list: the
first object that fits each slot.

`parseObjects_of_objSeq` and `ObjSeq.of_parseObjects` are the two directions of the loop
invariant; `rsvpParsePacket_ok_iff` is the resulting equivalence for whole packets.
-/

namespace Rsvp

open Words

/-! ## Objects on the wire -/

/-- The unpadded length of an object, its header included. -/
def Obj.len (o : Obj) : Nat := objHdrLen + o.data.length

/-- The bytes of an object, without padding. -/
def Obj.wire (o : Obj) : Bytes :=
  bytes16 (htons (UInt16.ofNat o.len)) ++ [o.classNum, o.cType] ++ o.data

@[simp] theorem Obj.length_wire (o : Obj) : o.wire.length = o.len := by
  simp only [Obj.wire, List.length_append, length_bytes16, List.length_cons, List.length_nil,
    Obj.len, objHdrLen]

/-- The grammar of a payload that starts at packet offset `off`. -/
inductive ObjSeq : Nat → Bytes → List Obj → Prop
  | done {off : Nat} {tail : Bytes} : tail.length < objHdrLen → ObjSeq off tail []
  | last {off : Nat} {o : Obj} {pad : Bytes} :
    o.off = off + objHdrLen → o.len < 2 ^ 16 → o.len + pad.length < rsvpAlign o.len →
    ObjSeq off (o.wire ++ pad) [o]
  | next {off : Nat} {o : Obj} {pad rest : Bytes} {objs : List Obj} :
    o.off = off + objHdrLen → o.len < 2 ^ 16 → o.len + pad.length = rsvpAlign o.len →
    ObjSeq (off + rsvpAlign o.len) rest objs → ObjSeq off (o.wire ++ pad ++ rest) (o :: objs)

/-- The four header bytes of an object, as the loop decodes them. -/
theorem Obj.wire_eq (o : Obj) :
    ∃ a b : UInt8, o.wire = [a, b, o.classNum, o.cType] ++ o.data ∧
      (o.len < 2 ^ 16 → (ntohs (le16 a b)).toNat = o.len) := by
  refine ⟨_, _, rfl, fun bound => ?_⟩
  rw [le16_bytes]
  change (bswap16 (bswap16 _)).toNat = _
  rw [bswap16_bswap16, UInt16.toNat_ofNat']
  exact Nat.mod_eq_of_lt bound

/-- Bytes whose length field is in range start with the object that field describes. -/
theorem exists_obj_of_header {bytes : Bytes} (off : Nat) (four : objHdrLen ≤ bytes.length)
    (low : objHdrLen ≤ (ntohs (u16At bytes 0)).toNat)
    (high : (ntohs (u16At bytes 0)).toNat ≤ bytes.length) :
    ∃ (o : Obj) (rest : Bytes), bytes = o.wire ++ rest ∧ o.off = off + objHdrLen ∧
      o.len < 2 ^ 16 := by
  obtain ⟨a, b, c, d, tail, rfl⟩ : ∃ a b c d tail, bytes = a :: b :: c :: d :: tail := by
    rcases bytes with _ | ⟨a, _ | ⟨b, _ | ⟨c, _ | ⟨d, tail⟩⟩⟩⟩
    · exact absurd four (by decide)
    · exact absurd four (Nat.not_le_of_lt (by decide : 1 < 4))
    · exact absurd four (Nat.not_le_of_lt (by decide : 2 < 4))
    · exact absurd four (Nat.not_le_of_lt (by decide : 3 < 4))
    · exact ⟨a, b, c, d, tail, rfl⟩
  have field : u16At (a :: b :: c :: d :: tail) 0 = le16 a b := rfl
  rw [field] at low high
  have dataLen : (tail.take ((ntohs (le16 a b)).toNat - objHdrLen)).length =
      (ntohs (le16 a b)).toNat - objHdrLen := by
    rw [List.length_take]
    simp only [List.length_cons, objHdrLen] at high ⊢
    omega
  refine ⟨⟨c, d, off + objHdrLen, tail.take ((ntohs (le16 a b)).toNat - objHdrLen)⟩,
    tail.drop ((ntohs (le16 a b)).toNat - objHdrLen), ?_, rfl, ?_⟩
  · have len : Obj.len ⟨c, d, off + objHdrLen,
        tail.take ((ntohs (le16 a b)).toNat - objHdrLen)⟩ = (ntohs (le16 a b)).toNat := by
      rw [Obj.len, dataLen]
      omega
    have header : bytes16 (htons (UInt16.ofNat (ntohs (le16 a b)).toNat)) = [a, b] := by
      rw [UInt16.ofNat_toNat]
      change bytes16 (bswap16 (bswap16 _)) = _
      rw [bswap16_bswap16, bytes16_le16]
    rw [Obj.wire, len, header]
    simp only [List.cons_append, List.nil_append, List.take_append_drop]
  · rw [Obj.len, dataLen]
    have bound := (ntohs (le16 a b)).toNat_lt
    omega

/-! ## The object loop -/

/-- One round of the loop at an object of the packet. -/
theorem parseObjects_wire {front back rest : Bytes} {o : Obj} {off : Nat} (fuel : Nat)
    (info : MessageInfo) (at_off : front.length = off) (place : o.off = off + objHdrLen)
    (bound : o.len < 2 ^ 16) :
    parseObjects (front ++ (o.wire ++ rest) ++ back) (fuel + 1) off
        (o.wire ++ rest).length info =
      match dispatchObject info o with
      | .error e => .error e
      | .ok info' =>
        if rsvpAlign o.len > (o.wire ++ rest).length then .ok info'
        else parseObjects (front ++ (o.wire ++ rest) ++ back) fuel (off + rsvpAlign o.len)
          ((o.wire ++ rest).length - rsvpAlign o.len) info' := by
  obtain ⟨a, b, wire, len⟩ := o.wire_eq
  have hdrRead : Buffer.read (front ++ (o.wire ++ rest) ++ back) off objHdrLen =
      some [a, b, o.classNum, o.cType] := by
    have shape : front ++ (o.wire ++ rest) ++ back =
        front ++ [a, b, o.classNum, o.cType] ++ (o.data ++ rest ++ back) := by
      rw [wire]
      simp only [List.append_assoc]
    rw [shape]
    exact Buffer.read_append at_off rfl
  have dataRead : Buffer.read (front ++ (o.wire ++ rest) ++ back) (off + objHdrLen)
      (o.len - objHdrLen) = some o.data := by
    have shape : front ++ (o.wire ++ rest) ++ back =
        (front ++ [a, b, o.classNum, o.cType]) ++ o.data ++ (rest ++ back) := by
      rw [wire]
      simp only [List.append_assoc]
    rw [shape]
    exact Buffer.read_append (by rw [List.length_append, at_off]; rfl)
      (by rw [Obj.len]; omega)
  have total : (o.wire ++ rest).length = o.len + rest.length := by
    rw [List.length_append, Obj.length_wire]
  have enough : ¬ (o.wire ++ rest).length < objHdrLen := by
    rw [total, Obj.len]
    omega
  have inRange : ¬ (o.len < objHdrLen ∨ o.len > (o.wire ++ rest).length) := by
    rw [total, Obj.len]
    omega
  have positive : ¬ rsvpAlign o.len = 0 := by
    have := le_rsvpAlign o.len
    rw [Obj.len, objHdrLen] at this ⊢
    omega
  have lenField : (ntohs (u16At [a, b, o.classNum, o.cType] 0)).toNat = o.len := len bound
  have object : (⟨u8At [a, b, o.classNum, o.cType] 2, u8At [a, b, o.classNum, o.cType] 3,
      off + objHdrLen, o.data⟩ : Obj) = o := by
    rw [← place]
    rfl
  rw [parseObjects, if_neg enough, hdrRead]
  cases dispatched : dispatchObject info o with
  | error e => simp only [lenField, if_neg inRange, dataRead, object, dispatched]
  | ok info' => simp only [lenField, if_neg inRange, dataRead, object, if_neg positive, dispatched]

/-- A payload of the grammar drives the loop through exactly its objects. -/
theorem parseObjects_of_objSeq {off : Nat} {payload : Bytes} {objs : List Obj}
    (seq : ObjSeq off payload objs) :
    ∀ {front back : Bytes} {fuel : Nat} {info info' : MessageInfo}, front.length = off →
      payload.length ≤ fuel → objs.foldlM dispatchObject info = .ok info' →
      parseObjects (front ++ payload ++ back) fuel off payload.length info = .ok info' := by
  induction seq with
  | done short =>
    intro front back fuel info info' _ _ fold
    cases fold
    cases fuel with
    | zero => rfl
    | succ fuel => rw [parseObjects, if_pos short]
  | @last off o pad place bound beyond =>
    intro front back fuel info info' at_off enough fold
    obtain ⟨fuel, rfl⟩ : ∃ n, fuel = n + 1 := by
      rw [List.length_append, Obj.length_wire, Obj.len, objHdrLen] at enough
      exact ⟨fuel - 1, by omega⟩
    have step : dispatchObject info o = .ok info' := by
      simpa only [List.foldlM_cons, List.foldlM_nil, bind_pure] using fold
    rw [parseObjects_wire fuel info at_off place bound, step]
    simp only [List.length_append, Obj.length_wire]
    rw [if_pos beyond]
  | @next off o pad rest objs place bound exact_pad _ ih =>
    intro front back fuel info info' at_off enough fold
    have total : (o.wire ++ pad ++ rest).length = rsvpAlign o.len + rest.length := by
      simp only [List.length_append, Obj.length_wire]
      omega
    have positive : objHdrLen ≤ rsvpAlign o.len :=
      Nat.le_trans (by rw [Obj.len]; omega) (le_rsvpAlign o.len)
    obtain ⟨fuel, rfl⟩ : ∃ n, fuel = n + 1 := by
      rw [total] at enough
      rw [objHdrLen] at positive
      exact ⟨fuel - 1, by omega⟩
    rw [List.foldlM_cons] at fold
    cases dispatched : dispatchObject info o with
    | error e =>
      rw [dispatched] at fold
      cases fold
    | ok mid =>
      rw [dispatched] at fold
      have again : parseObjects (front ++ (o.wire ++ pad) ++ rest ++ back) fuel
          (off + rsvpAlign o.len) rest.length mid = .ok info' :=
        ih (by rw [List.length_append, at_off, List.length_append, Obj.length_wire, exact_pad])
          (by rw [total] at enough; rw [objHdrLen] at positive; omega) fold
      have shape : front ++ (o.wire ++ pad) ++ rest ++ back =
          front ++ (o.wire ++ (pad ++ rest)) ++ back := by
        simp only [List.append_assoc]
      rw [shape] at again
      rw [List.append_assoc o.wire, parseObjects_wire fuel info at_off place bound, dispatched]
      rw [← List.append_assoc o.wire, total]
      simp only
      rw [if_neg (by omega), Nat.add_sub_cancel_left, List.append_assoc o.wire]
      exact again

/-- The loop succeeds only on payloads of the grammar. -/
theorem ObjSeq.of_parseObjects :
    ∀ {fuel off : Nat} {front payload back : Bytes} {info info' : MessageInfo},
      front.length = off → payload.length ≤ fuel →
      parseObjects (front ++ payload ++ back) fuel off payload.length info = .ok info' →
      ∃ objs, ObjSeq off payload objs ∧ objs.foldlM dispatchObject info = .ok info' := by
  intro fuel
  induction fuel with
  | zero =>
    intro off front payload back info info' _ enough run
    cases run
    exact ⟨[], .done (by rw [objHdrLen]; omega), rfl⟩
  | succ fuel ih =>
    intro off front payload back info info' at_off enough run
    by_cases short : payload.length < objHdrLen
    · rw [parseObjects, if_pos short] at run
      cases run
      exact ⟨[], .done short, rfl⟩
    have four : objHdrLen ≤ payload.length := by omega
    have hdrRead : Buffer.read (front ++ payload ++ back) off objHdrLen =
        some (payload.take objHdrLen) := by
      have shape : front ++ payload ++ back =
          front ++ payload.take objHdrLen ++ (payload.drop objHdrLen ++ back) := by
        simp only [List.append_assoc]
        rw [← List.append_assoc (payload.take _), List.take_append_drop]
      rw [shape]
      exact Buffer.read_append at_off (by rw [List.length_take]; omega)
    have lenField : u16At (payload.take objHdrLen) 0 = u16At payload 0 := by
      rcases payload with _ | ⟨a, _ | ⟨b, _⟩⟩ <;> rfl
    by_cases range : (ntohs (u16At payload 0)).toNat < objHdrLen ∨
        (ntohs (u16At payload 0)).toNat > payload.length
    · rw [parseObjects, if_neg short, hdrRead] at run
      simp only [lenField, if_pos range] at run
      cases run
    obtain ⟨o, rest, rfl, place, bound⟩ :=
      exists_obj_of_header off four (by omega) (by omega)
    rw [parseObjects_wire fuel info at_off place bound] at run
    cases dispatched : dispatchObject info o with
    | error e =>
      rw [dispatched] at run
      cases run
    | ok mid =>
      rw [dispatched] at run
      simp only at run
      by_cases beyond : rsvpAlign o.len > (o.wire ++ rest).length
      · rw [if_pos beyond] at run
        cases run
        refine ⟨[o], .last place bound ?_, ?_⟩
        · rwa [List.length_append, Obj.length_wire] at beyond
        · rw [List.foldlM_cons, dispatched]
          rfl
      · rw [if_neg beyond, List.length_append, Obj.length_wire] at run
        rw [List.length_append, Obj.length_wire] at beyond enough
        have ge := le_rsvpAlign o.len
        -- The round consumes the object and its padding; the rest is a shorter payload.
        obtain ⟨pad, rest, rfl, padLen⟩ : ∃ pad rest', rest = pad ++ rest' ∧
            o.len + pad.length = rsvpAlign o.len :=
          ⟨rest.take (rsvpAlign o.len - o.len), rest.drop (rsvpAlign o.len - o.len),
            (List.take_append_drop _ _).symm, by rw [List.length_take]; omega⟩
        have left : o.len + (pad ++ rest).length - rsvpAlign o.len = rest.length := by
          rw [List.length_append]
          omega
        have shape : front ++ (o.wire ++ (pad ++ rest)) ++ back =
            (front ++ (o.wire ++ pad)) ++ rest ++ back := by
          simp only [List.append_assoc]
        rw [left, shape] at run
        have four' : objHdrLen ≤ o.len := by rw [Obj.len]; omega
        obtain ⟨objs, seq, fold⟩ := ih
          (by rw [List.length_append, at_off, List.length_append, Obj.length_wire, padLen])
          (by rw [List.length_append] at enough; rw [objHdrLen] at four'; omega) run
        refine ⟨o :: objs, ?_, ?_⟩
        · rw [← List.append_assoc]
          exact .next place bound padLen seq
        · rw [List.foldlM_cons, dispatched]
          exact fold

/-! ## The first object that fits -/

/-- `o` neither rejects the message nor is unknown to the dispatch below class 128. -/
def Obj.known (o : Obj) : Prop := slotOfClass o.classNum = none → 128 ≤ o.classNum

/-- What the dispatch does with an object that does not reject the message. -/
def MessageInfo.take (info : MessageInfo) (o : Obj) : MessageInfo :=
  match slotOfClass o.classNum with
  | none => info
  | some k => if info.objs k = none ∧ o.fits k then info.store k o else info

theorem dispatchObject_eq (info : MessageInfo) (o : Obj) :
    dispatchObject info o =
      if slotOfClass o.classNum = none ∧ o.classNum < 128 then .error .unknownClass
      else .ok (info.take o) := by
  unfold dispatchObject MessageInfo.take
  cases slot : slotOfClass o.classNum with
  | none => simp only [true_and]
  | some k =>
    cases held : info.objs k with
    | none =>
      simp only [held, Option.isSome_none, Obj.fits, slot, reduceCtorEq, false_and, ↓reduceIte,
        true_and, decide_eq_true_eq, Bool.false_eq_true]
      split <;> rfl
    | some q => simp [held]

/-- The dispatch folds to the end exactly over objects that are all known. -/
theorem foldlM_dispatchObject_iff (objs : List Obj) (info info' : MessageInfo) :
    objs.foldlM dispatchObject info = .ok info' ↔
      (∀ o ∈ objs, o.known) ∧ info' = objs.foldl MessageInfo.take info := by
  induction objs generalizing info with
  | nil =>
    constructor
    · intro fold
      cases fold
      exact ⟨fun _ mem => (List.not_mem_nil mem).elim, rfl⟩
    · rintro ⟨-, rfl⟩
      rfl
  | cons o objs ih =>
    rw [List.foldlM_cons, dispatchObject_eq]
    by_cases unknown : slotOfClass o.classNum = none ∧ o.classNum < 128
    · rw [if_pos unknown]
      constructor
      · intro fold
        cases fold
      · rintro ⟨known, -⟩
        have := known o List.mem_cons_self unknown.1
        exact absurd unknown.2 (UInt8.not_lt.mpr this)
    · rw [if_neg unknown]
      have known : o.known := fun none => by
        by_contra below
        exact unknown ⟨none, UInt8.not_le.mp below⟩
      change List.foldlM dispatchObject (info.take o) objs = _ ↔ _
      rw [ih, List.foldl_cons, List.forall_mem_cons, and_iff_right known]

/-- The first object that fits slot `k`. -/
def firstFit (objs : List Obj) (k : Slot) : Option Obj := objs.find? (·.fits k)

theorem firstFit_cons (o : Obj) (objs : List Obj) (k : Slot) :
    firstFit (o :: objs) k = if o.fits k = true then some o else firstFit objs k := by
  rw [firstFit, List.find?_cons]
  cases o.fits k <;> rfl

theorem Obj.fits_slot {o : Obj} {k : Slot} (fit : o.fits k = true) :
    slotOfClass o.classNum = some k := by
  simp only [Obj.fits, decide_eq_true_eq] at fit
  exact fit.1

/-- Storing an object fills its slot and no other. -/
theorem MessageInfo.objs_store (info : MessageInfo) (k : Slot) (o : Obj) :
    (info.store k o).objs = Function.update info.objs k (some o) := by
  cases k <;> simp only [MessageInfo.store]
  split <;> rfl

theorem MessageInfo.objs_take (info : MessageInfo) (o : Obj) (k : Slot) :
    (info.take o).objs k = (info.objs k).or (if o.fits k then some o else none) := by
  unfold MessageInfo.take
  cases slot : slotOfClass o.classNum with
  | none =>
    have unfit : o.fits k = false := by
      simp only [Obj.fits, slot, reduceCtorEq, false_and, decide_false]
    simp [unfit]
  | some j =>
    by_cases same : j = k
    · subst same
      by_cases open_fit : info.objs j = none ∧ o.fits j = true
      · simp only
        rw [if_pos open_fit, MessageInfo.objs_store, Function.update_self, open_fit.1,
          if_pos open_fit.2, Option.none_or]
      · simp only [if_neg open_fit]
        cases held : info.objs j with
        | none =>
          have unfit : ¬ o.fits j = true := fun fit => open_fit ⟨held, fit⟩
          simp [unfit]
        | some q => rfl
    · have unfit : o.fits k = false := by
        simp only [Obj.fits, slot, Option.some.injEq, same, false_and, decide_false]
      simp only [unfit, Bool.false_eq_true, if_false, Option.or_none]
      split
      · rw [MessageInfo.objs_store, Function.update_of_ne (Ne.symm same)]
      · rfl

/-- First match: a slot holds what it held, or else the first object that fits it. -/
theorem objs_foldl_take (objs : List Obj) (info : MessageInfo) (k : Slot) :
    (objs.foldl MessageInfo.take info).objs k = (info.objs k).or (firstFit objs k) := by
  induction objs generalizing info with
  | nil => simp [firstFit]
  | cons o objs ih =>
    rw [List.foldl_cons, ih, MessageInfo.objs_take, Option.or_assoc, firstFit_cons]
    cases o.fits k <;> rfl

/-- What is copied out when slot `k` is filled comes from the first object that fits it. -/
theorem copied_foldl_take {β : Type} (g : MessageInfo → β) (k : Slot) (v : Obj → β) (d : β)
    (step : ∀ info o, (info.objs k = none → g info = d) →
      g (info.take o) = if info.objs k = none ∧ o.fits k = true then v o else g info)
    (objs : List Obj) (info : MessageInfo) (start : info.objs k = none → g info = d) :
    g (objs.foldl MessageInfo.take info) =
      if info.objs k = none then ((firstFit objs k).map v).getD d else g info := by
  induction objs generalizing info with
  | nil =>
    simp only [List.foldl_nil, firstFit, List.find?_nil, Option.map_none, Option.getD_none]
    split
    · exact start ‹_›
    · rfl
  | cons o objs ih =>
    have filled := info.objs_take o k
    have next : (info.take o).objs k = none → g (info.take o) = d := by
      intro none
      rw [filled, Option.or_eq_none_iff] at none
      have unfit : ¬ o.fits k = true := fun fit => by simp [fit] at none
      rw [step info o start, if_neg (fun h => unfit h.2)]
      exact start none.1
    rw [List.foldl_cons, ih _ next, step info o start, filled, firstFit_cons]
    cases held : info.objs k with
    | some q => simp
    | none => cases o.fits k <;> simp

/-! ## Accepted packets -/

/-- The RSVP common header behind the IP header. -/
def rsvpHdr (buffer : Bytes) : CommonHdr := .ofBytes (buffer.drop (ipHdrLen buffer))

/-- The length field of the common header. -/
def rsvpLen (buffer : Bytes) : Nat := (ntohs (rsvpHdr buffer).length).toNat

/-- The RSVP message: the bytes the length field covers. -/
def rsvpMessage (buffer : Bytes) : Bytes := (buffer.drop (ipHdrLen buffer)).take (rsvpLen buffer)

/-- The conditions on the IP header, the common header and the checksum. -/
structure Headers (buffer : Bytes) : Prop where
  ipHeader : 20 ≤ buffer.length
  ihl : 20 ≤ ipHdrLen buffer ∧ ipHdrLen buffer ≤ buffer.length
  commonHeader : ipHdrLen buffer + 8 ≤ buffer.length
  lengthField : 8 ≤ rsvpLen buffer ∧ ipHdrLen buffer + rsvpLen buffer ≤ buffer.length
  version : (rsvpHdr buffer).verFlags >>> 4 = 1
  checksum : (rsvpHdr buffer).checksum = 0 ∨ rsvpChecksumVerify (rsvpMessage buffer) = 0

/-- A packet the parser must accept, with the objects of its payload. -/
structure Accepted (buffer : Bytes) (objs : List Obj) : Prop extends Headers buffer where
  payload : ObjSeq (ipHdrLen buffer + 8) ((rsvpMessage buffer).drop 8) objs
  known : ∀ o ∈ objs, o.known
  mandatory : ∀ k ∈ mandatorySlots (rsvpHdr buffer).msgType, ∃ o ∈ objs, o.fits k = true

/-- The message information of an accepted packet, read off its object list. -/
def extracted (buffer : Bytes) (objs : List Obj) : MessageInfo where
  commonHdr := rsvpHdr buffer
  srcIp := u32At buffer 12
  dstIp := u32At buffer 16
  key := ⟨((firstFit objs .sessV4).map (SessionIpv4.ofBytes ·.data)).getD PathKey.zero.session,
    ((firstFit objs .senderV4).map (SenderIpv4.ofBytes ·.data)).getD PathKey.zero.sender⟩
  payload := ipHdrLen buffer + 8
  payloadLen := rsvpLen buffer - 8
  objs := firstFit objs
  helloCtype := ((firstFit objs .helloObj).map (·.cType)).getD 0
  lspName := ((firstFit objs .sessAttr).map (sessAttrName ·.data)).getD []

theorem MessageInfo.take_eq (info : MessageInfo) (o : Obj) (k : Slot)
    (slot : slotOfClass o.classNum = some k) :
    info.take o = if info.objs k = none ∧ o.fits k = true then info.store k o else info := by
  rw [MessageInfo.take, slot]

/-- An object that fits another slot, or none, copies nothing for slot `k`. -/
theorem copied_take {β : Type} (g : MessageInfo → β) (k : Slot) (v : Obj → β) (d : β)
    (own : ∀ info o, info.objs k = none → g info = d → g (info.store k o) = v o)
    (other : ∀ info j o, j ≠ k → g (info.store j o) = g info) (info : MessageInfo) (o : Obj)
    (start : info.objs k = none → g info = d) :
    g (info.take o) = if info.objs k = none ∧ o.fits k = true then v o else g info := by
  cases slot : slotOfClass o.classNum with
  | none =>
    have unfit : ¬ o.fits k = true := fun fit => by
      have := Obj.fits_slot fit
      rw [slot] at this
      cases this
    rw [if_neg (fun h => unfit h.2), MessageInfo.take, slot]
  | some j =>
    rw [info.take_eq o j slot]
    by_cases same : j = k
    · subst same
      split
      · exact own info o (‹_ ∧ _›).1 (start (‹_ ∧ _›).1)
      · rfl
    · have unfit : ¬ o.fits k = true := fun fit => by
        have := Obj.fits_slot fit
        rw [slot, Option.some.injEq] at this
        exact same this
      rw [if_neg (fun h : info.objs k = none ∧ o.fits k = true => unfit h.2)]
      split
      · exact other info j o same
      · rfl

/-- Storing an object copies something for its own slot only. -/
theorem MessageInfo.store_copies (info : MessageInfo) (k : Slot) (o : Obj) :
    (k ≠ .sessV4 → (info.store k o).key.session = info.key.session) ∧
      (k ≠ .senderV4 → (info.store k o).key.sender = info.key.sender) ∧
      (k ≠ .helloObj → (info.store k o).helloCtype = info.helloCtype) ∧
      (k ≠ .sessAttr → (info.store k o).lspName = info.lspName) := by
  cases k <;> simp [MessageInfo.store]
  split <;> simp

/-- Storing an object leaves the header fields alone. -/
theorem MessageInfo.store_headers (info : MessageInfo) (k : Slot) (o : Obj) :
    (info.store k o).commonHdr = info.commonHdr ∧ (info.store k o).srcIp = info.srcIp ∧
      (info.store k o).dstIp = info.dstIp ∧ (info.store k o).payload = info.payload ∧
      (info.store k o).payloadLen = info.payloadLen := by
  cases k <;> simp [MessageInfo.store]
  split <;> simp

theorem foldl_take_headers (objs : List Obj) (info : MessageInfo) :
    let info' := objs.foldl MessageInfo.take info
    info'.commonHdr = info.commonHdr ∧ info'.srcIp = info.srcIp ∧ info'.dstIp = info.dstIp ∧
      info'.payload = info.payload ∧ info'.payloadLen = info.payloadLen := by
  induction objs generalizing info with
  | nil => exact ⟨rfl, rfl, rfl, rfl, rfl⟩
  | cons o objs ih =>
    obtain ⟨h₁, h₂, h₃, h₄, h₅⟩ := ih (info.take o)
    have one : (info.take o).commonHdr = info.commonHdr ∧ (info.take o).srcIp = info.srcIp ∧
        (info.take o).dstIp = info.dstIp ∧ (info.take o).payload = info.payload ∧
        (info.take o).payloadLen = info.payloadLen := by
      unfold MessageInfo.take
      split
      · exact ⟨rfl, rfl, rfl, rfl, rfl⟩
      · split
        · exact info.store_headers _ o
        · exact ⟨rfl, rfl, rfl, rfl, rfl⟩
    obtain ⟨g₁, g₂, g₃, g₄, g₅⟩ := one
    exact ⟨h₁.trans g₁, h₂.trans g₂, h₃.trans g₃, h₄.trans g₄, h₅.trans g₅⟩

theorem lspName_store_sessAttr {info : MessageInfo} (o : Obj) (blank : info.lspName = []) :
    (info.store .sessAttr o).lspName = sessAttrName o.data := by
  simp only [MessageInfo.store]
  split
  · rfl
  · rename_i zero
    have unnamed : u8At o.data 3 = 0 := by simpa using zero
    simp [sessAttrName, unnamed, blank]

/-- Reading all objects of an accepted packet yields exactly the extracted information. -/
theorem foldl_take_ofHeaders (buffer : Bytes) (objs : List Obj) :
    objs.foldl MessageInfo.take (.ofHeaders buffer (rsvpHdr buffer)) = extracted buffer objs := by
  have session := copied_foldl_take (·.key.session) .sessV4 (SessionIpv4.ofBytes ·.data)
    PathKey.zero.session
    (copied_take _ _ _ _ (fun _ _ _ _ => rfl) (fun info j o => (info.store_copies j o).1))
    objs (.ofHeaders buffer (rsvpHdr buffer)) (fun _ => rfl)
  have sender := copied_foldl_take (·.key.sender) .senderV4 (SenderIpv4.ofBytes ·.data)
    PathKey.zero.sender
    (copied_take _ _ _ _ (fun _ _ _ _ => rfl) (fun info j o => (info.store_copies j o).2.1))
    objs (.ofHeaders buffer (rsvpHdr buffer)) (fun _ => rfl)
  have hello := copied_foldl_take (·.helloCtype) .helloObj (·.cType) 0
    (copied_take _ _ _ _ (fun _ _ _ _ => rfl) (fun info j o => (info.store_copies j o).2.2.1))
    objs (.ofHeaders buffer (rsvpHdr buffer)) (fun _ => rfl)
  have name := copied_foldl_take (·.lspName) .sessAttr (sessAttrName ·.data) []
    (copied_take _ _ _ _ (fun _ o _ blank => lspName_store_sessAttr o blank)
      (fun info j o => (info.store_copies j o).2.2.2))
    objs (.ofHeaders buffer (rsvpHdr buffer)) (fun _ => rfl)
  obtain ⟨hdr, src, dst, payload, payloadLen⟩ :=
    foldl_take_headers objs (.ofHeaders buffer (rsvpHdr buffer))
  have slots : (objs.foldl MessageInfo.take (.ofHeaders buffer (rsvpHdr buffer))).objs =
      firstFit objs := by
    funext k
    rw [objs_foldl_take]
    exact Option.none_or
  have key : (objs.foldl MessageInfo.take (.ofHeaders buffer (rsvpHdr buffer))).key =
      (extracted buffer objs).key :=
    congrArg₂ PathKey.mk session sender
  exact MessageInfo.ext hdr src dst key payload payloadLen slots hello name

theorem u8At_take (d : Bytes) {i n : Nat} (inside : i < n) : u8At (d.take n) i = u8At d i := by
  simp only [u8At, List.getD_eq_getElem?_getD, List.getElem?_take, if_pos inside]

theorem CommonHdr.ofBytes_take (d : Bytes) :
    CommonHdr.ofBytes (d.take commonHdrLen) = CommonHdr.ofBytes d := by
  simp only [CommonHdr.ofBytes, u16At, commonHdrLen]
  rw [u8At_take d (by omega), u8At_take d (by omega), u8At_take d (by omega),
    u8At_take d (by omega), u8At_take d (by omega), u8At_take d (by omega),
    u8At_take d (by omega), u8At_take d (by omega)]

/-- A slot is filled exactly when some object fits it. -/
theorem firstFit_isSome_iff (objs : List Obj) (k : Slot) :
    (firstFit objs k).isSome = true ↔ ∃ o ∈ objs, o.fits k = true :=
  List.find?_isSome

theorem read_commonHdr {buffer : Bytes} (room : ipHdrLen buffer + 8 ≤ buffer.length) :
    Buffer.read buffer (ipHdrLen buffer) commonHdrLen =
      some ((buffer.drop (ipHdrLen buffer)).take commonHdrLen) :=
  Buffer.read_of_le room

/-- Past the header checks the result is that of the object loop and the mandatory check. -/
theorem rsvpParsePacket_of_headers {buffer : Bytes} (h : Headers buffer) :
    rsvpParsePacket buffer =
      match parseObjects buffer (rsvpLen buffer - 8) (ipHdrLen buffer + 8) (rsvpLen buffer - 8)
        (.ofHeaders buffer (rsvpHdr buffer)) with
      | .ok info =>
        if (mandatorySlots (rsvpHdr buffer).msgType).all fun k => (info.objs k).isSome then
          .ok info
        else .error .malformedObj
      | r => r := by
  obtain ⟨ipHeader, ihl, commonHeader, lengthField, version, checksum⟩ := h
  have hdr : CommonHdr.ofBytes ((buffer.drop (ipHdrLen buffer)).take commonHdrLen) =
      rsvpHdr buffer := CommonHdr.ofBytes_take _
  have len : (ntohs (rsvpHdr buffer).length).toNat = rsvpLen buffer := rfl
  have msg : Buffer.read buffer (ipHdrLen buffer) (rsvpLen buffer) = some (rsvpMessage buffer) :=
    Buffer.read_of_le lengthField.2
  have verified : ¬ ((rsvpHdr buffer).checksum ≠ 0 ∧
      rsvpChecksumVerify (rsvpMessage buffer) ≠ 0) := by
    rintro ⟨nonzero, failed⟩
    rcases checksum with zero | ok
    · exact nonzero zero
    · exact failed ok
  have versionOk : ¬ (rsvpHdr buffer).verFlags >>> 4 ≠ rsvpVersion := fun ne => ne version
  rw [rsvpParsePacket, if_neg (by rw [iphdrLen]; omega), if_neg (by rw [iphdrLen]; omega),
    if_neg (by rw [commonHdrLen]; omega), read_commonHdr commonHeader]
  simp only [hdr, len]
  rw [if_neg (by rw [commonHdrLen]; omega), if_neg (by omega), if_neg versionOk, msg]
  simp only
  rw [if_neg verified]
  rfl

/-- A packet that parses passed every header check. -/
theorem Headers.of_ok {buffer : Bytes} {info : MessageInfo}
    (run : rsvpParsePacket buffer = .ok info) : Headers buffer := by
  rw [rsvpParsePacket] at run
  by_cases ipHeader : buffer.length < iphdrLen
  · rw [if_pos ipHeader] at run
    cases run
  rw [if_neg ipHeader] at run
  by_cases ihl : ipHdrLen buffer < iphdrLen ∨ ipHdrLen buffer > buffer.length
  · rw [if_pos ihl] at run
    cases run
  rw [if_neg ihl] at run
  by_cases commonHeader : buffer.length < ipHdrLen buffer + commonHdrLen
  · rw [if_pos commonHeader] at run
    cases run
  have room : ipHdrLen buffer + 8 ≤ buffer.length := by
    rw [commonHdrLen] at commonHeader
    omega
  have hdr : CommonHdr.ofBytes ((buffer.drop (ipHdrLen buffer)).take commonHdrLen) =
      rsvpHdr buffer := CommonHdr.ofBytes_take _
  have len : (ntohs (rsvpHdr buffer).length).toNat = rsvpLen buffer := rfl
  rw [if_neg commonHeader, read_commonHdr room] at run
  simp only [hdr, len] at run
  by_cases small : rsvpLen buffer < commonHdrLen
  · rw [if_pos small] at run
    cases run
  rw [if_neg small] at run
  by_cases large : ipHdrLen buffer + rsvpLen buffer > buffer.length
  · rw [if_pos large] at run
    cases run
  rw [if_neg large] at run
  by_cases version : (rsvpHdr buffer).verFlags >>> 4 = rsvpVersion
  case neg =>
    rw [if_pos version] at run
    cases run
  have msg : Buffer.read buffer (ipHdrLen buffer) (rsvpLen buffer) = some (rsvpMessage buffer) :=
    Buffer.read_of_le (by omega)
  rw [if_neg (fun ne => ne version), msg] at run
  simp only at run
  by_cases checksum : (rsvpHdr buffer).checksum ≠ 0 ∧ rsvpChecksumVerify (rsvpMessage buffer) ≠ 0
  · rw [if_pos checksum] at run
    cases run
  rw [iphdrLen] at ipHeader ihl
  rw [commonHdrLen] at small
  refine ⟨by omega, by omega, room, by omega, version, ?_⟩
  by_contra failed
  exact checksum (not_or.mp failed)

/-- The packet around its payload. -/
theorem Headers.split {buffer : Bytes} (h : Headers buffer) :
    ∃ front back : Bytes, buffer = front ++ (rsvpMessage buffer).drop 8 ++ back ∧
      front.length = ipHdrLen buffer + 8 ∧
      ((rsvpMessage buffer).drop 8).length = rsvpLen buffer - 8 := by
  have fits := h.lengthField
  have msgLen : (rsvpMessage buffer).length = rsvpLen buffer := by
    rw [rsvpMessage, List.length_take, List.length_drop]
    omega
  refine ⟨buffer.take (ipHdrLen buffer + 8), buffer.drop (ipHdrLen buffer + rsvpLen buffer),
    ?_, ?_, ?_⟩
  · have payload : (rsvpMessage buffer).drop 8 =
        (buffer.drop (ipHdrLen buffer + 8)).take (rsvpLen buffer - 8) := by
      rw [rsvpMessage, List.drop_take, List.drop_drop]
    have tail : buffer.drop (ipHdrLen buffer + rsvpLen buffer) =
        (buffer.drop (ipHdrLen buffer + 8)).drop (rsvpLen buffer - 8) := by
      rw [List.drop_drop]
      congr 1
      omega
    rw [payload, tail, List.append_assoc, List.take_append_drop, List.take_append_drop]
  · rw [List.length_take]
    exact Nat.min_eq_left h.commonHeader
  · rw [List.length_drop, msgLen]

/-- Whatever the parser accepts is of the grammar. -/
theorem Accepted.of_ok {buffer : Bytes} {info : MessageInfo}
    (run : rsvpParsePacket buffer = .ok info) :
    ∃ objs, Accepted buffer objs ∧ info = extracted buffer objs := by
  have h := Headers.of_ok run
  obtain ⟨front, back, shape, frontLen, payloadLen⟩ := h.split
  rw [rsvpParsePacket_of_headers h] at run
  cases loop : parseObjects buffer (rsvpLen buffer - 8) (ipHdrLen buffer + 8)
      (rsvpLen buffer - 8) (.ofHeaders buffer (rsvpHdr buffer)) with
  | error e => rw [loop] at run; cases run
  | fault => rw [loop] at run; cases run
  | ok read =>
    rw [loop] at run
    simp only at run
    split at run
    case isFalse => cases run
    rename_i present
    cases run
    have framed : parseObjects (front ++ (rsvpMessage buffer).drop 8 ++ back)
        (rsvpLen buffer - 8) (ipHdrLen buffer + 8) ((rsvpMessage buffer).drop 8).length
        (.ofHeaders buffer (rsvpHdr buffer)) = .ok info := by
      rw [← shape, payloadLen]
      exact loop
    obtain ⟨objs, payload, fold⟩ :=
      ObjSeq.of_parseObjects frontLen (Nat.le_of_eq payloadLen) framed
    obtain ⟨known, rfl⟩ := (foldlM_dispatchObject_iff _ _ _).mp fold
    rw [foldl_take_ofHeaders] at present ⊢
    refine ⟨objs, ⟨h, payload, known, ?_⟩, rfl⟩
    intro k mandatory
    exact (firstFit_isSome_iff objs k).mp (List.all_eq_true.mp present k mandatory)

/-- Whatever is of the grammar is accepted, with the information read off its objects. -/
theorem Accepted.parse {buffer : Bytes} {objs : List Obj} (accepted : Accepted buffer objs) :
    rsvpParsePacket buffer = .ok (extracted buffer objs) := by
  obtain ⟨front, back, shape, frontLen, payloadLen⟩ := accepted.toHeaders.split
  have fold : objs.foldlM dispatchObject (.ofHeaders buffer (rsvpHdr buffer)) =
      .ok (extracted buffer objs) :=
    (foldlM_dispatchObject_iff _ _ _).mpr
      ⟨accepted.known, (foldl_take_ofHeaders buffer objs).symm⟩
  have loop : parseObjects (front ++ (rsvpMessage buffer).drop 8 ++ back)
      (rsvpLen buffer - 8) (ipHdrLen buffer + 8) ((rsvpMessage buffer).drop 8).length
      (.ofHeaders buffer (rsvpHdr buffer)) = .ok (extracted buffer objs) :=
    parseObjects_of_objSeq accepted.payload frontLen (Nat.le_of_eq payloadLen) fold
  rw [← shape, payloadLen] at loop
  have present : (mandatorySlots (rsvpHdr buffer).msgType).all
      (fun k => ((extracted buffer objs).objs k).isSome) = true :=
    List.all_eq_true.mpr fun k mandatory =>
      (firstFit_isSome_iff objs k).mpr (accepted.mandatory k mandatory)
  rw [rsvpParsePacket_of_headers accepted.toHeaders, loop]
  simp only
  rw [if_pos present]

/-- The parser accepts exactly its grammar, and extracts for every slot the first object that
fits it. -/
theorem rsvpParsePacket_ok_iff (buffer : Bytes) (info : MessageInfo) :
    rsvpParsePacket buffer = .ok info ↔
      ∃ objs, Accepted buffer objs ∧ info = extracted buffer objs := by
  constructor
  · exact Accepted.of_ok
  · rintro ⟨objs, accepted, rfl⟩
    exact accepted.parse

end Rsvp
