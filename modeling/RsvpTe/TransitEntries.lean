import RsvpTe.RevertedLink
import RsvpTe.Advertised

/-!
# Entries of transit LSPs

An LSP with a previous hop has a swap under its incoming label.  It is written when a RESV is
programmed and when an LSP is taken back from its bypass, and each time from the RSB.  `KeepsSwaps`
says that every swap is either what its RSB says, or was there before with the same RSB fields and
the same entry; the RSBs that count are those whose key is in `created`.
-/

namespace Rsvp

open Words Scan

variable {env : Env} {s s' s'' : Node} {info : MessageInfo} {created : PathKey → Prop}

/-- The entry of a label is written under this label only. -/
theorem fwdKey_eq_label_iff {inLabel label : UInt32} {dest : InAddr} :
    fwdKey inLabel dest = .label label ↔ inLabel ≠ 0 ∧ inLabel = label := by
  unfold fwdKey
  split
  · rename_i zero
    exact ⟨fun same => (by cases same), fun both => absurd zero both.1⟩
  · rename_i pos
    exact ⟨fun same => ⟨pos, FwdKey.label.inj same⟩, fun both => congrArg _ both.2⟩

/-- LSP `b` with RSB `r` has a previous hop and is not on a bypass. -/
structure Swapping (s : Node) (b : Psb) (r : Rsb) : Prop where
  memb : b ∈ s.psbs
  memr : r ∈ s.rsbs
  key : r.key = b.key
  transit : b.body.prevHop.neighborAddr ≠ 0
  inactive : b.body.frrActive = false

theorem Swapping.of_mem {b : Psb} {r : Rsb} (swapping : Swapping s' b r) (memb : b ∈ s.psbs)
    (memr : r ∈ s.rsbs) : Swapping s b r :=
  ⟨memb, memr, swapping.key, swapping.transit, swapping.inactive⟩

/-- The swap under the incoming label of RSB `r` leads where `r` leads. -/
def Node.Reflects (s : Node) (r : Rsb) : Prop :=
  s.fwd (.label r.body.labelIn) = some (Rsb.entry r)

def Node.SwapsReflect (s : Node) (created : PathKey → Prop) : Prop :=
  ∀ b r, Swapping s b r → created r.key → s.Reflects r

/-- Every swap is what its RSB says, or is one of before. -/
def KeepsSwaps (created : PathKey → Prop) (s s' : Node) : Prop :=
  ∀ b' r', Swapping s' b' r' → created r'.key → s'.Reflects r' ∨
    ∃ b r, Swapping s b r ∧ r.key = r'.key ∧ r.body.labelIn = r'.body.labelIn ∧
      Rsb.entry r = Rsb.entry r' ∧
      s'.fwd (.label r.body.labelIn) = s.fwd (.label r.body.labelIn)

/-- Every PSB was there before, in the same role. -/
def PsbsSteady (s s' : Node) : Prop :=
  ∀ b' ∈ s'.psbs, ∃ b ∈ s.psbs, b.key = b'.key ∧ b.body.prevHop = b'.body.prevHop ∧
    b.body.frrActive = b'.body.frrActive

namespace PsbsSteady

theorem of_same (psbs : s'.psbs = s.psbs) : PsbsSteady s s' := fun b mem =>
  ⟨b, psbs ▸ mem, rfl, rfl, rfl⟩

theorem modPsb (s : Node) (p : Ptr) {f : PsbState → PsbState}
    (hop : ∀ x, (f x).prevHop = x.prevHop) (active : ∀ x, (f x).frrActive = x.frrActive) :
    PsbsSteady s (s.modPsb p f) := by
  intro b' mem'
  rcases Table.mem_modify.mp mem' with ⟨mem, -⟩ | ⟨b, mem, -, rfl⟩
  · exact ⟨b', mem, rfl, rfl, rfl⟩
  · exact ⟨b, mem, rfl, (hop b.body).symm, (active b.body).symm⟩

/-- A swap of an RSB that was there is one of before. -/
theorem swapping (steady : PsbsSteady s s') {b' : Psb} {r r' : Rsb}
    (swapping : Swapping s' b' r') (memr : r ∈ s.rsbs) (key : r.key = r'.key) :
    ∃ b, Swapping s b r := by
  obtain ⟨b, memb, keyB, hop, active⟩ := steady b' swapping.memb
  refine ⟨b, memb, memr, ?_, ?_, ?_⟩
  · rw [key, keyB]
    exact swapping.key
  · rw [hop]
    exact swapping.transit
  · rw [active]
    exact swapping.inactive

end PsbsSteady

namespace KeepsSwaps

theorem refl (s : Node) : KeepsSwaps created s s := fun b r swapping _ =>
  .inr ⟨b, r, swapping, rfl, rfl, rfl, rfl⟩

theorem trans (first : KeepsSwaps created s s') (second : KeepsSwaps created s' s'') :
    KeepsSwaps created s s'' := by
  intro b'' r'' swapping'' here
  rcases second b'' r'' swapping'' here with reflects | ⟨b', r', swapping', key', label', entry', fwd'⟩
  · exact .inl reflects
  · rcases first b' r' swapping' (key' ▸ here) with reflects | ⟨b, r, swapping, key, label, entry, fwd⟩
    · left
      unfold Node.Reflects at reflects ⊢
      rw [← label', fwd', reflects, entry']
    · refine .inr ⟨b, r, swapping, key.trans key', label.trans label', entry.trans entry', ?_⟩
      rw [← label] at fwd'
      exact fwd'.trans fwd

theorem reflect (keeps : KeepsSwaps created s s') (reflect : s.SwapsReflect created) :
    s'.SwapsReflect created := by
  intro b' r' swapping' here
  rcases keeps b' r' swapping' here with reflects | ⟨b, r, swapping, key, label, entry, fwd⟩
  · exact reflects
  · have before := reflect b r swapping (key ▸ here)
    unfold Node.Reflects at before ⊢
    rw [← label, fwd, before, entry]

/-- PSBs keep their roles, RSBs their labels and hops, and swaps their entries. -/
theorem of_tables (psbs : PsbsSteady s s')
    (rsbs : ∀ r' ∈ s'.rsbs, ∃ r ∈ s.rsbs, r.key = r'.key ∧ r.body.labelIn = r'.body.labelIn ∧
      Rsb.entry r = Rsb.entry r')
    (fwd : ∀ r ∈ s'.rsbs, s'.fwd (.label r.body.labelIn) = s.fwd (.label r.body.labelIn)) :
    KeepsSwaps created s s' := by
  intro b' r' swapping' _
  obtain ⟨r, memr, key, label, entry⟩ := rsbs r' swapping'.memr
  obtain ⟨b, swapping⟩ := psbs.swapping swapping' memr key
  refine .inr ⟨b, r, swapping, key, label, entry, ?_⟩
  rw [label]
  exact fwd r' swapping'.memr

theorem of_psbs (psbs : PsbsSteady s s') (rsbs : s'.rsbs = s.rsbs) (fwd : s'.fwd = s.fwd) :
    KeepsSwaps created s s' :=
  of_tables psbs (fun r mem => ⟨r, rsbs ▸ mem, rfl, rfl, rfl⟩) fun _ _ => by rw [fwd]

theorem of_same (psbs : s'.psbs = s.psbs) (rsbs : s'.rsbs = s.rsbs) (fwd : s'.fwd = s.fwd) :
    KeepsSwaps created s s' :=
  of_psbs (.of_same psbs) rsbs fwd

theorem modPsb (s : Node) (p : Ptr) {f : PsbState → PsbState}
    (hop : ∀ x, (f x).prevHop = x.prevHop) (active : ∀ x, (f x).frrActive = x.frrActive) :
    KeepsSwaps created s (s.modPsb p f) :=
  of_psbs (.modPsb s p hop active) rfl rfl

theorem modRsb (s : Node) (p : Ptr) {f : RsbState → RsbState}
    (labelIn : ∀ x, (f x).labelIn = x.labelIn) (labelOut : ∀ x, (f x).labelOut = x.labelOut)
    (nextHop : ∀ x, (f x).nextHop = x.nextHop) : KeepsSwaps created s (s.modRsb p f) := by
  refine of_tables (.of_same rfl) (fun r' mem' => ?_) fun _ _ => rfl
  rcases Table.mem_modify.mp mem' with ⟨mem, -⟩ | ⟨r, mem, -, rfl⟩
  · exact ⟨r', mem, rfl, rfl, rfl⟩
  · refine ⟨r, mem, rfl, (labelIn r.body).symm, ?_⟩
    rw [Rsb.entry, Rsb.entry, labelOut r.body, nextHop r.body]

end KeepsSwaps

/-! ## Senders and removal -/

theorem sendPathDownstream_keepsSwaps (s : Node) (p : Ptr) :
    KeepsSwaps created s (sendPathDownstream env s p) := by
  cases found : s.psbs.get p with
  | none =>
    rw [sendPathDownstream, found]
    exact .refl s
  | some b =>
    obtain ⟨mem, rfl⟩ := Table.get_eq_some.mp found
    obtain ⟨sent, -, eq⟩ := @sendPathDownstream_logs env s b mem
    have moved : PsbsSteady s (s.modPsb b.addr (pathSent env b.key)) :=
      .modPsb s b.addr (fun _ => rfl) fun _ => rfl
    rw [eq]
    exact .of_psbs moved rfl rfl

theorem propagatePathTear_keepsSwaps (s : Node) (p : Ptr) :
    KeepsSwaps created s (propagatePathTear env s p) := by
  unfold propagatePathTear
  split
  · exact .refl s
  · dsimp only [resolvePathNextHop]
    have popped : ∀ ero, KeepsSwaps created s (s.modPsb p fun x => { x with ero := ero }) :=
      fun ero => .modPsb s p (fun _ => rfl) fun _ => rfl
    split
    · exact popped _
    · obtain ⟨sent, eq⟩ := rsvpSendPacket_out _ _ _ _
      rw [eq]
      exact (popped _).trans (.of_same rfl rfl rfl)

theorem rsvpPsbDelete_keepsSwaps (s : Node) (p : Ptr) :
    KeepsSwaps created s (s.rsvpPsbDelete p) := by
  unfold Node.rsvpPsbDelete
  split
  · exact .refl s
  · have unlinked : KeepsSwaps created s { s with psbs := s.psbs.unlink p } :=
      .of_psbs (fun b mem => ⟨b, (Table.mem_unlink.mp mem).1, rfl, rfl, rfl⟩) rfl rfl
    dsimp only
    split
    · exact unlinked
    · exact unlinked.trans (.modRsb _ _ (fun _ => rfl) (fun _ => rfl) fun _ => rfl)

/-- The release of an RSB takes no swap but its own. -/
theorem released_keepsSwaps (apart : s.LabelsApart) {b : Psb} {r : Rsb} (memr : r ∈ s.rsbs)
    (out : List Output) : KeepsSwaps created s (s.released b r out) := by
  have cut : PsbsSteady s (s.modPsb b.addr fun x => { x with associatedRsb := none }) :=
    .modPsb s b.addr (fun _ => rfl) fun _ => rfl
  refine .of_tables cut (fun y mem => ⟨y, (Table.mem_unlink.mp mem).1, rfl, rfl, rfl⟩)
    fun y mem => ?_
  obtain ⟨old, away⟩ := Table.mem_unlink.mp mem
  change s.releasedFwd b r (.label y.body.labelIn) = _
  unfold Node.releasedFwd
  split
  · rfl
  · refine Function.update_of_ne (fun same => ?_) _ _
    obtain ⟨pos, label⟩ := fwdKey_eq_label_iff.mp same.symm
    exact away (congrArg Block.addr (apart r memr y old pos label)).symm

theorem rsvpRsbCleanup_keepsSwaps (apart : s.LabelsApart) {b : Psb} {r : Rsb} (memb : b ∈ s.psbs)
    (memr : r ∈ s.rsbs) (tied : r.body.associatedPsb = some b.addr) (propagate : Bool) :
    KeepsSwaps created s (rsvpRsbCleanup env s r.addr propagate) := by
  obtain ⟨out, eq⟩ := @rsvpRsbCleanup_eq env s b r memb memr tied propagate
  rw [eq]
  exact released_keepsSwaps apart memr out

theorem rsvpPsbCleanup_keepsSwaps (wf : s.Wf) (apart : s.LabelsApart) {b : Psb} (mem : b ∈ s.psbs)
    (propagate : Bool) : KeepsSwaps created s (rsvpPsbCleanup env s b.addr propagate) := by
  obtain ⟨t, c, told, removed⟩ := @rsvpPsbCleanup_cases env s wf b mem propagate
  have keeps : KeepsSwaps created s t := by
    rcases told.origin with rfl | rfl
    · exact .refl t
    · exact propagatePathTear_keepsSwaps s b.addr
  rcases removed with ⟨-, eq⟩ | ⟨r, memr, -, tied, eq⟩
  · rw [eq]
    exact keeps.trans (rsvpPsbDelete_keepsSwaps t b.addr)
  · have apartT : t.LabelsApart := by
      unfold Node.LabelsApart
      rw [told.rsbs]
      exact apart
    have released := @rsvpRsbCleanup_keepsSwaps env t created apartT c r told.mem
      (told.rsbs ▸ memr) (told.addr ▸ tied) false
    rw [eq]
    exact (keeps.trans released).trans (rsvpPsbDelete_keepsSwaps _ b.addr)

theorem rsvpFrrAutoAssociate_keepsSwaps (s : Node) (p : Ptr) :
    KeepsSwaps created s (rsvpFrrAutoAssociate s p) := by
  unfold rsvpFrrAutoAssociate
  split
  · exact .refl s
  · split
    · exact .refl s
    · split
      · exact .refl s
      · exact .modPsb s p (fun _ => rfl) fun _ => rfl

/-! ## RESV -/

section Resv

variable {b : Psb} {r : Rsb} {isNew : Bool}

theorem resvFollowUp_keepsSwaps (wf : s.Wf) (apart : s.LabelsApart) (mem : b ∈ s.psbs)
    (labelChanged : Bool) : KeepsSwaps created s (resvFollowUp env s b isNew labelChanged) := by
  have cleared : ∀ t : Node, KeepsSwaps created t (t.modPsb b.addr fun x =>
      { x with isMbbPending := false, mbbOldLspId := 0 }) := fun t =>
    .modPsb t b.addr (fun _ => rfl) fun _ => rfl
  unfold resvFollowUp
  dsimp only
  by_cases bypass : b.body.isBypassTunnel = true ∧ (isNew = true ∨ labelChanged = true)
  · have plain : ¬ (b.body.isMbbPending = true ∧ isNew = true) := by
      intro completes
      rw [(wf.pending b mem completes.1).1] at bypass
      exact Bool.false_ne_true bypass.1
    rw [if_pos bypass, if_neg plain]
    exact rsvpFrrAutoAssociateAll_induct (.refl s) _ fun t p kept =>
      kept.trans (rsvpFrrAutoAssociate_keepsSwaps t p)
  · rw [if_neg bypass]
    split
    · unfold rsvpMbbComplete
      rw [Table.get_of_mem mem]
      dsimp only
      split
      · exact cleared s
      · rename_i old scanned
        exact (rsvpPsbCleanup_keepsSwaps wf apart (List.mem_of_find?_eq_some scanned) true).trans
          (cleared _)
    · exact .refl s

/-- Node `s` is `s₀` but for the RSB at address `a`. -/
structure ButRsb (s₀ s : Node) (a : Ptr) : Prop where
  psbs : PsbsSteady s₀ s
  rsbs : ∀ y ∈ s.rsbs, y.addr ≠ a → y ∈ s₀.rsbs
  fwd : s.fwd = s₀.fwd

theorem ButRsb.refl (s : Node) (a : Ptr) : ButRsb s s a where
  psbs := .of_same rfl
  rsbs := fun _ mem _ => mem
  fwd := rfl

variable {s₀ : Node}

/-- A swap of another RSB is one of before. -/
theorem ButRsb.swapping {a : Ptr} (but : ButRsb s₀ s a) {b' : Psb} {y : Rsb}
    (swapping : Swapping s b' y) (away : y.addr ≠ a) : ∃ b, Swapping s₀ b y :=
  but.psbs.swapping swapping (but.rsbs y swapping.memr away) rfl

/-- A programmed RESV writes the swap of its RSB, and no other. -/
theorem programmed_keepsSwaps (wf : s.Wf) (sound : s.ledger.Sound) (but : ButRsb s₀ s r.addr)
    (memb : b ∈ s.psbs) (memr : r ∈ s.rsbs) (key : r.key = b.key) {f : RsbState → RsbState}
    (keeps : (f r.body).labelIn = r.body.labelIn) {label : UInt32} {labels : LabelMgr}
    (labelled : Labelled (s.modRsb r.addr f) b (r.update f) label labels) (out : List Output) :
    KeepsSwaps created s₀ ((s.modRsb r.addr f).programmed b (r.update f) label labels out) := by
  intro b' r' swapping' _
  have memB : b' ∈ s.psbs := swapping'.memb
  have memR := swapping'.memr
  change r' ∈ (s.rsbs.modify r.addr f).modify r.addr _ at memR
  rw [Table.modify_modify] at memR
  rcases Table.mem_modify.mp memR with ⟨old, away⟩ | ⟨z, memz, here, rfl⟩
  · obtain ⟨b₀, before⟩ := but.swapping (swapping'.of_mem memB old) away
    refine .inr ⟨b₀, r', before, rfl, rfl, rfl, ?_⟩
    rw [← but.fwd]
    refine Function.update_of_ne (fun same => ?_) _ _
    obtain ⟨pos, labelR⟩ := fwdKey_eq_label_iff.mp same.symm
    have transit : b.body.prevHop.neighborAddr ≠ 0 := fun zero => pos (if_pos zero)
    rw [if_neg transit] at labelR pos
    cases labelled with
    | kept _ =>
      have again : r.body.labelIn = r'.body.labelIn := keeps.symm.trans labelR
      refine away (congrArg Block.addr (Ledger.Sound.rsb_eq sound memr old ?_ again)).symm
      exact keeps ▸ pos
    | taken _ _ _ takes =>
      exact takes.free ((sound.taken_iff label).mpr ⟨r'.addr, pos, r', old, rfl, labelR.symm⟩)
  · obtain rfl := Table.eq_of_addr_eq memz memr here
    obtain rfl : b' = b := wf.psbKeyed b' memB b memb (swapping'.key.symm.trans key)
    left
    have pos : label ≠ 0 := labelled.ne_zero (s := s.modRsb z.addr f) wf.labels swapping'.transit
    have written : fwdKey (if b'.body.prevHop.neighborAddr = 0 then 0 else label)
        b'.key.session.destAddr = .label label := by
      rw [if_neg swapping'.transit]
      exact fwdKey_eq_label_iff.mpr ⟨pos, rfl⟩
    unfold Node.Reflects Node.programmed
    rw [written]
    exact Function.update_self _ _ _

/-- A RESV that names another label or hop, or a first one.  A swap has its label already. -/
theorem resvProgram_keepsSwaps (wf : s.Wf) (sound : s.ledger.Sound) (but : ButRsb s₀ s r.addr)
    (memb : b ∈ s.psbs) (memr : r ∈ s.rsbs) (tied : r.body.associatedPsb = some b.addr)
    (labelled : isNew = false → Swapping s b r → created r.key → r.body.labelIn ≠ 0)
    (labelChanged : Bool) :
    KeepsSwaps created s₀ (resvProgram env (s.modRsb r.addr (resvStored info b.body.isIngress)) info
      b (r.update (resvStored info b.body.isIngress)) isNew labelChanged) := by
  have keeps := resvStored_keeps info b.body.isIngress r.body
  have here := s.mem_modRsb memr (resvStored info b.body.isIngress)
  have tied' : (resvStored info b.body.isIngress r.body).associatedPsb = some b.addr :=
    keeps.associatedPsb.trans tied
  have key := (wf.psb_of_rsb memb memr tied).1
  rcases @resvProgram_cases env (s.modRsb r.addr (resvStored info b.body.isIngress)) info b
    (r.update (resvStored info b.body.isIngress)) isNew wf.labels memb here tied' labelChanged
    with ⟨transit, bare, -, out, result⟩ | ⟨label, labels, out, labelled', result⟩
  · have noLabel : r.body.labelIn = 0 := keeps.labelIn.symm.trans bare
    rw [result]
    cases isNew with
    | false =>
      rw [if_neg Bool.false_ne_true]
      intro b' r' swapping' created'
      rcases Table.mem_modify.mp swapping'.memr with ⟨old, away⟩ | ⟨z, memz, site, rfl⟩
      · obtain ⟨b₀, before⟩ := but.swapping (swapping'.of_mem swapping'.memb old) away
        exact .inr ⟨b₀, r', before, rfl, rfl, rfl, congrFun but.fwd _⟩
      · obtain rfl := Table.eq_of_addr_eq memz memr site
        obtain rfl : b' = b :=
          wf.psbKeyed b' swapping'.memb b memb (swapping'.key.symm.trans key.symm)
        have swapping : Swapping s b' z :=
          ⟨memb, memz, swapping'.key, swapping'.transit, swapping'.inactive⟩
        exact absurd noLabel (labelled rfl swapping created')
    | true =>
      rw [if_pos rfl]
      obtain ⟨out', cleaned⟩ := @rsvpRsbCleanup_eq env
        (s.modRsb r.addr (resvStored info b.body.isIngress)) b
        (r.update (resvStored info b.body.isIngress)) memb here tied' false
      have addr : (r.update (resvStored info b.body.isIngress)).addr = r.addr := rfl
      rw [addr] at cleaned ⊢
      rw [cleaned]
      have cut : PsbsSteady s (s.modPsb b.addr fun x => { x with associatedRsb := none }) :=
        .modPsb s b.addr (fun _ => rfl) fun _ => rfl
      intro b' r' swapping' _
      obtain ⟨stays, away⟩ := Table.mem_unlink.mp swapping'.memr
      have old : r' ∈ s.rsbs := by
        rcases Table.mem_modify.mp stays with ⟨old, -⟩ | ⟨z, -, site, rfl⟩
        · exact old
        · exact absurd site away
      obtain ⟨b₁, memB, keyB, hop, active⟩ := cut b' swapping'.memb
      have swapping : Swapping s b₁ r' := ⟨memB, old, swapping'.key.trans keyB.symm,
        hop ▸ swapping'.transit, active ▸ swapping'.inactive⟩
      obtain ⟨b₀, before⟩ := but.swapping swapping away
      refine .inr ⟨b₀, r', before, rfl, rfl, rfl, ?_⟩
      -- Without a label the release removes at most the push entry.
      change (s.modRsb r.addr _).releasedFwd b _ (.label r'.body.labelIn) = _
      unfold Node.releasedFwd
      rw [bare, ← but.fwd]
      split
      · rfl
      · exact Function.update_of_ne (fun same => (fwdKey_eq_label_iff.mp same.symm).1 rfl) _ _
  · rw [result]
    exact (programmed_keepsSwaps wf sound but memb memr key.symm keeps.labelIn labelled' out).trans
      (resvFollowUp_keepsSwaps (labelled'.wf_programmed (wf.modRsb memr keeps.associatedPsb) here out)
        (programmed_labelsApart sound memr keeps.labelIn labelled' out) memb labelChanged)

/-- A RESV is passed on; a swap has its label already. -/
theorem resvRefresh_keepsSwaps (wf : s.Wf) (memb : b ∈ s.psbs) (memr : r ∈ s.rsbs)
    (tied : r.body.associatedPsb = some b.addr)
    (labelled : Swapping s b r → created r.key → r.body.labelIn ≠ 0) :
    KeepsSwaps created s (resvRefresh env s r) := by
  rcases @resvRefresh_cases env s b r wf.labels memb memr tied with
    ⟨-, out, sent⟩ | ⟨⟨bare, -⟩, label, labels, out, -, -, sent⟩
  · rw [sent]
    exact .of_same rfl rfl rfl
  · rw [sent]
    intro b' r' swapping' created'
    rcases Table.mem_modify.mp swapping'.memr with ⟨old, -⟩ | ⟨z, memz, site, rfl⟩
    · exact .inr ⟨b', r', swapping'.of_mem swapping'.memb old, rfl, rfl, rfl, rfl⟩
    · obtain rfl := Table.eq_of_addr_eq memz memr site
      have key := (wf.psb_of_rsb memb memr tied).1
      obtain rfl : b' = b :=
        wf.psbKeyed b' swapping'.memb b memb (swapping'.key.symm.trans key.symm)
      have swapping : Swapping s b' z :=
        ⟨memb, memz, swapping'.key, swapping'.transit, swapping'.inactive⟩
      exact absurd bare (labelled swapping created')

/-- The RESV repeats the interface of an RSB of a swap whose label and next hop it repeats. -/
def MessageInfo.Repeats (s : Node) (info : MessageInfo) (created : PathKey → Prop) : Prop :=
  ∀ b r, Swapping s b r → r.key = info.key → created r.key →
    resvBlockaded s info r.body = false → ¬ ResvChanges info false r.body →
    info.hop.logicalInterface = r.body.nextHop.logicalInterface

/-- A RESV for an RSB that is there. -/
theorem resvArrived_keepsSwaps (wf : s.Wf) (sound : s.ledger.Sound) (memb : b ∈ s.psbs)
    (memr : r ∈ s.rsbs) (tied : r.body.associatedPsb = some b.addr) (key : r.key = info.key)
    (labelled : Swapping s b r → created r.key → r.body.labelIn ≠ 0)
    (repeats : info.Repeats s created) :
    KeepsSwaps created s (resvArrived env s info r.addr false) := by
  cases blockaded : resvBlockaded s info r.body with
  | true =>
    rw [resvArrived_blockaded memr tied key blockaded, if_neg Bool.false_ne_true]
    exact .modRsb s r.addr (fun x => (resvUpdate_keeps info x).1.labelIn)
      (fun x => (resvUpdate_keeps info x).2.1) fun x => (resvUpdate_keeps info x).2.2
  | false =>
    rw [resvArrived_admitted memb memr tied key blockaded]
    split
    · exact resvProgram_keepsSwaps wf sound (.refl s r.addr) memb memr tied (fun _ => labelled) _
    · rename_i unchanged
      have same := repeats_of_not_resvChanges unchanged
      have keeps := resvStored_keeps info b.body.isIngress r.body
      have here := s.mem_modRsb memr (resvStored info b.body.isIngress)
      have keyB := (wf.psb_of_rsb memb memr tied).1
      have stored : KeepsSwaps created s (s.modRsb r.addr (resvStored info b.body.isIngress)) := by
        intro b' r' swapping' created'
        rcases Table.mem_modify.mp swapping'.memr with ⟨old, -⟩ | ⟨z, memz, site, rfl⟩
        · exact .inr ⟨b', r', swapping'.of_mem swapping'.memb old, rfl, rfl, rfl, rfl⟩
        · obtain rfl := Table.eq_of_addr_eq memz memr site
          have swapping : Swapping s b' z :=
            ⟨swapping'.memb, memz, swapping'.key, swapping'.transit, swapping'.inactive⟩
          refine .inr ⟨b', z, swapping, rfl, keeps.labelIn.symm, ?_, rfl⟩
          -- The RESV repeats all three fields of the entry.
          have ifindex := repeats b' z swapping key created' blockaded unchanged
          change FwdEntry.mk z.body.labelOut (ntohl z.body.nextHop.logicalInterface)
            z.body.nextHop.neighborAddr = ⟨info.labelValue, ntohl info.hop.logicalInterface,
              info.hop.neighborAddr⟩
          rw [same.1, same.2, ifindex]
      refine stored.trans (@resvRefresh_keepsSwaps env
        (s.modRsb r.addr (resvStored info b.body.isIngress)) created b
        (r.update (resvStored info b.body.isIngress)) (wf.modRsb memr keeps.associatedPsb) memb here
        (keeps.associatedPsb.trans tied) fun swapping created' => ?_)
      have labelIn : (r.update (resvStored info b.body.isIngress)).body.labelIn = r.body.labelIn :=
        keeps.labelIn
      rw [labelIn]
      have before : Swapping s b r :=
        ⟨memb, memr, swapping.key, swapping.transit, swapping.inactive⟩
      exact labelled before created'

end Resv

section NewRsb

variable {b : Psb} {r : Ptr} {rsbs : Table PathKey RsbState}

theorem withRsb_but (created : s.rsbs.create rsvpKeyHash env.rsbMem b.key .zero = some (r, rsbs)) :
    ButRsb s (s.withRsb b r rsbs) r where
  psbs := PsbsSteady.modPsb s b.addr (fun _ => rfl) fun _ => rfl
  rsbs := by
    intro y mem away
    rcases (mem_withRsb created).mp mem with rfl | old
    · exact absurd rfl away
    · exact old
  fwd := rfl

end NewRsb

theorem handleResvMessage_keepsSwaps (wf : s.Wf) (sound : s.ledger.Sound)
    (labelled : ∀ b r, Swapping s b r → created r.key → r.body.labelIn ≠ 0)
    (repeats : rsvpValidateResvMessage s info = none → info.Repeats s created) :
    KeepsSwaps created s (handleResvMessage env s info) := by
  have turn := @handleResvMessage_turn env s info wf
  generalize handleResvMessage env s info = t at turn ⊢
  cases turn with
  | refused sent _ => exact .of_same rfl rfl rfl
  | @found b r valid memb _ memr keyR tied =>
    exact resvArrived_keepsSwaps wf sound memb memr tied keyR (labelled b r) (repeats valid)
  | noMemory => exact .refl s
  | @first b r rsbs _ first =>
    cases blockaded : resvBlockaded s info (newResvState b) with
    | true =>
      rw [first.dropped blockaded]
      have linked : PsbsSteady s ((s.withRsb b r rsbs).modPsb b.addr fun x =>
          { x with associatedRsb := none }) := by
        dsimp only [Node.modPsb, Node.withRsb]
        rw [Table.modify_modify]
        exact PsbsSteady.modPsb s b.addr (fun _ => rfl) fun _ => rfl
      refine .of_tables linked (fun y mem => ?_) fun _ _ => rfl
      obtain ⟨memy, away⟩ := Table.mem_unlink.mp mem
      exact ⟨y, (withRsb_but first.created).rsbs y memy away, rfl, rfl, rfl⟩
    | false =>
      rw [first.programmed blockaded]
      exact @resvProgram_keepsSwaps env (s.withRsb b r rsbs) info created (b.linked r) (b.newRsb r)
        true s (first.does.wf wf) (first.sound wf sound) (withRsb_but first.created) first.mem_linked
        first.mem_new rfl (fun old => by cases old) _

/-! ## PATH -/

/-- At the egress a first PATH makes an RSB, which no RESV has created. -/
theorem pathEgress_keepsSwaps (p : Ptr)
    (absent : s.rsvpRsbFind info.key = none → ¬ created info.key) :
    KeepsSwaps created s (pathEgress env s info p) := by
  unfold pathEgress
  dsimp only
  split
  · exact .modRsb s _ (fun _ => rfl) (fun _ => rfl) fun _ => rfl
  · rename_i missing
    split
    · exact .refl s
    · rename_i r t made
      obtain ⟨rsbs, new, rfl⟩ := Node.rsvpRsbCreate_eq_some made
      have linked : PsbsSteady s (s.modPsb p fun x => { x with associatedRsb := some r }) :=
        .modPsb s p (fun _ => rfl) fun _ => rfl
      obtain ⟨f, labels, out, sent⟩ := @sendResvUpstream_eq env _ r
      rw [sent]
      intro b' r' swapping' created'
      have mem := swapping'.memr
      dsimp only [Node.modRsb, Node.modPsb] at mem
      rw [Table.modify_modify] at mem
      rcases (Table.mem_modify_create new).mp mem with rfl | old
      · exact absurd created' (absent missing)
      · obtain ⟨b, memb, keyB, hop, active⟩ := linked b' swapping'.memb
        have swapping : Swapping s b r' := ⟨memb, old, swapping'.key.trans keyB.symm,
          hop ▸ swapping'.transit, active ▸ swapping'.inactive⟩
        exact .inr ⟨b, r', swapping, rfl, rfl, rfl, rfl⟩

theorem pathTransit_keepsSwaps (p : Ptr) (isNew : Bool) :
    KeepsSwaps created s (pathTransit env s info p isNew) := by
  unfold pathTransit
  split
  · exact .refl s
  · rename_i b found
    obtain ⟨mem, rfl⟩ := Table.get_eq_some.mp found
    have popped : KeepsSwaps created s (s.modPsb b.addr fun x =>
        { x with ero := b.body.ero.popLocal env.toHal }) :=
      .modPsb s b.addr (fun _ => rfl) fun _ => rfl
    dsimp only [resolvePathNextHop]
    split
    · obtain ⟨sent, eq⟩ := sendPathErr_out env info protoErrRoutingProblem 0
      rw [eq]
      have told : ∀ out, KeepsSwaps created s { (s.modPsb b.addr fun x =>
          { x with ero := b.body.ero.popLocal env.toHal } : Node) with out := out } := fun _ =>
        popped.trans (.of_same rfl rfl rfl)
      split
      · exact (told _).trans (rsvpPsbDelete_keepsSwaps _ b.addr)
      · exact told _
    · have sent := popped.trans (@sendPathDownstream_keepsSwaps env created _ b.addr)
      split
      · exact sent
      · split
        · exact sent.trans (rsvpFrrAutoAssociate_keepsSwaps _ b.addr)
        · exact sent

/-- A PATH that gives the PSB at `p` a previous hop finds the swap of its RSB in place. -/
def MessageInfo.Restores (s : Node) (info : MessageInfo) (created : PathKey → Prop) (p : Ptr) :
    Prop :=
  ∀ b ∈ s.psbs, b.addr = p → ∀ r ∈ s.rsbs, r.key = b.key → created r.key →
    b.body.prevHop.neighborAddr = 0 → b.body.frrActive = false → info.hop.neighborAddr ≠ 0 →
    s.Reflects r

theorem pathArrived_keepsSwaps (held : info.objs .hopV4 ≠ none) (p : Ptr) (isNew : Bool)
    (absent : s.rsvpRsbFind info.key = none → ¬ created info.key)
    (restores : info.Restores s created p) :
    KeepsSwaps created s (pathArrived env s info p isNew) := by
  have active : ∀ x, (pathUpdate env info x).frrActive = x.frrActive := by
    intro x
    rw [pathUpdate_eq]
  have updated : KeepsSwaps created s (s.modPsb p (pathUpdate env info)) := by
    intro b' r swapping' created'
    rcases Table.mem_modify.mp swapping'.memb with ⟨old, -⟩ | ⟨b, memb, here, rfl⟩
    · exact .inr ⟨b', r, swapping'.of_mem old swapping'.memr, rfl, rfl, rfl, rfl⟩
    · have inactive := (active b.body).symm.trans swapping'.inactive
      by_cases transit : b.body.prevHop.neighborAddr = 0
      · refine .inl
          (restores b memb here r swapping'.memr swapping'.key created' transit inactive ?_)
        rw [← (pathUpdate_hop env held b.body).1]
        exact swapping'.transit
      · exact .inr ⟨b, r, ⟨memb, swapping'.memr, swapping'.key, transit, inactive⟩, rfl, rfl, rfl,
          rfl⟩
  unfold pathArrived
  dsimp only
  split
  · exact updated.trans (pathEgress_keepsSwaps p absent)
  · split
    · exact updated
    · exact updated.trans (pathTransit_keepsSwaps p isNew)

/-- A new PSB has no RSB. -/
theorem created_keepsSwaps (wf : s.Wf) {key : PathKey} {mem : Option Ptr} {p : Ptr}
    {psbs : Table PathKey PsbState} {f : PsbState → PsbState} (fresh : ∀ b ∈ s.psbs, b.key ≠ key)
    (made : s.psbs.create rsvpKeyHash mem key .zero = some (p, psbs)) :
    KeepsSwaps created s { s with psbs := psbs.modify p f } := by
  intro b r swapping _
  rcases (Table.mem_modify_create made).mp swapping.memb with rfl | old
  · obtain ⟨c, memc, keyC, -⟩ := wf.owned r swapping.memr
    exact absurd (keyC.trans swapping.key) (fresh c memc)
  · exact .inr ⟨b, r, swapping.of_mem old swapping.memr, rfl, rfl, rfl, rfl⟩

theorem handlePathMessage_keepsSwaps (wf : s.Wf)
    (absent : s.rsvpRsbFind info.key = none → ¬ created info.key)
    (restores : ∀ b, s.rsvpPsbFind info.key = some b →
      rsvpValidatePathMessage info (some b) = none → info.Restores s created b.addr) :
    KeepsSwaps created s (handlePathMessage env s info) := by
  unfold handlePathMessage
  dsimp only
  split
  · obtain ⟨sent, eq⟩ := sendPathErr_out env info _ _
    rw [eq]
    exact .of_same rfl rfl rfl
  · rename_i valid
    have held : info.objs .hopV4 ≠ none := by
      intro missing
      rw [rsvpValidatePathMessage, if_pos missing] at valid
      cases valid
    split
    · rename_i b found
      exact pathArrived_keepsSwaps held b.addr false absent (restores b found (found ▸ valid))
    · rename_i missing
      split
      · exact .refl s
      · rename_i p t made
        obtain ⟨psbs, new, rfl⟩ := Node.rsvpPsbCreate_eq_some made
        have fresh := Table.find_eq_none.mp missing
        have first : KeepsSwaps created s (s.withPsb p psbs) :=
          created_keepsSwaps (f := fun b => { b with refreshMs := rsvpRefreshMs }) wf fresh new
        refine first.trans (@pathArrived_keepsSwaps env (s.withPsb p psbs) info created held p true
          absent fun b memb here r memr key _ _ _ _ => ?_)
        obtain ⟨c, memc, keyC, -⟩ := wf.owned r memr
        rcases (Table.mem_modify_create new).mp memb with rfl | old
        · exact absurd (keyC.trans key) (fresh c memc)
        · exact absurd here ((Table.create_eq_some new).2.1 b old)

/-! ## Trigger and revert -/

/-- A scan leaves the swap of a PSB alone that it does not switch. -/
theorem SwitchScan.fwd_label {t : Node} {active : Bool} {target : Psb → Option Rsb}
    {leads : Psb → UInt32 → Prop}
    (scan : SwitchScan env s active target leads s.psbs.blocks t) (wf : s.Wf)
    (apart : s.LabelsApart) {b : Psb} {y : Rsb} (memb : b ∈ s.psbs) (memy : y ∈ s.rsbs)
    (key : y.key = b.key) (none : target b = none) :
    t.fwd (.label y.body.labelIn) = s.fwd (.label y.body.labelIn) := by
  rw [scan.fwd]
  refine applyWrites_of_forall_ne (fun w written here => ?_) _
  obtain ⟨c, memc, written⟩ := List.mem_filterMap.mp written
  obtain ⟨x, aim, written⟩ := Option.bind_eq_some_iff.mp written
  obtain ⟨r, found, rfl⟩ := Option.map_eq_some_iff.mp written
  obtain ⟨memr, keyR⟩ := Table.find_eq_some found
  obtain ⟨pos, label⟩ := fwdKey_eq_label_iff.mp here
  obtain rfl := apart r memr y memy pos label
  obtain rfl := wf.psbKeyed c memc b memb (keyR.symm.trans key)
  exact Option.some_ne_none x (aim.symm.trans none)

theorem rsvpFrrTrigger_keepsSwaps (wf : s.Wf) (apart : s.LabelsApart) (ifindex : UInt32) :
    KeepsSwaps created s (rsvpFrrTrigger env s ifindex) := by
  have scan := rsvpFrrTrigger_scan env s ifindex
  intro b' r' swapping' _
  have memr : r' ∈ s.rsbs := scan.rsbs ▸ swapping'.memr
  have got := Table.get_of_mem swapping'.memb
  rcases scan.get b'.addr with ⟨same, idle⟩ | ⟨c, -, -, -, i, -, -, new⟩
  · have memb : b' ∈ s.psbs := (Table.get_eq_some.mp (same.symm.trans got)).1
    have fwd := scan.fwd_label wf apart memb memr swapping'.key (idle b' (Table.mem_def.mp memb) rfl)
    exact .inr ⟨b', r', swapping'.of_mem memb memr, rfl, rfl, rfl, fwd⟩
  · -- What was switched is active.
    obtain rfl := Option.some.inj (got.symm.trans new)
    exact absurd swapping'.inactive Bool.false_ne_true.symm

theorem rsvpFrrRevert_keepsSwaps (wf : s.Wf) (apart : s.LabelsApart) {ifindex : UInt32}
    (labelled : ∀ b ∈ s.psbs, ∀ q r, Reverts env s ifindex b q r → created b.key →
      b.body.prevHop.neighborAddr ≠ 0 → r.body.labelIn ≠ 0) :
    KeepsSwaps created s (rsvpFrrRevert env s ifindex) := by
  have scan := rsvpFrrRevert_scan env s ifindex
  intro b' r' swapping' created'
  have memr : r' ∈ s.rsbs := scan.rsbs ▸ swapping'.memr
  have got := Table.get_of_mem swapping'.memb
  rcases scan.get b'.addr with ⟨same, idle⟩ | ⟨c, memc, -, ⟨r, aim⟩, i, -, -, new⟩
  · have memb : b' ∈ s.psbs := (Table.get_eq_some.mp (same.symm.trans got)).1
    have fwd := scan.fwd_label wf apart memb memr swapping'.key (idle b' (Table.mem_def.mp memb) rfl)
    exact .inr ⟨b', r', swapping'.of_mem memb memr, rfl, rfl, rfl, fwd⟩
  · -- The revert writes the swap from the RSB of the LSP.
    obtain rfl := Option.some.inj (got.symm.trans new)
    obtain ⟨q, now⟩ := revertTarget_eq_some.mp aim
    have key : r'.key = c.key := swapping'.key
    obtain rfl : r = r' := Option.some.inj
      (now.found.symm.trans (key ▸ wf.rsbKeyed.find_of_mem memr))
    have pos := labelled c memc q r now (key ▸ created') swapping'.transit
    left
    unfold Node.Reflects
    rw [scan.fwd]
    refine applyWrites_eq_of_forall ⟨(fwdKey r.body.labelIn c.key.session.destAddr, Rsb.entry r),
      ?_, fwdKey_eq_label_iff.mpr ⟨pos, rfl⟩⟩ (fun w written here => ?_) _
    · refine List.mem_filterMap.mpr ⟨c, memc, ?_⟩
      rw [Node.scanWrite, aim, Option.bind_some, Node.switchedWrite, now.found]
      rfl
    · obtain ⟨d, -, written⟩ := List.mem_filterMap.mp written
      obtain ⟨x, aimD, written⟩ := Option.bind_eq_some_iff.mp written
      obtain ⟨y, found, rfl⟩ := Option.map_eq_some_iff.mp written
      obtain ⟨posY, label⟩ := fwdKey_eq_label_iff.mp here
      obtain ⟨_, nowD⟩ := revertTarget_eq_some.mp aimD
      obtain rfl : x = y := Option.some.inj (nowD.found.symm.trans found)
      rw [apart x (Table.find_eq_some found).1 r memr posY label]

end Rsvp
