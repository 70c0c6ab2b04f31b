import RsvpTe.PsbRules

/-!
# LSPs on their bypass

While `frr_active` is set, the forwarding entry of an LSP should lead into its bypass tunnel.  The
entry is written from two RSBs and kept under a key that a third LSP may share, so this depends on
four blocks of the tables: `Routed` names them, and `KeepsDiverted` says that whatever is on a
bypass now was there before with the same labels and the same entry.
-/

namespace Rsvp

open Words

variable {env : Env} {s s' s'' : Node} {info : MessageInfo}

/-- LSP `b` with RSB `r`, and the tunnel `c` its bypass reference leads to with RSB `x`. -/
structure Routed (s : Node) (b : Psb) (r : Rsb) (c : Psb) (x : Rsb) : Prop where
  memb : b ∈ s.psbs
  memr : r ∈ s.rsbs
  keyR : r.key = b.key
  memc : c ∈ s.psbs
  bypass : b.body.bypassPsb = some c.addr
  memx : x ∈ s.rsbs
  keyX : x.key = c.key

/-- The key of the forwarding entry of an RSB. -/
def Rsb.entryKey (r : Rsb) : FwdKey := fwdKey r.body.labelIn r.key.session.destAddr

/-- The entry of RSB `r` has the outgoing label and the next hop of RSB `x`. -/
def Node.Diverted (s : Node) (r x : Rsb) : Prop :=
  ∃ e, s.fwd (Rsb.entryKey r) = some e ∧ e.outLabel = x.body.labelOut ∧
    e.nextHop = x.body.nextHop.neighborAddr

/-- Every LSP with `frr_active` set is on its bypass. -/
def Node.OnBypass (s : Node) : Prop :=
  ∀ b r c x, Routed s b r c x → b.body.frrActive = true → s.Diverted r x

/-- Whatever is on a bypass was there before, with the same labels and the same entry. -/
def KeepsDiverted (s s' : Node) : Prop :=
  ∀ b' r' c' x', Routed s' b' r' c' x' → b'.body.frrActive = true →
    ∃ b r c x, Routed s b r c x ∧ b.body.frrActive = true ∧
      (r.key = r'.key ∧ r.body.labelIn = r'.body.labelIn) ∧
      (x.key = x'.key ∧ x.body.labelOut = x'.body.labelOut ∧
        x.body.nextHop.neighborAddr = x'.body.nextHop.neighborAddr) ∧
      s'.fwd (Rsb.entryKey r) = s.fwd (Rsb.entryKey r)

theorem entryKey_eq {r r' : Rsb} (key : r.key = r'.key) (label : r.body.labelIn = r'.body.labelIn) :
    Rsb.entryKey r = Rsb.entryKey r' := by
  rw [Rsb.entryKey, Rsb.entryKey, key, label]

namespace KeepsDiverted

theorem refl (s : Node) : KeepsDiverted s s := fun b r c x routed active =>
  ⟨b, r, c, x, routed, active, ⟨rfl, rfl⟩, ⟨rfl, rfl, rfl⟩, rfl⟩

theorem trans (first : KeepsDiverted s s') (second : KeepsDiverted s' s'') :
    KeepsDiverted s s'' := by
  intro b'' r'' c'' x'' routed'' active''
  obtain ⟨b', r', c', x', routed', active', ⟨keyR', label'⟩, ⟨keyX', out', hop'⟩, entry'⟩ :=
    second b'' r'' c'' x'' routed'' active''
  obtain ⟨b, r, c, x, routed, active, ⟨keyR, label⟩, ⟨keyX, out, hop⟩, entry⟩ :=
    first b' r' c' x' routed' active'
  refine ⟨b, r, c, x, routed, active, ⟨keyR.trans keyR', label.trans label'⟩,
    ⟨keyX.trans keyX', out.trans out', hop.trans hop'⟩, ?_⟩
  rw [← entryKey_eq keyR label] at entry'
  exact entry'.trans entry

theorem onBypass (keeps : KeepsDiverted s s') (on : s.OnBypass) : s'.OnBypass := by
  intro b' r' c' x' routed' active'
  obtain ⟨b, r, c, x, routed, active, ⟨keyR, label⟩, ⟨-, out, hop⟩, entry⟩ :=
    keeps b' r' c' x' routed' active'
  obtain ⟨e, found, outLabel, nextHop⟩ := on b r c x routed active
  refine ⟨e, ?_, outLabel.trans out, nextHop.trans hop⟩
  rw [← entryKey_eq keyR label]
  exact entry.trans found

end KeepsDiverted

/-! ## What disturbs an LSP on its bypass -/

/-- The active LSPs and the places of all PSBs are those of before. -/
structure PsbsTraced (s s' : Node) : Prop where
  active : ∀ b' ∈ s'.psbs, b'.body.frrActive = true → ∃ b ∈ s.psbs, b.key = b'.key ∧
    b.body.frrActive = true ∧ b.body.bypassPsb = b'.body.bypassPsb
  placed : ∀ c' ∈ s'.psbs, ∃ c ∈ s.psbs, c.addr = c'.addr ∧ c.key = c'.key

/-- LSP `b` is active with the tunnel `c`.  An RSB whose key is in `ins` gets another incoming label
or is new, one whose key is in `outs` another outgoing label or next hop: one of the two RSBs of the
pair is concerned, and the other one is there or concerned as well. -/
structure Disturbs (s : Node) (ins outs : PathKey → Prop) (b c : Psb) : Prop where
  memb : b ∈ s.psbs
  active : b.body.frrActive = true
  memc : c ∈ s.psbs
  bypass : b.body.bypassPsb = some c.addr
  concerned : ins b.key ∨ outs c.key
  lsp : ins b.key ∨ ∃ r ∈ s.rsbs, r.key = b.key
  tunnel : outs c.key ∨ ∃ x ∈ s.rsbs, x.key = c.key

/-- A change of RSBs that disturbs no pair and leaves the entries of those that stay. -/
theorem keepsDiverted_of (psbs : PsbsTraced s s') {ins outs : PathKey → Prop}
    (inLabels : ∀ r' ∈ s'.rsbs, ins r'.key ∨
      ∃ r ∈ s.rsbs, r.key = r'.key ∧ r.body.labelIn = r'.body.labelIn)
    (outLabels : ∀ x' ∈ s'.rsbs, outs x'.key ∨
      ∃ x ∈ s.rsbs, x.key = x'.key ∧ x.body.labelOut = x'.body.labelOut ∧
        x.body.nextHop.neighborAddr = x'.body.nextHop.neighborAddr)
    (clear : ∀ b c, ¬ Disturbs s ins outs b c)
    (fwd : ∀ b r c x, Routed s b r c x → b.body.frrActive = true → ¬ ins r.key →
      (∃ r' ∈ s'.rsbs, r'.key = r.key) → (∃ x' ∈ s'.rsbs, x'.key = x.key) →
      s'.fwd (Rsb.entryKey r) = s.fwd (Rsb.entryKey r)) : KeepsDiverted s s' := by
  intro b' r' c' x' routed' active'
  obtain ⟨b, memb, keyB, active, bypass⟩ := psbs.active b' routed'.memb active'
  obtain ⟨c, memc, addrC, keyC⟩ := psbs.placed c' routed'.memc
  have bypassC : b.body.bypassPsb = some c.addr := by
    rw [bypass, routed'.bypass, addrC]
  have keyR : r'.key = b.key := routed'.keyR.trans keyB.symm
  have keyX : x'.key = c.key := routed'.keyX.trans keyC.symm
  rcases inLabels r' routed'.memr with insR | ⟨r, memr, sameR, label⟩
  · refine absurd ⟨memb, active, memc, bypassC, .inl (keyR ▸ insR), .inl (keyR ▸ insR), ?_⟩
      (clear b c)
    rcases outLabels x' routed'.memx with outsX | ⟨x, memx, sameX, -⟩
    · exact .inl (keyX ▸ outsX)
    · exact .inr ⟨x, memx, sameX.trans keyX⟩
  · rcases outLabels x' routed'.memx with outsX | ⟨x, memx, sameX, out, hop⟩
    · exact absurd ⟨memb, active, memc, bypassC, .inr (keyX ▸ outsX),
        .inr ⟨r, memr, sameR.trans keyR⟩, .inl (keyX ▸ outsX)⟩ (clear b c)
    · have routed : Routed s b r c x :=
        ⟨memb, memr, sameR.trans keyR, memc, bypassC, memx, sameX.trans keyX⟩
      refine ⟨b, r, c, x, routed, active, ⟨sameR, label⟩, ⟨sameX, out, hop⟩, ?_⟩
      by_cases insR : ins r.key
      · -- The RSB is concerned, though its label stayed: the pair is disturbed all the same.
        have insB : ins b.key := routed.keyR ▸ insR
        exact absurd ⟨memb, active, memc, bypassC, .inl insB, .inl insB,
          .inr ⟨x, memx, routed.keyX⟩⟩ (clear b c)
      · exact fwd b r c x routed active insR ⟨r', routed'.memr, sameR.symm⟩
          ⟨x', routed'.memx, sameX.symm⟩

/-- What is disturbed after a change that these keys account for was disturbed before. -/
theorem Disturbs.back {ins outs : PathKey → Prop} (psbs : PsbsTraced s s')
    (lsps : ∀ y ∈ s'.rsbs, ins y.key ∨ ∃ z ∈ s.rsbs, z.key = y.key)
    (tunnels : ∀ y ∈ s'.rsbs, outs y.key ∨ ∃ z ∈ s.rsbs, z.key = y.key) {b' c' : Psb}
    (disturbs : Disturbs s' ins outs b' c') : ∃ b c, Disturbs s ins outs b c := by
  obtain ⟨b, memb, keyB, active, bypass⟩ := psbs.active b' disturbs.memb disturbs.active
  obtain ⟨c, memc, addrC, keyC⟩ := psbs.placed c' disturbs.memc
  refine ⟨b, c, memb, active, memc, ?_, ?_, ?_, ?_⟩
  · rw [bypass, disturbs.bypass, addrC]
  · rw [keyB, keyC]
    exact disturbs.concerned
  · rw [keyB]
    rcases disturbs.lsp with here | ⟨y, memy, keyY⟩
    · exact .inl here
    · exact keyY ▸ lsps y memy
  · rw [keyC]
    rcases disturbs.tunnel with here | ⟨y, memy, keyY⟩
    · exact .inl here
    · exact keyY ▸ tunnels y memy

theorem not_disturbs_nothing (b c : Psb) :
    ¬ Disturbs s (fun _ => False) (fun _ => False) b c := fun disturbs =>
  disturbs.concerned.elim id id

namespace PsbsTraced

theorem of_same (psbs : s'.psbs = s.psbs) : PsbsTraced s s' where
  active := fun b mem active => ⟨b, psbs ▸ mem, rfl, active, rfl⟩
  placed := fun c mem => ⟨c, psbs ▸ mem, rfl, rfl⟩

theorem trans (first : PsbsTraced s s') (second : PsbsTraced s' s'') : PsbsTraced s s'' where
  active := by
    intro b'' mem'' active''
    obtain ⟨b', mem', key', active', bypass'⟩ := second.active b'' mem'' active''
    obtain ⟨b, mem, key, active, bypass⟩ := first.active b' mem' active'
    exact ⟨b, mem, key.trans key', active, bypass.trans bypass'⟩
  placed := by
    intro c'' mem''
    obtain ⟨c', mem', addr', key'⟩ := second.placed c'' mem''
    obtain ⟨c, mem, addr, key⟩ := first.placed c' mem'
    exact ⟨c, mem, addr.trans addr', key.trans key'⟩

theorem modPsb (p : Ptr) {f : PsbState → PsbState}
    (steady : ∀ b ∈ s.psbs, b.addr = p → (f b.body).frrActive = true →
      b.body.frrActive = true ∧ (f b.body).bypassPsb = b.body.bypassPsb) :
    PsbsTraced s (s.modPsb p f) where
  active := by
    intro b' mem' active'
    rcases Table.mem_modify.mp mem' with ⟨mem, -⟩ | ⟨b, mem, here, rfl⟩
    · exact ⟨b', mem, rfl, active', rfl⟩
    · obtain ⟨active, bypass⟩ := steady b mem here active'
      exact ⟨b, mem, rfl, active, bypass.symm⟩
  placed := by
    intro c' mem'
    rcases Table.mem_modify.mp mem' with ⟨mem, -⟩ | ⟨c, mem, -, rfl⟩
    · exact ⟨c', mem, rfl, rfl⟩
    · exact ⟨c, mem, rfl, rfl⟩

theorem unlinkPsb (s : Node) (p : Ptr) : PsbsTraced s { s with psbs := s.psbs.unlink p } where
  active := fun b mem active => ⟨b, (Table.mem_unlink.mp mem).1, rfl, active, rfl⟩
  placed := fun c mem => ⟨c, (Table.mem_unlink.mp mem).1, rfl, rfl⟩

end PsbsTraced

namespace KeepsDiverted

/-- Only PSBs and the log change, or RSBs in other fields than their labels and hop. -/
theorem of_psbs (psbs : PsbsTraced s s') (fwd : s'.fwd = s.fwd)
    (rsbs : ∀ r' ∈ s'.rsbs, ∃ r ∈ s.rsbs, r.key = r'.key ∧ r.body.labelIn = r'.body.labelIn ∧
      r.body.labelOut = r'.body.labelOut ∧ r.body.nextHop = r'.body.nextHop) :
    KeepsDiverted s s' := by
  refine keepsDiverted_of psbs (fun r' mem' => ?_) (fun x' mem' => ?_) not_disturbs_nothing
    fun _ _ _ _ _ _ _ _ _ => by rw [fwd]
  · obtain ⟨r, mem, key, label, -⟩ := rsbs r' mem'
    exact .inr ⟨r, mem, key, label⟩
  · obtain ⟨x, mem, key, -, out, hop⟩ := rsbs x' mem'
    exact .inr ⟨x, mem, key, out, congrArg HopIpv4.neighborAddr hop⟩

theorem of_same_rsbs (psbs : PsbsTraced s s') (fwd : s'.fwd = s.fwd) (rsbs : s'.rsbs = s.rsbs) :
    KeepsDiverted s s' :=
  of_psbs psbs fwd fun r mem => ⟨r, rsbs ▸ mem, rfl, rfl, rfl, rfl⟩

theorem of_same (psbs : s'.psbs = s.psbs) (fwd : s'.fwd = s.fwd) (rsbs : s'.rsbs = s.rsbs) :
    KeepsDiverted s s' :=
  of_same_rsbs (.of_same psbs) fwd rsbs

theorem modPsb (p : Ptr) {f : PsbState → PsbState} (frrActive : ∀ x, (f x).frrActive = x.frrActive)
    (bypassPsb : ∀ x, (f x).bypassPsb = x.bypassPsb) : KeepsDiverted s (s.modPsb p f) :=
  of_same_rsbs (.modPsb p fun b _ _ active =>
    ⟨(frrActive b.body).symm.trans active, bypassPsb b.body⟩) rfl rfl

theorem modRsb (s : Node) (p : Ptr) {f : RsbState → RsbState}
    (labelIn : ∀ x, (f x).labelIn = x.labelIn) (labelOut : ∀ x, (f x).labelOut = x.labelOut)
    (nextHop : ∀ x, (f x).nextHop = x.nextHop) : KeepsDiverted s (s.modRsb p f) := by
  refine of_psbs (.of_same rfl) rfl fun r' mem' => ?_
  rcases Table.mem_modify.mp mem' with ⟨mem, -⟩ | ⟨r, mem, -, rfl⟩
  · exact ⟨r', mem, rfl, rfl, rfl, rfl⟩
  · exact ⟨r, mem, rfl, (labelIn r.body).symm, (labelOut r.body).symm, (nextHop r.body).symm⟩

end KeepsDiverted

/-! ## Entries -/

/-- No label has two RSBs. -/
def Node.LabelsApart (s : Node) : Prop :=
  ∀ r ∈ s.rsbs, ∀ x ∈ s.rsbs, r.body.labelIn ≠ 0 → r.body.labelIn = x.body.labelIn → r = x

/-- Entries of different RSBs are different unless both are pushes to one destination. -/
theorem Node.LabelsApart.push_of_entryKey_eq (apart : s.LabelsApart) {r x : Rsb} (memr : r ∈ s.rsbs)
    (memx : x ∈ s.rsbs) (other : x.key ≠ r.key) (same : Rsb.entryKey x = Rsb.entryKey r) :
    x.body.labelIn = 0 ∧ r.body.labelIn = 0 ∧
      x.key.session.destAddr = r.key.session.destAddr := by
  obtain ⟨label, dest⟩ := fwdKey_eq_iff.mp same
  by_cases bare : x.body.labelIn = 0
  · exact ⟨bare, label.symm.trans bare, dest bare⟩
  · exact absurd (congrArg Block.key (apart x memx r memr bare label)) other

/-- The entry of no LSP on its bypass is the push entry of RSB `r` of PSB `b`; LSPs whose bypass
has RSB `r` do not count. -/
def Node.SparesPush (s : Node) (b : Psb) (r : Rsb) : Prop :=
  ∀ b' r' c' x', Routed s b' r' c' x' → b'.body.frrActive = true → r'.key ≠ r.key →
    x'.key ≠ r.key → ¬ SharesPush b r r'

/-- The release of RSB `r` keeps the other entries. -/
theorem releasedFwd_of_spared (apart : s.LabelsApart) {b : Psb} {r x : Rsb} (memr : r ∈ s.rsbs)
    (key : b.key = r.key) (memx : x ∈ s.rsbs) (other : x.key ≠ r.key)
    (spared : ¬ SharesPush b r x) :
    s.releasedFwd b r (Rsb.entryKey x) = s.fwd (Rsb.entryKey x) := by
  unfold Node.releasedFwd
  split
  · rfl
  · rename_i owns
    rw [key]
    refine Function.update_of_ne (fun same => spared ?_) _ _
    obtain ⟨bareX, bareR, dest⟩ := apart.push_of_entryKey_eq memr memx other same
    refine ⟨?_, bareR, bareX, (congrArg (·.session.destAddr) key).trans dest.symm⟩
    exact Bool.eq_true_of_not_eq_false fun transit => owns ⟨bareR, transit⟩

theorem released_keepsDiverted (wf : s.Wf) (apart : s.LabelsApart) {b : Psb} {r : Rsb}
    (memb : b ∈ s.psbs) (memr : r ∈ s.rsbs) (tied : r.body.associatedPsb = some b.addr)
    (spares : s.SparesPush b r) (out : List Output) : KeepsDiverted s (s.released b r out) := by
  have key := (wf.psb_of_rsb memb memr tied).1
  have old : ∀ y ∈ (s.released b r out).rsbs, y ∈ s.rsbs ∧ y.key ≠ r.key := by
    intro y memy
    obtain ⟨mem, away⟩ := Table.mem_unlink.mp memy
    exact ⟨mem, fun same => away (congrArg Block.addr (wf.rsbKeyed y mem r memr same))⟩
  have cut : PsbsTraced s (s.modPsb b.addr fun x => { x with associatedRsb := none }) :=
    .modPsb b.addr fun _ _ _ active => ⟨active, rfl⟩
  refine keepsDiverted_of ⟨cut.active, cut.placed⟩
    (fun r' mem' => .inr ⟨r', (old r' mem').1, rfl, rfl⟩)
    (fun x' mem' => .inr ⟨x', (old x' mem').1, rfl, rfl, rfl⟩) not_disturbs_nothing ?_
  intro b' r' c' x' routed active _ staysR staysX
  obtain ⟨y, memy, keyY⟩ := staysR
  obtain ⟨z, memz, keyZ⟩ := staysX
  have otherR : r'.key ≠ r.key := keyY ▸ (old y memy).2
  have otherX : x'.key ≠ r.key := keyZ ▸ (old z memz).2
  exact releasedFwd_of_spared apart memr key routed.memr otherR
    (spares b' r' c' x' routed active otherR otherX)

theorem rsvpRsbCleanup_keepsDiverted (wf : s.Wf) (apart : s.LabelsApart) {b : Psb} {r : Rsb}
    (memb : b ∈ s.psbs) (memr : r ∈ s.rsbs) (tied : r.body.associatedPsb = some b.addr)
    (spares : s.SparesPush b r) (propagate : Bool) :
    KeepsDiverted s (rsvpRsbCleanup env s r.addr propagate) := by
  obtain ⟨out, eq⟩ := @rsvpRsbCleanup_eq env s b r memb memr tied propagate
  rw [eq]
  exact released_keepsDiverted wf apart memb memr tied spares out

theorem propagatePathTear_keepsDiverted (s : Node) (p : Ptr) :
    KeepsDiverted s (propagatePathTear env s p) := by
  unfold propagatePathTear
  split
  · exact .refl s
  · dsimp only [resolvePathNextHop]
    have popped : ∀ ero, KeepsDiverted s (s.modPsb p fun x => { x with ero := ero }) := fun ero =>
      .modPsb p (fun _ => rfl) fun _ => rfl
    split
    · exact popped _
    · obtain ⟨sent, eq⟩ := rsvpSendPacket_out _ _ _ _
      rw [eq]
      exact (popped _).trans (.of_same rfl rfl rfl)

theorem rsvpPsbDelete_keepsDiverted (s : Node) (p : Ptr) :
    KeepsDiverted s (s.rsvpPsbDelete p) := by
  unfold Node.rsvpPsbDelete
  split
  · exact .refl s
  · have unlinked : KeepsDiverted s { s with psbs := s.psbs.unlink p } :=
      .of_same_rsbs (.unlinkPsb s p) rfl rfl
    dsimp only
    split
    · exact unlinked
    · exact unlinked.trans (.modRsb _ _ (fun _ => rfl) (fun _ => rfl) fun _ => rfl)

/-- Pushes that are spared now were spared before. -/
theorem Node.SparesPush.congr (keeps : KeepsDiverted s s') {b b' : Psb} {r : Rsb}
    (ingress : b'.body.isIngress = b.body.isIngress) (key : b'.key = b.key)
    (spares : s.SparesPush b r) : s'.SparesPush b' r := by
  intro p' y' c' x' routed' active' otherR otherX shares
  obtain ⟨p, y, c, x, routed, active, ⟨keyR, label⟩, ⟨keyX, -⟩, -⟩ :=
    keeps p' y' c' x' routed' active'
  refine spares p y c x routed active (keyR ▸ otherR) (keyX ▸ otherX) ?_
  exact ⟨ingress.symm.trans shares.1, shares.2.1, label.trans shares.2.2.1,
    (congrArg (·.session.destAddr) key).symm.trans
      (shares.2.2.2.trans (congrArg (·.session.destAddr) keyR).symm)⟩

theorem rsvpPsbCleanup_keepsDiverted (wf : s.Wf) (apart : s.LabelsApart) {b : Psb}
    (mem : b ∈ s.psbs) (spares : ∀ r ∈ s.rsbs, r.key = b.key → s.SparesPush b r)
    (propagate : Bool) : KeepsDiverted s (rsvpPsbCleanup env s b.addr propagate) := by
  obtain ⟨t, c, told, removed⟩ := @rsvpPsbCleanup_cases env s wf b mem propagate
  have keeps : KeepsDiverted s t := by
    rcases told.origin with rfl | rfl
    · exact .refl t
    · exact propagatePathTear_keepsDiverted s b.addr
  rcases removed with ⟨-, eq⟩ | ⟨r, memr, -, tied, eq⟩
  · rw [eq]
    exact keeps.trans (rsvpPsbDelete_keepsDiverted t b.addr)
  · have keyR := (wf.psb_of_rsb mem memr tied).1
    have apartT : t.LabelsApart := by
      unfold Node.LabelsApart
      rw [told.rsbs]
      exact apart
    have released := @rsvpRsbCleanup_keepsDiverted env t (told.wf wf) apartT c r told.mem
      (told.rsbs ▸ memr) (told.addr ▸ tied)
      ((spares r memr keyR.symm).congr keeps told.ingress told.key) false
    rw [eq]
    exact (keeps.trans released).trans (rsvpPsbDelete_keepsDiverted _ b.addr)

/-! ## Automatic protection -/

/-- An active LSP has a bypass reference. -/
def Psb.Referring (b : Psb) : Prop := b.body.frrActive = true → b.body.bypassPsb ≠ none

theorem rsvpFrrAutoAssociate_keepsDiverted (refers : s.AllPsbs Psb.Referring) (p : Ptr) :
    KeepsDiverted s (rsvpFrrAutoAssociate s p) ∧
      (rsvpFrrAutoAssociate s p).AllPsbs Psb.Referring := by
  unfold rsvpFrrAutoAssociate
  split
  · exact ⟨.refl s, refers⟩
  · rename_i b found
    obtain ⟨mem, rfl⟩ := Table.get_eq_some.mp found
    split
    · exact ⟨.refl s, refers⟩
    · rename_i guard
      split
      · exact ⟨.refl s, refers⟩
      · refine ⟨.of_same_rsbs (.modPsb _ fun c memc here active => ?_) rfl rfl,
          refers.modPsb _ fun _ _ _ _ => (by rintro ⟨⟩)⟩
        -- An LSP without protection is not active.
        rw [Table.eq_of_addr_eq memc mem here] at active
        exact absurd (.inr (.inl (refers b mem active))) guard

theorem rsvpFrrAutoAssociateAll_keepsDiverted (refers : s.AllPsbs Psb.Referring)
    (ifindex : UInt32) : KeepsDiverted s (rsvpFrrAutoAssociateAll s ifindex) := by
  have both := @rsvpFrrAutoAssociateAll_induct s
    (fun t => KeepsDiverted s t ∧ t.AllPsbs Psb.Referring) ⟨.refl s, refers⟩ ifindex ?_
  · exact both.1
  · intro t p held
    rcases held with ⟨keeps, refersT⟩
    obtain ⟨armed, refers'⟩ := rsvpFrrAutoAssociate_keepsDiverted refersT p
    exact ⟨keeps.trans armed, refers'⟩

end Rsvp
