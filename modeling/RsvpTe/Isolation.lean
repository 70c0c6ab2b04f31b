import RsvpTe.LabelOwnership
import RsvpTe.MakeBeforeBreak

/-!
# Removing one LSP beside another

Every way of removing the state of a key touches only blocks of that key, frees only its label
and removes one forwarding entry.  Labels have one owner, but push entries are keyed by
destination: two LSPs without an incoming label that lead to one destination share theirs, and
the removal of one takes it from the other.
-/

namespace Rsvp

open Words

variable {env : Env} {s s' s'' : Node} {info : MessageInfo} {k : PathKey}

/-! ## Blocks of other keys -/

/-- Only blocks with key `k` differ. -/
structure Confined (k : PathKey) (s s' : Node) : Prop where
  psbs : ∀ b : Psb, b.key ≠ k → (b ∈ s'.psbs ↔ b ∈ s.psbs)
  rsbs : ∀ r : Rsb, r.key ≠ k → (r ∈ s'.rsbs ↔ r ∈ s.rsbs)
  bsbs : ∀ b : Bsb, b.key ≠ k → (b ∈ s'.bsbs ↔ b ∈ s.bsbs)

namespace Confined

theorem trans (first : Confined k s s') (second : Confined k s' s'') : Confined k s s'' where
  psbs := fun b other => (second.psbs b other).trans (first.psbs b other)
  rsbs := fun r other => (second.rsbs r other).trans (first.rsbs r other)
  bsbs := fun b other => (second.bsbs b other).trans (first.bsbs b other)

theorem of_same (psbs : s'.psbs = s.psbs) (rsbs : s'.rsbs = s.rsbs) (bsbs : s'.bsbs = s.bsbs) :
    Confined k s s' where
  psbs := fun _ _ => by rw [psbs]
  rsbs := fun _ _ => by rw [rsbs]
  bsbs := fun _ _ => by rw [bsbs]

theorem refl (s : Node) : Confined k s s := of_same rfl rfl rfl

end Confined

theorem propagatePathTear_confined {b : Psb} (mem : b ∈ s.psbs) :
    Confined b.key s (propagatePathTear env s b.addr) := by
  have popped : ∀ f : PsbState → PsbState, Confined b.key s (s.modPsb b.addr f) := fun f =>
    ⟨fun _ other => Table.mem_modify_of_key_ne mem other f, fun _ _ => Iff.rfl, fun _ _ => Iff.rfl⟩
  unfold propagatePathTear
  rw [Table.get_of_mem mem]
  simp only
  split
  · exact popped _
  · rcases rsvpSendPacket_cases _ _ _ _ _ with same | sent
    · rw [same]
      exact popped _
    · rw [sent]
      exact ⟨(popped _).psbs, fun _ _ => Iff.rfl, fun _ _ => Iff.rfl⟩

/-! ## Removal -/

/-- RSB `r` of PSB `b` is gone with its entry, and other keys keep their blocks. -/
structure Removed (s s' : Node) (b : Psb) (r : Rsb) : Prop where
  confined : Confined r.key s s'
  fwd : s'.fwd = s.releasedFwd b r

/-- The node without RSB `r` of PSB `b`, its label and its entry. -/
def Node.released (s : Node) (b : Psb) (r : Rsb) (out : List Output) : Node :=
  { s with
    psbs := s.psbs.modify b.addr fun x => { x with associatedRsb := none }
    rsbs := s.rsbs.unlink r.addr
    labels := s.releasedLabels r
    fwd := s.releasedFwd b r
    out := out }

theorem rsvpRsbCleanup_eq {b : Psb} {r : Rsb} (memb : b ∈ s.psbs) (memr : r ∈ s.rsbs)
    (tied : r.body.associatedPsb = some b.addr) (propagate : Bool) :
    ∃ out, rsvpRsbCleanup env s r.addr propagate = s.released b r out := by
  -- The ResvTear only extends the log.
  have dropped : ∀ out, ∃ out', ((rsbCleanupResources { s with out := out } r.addr).modPsb b.addr
      fun x => { x with associatedRsb := none }).rsvpRsbDelete r.addr = s.released b r out' := by
    intro out
    have psb : ({ s with out := out } : Node).psbOf r.body = some b := by
      rw [Node.psbOf, tied]
      exact Table.get_of_mem memb
    obtain ⟨f, out', keeps, cleaned⟩ := @rsbCleanupResources_eq { s with out := out } b r memr psb
    rw [cleaned]
    refine ⟨out', ?_⟩
    have memT : { r with body := f r.body } ∈ s.rsbs.modify r.addr f := s.mem_modRsb memr f
    have cut := @rsvpRsbDelete_cut { s with
      rsbs := s.rsbs.modify r.addr f
      labels := s.releasedLabels r
      fwd := s.releasedFwd b r
      out := out' } b _ memT ((keeps r.body).trans tied)
    rw [Table.unlink_modify] at cut
    exact cut
  unfold rsvpRsbCleanup
  rw [Table.get_of_mem memr]
  simp only [tied]
  split
  · rcases @propagateResvTear_cases env s r.addr with same | ⟨dest, useRao, bytes, -, sent⟩
    · rw [same]
      exact dropped s.out
    · rw [sent]
      exact dropped _
  · exact dropped s.out

theorem rsvpRsbCleanup_removed {b : Psb} {r : Rsb} (memb : b ∈ s.psbs) (memr : r ∈ s.rsbs)
    (tied : r.body.associatedPsb = some b.addr) (key : b.key = r.key) (propagate : Bool) :
    Removed s (rsvpRsbCleanup env s r.addr propagate) b r := by
  obtain ⟨out, eq⟩ := @rsvpRsbCleanup_eq env s b r memb memr tied propagate
  rw [eq]
  exact ⟨⟨fun _ other => Table.mem_modify_of_key_ne memb (key ▸ other) _,
    fun _ other => Table.mem_unlink_of_key_ne memr other, fun _ _ => Iff.rfl⟩, rfl⟩

theorem rsvpPsbDelete_confined {b : Psb} (mem : b ∈ s.psbs) (alone : b.body.associatedRsb = none) :
    Confined b.key s (s.rsvpPsbDelete b.addr) := by
  rw [rsvpPsbDelete_alone mem alone]
  exact ⟨fun _ other => Table.mem_unlink_of_key_ne mem other, fun _ _ => Iff.rfl,
    fun _ _ => Iff.rfl⟩

/-- A PSB in the state its RSB leaves when it is released. -/
theorem rsvpRsbCleanup_mem {b : Psb} {r : Rsb} (memb : b ∈ s.psbs) (memr : r ∈ s.rsbs)
    (tied : r.body.associatedPsb = some b.addr) (propagate : Bool) :
    { b with body := { b.body with associatedRsb := none } } ∈
      (rsvpRsbCleanup env s r.addr propagate).psbs := by
  obtain ⟨out, eq⟩ := @rsvpRsbCleanup_eq env s b r memb memr tied propagate
  rw [eq]
  exact s.mem_modPsb memb fun x => { x with associatedRsb := none }

theorem Told.confined {b c : Psb} {t : Node} (told : Told env s b t c) (memb : b ∈ s.psbs) :
    Confined b.key s t := by
  rcases told.origin with rfl | rfl
  · exact .refl t
  · exact propagatePathTear_confined memb

theorem rsvpPsbCleanup_removed (wf : s.Wf) {b : Psb} {r : Rsb} (memb : b ∈ s.psbs)
    (memr : r ∈ s.rsbs) (key : b.key = r.key) (propagate : Bool) :
    Removed s (rsvpPsbCleanup env s b.addr propagate) b r := by
  obtain ⟨c, memc, keyC, tied, back⟩ := wf.owned r memr
  rw [wf.psbKeyed c memc b memb (keyC.trans key.symm)] at tied back
  obtain ⟨t, c, told, removed⟩ := @rsvpPsbCleanup_cases env s wf b memb propagate
  have confined := told.confined memb
  rcases removed with ⟨alone, -⟩ | ⟨x, -, assoc, -, eq⟩
  · exact absurd (back.symm.trans alone) (Option.some_ne_none _)
  have same : x.addr = r.addr := Option.some.inj (assoc.symm.trans back)
  have memT : r ∈ t.rsbs := told.rsbs ▸ memr
  have tiedT : r.body.associatedPsb = some c.addr := told.addr ▸ tied
  have released := @rsvpRsbCleanup_removed env t c r told.mem memT tiedT (told.key.trans key) false
  have left := @rsvpRsbCleanup_mem env t c r told.mem memT tiedT false
  have deleted := rsvpPsbDelete_confined left rfl
  rw [eq, same, ← told.addr]
  refine ⟨key ▸ confined.trans ?_, ?_⟩
  · rw [told.key] at deleted
    exact (key ▸ released.confined).trans deleted
  · rw [rsvpPsbDelete_fwd, released.fwd]
    simp only [Node.releasedFwd, told.fwd, told.ingress, told.key]

/-- The cleanup of a PSB, with its RSB or without one, stays with its key. -/
theorem rsvpPsbCleanup_confined (wf : s.Wf) {b : Psb} (mem : b ∈ s.psbs) (propagate : Bool) :
    Confined b.key s (rsvpPsbCleanup env s b.addr propagate) := by
  obtain ⟨t, c, told, removed⟩ := @rsvpPsbCleanup_cases env s wf b mem propagate
  rcases removed with ⟨alone, eq⟩ | ⟨r, memr, -, tied, -⟩
  · have deleted := rsvpPsbDelete_confined told.mem (told.assoc.trans alone)
    rw [told.addr, told.key] at deleted
    rw [eq]
    exact (told.confined mem).trans deleted
  · have key := (wf.psb_of_rsb mem memr tied).1
    exact key ▸ (rsvpPsbCleanup_removed wf mem memr key propagate).confined

theorem bsbRemove_confined (s : Node) (k : PathKey) : Confined k s (bsbRemove s k) := by
  unfold bsbRemove
  split
  · exact .refl s
  · rename_i bsb found
    obtain ⟨mem, rfl⟩ := Table.find_eq_some found
    exact ⟨fun _ _ => Iff.rfl, fun _ _ => Iff.rfl,
      fun _ other => Table.mem_unlink_of_key_ne mem other⟩

theorem bsbRemove_fwd (s : Node) (k : PathKey) : (bsbRemove s k).fwd = s.fwd := by
  unfold bsbRemove
  split <;> rfl

/-- The ways to remove the state of key `k`, and the states they lead to. -/
inductive Removes (env : Env) (s : Node) (k : PathKey) : Node → Prop
  | pathTear {info : MessageInfo} : info.key = k → Removes env s k (handlePathTear env s info)
  | resvTear {info : MessageInfo} : info.key = k → Removes env s k (handleResvTear env s info)
  | teardown {tunnelId lspId : UInt16} {b : Psb} : s.rsvpPsbFindById tunnelId lspId = some b →
    b.key = k → Removes env s k (rsvpTeardownPath env s tunnelId lspId)
  | psbCleanup {b : Psb} : b ∈ s.psbs → b.key = k →
    Removes env s k (psbCleanupTimerCb env s b.addr)
  | rsbCleanup {r : Rsb} : r ∈ s.rsbs → r.key = k →
    Removes env s k (rsbCleanupTimerCb env s r.addr)

theorem Removes.removed (wf : s.Wf) {b : Psb} {r : Rsb} (foundB : s.rsvpPsbFind k = some b)
    (foundR : s.rsvpRsbFind k = some r) (removes : Removes env s k s') :
    Removed s s' b r := by
  obtain ⟨memb, keyB⟩ := Table.find_eq_some foundB
  obtain ⟨memr, keyR⟩ := Table.find_eq_some foundR
  have key : b.key = r.key := keyB.trans keyR.symm
  have tied := wf.found_tied foundB foundR
  have onPsb := @rsvpPsbCleanup_removed env s wf b r memb memr key true
  have onRsb := @rsvpRsbCleanup_removed env s b r memb memr tied key true
  have unblocked : ∀ t : Node, Removed s t b r → Removed s (bsbRemove t k) b r := fun t removed =>
    ⟨removed.confined.trans (keyR.symm ▸ bsbRemove_confined t k),
      (bsbRemove_fwd t k).trans removed.fwd⟩
  cases removes with
  | pathTear same =>
    rw [handlePathTear, same]
    simp only [foundB]
    exact unblocked _ onPsb
  | resvTear same =>
    rw [handleResvTear, same]
    simp only [foundR]
    exact unblocked _ onRsb
  | teardown scanned same =>
    rename_i c
    have memc : c ∈ s.psbs := List.mem_of_find?_eq_some scanned
    rw [rsvpTeardownPath, scanned, wf.psbKeyed c memc b memb (same.trans keyB.symm)]
    exact onPsb
  | psbCleanup memc same =>
    rw [wf.psbKeyed _ memc b memb (same.trans keyB.symm)]
    exact onPsb
  | rsbCleanup memx same =>
    rw [wf.rsbKeyed _ memx r memr (same.trans keyR.symm)]
    exact onRsb

theorem Removes.sound (wf : s.Wf) (sound : s.ledger.Sound) (removes : Removes env s k s') :
    s'.Wf ∧ s'.ledger.Sound := by
  have runs : Runs env.toHal (fun _ => True) s s' := by
    cases removes with
    | pathTear =>
      exact handlePathTear_runs (fun _ _ => trivial) wf fun _ _ => ⟨fun _ => trivial, trivial⟩
    | resvTear => exact handleResvTear_runs (fun _ _ => trivial) wf fun _ _ => trivial
    | teardown => exact rsvpTeardownPath_runs wf _ _ fun _ _ => trivial
    | psbCleanup => exact psbCleanupTimerCb_runs wf _ fun _ _ => trivial
    | rsbCleanup => exact rsbCleanupTimerCb_runs wf _ fun _ _ => trivial
  exact ⟨runs.wf wf, runs.sound wf sound⟩

/-! ## Another LSP -/

/-- PSB `b` and RSB `r` of key `k`, with a forwarding entry. -/
structure Installed (s : Node) (k : PathKey) (b : Psb) (r : Rsb) : Prop where
  psb : s.rsvpPsbFind k = some b
  rsb : s.rsvpRsbFind k = some r
  entry : s.fwd (fwdKey r.body.labelIn k.session.destAddr) ≠ none

/-- Key `k`, whose RSB is `r`, has the blocks, the label and the forwarding entry it had. -/
structure Undisturbed (s s' : Node) (k : PathKey) (r : Rsb) : Prop where
  psb : s'.rsvpPsbFind k = s.rsvpPsbFind k
  rsb : s'.rsvpRsbFind k = s.rsvpRsbFind k
  bsb : s'.rsvpBsbFind k = s.rsvpBsbFind k
  label : s'.labels.InUse r.body.labelIn ↔ s.labels.InUse r.body.labelIn
  entry : s'.fwd (fwdKey r.body.labelIn k.session.destAddr) =
    s.fwd (fwdKey r.body.labelIn k.session.destAddr)

/-- RSB `r` of the ingress PSB `b` and RSB `x` both have no label and lead to one destination. -/
def SharesPush (b : Psb) (r x : Rsb) : Prop :=
  b.body.isIngress = true ∧ r.body.labelIn = 0 ∧ x.body.labelIn = 0 ∧
    b.key.session.destAddr = x.key.session.destAddr

/-- A label that an RSB has before and after is taken before and after. -/
theorem inUse_iff_of_mem (wf : s.Wf) (wf' : s'.Wf) (sound : s.ledger.Sound)
    (sound' : s'.ledger.Sound) {r : Rsb} (mem : r ∈ s.rsbs) (mem' : r ∈ s'.rsbs) :
    s'.labels.InUse r.body.labelIn ↔ s.labels.InUse r.body.labelIn := by
  by_cases bare : r.body.labelIn = 0
  · rw [bare]
    exact ⟨fun used => absurd rfl (wf'.labels.ne_zero used.inRange),
      fun used => absurd rfl (wf.labels.ne_zero used.inRange)⟩
  · refine ⟨fun _ => ?_, fun _ => ?_⟩
    · exact (sound.taken_iff _).mpr ⟨r.addr, bare, r, mem, rfl, rfl⟩
    · exact (sound'.taken_iff _).mpr ⟨r.addr, bare, r, mem', rfl, rfl⟩

/-- The entry of RSB `x` outlives the release of RSB `r` unless they share a push entry. -/
theorem releasedFwd_other (sound : s.ledger.Sound) {b : Psb} {r x : Rsb} (memr : r ∈ s.rsbs)
    (memx : x ∈ s.rsbs) (other : x.key ≠ r.key)
    (entry : s.fwd (fwdKey x.body.labelIn x.key.session.destAddr) ≠ none) :
    s.releasedFwd b r (fwdKey x.body.labelIn x.key.session.destAddr) =
        s.fwd (fwdKey x.body.labelIn x.key.session.destAddr) ↔ ¬ SharesPush b r x := by
  unfold Node.releasedFwd
  split
  · rename_i transit
    refine ⟨fun _ shared => ?_, fun _ => rfl⟩
    exact Bool.false_ne_true (transit.2.symm.trans shared.1)
  · rename_i owns
    rw [Function.update_apply]
    split
    · rename_i same
      refine ⟨fun gone => absurd gone.symm entry, fun apart => absurd ?_ apart⟩
      obtain ⟨label, dest⟩ := fwdKey_eq_iff.mp same
      by_cases bare : x.body.labelIn = 0
      · have bareR : r.body.labelIn = 0 := label.symm.trans bare
        refine ⟨?_, bareR, bare, (dest bare).symm⟩
        exact Bool.eq_true_of_not_eq_false fun transit => owns ⟨bareR, transit⟩
      · -- One label has one owner.
        exact absurd (congrArg Block.key (Ledger.Sound.rsb_eq sound memx memr bare label)) other
    · rename_i apart
      refine ⟨fun _ shared => apart ?_, fun _ => rfl⟩
      obtain ⟨-, bare, bareX, dest⟩ := shared
      rw [bare, bareX, dest]

/-- Removing the state of key `k` leaves key `k'` as it was exactly when the two do not share a
push entry. -/
theorem undisturbed_iff {min max : UInt32} (low : 1 ≤ min) (ordered : min ≤ max)
    (high : max < 1048576) (run : Reachable (labelMgrInit min max true) s) {k k' : PathKey}
    (other : k' ≠ k) {b b' : Psb} {r r' : Rsb} (installed : Installed s k b r)
    (installed' : Installed s k' b' r') (removes : Removes env s k s') :
    Undisturbed s s' k' r' ↔ ¬ SharesPush b r r' := by
  obtain ⟨pool, unused⟩ := labelMgrInit_wf low ordered high
  have wf := run.wf pool
  have sound := run.sound pool unused
  have removed := removes.removed wf installed.psb installed.rsb
  obtain ⟨wf', sound'⟩ := removes.sound wf sound
  obtain ⟨memr, rfl⟩ := Table.find_eq_some installed.rsb
  obtain ⟨memr', rfl⟩ := Table.find_eq_some installed'.rsb
  have kept : r' ∈ s'.rsbs := (removed.confined.rsbs r' other).mpr memr'
  have entry := @releasedFwd_other s sound b r r' memr memr' other installed'.entry
  rw [← removed.fwd] at entry
  refine ⟨fun same => entry.mp same.entry, fun apart => ⟨?_, ?_, ?_, ?_, entry.mpr apart⟩⟩
  · exact wf'.psbKeyed.find_congr fun c key => removed.confined.psbs c (key ▸ other)
  · exact wf'.rsbKeyed.find_congr fun x key => removed.confined.rsbs x (key ▸ other)
  · exact wf'.bsbKeyed.find_congr fun c key => removed.confined.bsbs c (key ▸ other)
  · exact inUse_iff_of_mem wf wf' sound sound' memr' kept

/-- LSPs 1 and 2 of tunnel 1, originated here, lead to `dest` and `dest'`. -/
def sampleTwo (dest dest' : InAddr) : Node :=
  ((((Node.init (labelMgrInit 16 31 true)).step (sampleEnv (fun _ => false) 1)
    (.initiatePath 0x0900000A dest 1 none [] false)).step (sampleEnv (fun _ => false) 2)
    (.initiatePath 0x0900000A dest' 1 none [] false)).step (sampleEnv (fun _ => false) 1)
    (.recv (sampleResv dest 1 100 7))).step (sampleEnv (fun _ => false) 2)
    (.recv (sampleResv dest' 2 200 7))

theorem reachable_sampleTwo (dest dest' : InAddr) :
    Reachable (labelMgrInit 16 31 true) (sampleTwo dest dest') :=
  .step _ _ (.step _ _ (.step _ _ (.step _ _ .init)))

/-- Key `k` has an ingress PSB, an RSB without a label and a push entry. -/
def Node.pushes (s : Node) (k : PathKey) : Bool :=
  (s.rsvpPsbFind k).any (·.body.isIngress) && (s.rsvpRsbFind k).any (·.body.labelIn = 0) &&
    (s.fwd (.push k.session.destAddr)).isSome

theorem Node.installed_of_pushes {k : PathKey} (up : s.pushes k = true) :
    ∃ b r, Installed s k b r ∧ r.body.labelIn = 0 := by
  simp only [Node.pushes, Bool.and_eq_true] at up
  obtain ⟨⟨psb, rsb⟩, entry⟩ := up
  obtain ⟨b, foundB, -⟩ := (Option.any_eq_true _ _).mp psb
  obtain ⟨r, foundR, bare⟩ := (Option.any_eq_true _ _).mp rsb
  have bare : r.body.labelIn = 0 := of_decide_eq_true bare
  refine ⟨b, r, ⟨foundB, foundR, ?_⟩, bare⟩
  rw [fwdKey, if_pos bare]
  exact Option.isSome_iff_ne_none.mp entry

/-- With two destinations the teardown of LSP 1 leaves LSP 2 alone. -/
theorem undisturbed_iff_apart :
    ∃ r', (sampleTwo 0x0300000A 0x0400000A).rsvpRsbFind (sampleKey 0x0400000A 2) = some r' ∧
      Undisturbed (sampleTwo 0x0300000A 0x0400000A)
        (rsvpTeardownPath (sampleEnv (fun _ => false) 1) (sampleTwo 0x0300000A 0x0400000A) 1 1)
        (sampleKey 0x0400000A 2) r' := by
  have up : (sampleTwo 0x0300000A 0x0400000A).pushes (sampleKey 0x0300000A 1) = true ∧
      (sampleTwo 0x0300000A 0x0400000A).pushes (sampleKey 0x0400000A 2) = true ∧
      ((sampleTwo 0x0300000A 0x0400000A).rsvpPsbFindById 1 1).any
        (·.key = sampleKey 0x0300000A 1) = true := by
    decide +kernel
  obtain ⟨first, second, scanned⟩ := up
  obtain ⟨b, r, installed, -⟩ := Node.installed_of_pushes first
  obtain ⟨b', r', installed', -⟩ := Node.installed_of_pushes second
  obtain ⟨c, foundC, key⟩ := (Option.any_eq_true _ _).mp scanned
  have removes : Removes (sampleEnv (fun _ => false) 1) _ (sampleKey 0x0300000A 1) _ :=
    .teardown foundC (of_decide_eq_true key)
  have other : sampleKey 0x0400000A 2 ≠ sampleKey 0x0300000A 1 := by decide
  have same := undisturbed_iff (by decide) (by decide) (by decide)
    (reachable_sampleTwo 0x0300000A 0x0400000A) other installed installed' removes
  refine ⟨r', installed'.rsb, same.mpr ?_⟩
  rintro ⟨_, _, _, dest⟩
  rw [(Table.find_eq_some installed.psb).2, (Table.find_eq_some installed'.rsb).2] at dest
  cases dest

/-- With one destination the teardown of LSP 1 removes the entry of LSP 2. -/
theorem exists_push_shared :
    Reachable (labelMgrInit 16 31 true) (sampleTwo 0x0300000A 0x0300000A) ∧
      (∃ b r, Installed (sampleTwo 0x0300000A 0x0300000A) (sampleKey 0x0300000A 1) b r) ∧
      (sampleTwo 0x0300000A 0x0300000A).fwd (.push 0x0300000A) = some ⟨200, 7, 0x0300000A⟩ ∧
      ∃ b' r', Installed (sampleTwo 0x0300000A 0x0300000A) (sampleKey 0x0300000A 2) b' r' ∧
        Removes (sampleEnv (fun _ => false) 1) (sampleTwo 0x0300000A 0x0300000A)
          (sampleKey 0x0300000A 1) (rsvpTeardownPath (sampleEnv (fun _ => false) 1)
            (sampleTwo 0x0300000A 0x0300000A) 1 1) ∧
        ¬ Undisturbed (sampleTwo 0x0300000A 0x0300000A)
          (rsvpTeardownPath (sampleEnv (fun _ => false) 1) (sampleTwo 0x0300000A 0x0300000A) 1 1)
          (sampleKey 0x0300000A 2) r' := by
  have up : (sampleTwo 0x0300000A 0x0300000A).pushes (sampleKey 0x0300000A 1) = true ∧
      (sampleTwo 0x0300000A 0x0300000A).pushes (sampleKey 0x0300000A 2) = true ∧
      ((sampleTwo 0x0300000A 0x0300000A).rsvpPsbFindById 1 1).any
        (·.key = sampleKey 0x0300000A 1) = true ∧
      (sampleTwo 0x0300000A 0x0300000A).fwd (.push 0x0300000A) = some ⟨200, 7, 0x0300000A⟩ ∧
      (rsvpTeardownPath (sampleEnv (fun _ => false) 1) (sampleTwo 0x0300000A 0x0300000A) 1 1).fwd
        (.push (sampleKey 0x0300000A 2).session.destAddr) = none := by
    decide +kernel
  obtain ⟨first, second, scanned, entry, gone⟩ := up
  obtain ⟨b, r, installed, -⟩ := Node.installed_of_pushes first
  obtain ⟨b', r', installed', bare⟩ := Node.installed_of_pushes second
  obtain ⟨c, foundC, key⟩ := (Option.any_eq_true _ _).mp scanned
  refine ⟨reachable_sampleTwo _ _, ⟨b, r, installed⟩, entry, b', r', installed',
    .teardown foundC (of_decide_eq_true key), fun same => ?_⟩
  have kept := same.entry
  have key : fwdKey r'.body.labelIn (sampleKey 0x0300000A 2).session.destAddr =
      .push (sampleKey 0x0300000A 2).session.destAddr := if_pos bare
  rw [key, gone, ← key] at kept
  exact installed'.entry kept.symm

end Rsvp
