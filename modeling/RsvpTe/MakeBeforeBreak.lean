import RsvpTe.EventEffects

/-!
# Push entries under teardown

Push entries are keyed by destination.  Releasing the RSB of an ingress without a label removes the
entry of its destination, whichever LSP installed it.
-/

namespace Rsvp

open Words

variable {env : Env} {s : Node} {info : MessageInfo}

/-! ## The push entries under teardown -/

theorem rsvpPsbDelete_fwd (s : Node) (p : Ptr) : (s.rsvpPsbDelete p).fwd = s.fwd := by
  unfold Node.rsvpPsbDelete
  split
  · rfl
  · simp only
    split <;> rfl

theorem rsvpRsbDelete_fwd (s : Node) (p : Ptr) : (s.rsvpRsbDelete p).fwd = s.fwd := by
  unfold Node.rsvpRsbDelete
  split
  · rfl
  · simp only
    split <;> rfl

/-- The forwarding table without the entry of RSB `r` of PSB `b`: an RSB without a label has one
only at an ingress. -/
def Node.releasedFwd (s : Node) (b : Psb) (r : Rsb) : FwdTable :=
  if r.body.labelIn = 0 ∧ b.body.isIngress = false then s.fwd
  else Function.update s.fwd (fwdKey r.body.labelIn b.key.session.destAddr) none

/-- The label pool without the label of RSB `r`. -/
def Node.releasedLabels (s : Node) (r : Rsb) : LabelMgr :=
  if r.body.labelIn = 0 then s.labels else labelMgrFree s.labels r.body.labelIn

/-- What `rsb_cleanup_resources` leaves, up to the fields of the RSB it clears. -/
theorem rsbCleanupResources_eq {b : Psb} {r : Rsb} (mem : r ∈ s.rsbs)
    (psb : s.psbOf r.body = some b) :
    ∃ (f : RsbState → RsbState) (out : List Output),
      (∀ x, (f x).associatedPsb = x.associatedPsb) ∧ rsbCleanupResources s r.addr =
        { s with
          rsbs := s.rsbs.modify r.addr f
          labels := s.releasedLabels r
          fwd := s.releasedFwd b r
          out := out } := by
  unfold rsbCleanupResources Node.releasedFwd Node.releasedLabels
  rw [Table.get_of_mem mem]
  simp only [psb, Option.any_some, Option.map_some]
  by_cases bare : r.body.labelIn = 0
  · rw [if_neg (not_not_intro bare), if_pos bare]
    cases ingress : b.body.isIngress with
    | false =>
      rw [if_neg Bool.false_ne_true, if_pos ⟨bare, rfl⟩]
      exact ⟨fun x => { x with refreshTimer := false, cleanupTimer := false }, s.out,
        fun _ => rfl, rfl⟩
    | true =>
      rw [if_pos rfl, if_neg (fun transit => by cases transit.2), bare]
      exact ⟨fun x => { x with refreshTimer := false, cleanupTimer := false }, _, fun _ => rfl,
        rfl⟩
  · rw [if_pos bare, if_neg bare, if_neg fun transit => bare transit.1]
    refine ⟨(fun x => { x with refreshTimer := false, cleanupTimer := false }) ∘
      fun x => { x with labelIn := 0 },
      s.out ++ [.mplsRemove r.body.labelIn (some b.key.session.destAddr)], fun _ => rfl, ?_⟩
    simp only [Node.modRsb, Table.modify_modify]
    rfl

theorem rsbCleanupResources_fwd {b : Psb} {r : Rsb} (mem : r ∈ s.rsbs)
    (psb : s.psbOf r.body = some b) : (rsbCleanupResources s r.addr).fwd = s.releasedFwd b r := by
  obtain ⟨f, out, -, eq⟩ := rsbCleanupResources_eq mem psb
  rw [eq]

/-- Releasing an RSB removes the push entry of its destination if it has no label and its PSB is
an ingress. -/
theorem releasedFwd_push (b : Psb) (r : Rsb) (dest : InAddr) (entry : FwdEntry) :
    s.releasedFwd b r (.push dest) = some entry ↔
      s.fwd (.push dest) = some entry ∧
        ¬ (b.body.isIngress = true ∧ b.key.session.destAddr = dest ∧ r.body.labelIn = 0) := by
  unfold Node.releasedFwd
  by_cases bare : r.body.labelIn = 0
  · cases ingress : b.body.isIngress with
    | false =>
      rw [if_pos ⟨bare, rfl⟩]
      exact ⟨fun found => ⟨found, fun gone => by cases gone.1⟩, And.left⟩
    | true =>
      have key : fwdKey 0 b.key.session.destAddr = .push b.key.session.destAddr := if_pos rfl
      rw [if_neg (fun transit => by cases transit.2), bare, key, Function.update_apply]
      by_cases here : b.key.session.destAddr = dest
      · rw [if_pos (congrArg FwdKey.push here.symm)]
        exact ⟨(by rintro ⟨⟩), fun kept => absurd ⟨rfl, here, rfl⟩ kept.2⟩
      · rw [if_neg fun same => here (FwdKey.push.inj same).symm]
        exact ⟨fun found => ⟨found, fun gone => here gone.2.1⟩, And.left⟩
  · have key : fwdKey r.body.labelIn b.key.session.destAddr = .label r.body.labelIn := if_neg bare
    have other : FwdKey.push dest ≠ .label r.body.labelIn := (by rintro ⟨⟩)
    rw [if_neg fun transit => bare transit.1, key, Function.update_of_ne other]
    exact ⟨fun found => ⟨found, fun gone => bare gone.2.2⟩, And.left⟩

/-- The same for the teardown of a PSB. -/
theorem rsvpPsbCleanup_push (wf : s.Wf) {b : Psb} (mem : b ∈ s.psbs) (propagate : Bool)
    (dest : InAddr) (entry : FwdEntry) :
    (rsvpPsbCleanup env s b.addr propagate).fwd (.push dest) = some entry ↔
      s.fwd (.push dest) = some entry ∧ ¬ (b.body.isIngress = true ∧
        b.key.session.destAddr = dest ∧
        ∃ r ∈ s.rsbs, r.body.associatedPsb = some b.addr ∧ r.body.labelIn = 0) := by
  obtain ⟨t, c, told, removed⟩ := @rsvpPsbCleanup_cases env s wf b mem propagate
  rcases removed with ⟨alone, eq⟩ | ⟨r, memr, assoc, tied, eq⟩
  · rw [eq, rsvpPsbDelete_fwd, told.fwd]
    refine ⟨fun found => ⟨found, ?_⟩, And.left⟩
    rintro ⟨_, _, r, memr, tied, _⟩
    have back := (wf.psb_of_rsb mem memr tied).2
    rw [alone] at back
    cases back
  · have only : ∀ x ∈ s.rsbs, x.body.associatedPsb = some b.addr → x = r := by
      intro x memx tied'
      have back := (wf.psb_of_rsb mem memx tied').2
      rw [assoc] at back
      exact (Table.eq_of_addr_eq memr memx (Option.some.inj back)).symm
    have memT : r ∈ t.rsbs := told.rsbs ▸ memr
    have psb : t.psbOf r.body = some c := by
      rw [Node.psbOf, tied, ← told.addr]
      exact Table.get_of_mem told.mem
    rw [eq, rsvpPsbDelete_fwd]
    simp only [rsvpRsbCleanup, Table.get_of_mem memT, tied, rsvpRsbDelete_fwd,
      Bool.false_eq_true, false_and, if_false, Node.modPsb]
    rw [rsbCleanupResources_fwd memT psb, releasedFwd_push, told.fwd, told.ingress, told.key]
    refine and_congr_right fun _ => not_congr (and_congr_right fun _ => and_congr_right fun _ => ?_)
    constructor
    · intro bare
      exact ⟨r, memr, tied, bare⟩
    · rintro ⟨x, memx, tied', bare⟩
      rw [← only x memx tied']
      exact bare

end Rsvp
