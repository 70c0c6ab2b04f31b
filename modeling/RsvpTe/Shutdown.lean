import RsvpTe.Isolation
import RsvpTe.PathLoops

/-!
# Shutdown (`rsvp_state_machine_shutdown`)

Shutdown walks the buckets and removes the head of each until it is empty.  A removal takes one PSB
out of its chain, with its RSB, label and entry, and sends at most one PathTear; every other PSB
stays as it is.  So the loop on a bucket ends, and when all buckets are done nothing is left.
-/

namespace Rsvp

open Words

/-- The head of a bucket. -/
def Node.rsvpPsbFindByBucket (s : Node) (bucket : Nat) : Option Psb :=
  if bucket < hashSize then s.psbs.blocks.find? (rsvpKeyHash ·.key = bucket) else none

/-- The `while` loop on one bucket.  No result means that `fuel` turns did not suffice. -/
def shutdownBucket (env : Env) (fuel : Nat) (s : Node) (bucket : Nat) : Option Node :=
  match fuel with
  | 0 => none
  | fuel + 1 =>
    match s.rsvpPsbFindByBucket bucket with
    | none => some s
    | some psb => shutdownBucket env fuel (rsvpPsbCleanup env s psb.addr true) bucket

/-- The `for` loop over the buckets, with at most `fuel` turns of the inner loop for each. -/
def rsvpStateMachineShutdown (env : Env) (fuel : Nat) (s : Node) : Option Node :=
  (List.range hashSize).foldlM (shutdownBucket env fuel) s

variable {env : Env} {s s' s'' : Node}

/-! ## One removal -/

/-- The packet of a PathTear. -/
def pathTearOutput (hal : Hal) (b : Psb) (ipDest : InAddr) (ifindex : UInt32) : Output :=
  let localAddr := (hal.getLocalAddr ifindex).getD b.key.sender.sourceAddr
  .packet ipDest true
    (rsvpPacket localAddr ipDest (pathTearMessage b.key b.body localAddr ifindex) true)

/-- The PathTear of a removed PSB: one is due if its destination is elsewhere and its next hop has
a route. -/
def pathTearOf (env : Env) (b : Psb) : Option Output :=
  if env.isLocalAddr b.key.session.destAddr then none
  else
    let ipDest := (b.body.ero.popLocal env.toHal).ipDest b.key
    (env.getEgressIf ipDest).map (pathTearOutput env.toHal b ipDest)

def Output.isPathTear (o : Output) : Bool := o.msgType = some msgPathTear

theorem pathTearOutput_isPathTear (hal : Hal) (b : Psb) (ipDest : InAddr) (ifindex : UInt32) :
    (pathTearOutput hal b ipDest ifindex).isPathTear = true := by
  obtain ⟨fits, -⟩ := short_calls_fit b.key .zero ⟨0, 0, 0, 0⟩ none
    ((hal.getLocalAddr ifindex).getD b.key.sender.sourceAddr) ifindex
  rw [Output.isPathTear, pathTearOutput, pathTearMessage_eq]
  exact decide_eq_true (msgType_built _ _ fits _ _ _)

theorem pathTearOf_isPathTear {b : Psb} {o : Output} (due : pathTearOf env b = some o) :
    o.isPathTear = true := by
  unfold pathTearOf at due
  split at due
  · cases due
  · obtain ⟨ifindex, -, rfl⟩ := Option.map_eq_some_iff.mp due
    exact pathTearOutput_isPathTear _ _ _ _

/-- What `propagate_path_tear` does to the PSB and to the log. -/
theorem propagatePathTear_eq {b : Psb} (mem : b ∈ s.psbs)
    (transit : env.isLocalAddr b.key.session.destAddr = false) :
    propagatePathTear env s b.addr =
      { s.modPsb b.addr (fun x =>
          { x with ero := (resolvePathNextHop env.toHal b.key b.body).2.2 }) with
        out := s.out ++ (pathTearOf env b).toList } := by
  unfold propagatePathTear pathTearOf
  rw [Table.get_of_mem mem, transit, if_neg Bool.false_ne_true]
  simp only [resolvePathNextHop]
  split
  · rename_i route
    rw [route, Option.map_none, Option.toList_none, List.append_nil]
    rfl
  · rename_i ifindex route
    obtain ⟨fits, -⟩ := short_calls_fit b.key .zero ⟨0, 0, 0, 0⟩ none
      ((env.getLocalAddr ifindex).getD b.key.sender.sourceAddr) ifindex
    rw [route, Option.map_some, Option.toList_some, pathTearOutput, pathTearMessage_eq,
      rsvpSendPacket_built _ _ _ _ _ fits (by decide)]
    rfl

/-- The PathTear that is due is sent, and stores nothing outside the PSB. -/
theorem Node.torn_eq {b : Psb} (mem : b ∈ s.psbs) :
    (s.torn env b true).out = s.out ++ (pathTearOf env b).toList ∧
      ∃ f, (s.torn env b true).psbs = s.psbs.modify b.addr f := by
  unfold Node.torn
  cases transit : env.isLocalAddr b.key.session.destAddr with
  | false =>
    rw [if_pos ⟨rfl, rfl⟩, propagatePathTear_eq mem transit]
    exact ⟨rfl, fun x =>
      { x with ero := (resolvePathNextHop env.toHal b.key b.body).2.2 }, rfl⟩
  | true =>
    rw [if_neg fun both => Bool.false_ne_true both.2.symm, pathTearOf, transit, if_pos rfl,
      Option.toList_none, List.append_nil]
    exact ⟨rfl, id, (Table.modify_id _ _).symm⟩

theorem rsvpRsbDelete_out (s : Node) (p : Ptr) : (s.rsvpRsbDelete p).out = s.out := by
  rw [Node.rsvpRsbDelete]
  split
  · rfl
  · simp only
    split <;> rfl

/-- Without a ResvTear to send, the release of an RSB only logs calls of the forwarding plane. -/
theorem rsvpRsbCleanup_silent {b : Psb} {r : Rsb} (memb : b ∈ s.psbs) (memr : r ∈ s.rsbs)
    (tied : r.body.associatedPsb = some b.addr) :
    ∃ removed, (rsvpRsbCleanup env s r.addr false).out = s.out ++ removed ∧
      ∀ o ∈ removed, o.msgType = none := by
  have psb : s.psbOf r.body = some b := by
    rw [Node.psbOf, tied]
    exact Table.get_of_mem memb
  obtain ⟨t, f, eq, -, -, -, -, -, -, -, removed, out, calls⟩ := rsbCleanupResources_spec memr psb
  refine ⟨removed, ?_, fun o mem => ?_⟩
  · unfold rsvpRsbCleanup
    rw [Table.get_of_mem memr]
    simp only [Bool.false_eq_true, false_and, if_false, tied, eq]
    rw [rsvpRsbDelete_out]
    exact out
  · obtain ⟨label, dest, rfl⟩ := calls o mem
    rfl

/-- What removes one PSB: it is out of its chain, the log has the PathTear due, and no other message
was sent. -/
theorem rsvpPsbCleanup_drops (wf : s.Wf) {b : Psb} (mem : b ∈ s.psbs) :
    (rsvpPsbCleanup env s b.addr true).psbs = s.psbs.unlink b.addr ∧
      ∃ sent, (rsvpPsbCleanup env s b.addr true).out = s.out ++ sent ∧
        sent.filter Output.isPathTear = (pathTearOf env b).toList ∧
        ∀ o ∈ sent, o.isPathTear = true ∨ o.msgType = none := by
  obtain ⟨c, told, removed⟩ := @rsvpPsbCleanup_torn env s wf b mem true
  obtain ⟨out, f, psbs⟩ := @Node.torn_eq env s b mem
  have due : (pathTearOf env b).toList.filter Output.isPathTear = (pathTearOf env b).toList :=
    List.filter_eq_self.mpr fun o mem => pathTearOf_isPathTear (Option.mem_toList.mp mem)
  rcases removed with ⟨alone, eq⟩ | ⟨r, memr, -, tied, eq⟩
  · rw [eq]
    refine ⟨?_, _, (rsvpPsbDelete_out _ _).trans out, due, fun o mem =>
      .inl (pathTearOf_isPathTear (Option.mem_toList.mp mem))⟩
    rw [← told.addr, rsvpPsbDelete_alone told.mem (told.assoc.trans alone), told.addr]
    exact (congrArg (Table.unlink · b.addr) psbs).trans (Table.unlink_modify _ _ _)
  · have memT : r ∈ (s.torn env b true).rsbs := told.rsbs ▸ memr
    have tiedT : r.body.associatedPsb = some c.addr := told.addr ▸ tied
    have left := @rsvpRsbCleanup_mem env _ c r told.mem memT tiedT false
    obtain ⟨out', cut⟩ := @rsvpRsbCleanup_eq env _ c r told.mem memT tiedT false
    obtain ⟨calls, silent, none⟩ := @rsvpRsbCleanup_silent env _ c r told.mem memT tiedT
    rw [eq]
    constructor
    · rw [← told.addr]
      refine (congrArg Node.psbs (rsvpPsbDelete_alone left rfl)).trans ?_
      rw [cut]
      refine (Table.unlink_modify _ _ _).trans ?_
      rw [told.addr, psbs]
      exact Table.unlink_modify _ _ _
    · refine ⟨(pathTearOf env b).toList ++ calls, ?_, ?_, fun o mem => ?_⟩
      · rw [rsvpPsbDelete_out, silent, out, List.append_assoc]
      · have quiet : calls.filter Output.isPathTear = [] := by
          rw [List.filter_eq_nil_iff]
          intro o mem tear
          have typed := (none o mem).symm.trans (of_decide_eq_true tear)
          cases typed
        rw [List.filter_append, due, quiet, List.append_nil]
      · exact (List.mem_append.mp mem).imp
          (fun due => pathTearOf_isPathTear (Option.mem_toList.mp due)) (none o)

/-! ## The loops -/

/-- From `s` to `s'` exactly the PSBs that satisfy `gone` were removed, each with its PathTear. -/
structure Drained (env : Env) (gone : Psb → Bool) (s s' : Node) : Prop where
  wf : s'.Wf
  sound : s'.ledger.Sound
  blocks : s'.psbs.blocks = s.psbs.blocks.filter (!gone ·)
  tears : ∃ sent, s'.out = s.out ++ sent ∧ (sent.filter Output.isPathTear).Perm
    ((s.psbs.blocks.filter gone).filterMap (pathTearOf env))

namespace Drained

variable {gone gone' : Psb → Bool}

theorem none (wf : s.Wf) (sound : s.ledger.Sound) (kept : ∀ b ∈ s.psbs, gone b = false) :
    Drained env gone s s where
  wf := wf
  sound := sound
  blocks := by
    symm
    rw [List.filter_eq_self]
    intro b mem
    rw [kept b mem]
    rfl
  tears := by
    have nothing : s.psbs.blocks.filter gone = [] := by
      rw [List.filter_eq_nil_iff]
      exact fun b mem out => Bool.false_ne_true ((kept b mem).symm.trans out)
    rw [nothing]
    exact ⟨[], (List.append_nil _).symm, .refl _⟩

/-- One removal first. -/
theorem cons (wf : s.Wf) {b : Psb} (mem : b ∈ s.psbs) (out : gone b = true)
    (rest : Drained env gone (rsvpPsbCleanup env s b.addr true) s') : Drained env gone s s' := by
  obtain ⟨psbs, sent, log, tear, -⟩ := @rsvpPsbCleanup_drops env s wf b mem
  obtain ⟨front, back, blocks, left⟩ := Table.unlink_split mem
  obtain ⟨sent', log', tears⟩ := rest.tears
  have blocks' := rest.blocks
  rw [psbs, left] at tears blocks'
  refine ⟨rest.wf, rest.sound, ?_, sent ++ sent', ?_, ?_⟩
  · rw [blocks', blocks, List.filter_append, List.filter_append, List.filter_cons_of_neg]
    rw [out]
    exact Bool.false_ne_true
  · rw [log', log, List.append_assoc]
  · rw [List.filter_append, tear, blocks]
    have moved : ((front ++ b :: back).filter gone).Perm (b :: (front ++ back).filter gone) := by
      rw [← List.filter_cons_of_pos out]
      exact List.perm_middle.filter gone
    refine List.Perm.trans ?_ (moved.filterMap (pathTearOf env)).symm
    rw [List.filterMap_cons]
    cases pathTearOf env b with
    | none => exact tears
    | some o => exact tears.cons o

theorem trans (first : Drained env gone s s') (second : Drained env gone' s' s'') :
    Drained env (fun b => gone b || gone' b) s s'' := by
  obtain ⟨sent, log, tears⟩ := first.tears
  obtain ⟨sent', log', tears'⟩ := second.tears
  refine ⟨second.wf, second.sound, ?_, sent ++ sent', ?_, ?_⟩
  · rw [second.blocks, first.blocks, List.filter_filter]
    apply List.filter_congr
    intro b _
    cases gone b <;> cases gone' b <;> rfl
  · rw [log', log, List.append_assoc]
  · rw [first.blocks] at tears'
    rw [List.filter_append]
    refine (tears.append tears').trans ?_
    rw [← List.filterMap_append]
    apply List.Perm.filterMap
    have parts := List.filter_append_perm gone (s.psbs.blocks.filter fun b => gone b || gone' b)
    rw [List.filter_filter, List.filter_filter] at parts
    refine List.Perm.trans (.of_eq ?_) parts
    rw [List.filter_filter]
    congr 1
    · apply List.filter_congr
      intro b _
      cases gone b <;> rfl
    · apply List.filter_congr
      intro b _
      cases gone b <;> cases gone' b <;> rfl

end Drained

theorem rsvpPsbFindByBucket_mem {bucket : Nat} {b : Psb}
    (found : s.rsvpPsbFindByBucket bucket = some b) : b ∈ s.psbs ∧ rsvpKeyHash b.key = bucket := by
  unfold Node.rsvpPsbFindByBucket at found
  split at found
  · exact ⟨List.mem_of_find?_eq_some found, by simpa using List.find?_some found⟩
  · cases found

/-- The loop on a bucket ends after as many turns as the table has PSBs, and empties the bucket. -/
theorem shutdownBucket_drains (wf : s.Wf) (sound : s.ledger.Sound) {bucket : Nat}
    (inside : bucket < hashSize) {fuel : Nat} (enough : s.psbs.blocks.length < fuel) :
    ∃ s', shutdownBucket env fuel s bucket = some s' ∧
      Drained env (fun b => rsvpKeyHash b.key = bucket) s s' := by
  induction fuel generalizing s with
  | zero => exact absurd enough (Nat.not_lt_zero _)
  | succ fuel ih =>
    rw [shutdownBucket]
    cases found : s.rsvpPsbFindByBucket bucket with
    | none =>
      refine ⟨s, rfl, .none wf sound fun b mem => ?_⟩
      rw [Node.rsvpPsbFindByBucket, if_pos inside, List.find?_eq_none] at found
      exact Bool.eq_false_iff.mpr (found b mem)
    | some b =>
      obtain ⟨mem, here⟩ := rsvpPsbFindByBucket_mem found
      have runs : Runs env.toHal (fun _ => True) s (rsvpPsbCleanup env s b.addr true) :=
        rsvpPsbCleanup_runs (fun _ _ => trivial) wf mem (fun _ => trivial) trivial true
      obtain ⟨psbs, -⟩ := @rsvpPsbCleanup_drops env s wf b mem
      obtain ⟨front, back, blocks, left⟩ := Table.unlink_split mem
      have shorter : (rsvpPsbCleanup env s b.addr true).psbs.blocks.length < fuel := by
        rw [psbs, left]
        rw [blocks] at enough
        simp only [List.length_append, List.length_cons] at enough ⊢
        omega
      obtain ⟨s', done, drained⟩ := ih (runs.wf wf) (runs.sound wf sound) shorter
      exact ⟨s', done, .cons wf mem (decide_eq_true here) drained⟩

/-- The same for a list of buckets. -/
theorem shutdownBuckets_drain (buckets : List Nat) (inside : ∀ bucket ∈ buckets, bucket < hashSize)
    (wf : s.Wf) (sound : s.ledger.Sound) {fuel : Nat} (enough : s.psbs.blocks.length < fuel) :
    ∃ s', buckets.foldlM (shutdownBucket env fuel) s = some s' ∧
      Drained env (fun b => rsvpKeyHash b.key ∈ buckets) s s' := by
  induction buckets generalizing s with
  | nil => exact ⟨s, rfl, .none wf sound fun _ _ => rfl⟩
  | cons bucket buckets ih =>
    obtain ⟨t, done, first⟩ := @shutdownBucket_drains env s wf sound bucket
      (inside bucket List.mem_cons_self) fuel enough
    have shorter : t.psbs.blocks.length < fuel := by
      rw [first.blocks]
      exact Nat.lt_of_le_of_lt (List.length_filter_le _ _) enough
    obtain ⟨s', done', rest⟩ := ih (fun b mem => inside b (List.mem_cons_of_mem _ mem)) first.wf
      first.sound shorter
    refine ⟨s', ?_, ?_⟩
    · rw [List.foldlM_cons, done]
      exact done'
    · have both := first.trans rest
      simpa only [List.mem_cons, Bool.decide_or] using both

/-- Shutdown ends and releases everything: no PSB and no RSB is left, every label is free, no
entry for a label is installed, and of PathTears exactly those that are due were sent, one for each
PSB with a destination elsewhere and a route to its next hop. -/
theorem shutdown_releases {min max : UInt32} (low : 1 ≤ min) (ordered : min ≤ max)
    (high : max < 1048576) (run : Reachable (labelMgrInit min max true) s) {fuel : Nat}
    (enough : s.psbs.blocks.length < fuel) :
    ∃ s', rsvpStateMachineShutdown env fuel s = some s' ∧
      s'.psbs.blocks = [] ∧ s'.rsbs.blocks = [] ∧ (∀ label, ¬ s'.labels.InUse label) ∧
      (∀ label ≠ 0, s'.fwd (.label label) = none) ∧
      ∃ sent, s'.out = s.out ++ sent ∧
        (sent.filter Output.isPathTear).Perm (s.psbs.blocks.filterMap (pathTearOf env)) := by
  obtain ⟨pool, unused⟩ := labelMgrInit_wf low ordered high
  obtain ⟨s', done, drained⟩ := @shutdownBuckets_drain env s (List.range hashSize)
    (fun _ => List.mem_range.mp) (run.wf pool) (run.sound pool unused) fuel enough
  have every : ∀ b : Psb, decide (rsvpKeyHash b.key ∈ List.range hashSize) = true := fun b =>
    decide_eq_true (List.mem_range.mpr (Nat.mod_lt _ (by decide)))
  have noPsb : s'.psbs.blocks = [] := by
    rw [drained.blocks, List.filter_eq_nil_iff]
    intro b _ kept
    rw [every b] at kept
    exact Bool.false_ne_true kept
  have noRsb : ∀ r, r ∉ s'.rsbs := by
    intro r mem
    obtain ⟨b, memb, -⟩ := drained.wf.owned r mem
    rw [Table.mem_def, noPsb] at memb
    exact List.not_mem_nil memb
  obtain ⟨sent, log, tears⟩ := drained.tears
  rw [List.filter_eq_self.mpr fun b _ => every b] at tears
  refine ⟨s', done, noPsb, List.eq_nil_iff_forall_not_mem.mpr noRsb, ?_, ?_, sent, log, tears⟩
  · intro label used
    obtain ⟨a, -, r, mem, -⟩ := (drained.sound.taken_iff label).mp used
    exact noRsb r mem
  · intro label pos
    by_contra entry
    obtain ⟨a, -, r, mem, -⟩ := drained.sound.backed label ⟨pos, entry⟩
    exact noRsb r mem

/-- With two LSPs up, shutdown sends two PathTears and leaves the tables empty. -/
theorem shutdown_releases_two :
    ∃ s', rsvpStateMachineShutdown (sampleEnv (fun _ => false) 1) 3
        (sampleTwo 0x0300000A 0x0400000A) = some s' ∧
      s'.psbs.blocks = [] ∧ s'.rsbs.blocks = [] ∧
      ∃ sent, s'.out = (sampleTwo 0x0300000A 0x0400000A).out ++ sent ∧
        (sent.filter Output.isPathTear).length = 2 := by
  have up : (sampleTwo 0x0300000A 0x0400000A).psbs.blocks.length < 3 ∧
      ((sampleTwo 0x0300000A 0x0400000A).psbs.blocks.filterMap
        (pathTearOf (sampleEnv (fun _ => false) 1))).length = 2 := by
    decide +kernel
  obtain ⟨enough, due⟩ := up
  obtain ⟨s', done, noPsb, noRsb, -, -, sent, log, tears⟩ :=
    @shutdown_releases (sampleEnv (fun _ => false) 1) _ 16 31 (by decide) (by decide) (by decide)
      (reachable_sampleTwo 0x0300000A 0x0400000A) 3 enough
  exact ⟨s', done, noPsb, noRsb, sent, log, tears.length_eq.trans due⟩

end Rsvp
