import RsvpTe.Advertised
import RsvpTe.Shutdown

/-!
# What shutdown tells the upstream side

`rsvp_psb_cleanup` removes the RSB of a PSB with `propagate` off.  So shutdown, which goes from PSB
to PSB, tells every LSP's next hop and no LSP's previous hop.
-/

namespace Rsvp

open Words

variable {env : Env} {s s' s'' : Node}

/-- From `s` to `s'` no ResvTear was sent. -/
def Untold (s s' : Node) : Prop :=
  ∃ sent, s'.out = s.out ++ sent ∧ ∀ o ∈ sent, o.msgType ≠ some msgResvTear

theorem Untold.refl (s : Node) : Untold s s :=
  ⟨[], (List.append_nil _).symm, fun _ mem => absurd mem List.not_mem_nil⟩

theorem Untold.trans (first : Untold s s') (second : Untold s' s'') : Untold s s'' := by
  obtain ⟨sent, out, none⟩ := first
  obtain ⟨sent', out', none'⟩ := second
  refine ⟨sent ++ sent', by rw [out', out, List.append_assoc], fun o mem => ?_⟩
  exact (List.mem_append.mp mem).elim (none o) (none' o)

theorem rsvpPsbCleanup_untold (wf : s.Wf) {b : Psb} (mem : b ∈ s.psbs) :
    Untold s (rsvpPsbCleanup env s b.addr true) := by
  obtain ⟨-, sent, out, -, only⟩ := @rsvpPsbCleanup_drops env s wf b mem
  refine ⟨sent, out, fun o mem resvTear => ?_⟩
  rcases only o mem with pathTear | call
  · have typed := (of_decide_eq_true pathTear).symm.trans resvTear
    exact absurd (Option.some.inj typed) (by decide)
  · cases call.symm.trans resvTear

theorem shutdownBucket_untold (wf : s.Wf) {fuel bucket : Nat}
    (done : shutdownBucket env fuel s bucket = some s') : s'.Wf ∧ Untold s s' := by
  induction fuel generalizing s with
  | zero => cases done
  | succ fuel ih =>
    rw [shutdownBucket] at done
    cases found : s.rsvpPsbFindByBucket bucket with
    | none =>
      rw [found] at done
      cases done
      exact ⟨wf, .refl _⟩
    | some b =>
      rw [found] at done
      obtain ⟨mem, -⟩ := rsvpPsbFindByBucket_mem found
      have runs : Runs env.toHal (fun _ => True) s (rsvpPsbCleanup env s b.addr true) :=
        rsvpPsbCleanup_runs (fun _ _ => trivial) wf mem (fun _ => trivial) trivial true
      obtain ⟨wf', rest⟩ := ih (runs.wf wf) done
      exact ⟨wf', (rsvpPsbCleanup_untold wf mem).trans rest⟩

theorem shutdownBuckets_untold {buckets : List Nat} (wf : s.Wf) {fuel : Nat}
    (done : buckets.foldlM (shutdownBucket env fuel) s = some s') : Untold s s' := by
  induction buckets generalizing s with
  | nil =>
    cases done
    exact .refl _
  | cons bucket buckets ih =>
    rw [List.foldlM_cons] at done
    obtain ⟨t, first, rest⟩ := Option.bind_eq_some_iff.mp done
    obtain ⟨wf', untold⟩ := shutdownBucket_untold wf first
    exact untold.trans (ih wf' rest)

/-- The RSB has a PSB that was not originated here and has a previous hop to tell. -/
structure TellsUpstream (s : Node) (r : Rsb) (b : Psb) : Prop where
  mem : r ∈ s.rsbs
  tied : s.psbOf r.body = some b
  foreign : b.body.isIngress = false
  prevHop : b.body.prevHop.neighborAddr ≠ 0

/-- A ResvTear for the key, to that address. -/
def Output.isResvTearTo (key : PathKey) (hop : InAddr) (o : Output) : Bool :=
  match o with
  | .packet dest _ bytes =>
    dest = hop ∧ (rsvpHdr bytes).msgType = msgResvTear ∧
      (rsvpParsePacket bytes).toOption.any (·.key = key)
  | _ => false

theorem Output.isResvTearTo_msgType {key : PathKey} {hop : InAddr} {o : Output}
    (tear : o.isResvTearTo key hop = true) : o.msgType = some msgResvTear := by
  cases o with
  | packet dest useRao bytes => exact congrArg some (of_decide_eq_true tear).2.1
  | mplsInstall inLabel outLabel outIfindex nextHop dest => cases tear
  | mplsRemove inLabel dest => cases tear

/-- Shutdown ends, and of the packets it sends none is a ResvTear.  So it tells the previous hop of
every RSB that has one to tell, by exactly one ResvTear, only where there is no such RSB. -/
theorem shutdown_tellsUpstream_iff {min max : UInt32} (low : 1 ≤ min) (ordered : min ≤ max)
    (high : max < 1048576) (run : Reachable (labelMgrInit min max true) s) {fuel : Nat}
    (enough : s.psbs.blocks.length < fuel) :
    ∃ s' sent, rsvpStateMachineShutdown env fuel s = some s' ∧ s'.out = s.out ++ sent ∧
      (∀ o ∈ sent, o.msgType ≠ some msgResvTear) ∧
      ((∀ r b, TellsUpstream s r b →
          sent.countP (·.isResvTearTo r.key b.body.prevHop.neighborAddr) = 1) ↔
        ∀ r b, ¬ TellsUpstream s r b) := by
  obtain ⟨pool, unused⟩ := labelMgrInit_wf low ordered high
  obtain ⟨s', done, -⟩ := @shutdownBuckets_drain env s (List.range hashSize)
    (fun _ => List.mem_range.mp) (run.wf pool) (run.sound pool unused) fuel enough
  obtain ⟨sent, out, none⟩ := shutdownBuckets_untold (run.wf pool) done
  refine ⟨s', sent, done, out, none, fun told r b tells => ?_, fun no r b tells => ?_⟩
  · have silent : sent.countP (·.isResvTearTo r.key b.body.prevHop.neighborAddr) = 0 :=
      List.countP_eq_zero.mpr fun o mem tear => none o mem (Output.isResvTearTo_msgType tear)
    have once := told r b tells
    rw [silent] at once
    cases once
  · exact absurd tells (no r b)

/-! ## A transit LSP -/

theorem reachable_sampleTransit : Reachable (labelMgrInit 16 31 true) sampleTransit :=
  .step _ _ (.step _ _ .init)

theorem sampleTransit_tellsUpstream : ∃ r b, TellsUpstream sampleTransit r b := by
  have held : (sampleTransit.rsbs.blocks.any fun r => (sampleTransit.psbOf r.body).any fun b =>
      !b.body.isIngress && decide (b.body.prevHop.neighborAddr ≠ 0)) = true := by
    decide +kernel
  obtain ⟨r, mem, psb⟩ := List.any_eq_true.mp held
  obtain ⟨b, tied, both⟩ := (Option.any_eq_true _ _).mp psb
  rw [Bool.and_eq_true, Bool.not_eq_true'] at both
  exact ⟨r, b, mem, tied, both.1, of_decide_eq_true both.2⟩

theorem sampleTransit_blocks : sampleTransit.psbs.blocks.length < 2 := by
  decide +kernel

theorem shutdown_tellsUpstream_iff_transit :
    ∃ s' sent, rsvpStateMachineShutdown (sampleEnv (fun _ => false) 1) 2 sampleTransit = some s' ∧
      s'.out = sampleTransit.out ++ sent ∧ ∀ o ∈ sent, o.msgType ≠ some msgResvTear := by
  obtain ⟨s', sent, done, out, none, -⟩ :=
    @shutdown_tellsUpstream_iff (sampleEnv (fun _ => false) 1) _ 16 31 (by decide) (by decide)
      (by decide) reachable_sampleTransit 2 sampleTransit_blocks
  exact ⟨s', sent, done, out, none⟩

/-- The previous hop of a transit LSP is not told. -/
theorem exists_upstream_untold :
    ∃ r b, TellsUpstream sampleTransit r b ∧ ∃ s' sent,
      rsvpStateMachineShutdown (sampleEnv (fun _ => false) 1) 2 sampleTransit = some s' ∧
      s'.out = sampleTransit.out ++ sent ∧
      sent.countP (·.isResvTearTo r.key b.body.prevHop.neighborAddr) ≠ 1 := by
  obtain ⟨r, b, tells⟩ := sampleTransit_tellsUpstream
  obtain ⟨pool, unused⟩ := labelMgrInit_wf (by decide : (1 : UInt32) ≤ 16) (by decide : (16 : UInt32) ≤ 31)
    (by decide)
  have wf := reachable_sampleTransit.wf pool
  obtain ⟨s', done, -⟩ := @shutdownBuckets_drain (sampleEnv (fun _ => false) 1) sampleTransit
    (List.range hashSize) (fun _ => List.mem_range.mp) wf
    (reachable_sampleTransit.sound pool unused) 2 sampleTransit_blocks
  obtain ⟨sent, out, none⟩ := shutdownBuckets_untold wf done
  refine ⟨r, b, tells, s', sent, done, out, ?_⟩
  rw [List.countP_eq_zero.mpr fun o mem tear => none o mem (Output.isResvTearTo_msgType tear)]
  decide

end Rsvp
