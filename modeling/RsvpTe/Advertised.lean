import RsvpTe.LabelOwnership

/-!
# Advertised labels and the forwarding table

A label is allocated in two places.  The transit branch of the RESV handler installs its swap at
once; `send_resv_upstream` only advertises the label it allocates.  The second place is reached
when the egress answers the first PATH of an LSP, and when a refresh finds an RSB that an earlier
RESV could not give a label.
-/

namespace Rsvp

open Words

variable {s : Node}

/-- The events that allocate a label in `send_resv_upstream`. -/
inductive Event.Unprogrammed (env : Env) (s : Node) : Event → Prop
  | egress {packet : Bytes} {info : MessageInfo} : Receives env packet info →
    info.commonHdr.msgType = msgPath → PathAccepted env s info →
    EgressAdvertises env s.rsbs s.labels info → (Event.recv packet).Unprogrammed env s
  | refresh {packet : Bytes} {info : MessageInfo} {b : Psb} {r : Rsb} :
    Receives env packet info → info.commonHdr.msgType = msgResv →
    s.rsvpPsbFind info.key = some b → s.rsvpRsbFind info.key = some r →
    ResvAdvertises s info b r → (Event.recv packet).Unprogrammed env s
  | timer {b : Psb} {r : Rsb} : b ∈ s.psbs → r ∈ s.rsbs → r.body.associatedPsb = some b.addr →
    r.body.labelIn = 0 → b.body.prevHop.neighborAddr ≠ 0 → b.body.isIngress = false →
    (labelMgrAlloc s.labels).1 ≠ 0 → (Event.rsbRefresh r.addr).Unprogrammed env s

theorem Event.Allows.unprogrammed {env : Env} {ev : Event} {key : PathKey}
    (allows : ev.Allows env s (.advertise key)) : ev.Unprogrammed env s := by
  cases allows with
  | benign quiet => cases quiet
  | rsbRefreshAdvertise memb memr tied bare prevHop transit label =>
    exact .timer memb memr tied bare prevHop transit label
  | recv received allows =>
    cases allows with
    | benign quiet => cases quiet
    | pathAdvertise type accepted advertises => exact .egress received type accepted advertises
    | resvAdvertise type foundB foundR advertises =>
      exact .refresh received type foundB foundR advertises

/-- The states of the runs in which no event allocates a label in `send_resv_upstream`. -/
inductive ProgrammingRun (labels : LabelMgr) : Node → Prop
  | init : ProgrammingRun labels (Node.init labels)
  | step {s : Node} (env : Env) (ev : Event) : ProgrammingRun labels s →
    ¬ ev.Unprogrammed env s → ProgrammingRun labels (s.step env ev)

theorem ProgrammingRun.reachable {labels : LabelMgr} (run : ProgrammingRun labels s) :
    Reachable labels s := by
  induction run with
  | init => exact .init
  | step env ev _ _ ih => exact ih.step env ev

/-- An event that only takes labels it programs keeps every held label programmed. -/
theorem Node.step_covered {env : Env} {ev : Event} (wf : s.Wf) (sound : s.ledger.Sound)
    (covered : s.ledger.Covered) (programs : ¬ ev.Unprogrammed env s) :
    (s.step env ev).ledger.Covered := by
  have runs := @Node.step_runs env (ev.Allows env s) s wf ev fun _ allows => allows
  refine (runs.induct wf (P := fun t => t.ledger.Sound ∧ t.ledger.Covered) ⟨sound, covered⟩
    ?_).2.2
  intro t t' act allowed wfT held does
  rcases held with ⟨sound, covered⟩
  rcases does.ledger wfT with same | ⟨l, a, takes, advertise | carried⟩ | ⟨a, returns⟩
  · exact ⟨sound.same same, covered.same same⟩
  · obtain ⟨key, rfl⟩ := advertise
    exact absurd allowed.unprogrammed programs
  · exact ⟨sound.takes takes, covered.takes takes carried⟩
  · exact ⟨sound.returns returns, covered.returns sound returns⟩

theorem ProgrammingRun.covered {labels : LabelMgr} (pool : labels.Wf)
    (unused : ∀ label, ¬ labels.InUse label) (run : ProgrammingRun labels s) :
    s.ledger.Covered := by
  induction run with
  | init =>
    intro l a held
    obtain ⟨-, r, mem, -⟩ := held
    exact absurd mem (Table.not_mem_empty r)
  | step env ev before programs ih =>
    exact Node.step_covered (before.reachable.wf pool) (before.reachable.sound pool unused) ih
      programs

/-- In such a run every label an RSB holds, advertised or not, has its entry. -/
theorem programmed_of_programmingRun {min max : UInt32} (low : 1 ≤ min) (ordered : min ≤ max)
    (high : max < 1048576) (run : ProgrammingRun (labelMgrInit min max true) s) {r : Rsb}
    (mem : r ∈ s.rsbs) (label : r.body.labelIn ≠ 0) : s.fwd (.label r.body.labelIn) ≠ none := by
  obtain ⟨pool, unused⟩ := labelMgrInit_wf low ordered high
  have covered := run.covered pool unused
  exact (covered r.body.labelIn r.addr ⟨label, r, mem, rfl, rfl⟩).2

/-- A transit node that has received the PATH and the RESV of an LSP. -/
def sampleTransit : Node :=
  ((Node.init (labelMgrInit 16 31 true)).step (sampleEnv (fun _ => false) 1)
    (.recv (samplePath 0x0300000A 1 5))).step (sampleEnv (fun _ => false) 1)
    (.recv (sampleResv 0x0300000A 1 100 7))

theorem programmed_of_programmingRun_transit :
    ProgrammingRun (labelMgrInit 16 31 true) sampleTransit ∧
      ∃ r ∈ sampleTransit.rsbs, r.body.labelIn = 16 ∧
        sampleTransit.fwd (.label r.body.labelIn) ≠ none := by
  have silent : ∀ (t : Node) (packet : Bytes), t.rsbs.blocks = [] →
      ¬ (Event.recv packet).Unprogrammed (sampleEnv (fun _ => false) 1) t := by
    intro t packet bare unprogrammed
    cases unprogrammed with
    | egress _ _ _ advertises => exact Bool.false_ne_true advertises.egress
    | refresh _ _ _ found =>
      have mem := (Table.find_eq_some found).1
      rw [Table.mem_def, bare] at mem
      cases mem
  have forwarded : ((Node.init (labelMgrInit 16 31 true)).step (sampleEnv (fun _ => false) 1)
      (.recv (samplePath 0x0300000A 1 5))).rsbs.blocks.length = 0 := by
    decide +kernel
  have run : ProgrammingRun (labelMgrInit 16 31 true) sampleTransit :=
    .step _ _ (.step _ _ .init (silent _ _ rfl)) (silent _ _ (List.length_eq_zero_iff.mp forwarded))
  have labels : sampleTransit.rsbs.blocks.map (·.body.labelIn) = [16] := by
    decide +kernel
  obtain ⟨r, mem, held⟩ := List.mem_map.mp (labels ▸ List.mem_singleton.mpr rfl)
  exact ⟨run, r, mem, held,
    programmed_of_programmingRun (by decide) (by decide) (by decide) run mem (by rw [held]; decide)⟩

/-- The egress of a first LSP. -/
def sampleEgress : Node :=
  (Node.init (labelMgrInit 16 31 true)).step (sampleEnv (· = 0x0300000A) 1)
    (.recv (samplePath 0x0300000A 1 5))

/-- It has advertised a label for which it has no entry. -/
theorem exists_advertised_unprogrammed :
    ∃ s, Reachable (labelMgrInit 16 31 true) s ∧ ∃ r ∈ s.rsbs, ∃ o ∈ s.out, o.Carries r ∧
      s.fwd (.label r.body.labelIn) = none := by
  have init : (Node.init (labelMgrInit 16 31 true)).Wf :=
    .init (labelMgrInit_wf (by decide) (by decide) (by decide)).1
  obtain ⟨new, out, carried⟩ := Node.step_carries init (sampleEnv (· = 0x0300000A) 1)
    (.recv (samplePath 0x0300000A 1 5))
  rw [← sampleEgress] at out carried
  have types : sampleEgress.out.map Output.msgType = [some msgResv] := by
    decide +kernel
  have bare : sampleEgress.rsbs.blocks.all
      (fun r => sampleEgress.fwd (.label r.body.labelIn) = none) = true := by
    decide +kernel
  obtain ⟨o, mem, type⟩ := List.mem_map.mp (types ▸ List.mem_singleton.mpr rfl)
  have fresh : o ∈ new := by
    rw [out] at mem
    exact mem
  obtain ⟨r, memr, carries⟩ := carried o fresh type
  have run : Reachable (labelMgrInit 16 31 true) sampleEgress := .step _ _ .init
  exact ⟨sampleEgress, run, r, memr, o, mem, carries,
    of_decide_eq_true (List.all_eq_true.mp bare r memr)⟩

end Rsvp
