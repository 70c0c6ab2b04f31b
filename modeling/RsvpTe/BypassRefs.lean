import RsvpTe.EventEffects

/-!
# References to bypass tunnels

`bypass_psb` is a bare pointer to the PSB of a bypass tunnel.  It is set only to a live bypass,
but `rsvp_psb_delete` clears the pointers of the RSB alone: every event that deletes a PSB leaves
dangling whatever referred to it.
-/

namespace Rsvp

open Words

variable {hal : Hal} {act : Act} {s s' : Node}

/-- Every bypass reference leads to a bypass tunnel in the table. -/
def Node.BypassValid (s : Node) : Prop :=
  ∀ b ∈ s.psbs, ∀ a, b.body.bypassPsb = some a →
    ∃ c ∈ s.psbs, c.addr = a ∧ c.body.isBypassTunnel = true

/-! ## What an action does to references -/

/-- Where a reference comes from: an older one of the same PSB, or `arm`. -/
theorem Does.bypass_from (does : Does hal act s s') {b' : Psb} (mem : b' ∈ s'.psbs) {a : Ptr}
    (refers : b'.body.bypassPsb = some a) :
    (∃ b ∈ s.psbs, b.addr = b'.addr ∧ b.body.bypassPsb = some a) ∨
      (act = .arm ∧ ∃ c ∈ s.psbs, c.addr = a ∧ c.body.isBypassTunnel = true) := by
  have updated : ∀ (b : Psb) (f : PsbState → PsbState), b ∈ s.psbs →
      (f b.body).bypassPsb = b.body.bypassPsb → b' ∈ (s.modPsb b.addr f).psbs →
      ∃ b ∈ s.psbs, b.addr = b'.addr ∧ b.body.bypassPsb = some a := by
    intro b f memb keeps memb'
    rcases Table.mem_modify.mp memb' with ⟨old, -⟩ | ⟨c, memc, here, rfl⟩
    · exact ⟨b', old, rfl, refers⟩
    · have same := Table.eq_of_addr_eq memc memb here
      subst same
      exact ⟨c, memc, rfl, keeps.symm.trans refers⟩
  cases does with
  | misc => exact .inl ⟨b', mem, rfl, refers⟩
  | send => exact .inl ⟨b', mem, rfl, refers⟩
  | path => exact .inl ⟨b', mem, rfl, refers⟩
  | tuneRsb => exact .inl ⟨b', mem, rfl, refers⟩
  | store => exact .inl ⟨b', mem, rfl, refers⟩
  | advertise => exact .inl ⟨b', mem, rfl, refers⟩
  | swap => exact .inl ⟨b', mem, rfl, refers⟩
  | install => exact .inl ⟨b', mem, rfl, refers⟩
  | resv => exact .inl ⟨b', mem, rfl, refers⟩
  | tunePsb memb _ _ bypass => exact .inl (updated _ _ memb bypass mem)
  | hop memb _ bypass => exact .inl (updated _ _ memb bypass mem)
  | newRsb memb => exact .inl (updated _ _ memb rfl mem)
  | dropRsb memb _ _ release =>
    rw [release.psbs] at mem
    exact .inl (updated _ _ memb rfl mem)
  | dropPsb => exact .inl ⟨b', (Table.mem_unlink.mp mem).1, rfl, refers⟩
  | newPsb _ made blank =>
    rcases (Table.mem_modify_create made).mp mem with rfl | old
    · rw [blank.bypassPsb] at refers
      cases refers
    · exact .inl ⟨b', old, rfl, refers⟩
  | @arm _ b c f memb memc bypass _ _ armed =>
    rcases Table.mem_modify.mp mem with ⟨old, -⟩ | ⟨d, memd, here, rfl⟩
    · exact .inl ⟨b', old, rfl, refers⟩
    · have same := Table.eq_of_addr_eq memd memb here
      subst same
      exact .inr ⟨rfl, c, memc, Option.some.inj (armed.symm.trans refers), bypass⟩

/-- A bypass tunnel stays one until it is dropped. -/
theorem Does.bypass_survives (does : Does hal act s s') {c : Psb} (mem : c ∈ s.psbs)
    (bypass : c.body.isBypassTunnel = true) :
    (∃ c' ∈ s'.psbs, c'.addr = c.addr ∧ c'.body.isBypassTunnel = true) ∨
      act = .dropPsb c.addr := by
  have updated : ∀ (b : Psb) (f : PsbState → PsbState), b ∈ s.psbs →
      (f b.body).isBypassTunnel = b.body.isBypassTunnel →
      ∃ c' ∈ (s.modPsb b.addr f).psbs, c'.addr = c.addr ∧ c'.body.isBypassTunnel = true := by
    intro b f memb keeps
    by_cases here : c.addr = b.addr
    · have same := Table.eq_of_addr_eq mem memb here
      subst same
      exact ⟨_, s.mem_modPsb mem f, rfl, keeps.trans bypass⟩
    · exact ⟨c, Table.mem_modify.mpr (.inl ⟨mem, here⟩), rfl, bypass⟩
  cases does with
  | misc => exact .inl ⟨c, mem, rfl, bypass⟩
  | send => exact .inl ⟨c, mem, rfl, bypass⟩
  | path => exact .inl ⟨c, mem, rfl, bypass⟩
  | tuneRsb => exact .inl ⟨c, mem, rfl, bypass⟩
  | store => exact .inl ⟨c, mem, rfl, bypass⟩
  | advertise => exact .inl ⟨c, mem, rfl, bypass⟩
  | swap => exact .inl ⟨c, mem, rfl, bypass⟩
  | install => exact .inl ⟨c, mem, rfl, bypass⟩
  | resv => exact .inl ⟨c, mem, rfl, bypass⟩
  | tunePsb memb keeps => exact .inl (updated _ _ memb keeps.isBypassTunnel)
  | hop memb keeps => exact .inl (updated _ _ memb keeps.isBypassTunnel)
  | arm memb _ _ keeps => exact .inl (updated _ _ memb keeps.isBypassTunnel)
  | newRsb memb => exact .inl (updated _ _ memb rfl)
  | dropRsb memb _ _ release =>
    left
    rw [release.psbs]
    exact updated _ _ memb rfl
  | newPsb _ made =>
    exact .inl ⟨c, (Table.mem_modify_create made).mpr (.inr mem), rfl, bypass⟩
  | @dropPsb _ b =>
    by_cases here : c.addr = b.addr
    · rw [here]
      exact .inr rfl
    · exact .inl ⟨c, Table.mem_unlink.mpr ⟨mem, here⟩, rfl, bypass⟩

theorem Does.not_dropped (does : Does hal act s s') {b : Psb} (mem : b ∈ s'.psbs) :
    act ≠ .dropPsb b.addr := by
  cases does with
  | dropPsb =>
    intro same
    exact (Table.mem_unlink.mp mem).2 (Act.dropPsb.inj same).symm
  | _ => rintro ⟨⟩

/-! ## Runs -/

/-- The events that delete a PSB that was there before them. -/
inductive Event.Deletes (env : Env) (s : Node) : Event → Psb → Prop
  | pathTear {packet : Bytes} {info : MessageInfo} {c : Psb} : Receives env packet info →
    info.commonHdr.msgType = msgPathTear → s.rsvpPsbFind info.key = some c →
    (Event.recv packet).Deletes env s c
  | mbb {packet : Bytes} {info : MessageInfo} {b c : Psb} : Receives env packet info →
    info.commonHdr.msgType = msgResv → s.rsvpPsbFind info.key = some b →
    MbbCompletes env s info b →
    s.rsvpPsbFindById (ntohs b.key.session.tunnelId) b.body.mbbOldLspId = some c →
    (Event.recv packet).Deletes env s c
  | cleanup {c : Psb} : c ∈ s.psbs → (Event.psbCleanup c.addr).Deletes env s c
  | teardown {tunnelId lspId : UInt16} {c : Psb} : s.rsvpPsbFindById tunnelId lspId = some c →
    (Event.teardown tunnelId lspId).Deletes env s c

theorem Event.Allows.deletes {env : Env} {ev : Event} {a : Ptr}
    (allows : ev.Allows env s (.dropPsb a)) : ∃ c, c.addr = a ∧ ev.Deletes env s c := by
  cases allows with
  | benign quiet => cases quiet
  | psbCleanupPsb mem => exact ⟨_, rfl, .cleanup mem⟩
  | teardownPsb scanned => exact ⟨_, rfl, .teardown scanned⟩
  | recv received allows =>
    cases allows with
    | benign quiet => cases quiet
    | mbbDropPsb type found completes scanned =>
      exact ⟨_, rfl, .mbb received type found completes scanned⟩
    | pathTearPsb type found => exact ⟨_, rfl, .pathTear received type found⟩

/-- No event both arms protection and deletes a PSB: a PSB whose make-before-break completes is
no bypass. -/
theorem Event.Allows.arm_apart (wf : s.Wf) {env : Env} {ev : Event} {a : Ptr}
    (arm : ev.Allows env s .arm) (drop : ev.Allows env s (.dropPsb a)) : False := by
  cases arm with
  | benign quiet => cases quiet
  | frrEnable =>
    cases drop with
    | benign quiet => cases quiet
  | recv received arms =>
    cases drop with
    | benign quiet => cases quiet
    | recv received' drops =>
      rw [← received.unique received'] at drops
      cases arms with
      | benign quiet => cases quiet
      | pathArm path =>
        cases drops with
        | benign quiet => cases quiet
        | mbbDropPsb type => rw [path] at type; cases type
        | pathTearPsb type => rw [path] at type; cases type
      | resvArm resv found bypass =>
        cases drops with
        | benign quiet => cases quiet
        | mbbDropPsb _ found' completes =>
          rw [found] at found'
          cases found'
          obtain ⟨mem, -⟩ := Table.find_eq_some found
          rw [(wf.pending _ mem completes.pending).1] at bypass
          cases bypass
        | pathTearPsb type => rw [resv] at type; cases type

/-- No other PSB refers to a PSB that the event deletes. -/
def Event.SparesBypasses (ev : Event) (env : Env) (s : Node) : Prop :=
  ∀ c, ev.Deletes env s c → ∀ b ∈ s.psbs, b.body.bypassPsb = some c.addr → b.addr = c.addr

theorem Node.step_bypassValid {env : Env} {ev : Event} (wf : s.Wf) (valid : s.BypassValid)
    (spares : ev.SparesBypasses env s) : (s.step env ev).BypassValid := by
  have runs := @Node.step_runs env (ev.Allows env s) s wf ev fun _ allows => allows
  -- A PSB that the event may drop is referred to by itself at most.
  have start : ∀ a, ev.Allows env s (.dropPsb a) → ∀ b ∈ s.psbs,
      b.body.bypassPsb = some a → b.addr = a := by
    intro a allows b mem refers
    obtain ⟨c, rfl, deletes⟩ := allows.deletes
    exact spares c deletes b mem refers
  refine (runs.induct wf (P := fun t => t.BypassValid ∧ ∀ a, ev.Allows env s (.dropPsb a) →
    ∀ b ∈ t.psbs, b.body.bypassPsb = some a → b.addr = a) ⟨valid, start⟩ ?_).2.1
  intro t t' act allowed _ held does
  rcases held with ⟨valid, alone⟩
  constructor
  · intro b' mem a refers
    obtain ⟨c, memc, addr, bypass⟩ : ∃ c ∈ t.psbs, c.addr = a ∧ c.body.isBypassTunnel = true := by
      rcases does.bypass_from mem refers with ⟨b, memb, -, refers⟩ | ⟨-, armed⟩
      · exact valid b memb a refers
      · exact armed
    rcases does.bypass_survives memc bypass with ⟨c', memc', addr', bypass'⟩ | dropped
    · exact ⟨c', memc', addr'.trans addr, bypass'⟩
    · rcases does.bypass_from mem refers with ⟨b, memb, same, refers⟩ | ⟨armed, -⟩
      · rw [addr] at dropped
        have self := alone a (dropped ▸ allowed) b memb refers
        rw [← self, same] at dropped
        exact absurd dropped (does.not_dropped mem)
      · rw [armed] at dropped
        cases dropped
  · intro a allows b' mem refers
    rcases does.bypass_from mem refers with ⟨b, memb, same, refers⟩ | ⟨rfl, -⟩
    · exact same.symm.trans (alone a allows b memb refers)
    · exact (allowed.arm_apart wf allows).elim

/-- The states of the runs in which no event deletes a PSB that another PSB refers to. -/
inductive SparingRun (labels : LabelMgr) : Node → Prop
  | init : SparingRun labels (Node.init labels)
  | step {s : Node} (env : Env) (ev : Event) : SparingRun labels s →
    ev.SparesBypasses env s → SparingRun labels (s.step env ev)

theorem SparingRun.reachable {labels : LabelMgr} (run : SparingRun labels s) :
    Reachable labels s := by
  induction run with
  | init => exact .init
  | step env ev _ _ ih => exact ih.step env ev

theorem SparingRun.bypassValid {labels : LabelMgr} (pool : labels.Wf)
    (run : SparingRun labels s) : s.BypassValid := by
  induction run with
  | init => exact fun b mem => absurd mem (Table.not_mem_empty b)
  | step env ev before spares ih =>
    exact Node.step_bypassValid (before.reachable.wf pool) ih spares

/-- In such a run every bypass reference can be followed. -/
theorem bypass_valid_of_sparingRun {min max : UInt32} (low : 1 ≤ min) (ordered : min ≤ max)
    (high : max < 1048576) (run : SparingRun (labelMgrInit min max true) s) {b : Psb}
    (mem : b ∈ s.psbs) {a : Ptr} (refers : b.body.bypassPsb = some a) :
    ∃ c, s.psbs.get a = some c ∧ c.body.isBypassTunnel = true := by
  have valid := run.bypassValid (labelMgrInit_wf low ordered high).1
  obtain ⟨c, memc, rfl, bypass⟩ := valid b mem a refers
  exact ⟨c, Table.get_of_mem memc, bypass⟩

/-- A bypass tunnel that is up and an LSP that is not protected yet. -/
def sampleBypass : Node :=
  (((Node.init (labelMgrInit 16 31 true)).step (sampleEnv (fun _ => false) 1)
    (.initiateBypass 0x0900000A 0x0300000A 1 none [] 2)).step (sampleEnv (fun _ => false) 1)
    (.recv (sampleResv 0x0300000A 1 100 7))).step (sampleEnv (fun _ => false) 2)
    (.initiatePath 0x0900000A 0x0400000A 2 none [] false)

/-- The LSP is protected. -/
def sampleProtected : Node :=
  sampleBypass.step (sampleEnv (fun _ => false) 2) (.frrEnable 2 2 .facility 1)

/-- An event in a state without references spares them all. -/
theorem Event.spares_of_unreferenced {env : Env} {ev : Event}
    (none : s.psbs.blocks.all (·.body.bypassPsb = none) = true) : ev.SparesBypasses env s := by
  intro c _ b mem refers
  have free := of_decide_eq_true (List.all_eq_true.mp none b mem)
  rw [free] at refers
  cases refers

theorem bypass_valid_of_sparingRun_protected :
    SparingRun (labelMgrInit 16 31 true) sampleProtected ∧
      ∃ b ∈ sampleProtected.psbs, b.body.bypassPsb = some 1 ∧
        ∃ c, sampleProtected.psbs.get 1 = some c ∧ c.body.isBypassTunnel = true := by
  have unprotected : SparingRun (labelMgrInit 16 31 true) sampleBypass :=
    .step _ _ (.step _ _ (.step _ _ .init (Event.spares_of_unreferenced (by decide +kernel)))
      (Event.spares_of_unreferenced (by decide +kernel)))
      (Event.spares_of_unreferenced (by decide +kernel))
  have run : SparingRun (labelMgrInit 16 31 true) sampleProtected :=
    .step _ _ unprotected (Event.spares_of_unreferenced (by decide +kernel))
  have refs : some 1 ∈ sampleProtected.psbs.blocks.map (·.body.bypassPsb) := by
    decide +kernel
  obtain ⟨b, scanned, refers⟩ := List.mem_map.mp refs
  have mem : b ∈ sampleProtected.psbs := Table.mem_def.mpr scanned
  exact ⟨run, b, mem, refers,
    bypass_valid_of_sparingRun (by decide) (by decide) (by decide) run mem refers⟩

/-- Tearing the bypass down leaves the protected LSP with a dangling reference. -/
theorem exists_dangling_bypass :
    ∃ s, Reachable (labelMgrInit 16 31 true) s ∧ ∃ b ∈ s.psbs, ∃ a, b.body.bypassPsb = some a ∧
      s.psbs.get a = none := by
  have unprotected : Reachable (labelMgrInit 16 31 true) sampleBypass :=
    .step _ _ (.step _ _ (.step _ _ .init))
  have run : Reachable (labelMgrInit 16 31 true) sampleProtected := .step _ _ unprotected
  have refs : some 1 ∈ (sampleProtected.step (sampleEnv (fun _ => false) 3)
      (.teardown 1 1)).psbs.blocks.map (·.body.bypassPsb) := by
    decide +kernel
  have gone : ((sampleProtected.step (sampleEnv (fun _ => false) 3)
      (.teardown 1 1)).psbs.get 1).isNone = true := by
    decide +kernel
  obtain ⟨b, scanned, refers⟩ := List.mem_map.mp refs
  exact ⟨_, .step _ _ run, b, Table.mem_def.mpr scanned, 1, refers, Option.isNone_iff_eq_none.mp gone⟩

end Rsvp
