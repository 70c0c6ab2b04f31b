import RsvpTe.EventEffects
import RsvpTe.Lib.Ledger

/-!
# Labels and their owners

The node's labels are a ledger: an RSB holds its `labelIn`, the pool counts a label as taken when
its bit is set, and the forwarding table carries a label that has an entry.  Every action of the
state machine is one of the three changes of a ledger, so the ledger of every reachable state is
sound.
-/

namespace Rsvp

open Words

variable {hal : Hal} {act : Act} {s s' : Node}

/-- The labels of a node and the addresses of the RSBs that hold them. -/
def Node.ledger (s : Node) : Ledger UInt32 Ptr where
  holds := fun label a => label ≠ 0 ∧ ∃ r ∈ s.rsbs, r.addr = a ∧ r.body.labelIn = label
  taken := s.labels.InUse
  carried := fun label => label ≠ 0 ∧ s.fwd (.label label) ≠ none

/-! ## Actions as changes of the ledger -/

theorem ledger_same (rsbs : s'.rsbs = s.rsbs) (labels : s'.labels = s.labels)
    (fwd : ∀ label, s'.fwd (.label label) = s.fwd (.label label)) : s.ledger.Same s'.ledger where
  holds := by
    intro l a
    simp only [Node.ledger, rsbs]
  taken := by
    intro l
    simp only [Node.ledger, labels]
  carried := by
    intro l carried
    exact .inl ⟨carried.1, fwd l ▸ carried.2⟩
  kept := by
    intro l carried
    exact ⟨carried.1, (fwd l).symm ▸ carried.2⟩

theorem ledger_holds_modRsb {r : Rsb} (mem : r ∈ s.rsbs) {f : RsbState → RsbState}
    (keeps : (f r.body).labelIn = r.body.labelIn) (l : UInt32) (a : Ptr) :
    (s.modRsb r.addr f).ledger.holds l a ↔ s.ledger.holds l a := by
  refine and_congr_right fun _ => ?_
  constructor
  · rintro ⟨x, memx, addr, label⟩
    rcases Table.mem_modify.mp memx with ⟨old, -⟩ | ⟨y, memy, here, rfl⟩
    · exact ⟨x, old, addr, label⟩
    · have same := Table.eq_of_addr_eq memy mem here
      subst same
      exact ⟨y, memy, addr, keeps.symm.trans label⟩
  · rintro ⟨x, memx, addr, label⟩
    by_cases here : x.addr = r.addr
    · have same := Table.eq_of_addr_eq memx mem here
      subst same
      exact ⟨_, s.mem_modRsb memx f, addr, keeps.trans label⟩
    · exact ⟨x, Table.mem_modify.mpr (.inl ⟨memx, here⟩), addr, label⟩

theorem ledger_modRsb {r : Rsb} (mem : r ∈ s.rsbs) {f : RsbState → RsbState}
    (keeps : (f r.body).labelIn = r.body.labelIn) :
    s.ledger.Same (s.modRsb r.addr f).ledger where
  holds := ledger_holds_modRsb mem keeps
  taken := fun _ => Iff.rfl
  carried := fun _ => .inl
  kept := fun _ => id

theorem ledger_newRsb {key : PathKey} {mem : Option Ptr} {r : Ptr}
    {rsbs : Table PathKey RsbState}
    (made : s.rsbs.create rsvpKeyHash mem key .zero = some (r, rsbs))
    {f : RsbState → RsbState} (bare : (f .zero).labelIn = 0) (psbs : Table PathKey PsbState) :
    s.ledger.Same
      ({ s with rsbs := rsbs.modify r f, psbs := psbs } : Node).ledger where
  holds := by
    intro l a
    refine and_congr_right fun pos => ?_
    constructor
    · rintro ⟨x, memx, addr, label⟩
      rcases (Table.mem_modify_create made).mp memx with rfl | old
      · exact absurd (label.symm.trans bare) pos
      · exact ⟨x, old, addr, label⟩
    · rintro ⟨x, memx, addr, label⟩
      exact ⟨x, (Table.mem_modify_create made).mpr (.inr memx), addr, label⟩
  taken := fun _ => Iff.rfl
  carried := fun _ => .inl
  kept := fun _ => id

/-- An RSB without a label takes one. -/
theorem ledger_takes (wf : s.Wf) {r : Rsb} (mem : r ∈ s.rsbs) (bare : r.body.labelIn = 0)
    {label : UInt32} {labels : LabelMgr} (takes : s.labels.Allocates label labels) :
    s.ledger.Takes ({ s with labels := labels }.modRsb r.addr fun x =>
      { x with labelIn := label }).ledger label r.addr where
  free := takes.free
  holds := by
    intro m a
    have pos : label ≠ 0 := wf.labels.ne_zero takes.inRange
    constructor
    · rintro ⟨mpos, x, memx, addr, held⟩
      rcases Table.mem_modify.mp memx with ⟨old, -⟩ | ⟨y, memy, here, rfl⟩
      · exact .inr ⟨mpos, x, old, addr, held⟩
      · exact .inl ⟨held.symm, addr.symm.trans here⟩
    · rintro (⟨rfl, rfl⟩ | ⟨mpos, x, memx, addr, held⟩)
      · exact ⟨pos, _, Node.mem_modRsb _ mem _, rfl, rfl⟩
      · refine ⟨mpos, x, Table.mem_modify.mpr (.inl ⟨memx, fun here => mpos ?_⟩), addr, held⟩
        rw [← held, Table.eq_of_addr_eq memx mem here, bare]
  taken := takes.inUse
  carried := fun _ => .inr
  kept := fun _ => id

/-- An entry is written for a label that an RSB holds, or for a push. -/
theorem ledger_install {key : PathKey} {inLabel outLabel outIfindex : UInt32}
    {nextHop dest : InAddr}
    (held : inLabel ≠ 0 → ∃ r ∈ s.rsbs, r.key = key ∧ r.body.labelIn = inLabel) :
    s.ledger.Same (s.halMplsInstall inLabel outLabel outIfindex nextHop dest).ledger where
  holds := fun _ _ => Iff.rfl
  taken := fun _ => Iff.rfl
  carried := by
    rintro l ⟨pos, entry⟩
    by_cases here : FwdKey.label l = fwdKey inLabel dest
    · by_cases push : inLabel = 0
      · rw [fwdKey, if_pos push] at here
        cases here
      · rw [fwdKey, if_neg push] at here
        cases here
        obtain ⟨r, mem, -, label⟩ := held push
        exact .inr ⟨r.addr, pos, r, mem, rfl, label⟩
    · left
      refine ⟨pos, ?_⟩
      change Function.update s.fwd _ _ (.label l) ≠ none at entry
      rw [Function.update_of_ne here] at entry
      exact entry
  kept := by
    rintro l ⟨pos, entry⟩
    refine ⟨pos, ?_⟩
    change Function.update s.fwd _ _ (.label l) ≠ none
    rw [Function.update_apply]
    split
    · exact Option.some_ne_none _
    · exact entry

/-- The release of an RSB returns its label. -/
theorem ledger_returns (wf : s.Wf) {b : Psb} {r : Rsb} (mem : r ∈ s.rsbs)
    (release : Released s s' b r) : s.ledger.Returns s'.ledger r.addr := by
  have own : ∀ l ≠ 0, s.ledger.holds l r.addr ↔ l = r.body.labelIn := by
    intro l pos
    constructor
    · rintro ⟨-, x, memx, addr, held⟩
      rw [← held, Table.eq_of_addr_eq memx mem addr]
    · rintro rfl
      exact ⟨pos, r, mem, rfl, rfl⟩
  refine ⟨?_, ?_, ?_⟩
  · intro l a
    simp only [Node.ledger, release.rsbs]
    constructor
    · rintro ⟨pos, x, memx, addr, held⟩
      obtain ⟨old, away⟩ := Table.mem_unlink.mp memx
      exact ⟨⟨pos, x, old, addr, held⟩, addr ▸ away⟩
    · rintro ⟨⟨pos, x, memx, addr, held⟩, away⟩
      exact ⟨pos, x, Table.mem_unlink.mpr ⟨memx, addr ▸ away⟩, addr, held⟩
  · intro l
    change s'.labels.InUse l ↔ s.labels.InUse l ∧ ¬ s.ledger.holds l r.addr
    rw [release.labels]
    by_cases bare : r.body.labelIn = 0
    · rw [if_pos bare]
      refine ⟨fun used => ⟨used, fun held => ?_⟩, And.left⟩
      exact held.1 (((own l held.1).mp held).trans bare)
    · rw [if_neg bare, (labelMgrFree_spec wf.labels _).2.1]
      constructor
      · rintro ⟨ne, used⟩
        exact ⟨used, fun held => ne ((own l held.1).mp held)⟩
      · rintro ⟨used, unheld⟩
        have pos : l ≠ 0 := wf.labels.ne_zero used.inRange
        exact ⟨fun same => unheld ((own l pos).mpr same), used⟩
  · intro l
    constructor
    · rintro ⟨pos, entry⟩
      rw [release.fwd l pos] at entry
      split at entry
      · exact absurd rfl entry
      · rename_i other
        exact ⟨⟨pos, entry⟩, fun held => other ((own l pos).mp held)⟩
    · rintro ⟨⟨pos, entry⟩, unheld⟩
      refine ⟨pos, ?_⟩
      rw [release.fwd l pos, if_neg fun same => unheld ((own l pos).mpr same)]
      exact entry

/-- Every action is a change of the ledger; only `advertise` takes a label without an entry. -/
theorem Does.ledger (wf : s.Wf) (does : Does hal act s s') :
    s.ledger.Same s'.ledger ∨
      (∃ l a, s.ledger.Takes s'.ledger l a ∧
        ((∃ key, act = .advertise key) ∨ s'.ledger.carried l)) ∨
      ∃ a, s.ledger.Returns s'.ledger a := by
  cases does with
  | misc => exact .inl (ledger_same rfl rfl fun _ => rfl)
  | send => exact .inl (ledger_same rfl rfl fun _ => rfl)
  | path => exact .inl (ledger_same rfl rfl fun _ => rfl)
  | tunePsb => exact .inl (ledger_same rfl rfl fun _ => rfl)
  | hop => exact .inl (ledger_same rfl rfl fun _ => rfl)
  | arm => exact .inl (ledger_same rfl rfl fun _ => rfl)
  | newPsb => exact .inl (ledger_same rfl rfl fun _ => rfl)
  | dropPsb => exact .inl (ledger_same rfl rfl fun _ => rfl)
  | resv => exact .inl (ledger_same rfl rfl fun _ => rfl)
  | tuneRsb mem keeps => exact .inl (ledger_modRsb mem keeps.labelIn)
  | store mem keeps => exact .inl (ledger_modRsb mem keeps.labelIn)
  | newRsb _ _ made bare => exact .inl (ledger_newRsb made bare _)
  | install held => exact .inl (ledger_install held)
  | advertise mem bare takes =>
    exact .inr (.inl ⟨_, _, ledger_takes wf mem bare takes, .inl ⟨_, rfl⟩⟩)
  | @swap _ r label labels outLabel outIfindex nextHop mem bare takes =>
    have pos : label ≠ 0 := wf.labels.ne_zero takes.inRange
    have took := ledger_takes wf mem bare takes
    have entry : fwdKey label r.key.session.destAddr = .label label := if_neg pos
    refine .inr (.inl ⟨label, r.addr, ⟨took.free, took.holds, took.taken, ?_, ?_⟩, .inr ?_⟩)
    · rintro m ⟨mpos, present⟩
      change Function.update s.fwd _ _ (.label m) ≠ none at present
      rw [entry, Function.update_apply] at present
      split at present
      · rename_i same
        exact .inl (FwdKey.label.inj same)
      · exact .inr ⟨mpos, present⟩
    · rintro m ⟨mpos, present⟩
      refine ⟨mpos, ?_⟩
      change Function.update s.fwd _ _ (.label m) ≠ none
      rw [Function.update_apply]
      split
      · exact Option.some_ne_none _
      · exact present
    · refine ⟨pos, ?_⟩
      change Function.update s.fwd _ _ (.label label) ≠ none
      rw [entry, Function.update_self]
      exact Option.some_ne_none _
  | dropRsb _ mem _ release => exact .inr (.inr ⟨_, ledger_returns wf mem release⟩)

/-! ## RESVs carry the label of their RSB -/

/-- `o` is a RESV that names the key of `r` and carries its label. -/
def Output.Carries (o : Output) (r : Rsb) : Prop :=
  ∃ dest useRao bytes info, o = .packet dest useRao bytes ∧ rsvpParsePacket bytes = .ok info ∧
    info.key = r.key.wire ∧ info.labelValue = r.body.labelIn ∧ r.body.labelIn ≠ 0

theorem Node.SendsResv.carries (wf : s.Wf) {key : PathKey} {o : Output}
    (sends : s.SendsResv hal key o) : ∃ r ∈ s.rsbs, r.key = key ∧ o.Carries r := by
  obtain ⟨b, memb, r, memr, merged, keyR, tied, label, rfl⟩ := sends
  refine ⟨r, memr, keyR, ?_⟩
  have keyB := (wf.psb_of_rsb memb memr tied).1
  obtain ⟨info, parsed, -, named, -, -, value, -⟩ :=
    parse_resvMessage b.key r.body merged _ _ _ _ false
  exact ⟨_, _, _, info, rfl, parsed, keyB ▸ named, value, label⟩

theorem pathOutput_msgType (hal : Hal) (key : PathKey) (psb : PsbState) (ipDest : InAddr)
    (ifindex : UInt32) : (pathOutput hal key psb ipDest ifindex).msgType = some msgPath := by
  rw [pathOutput, pathMessage_eq]
  exact msgType_built msgPath _ (pathCalls_fit key psb _ ifindex) _ _ true

/-- An RSB with a label keeps it until it is dropped. -/
theorem Does.rsb_survives (does : Does hal act s s') {r : Rsb} (mem : r ∈ s.rsbs)
    (label : r.body.labelIn ≠ 0) :
    (∃ x ∈ s'.rsbs, x.key = r.key ∧ x.body.labelIn = r.body.labelIn) ∨
      act = .dropRsb r.key r.body.labelIn := by
  have updated : ∀ (x : Rsb) (f : RsbState → RsbState), x ∈ s.rsbs →
      (x = r → (f x.body).labelIn = x.body.labelIn) →
      ∃ y ∈ (s.modRsb x.addr f).rsbs, y.key = r.key ∧ y.body.labelIn = r.body.labelIn := by
    intro x f memx keeps
    by_cases here : r.addr = x.addr
    · have same := Table.eq_of_addr_eq mem memx here
      subst same
      exact ⟨_, s.mem_modRsb mem f, rfl, keeps rfl⟩
    · exact ⟨r, Table.mem_modify.mpr (.inl ⟨mem, here⟩), rfl, rfl⟩
  cases does with
  | misc => exact .inl ⟨r, mem, rfl, rfl⟩
  | send => exact .inl ⟨r, mem, rfl, rfl⟩
  | path => exact .inl ⟨r, mem, rfl, rfl⟩
  | tunePsb => exact .inl ⟨r, mem, rfl, rfl⟩
  | hop => exact .inl ⟨r, mem, rfl, rfl⟩
  | arm => exact .inl ⟨r, mem, rfl, rfl⟩
  | newPsb => exact .inl ⟨r, mem, rfl, rfl⟩
  | dropPsb => exact .inl ⟨r, mem, rfl, rfl⟩
  | install => exact .inl ⟨r, mem, rfl, rfl⟩
  | resv => exact .inl ⟨r, mem, rfl, rfl⟩
  | tuneRsb memx keeps => exact .inl (updated _ _ memx fun _ => keeps.labelIn)
  | store memx keeps => exact .inl (updated _ _ memx fun _ => keeps.labelIn)
  | newRsb _ _ made =>
    exact .inl ⟨r, (Table.mem_modify_create made).mpr (.inr mem), rfl, rfl⟩
  | advertise memx bare => exact .inl (updated _ _ memx fun same => absurd (same ▸ bare) label)
  | swap memx bare => exact .inl (updated _ _ memx fun same => absurd (same ▸ bare) label)
  | @dropRsb _ _ _ x _ memx _ release =>
    by_cases here : r.addr = x.addr
    · rw [Table.eq_of_addr_eq mem memx here]
      exact .inr rfl
    · left
      rw [release.rsbs]
      exact ⟨r, Table.mem_unlink.mpr ⟨mem, here⟩, rfl, rfl⟩

/-- No message announces the label of an RSB and drops that RSB. -/
theorem MessageInfo.Allows.apart (wf : s.Wf) {env : Env} {info : MessageInfo} {key : PathKey}
    {label : UInt32} (resv : info.Allows env s (.resv key))
    (drop : info.Allows env s (.dropRsb key label)) : label = 0 := by
  have types : key = info.key ∧
      (info.commonHdr.msgType = msgPath ∨ info.commonHdr.msgType = msgResv) := by
    cases resv with
    | benign quiet => cases quiet
    | pathResv type => exact ⟨rfl, .inl type⟩
    | resvResv type => exact ⟨rfl, .inr type⟩
  obtain ⟨rfl, type⟩ := types
  generalize same : info.key = key at drop
  cases drop with
  | benign quiet => cases quiet
  | resvReject => rfl
  | @mbbDropRsb b old _ _ found completes scanned =>
    -- The incumbent has another LSP ID than the pending PSB.
    obtain ⟨mem, key⟩ := Table.find_eq_some found
    have ids := List.find?_some scanned
    simp only [decide_eq_true_eq] at ids
    have other := (wf.pending b mem completes.pending).2
    rw [key, same] at other
    exact absurd ids.2.symm other
  | pathTearRsb tear => rcases type with type | type <;> rw [tear] at type <;> cases type
  | resvTear tear => rcases type with type | type <;> rw [tear] at type <;> cases type

theorem Event.Allows.apart (wf : s.Wf) {env : Env} {ev : Event} {key : PathKey} {label : UInt32}
    (resv : ev.Allows env s (.resv key)) (drop : ev.Allows env s (.dropRsb key label)) :
    label = 0 := by
  have untimed : ∀ a, ev ≠ .rsbRefresh a := by
    cases drop with
    | benign quiet => cases quiet
    | recv => rintro _ ⟨⟩
    | psbCleanupRsb => rintro _ ⟨⟩
    | rsbCleanup => rintro _ ⟨⟩
    | teardownRsb => rintro _ ⟨⟩
  cases resv with
  | benign quiet => cases quiet
  | rsbRefreshResv => exact absurd rfl (untimed _)
  | recv received allows =>
    cases drop with
    | benign quiet => cases quiet
    | recv received' allows' =>
      rw [← received.unique received'] at allows'
      exact allows.apart wf allows'

/-- Every RESV that an event logs carries the label of an RSB that the node then has. -/
theorem Node.step_carries (wf : s.Wf) (env : Env) (ev : Event) :
    ∃ new, (s.step env ev).out = s.out ++ new ∧ ∀ o ∈ new, o.msgType = some msgResv →
      ∃ r ∈ (s.step env ev).rsbs, o.Carries r := by
  have runs := @Node.step_runs env (ev.Allows env s) s wf ev fun _ allows => allows
  have announced := runs.induct wf (P := fun t => ∃ new, t.out = s.out ++ new ∧
      ∀ o ∈ new, o.msgType = some msgResv → ∃ r ∈ t.rsbs, o.Carries r ∧
        ev.Allows env s (.resv r.key))
    ⟨[], (List.append_nil _).symm, fun _ mem => by cases mem⟩ ?_
  · obtain ⟨-, new, out, carried⟩ := announced
    refine ⟨new, out, fun o mem type => ?_⟩
    obtain ⟨r, memr, carries, -⟩ := carried o mem type
    exact ⟨r, memr, carries⟩
  intro t t' act allowed wfT held does
  rcases held with ⟨new, out, carried⟩
  obtain ⟨more, out', kinds⟩ := does.log
  -- An RSB announced earlier in the event outlives the action.
  have survives : ∀ r ∈ t.rsbs, ∀ o : Output, o.Carries r → ev.Allows env s (.resv r.key) →
      ∃ x ∈ t'.rsbs, o.Carries x ∧ ev.Allows env s (.resv x.key) := by
    intro r memr o carries allows
    obtain ⟨dest, useRao, bytes, info, rfl, parsed, key, value, label⟩ := carries
    rcases does.rsb_survives memr label with ⟨x, memx, keyX, labelX⟩ | rfl
    · exact ⟨x, memx, ⟨dest, useRao, bytes, info, rfl, parsed, keyX ▸ key, labelX ▸ value,
        labelX ▸ label⟩, keyX ▸ allows⟩
    · exact absurd (allows.apart wf allowed) label
  refine ⟨new ++ more, by rw [out', out, List.append_assoc], fun o mem type => ?_⟩
  rcases List.mem_append.mp mem with old | fresh
  · obtain ⟨r, memr, carries, allows⟩ := carried o old type
    exact survives r memr o carries allows
  · rcases kinds o fresh with minor | ⟨-, sends⟩ | ⟨key, rfl, sends⟩
    · exact absurd type minor.2
    · obtain ⟨b, -, psb, ipDest, ifindex, -, rfl⟩ := sends
      rw [pathOutput_msgType] at type
      cases type
    · obtain ⟨r, memr, rfl, carries⟩ := sends.carries wfT
      exact survives r memr o carries allowed

/-! ## Reachable states -/

theorem Runs.sound {ok : Act → Prop} (runs : Runs hal ok s s') (wf : s.Wf)
    (sound : s.ledger.Sound) : s'.ledger.Sound := by
  apply (runs.induct wf sound _).2
  intro t t' act _ wfT sound does
  rcases does.ledger wfT with same | ⟨l, a, takes, -⟩ | ⟨a, returns⟩
  · exact sound.same same
  · exact sound.takes takes
  · exact sound.returns returns

theorem Node.init_sound {labels : LabelMgr} (unused : ∀ label, ¬ labels.InUse label) :
    (Node.init labels).ledger.Sound := by
  have unheld : ∀ l a, ¬ (Node.init labels).ledger.holds l a := fun l a held => by
    obtain ⟨-, r, mem, -⟩ := held
    exact Table.not_mem_empty r mem
  refine ⟨fun l a b held => absurd held (unheld l a), fun l => ?_, fun l carried => ?_⟩
  · exact ⟨fun used => absurd used (unused l), fun held => absurd held.choose_spec (unheld l _)⟩
  · exact absurd rfl carried.2

theorem Reachable.sound {labels : LabelMgr} (pool : labels.Wf)
    (unused : ∀ label, ¬ labels.InUse label) (run : Reachable labels s) : s.ledger.Sound := by
  induction run with
  | init => exact Node.init_sound unused
  | @step t env ev before ih =>
    have wf := before.wf pool
    exact (@Node.step_runs env (fun _ => True) t wf ev fun _ _ => trivial).sound wf ih

/-- A label has one RSB. -/
theorem Ledger.Sound.rsb_eq {s : Node} (sound : s.ledger.Sound) {r x : Rsb} (memr : r ∈ s.rsbs)
    (memx : x ∈ s.rsbs) (label : r.body.labelIn ≠ 0) (same : r.body.labelIn = x.body.labelIn) :
    r = x := by
  apply Table.eq_of_addr_eq memr memx
  exact sound.exclusive r.body.labelIn _ _ ⟨label, r, memr, rfl, rfl⟩
    ⟨label, x, memx, rfl, same.symm⟩

/-- Labels and RSBs of a reachable state: distinct RSBs have distinct labels, the pool marks
exactly the labels of RSBs, every entry for a label belongs to an RSB, and every RESV of the next
event carries the label of its RSB. -/
theorem labels_owned_of_reachable {min max : UInt32} (low : 1 ≤ min) (ordered : min ≤ max)
    (high : max < 1048576) (run : Reachable (labelMgrInit min max true) s) :
    (∀ r ∈ s.rsbs, ∀ x ∈ s.rsbs, r.body.labelIn ≠ 0 → r.body.labelIn = x.body.labelIn → r = x) ∧
    (∀ label ≠ 0, s.labels.InUse label ↔ ∃! r, r ∈ s.rsbs ∧ r.body.labelIn = label) ∧
    (∀ label ≠ 0, s.fwd (.label label) ≠ none → ∃ r ∈ s.rsbs, r.body.labelIn = label) ∧
    ∀ env ev, ∃ new, (s.step env ev).out = s.out ++ new ∧
      ∀ o ∈ new, o.msgType = some msgResv → ∃ r ∈ (s.step env ev).rsbs, o.Carries r := by
  obtain ⟨pool, unused⟩ := labelMgrInit_wf low ordered high
  have sound := run.sound pool unused
  have distinct : ∀ r ∈ s.rsbs, ∀ x ∈ s.rsbs, r.body.labelIn ≠ 0 →
      r.body.labelIn = x.body.labelIn → r = x := fun r memr x memx =>
    Ledger.Sound.rsb_eq sound memr memx
  refine ⟨distinct, fun label pos => ?_, fun label pos entry => ?_,
    fun env ev => Node.step_carries (run.wf pool) env ev⟩
  · constructor
    · intro used
      obtain ⟨a, -, r, mem, -, rfl⟩ := (sound.taken_iff label).mp used
      refine ⟨r, ⟨mem, rfl⟩, fun x held => ?_⟩
      exact (distinct r mem x held.1 pos held.2.symm).symm
    · rintro ⟨r, ⟨mem, held⟩, -⟩
      exact (sound.taken_iff label).mpr ⟨r.addr, pos, r, mem, rfl, held⟩
  · obtain ⟨a, -, r, mem, -, held⟩ := sound.backed label ⟨pos, entry⟩
    exact ⟨r, mem, held⟩

/-- A node that is the egress of an LSP to 10.0.0.5, with label 16, and in transit of one to
10.0.0.4, with label 17. -/
def sampleTwoLabels : Node :=
  (((Node.init (labelMgrInit 16 31 true)).step (sampleEnv (· = 0x0500000A) 1)
    (.recv (samplePath 0x0500000A 1 5))).step (sampleEnv (· = 0x0500000A) 2)
    (.recv (samplePath 0x0400000A 2 5))).step (sampleEnv (· = 0x0500000A) 3)
    (.recv (sampleResv 0x0400000A 2 100 7))

theorem sampleTwoLabels_reachable : Reachable (labelMgrInit 16 31 true) sampleTwoLabels :=
  .step _ _ (.step _ _ (.step _ _ .init))

/-- Both labels are taken, each for the one RSB that has it, and the swap of label 17 is backed. -/
theorem labels_owned_of_reachable_two :
    sampleTwoLabels.labels.InUse 16 ∧ sampleTwoLabels.labels.InUse 17 ∧
      sampleTwoLabels.fwd (.label 17) ≠ none ∧
      ∃ r ∈ sampleTwoLabels.rsbs, r.body.labelIn = 17 ∧
        ∀ x ∈ sampleTwoLabels.rsbs, x.body.labelIn = 17 → x = r := by
  obtain ⟨distinct, taken, backed, -⟩ :=
    labels_owned_of_reachable (by decide) (by decide) (by decide) sampleTwoLabels_reachable
  have used : ∀ label : UInt32, label ≠ 0 →
      label ∈ sampleTwoLabels.rsbs.blocks.map (·.body.labelIn) →
      sampleTwoLabels.labels.InUse label := by
    intro label pos listed
    obtain ⟨r, mem, rfl⟩ := List.mem_map.mp listed
    refine (taken _ pos).mpr ⟨r, ⟨mem, rfl⟩, ?_⟩
    rintro x ⟨memx, same⟩
    exact distinct x memx r mem (same ▸ pos) same
  have labels : (16 : UInt32) ∈ sampleTwoLabels.rsbs.blocks.map (·.body.labelIn) ∧
      (17 : UInt32) ∈ sampleTwoLabels.rsbs.blocks.map (·.body.labelIn) ∧
      sampleTwoLabels.fwd (.label 17) ≠ none := by
    decide +kernel
  obtain ⟨first, second, swap⟩ := labels
  obtain ⟨r, mem, held⟩ := backed 17 (by decide) swap
  refine ⟨used 16 (by decide) first, used 17 (by decide) second, swap, r, mem, held, ?_⟩
  intro x memx same
  exact distinct x memx r mem (by rw [same]; decide) (same.trans held.symm)

end Rsvp
