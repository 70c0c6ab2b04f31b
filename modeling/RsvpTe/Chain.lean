import RsvpTe.Adjacency
import RsvpTe.Lib.Network

/-!
# Labels along a chain of nodes

Nodes `0 .. n` run the state machine with fixed HALs.  Node 0 originates LSPs; a PATH that node
`i` has logged may arrive at node `i + 1`, and a RESV at the node that owns the address it was
sent to.  A logged packet can arrive at any time, again, or never, and refresh timers fire at any
time, so every order, duplication and loss is a run of `chain`.

A node publishes its log and the labels of its RSBs.  Its contract is that the next node has an
RSB with the label this one sends to: a RESV carries the label of an RSB, RSBs that have a label
keep it, and the previous hop a RESV goes to is the node that sent the PATH.
-/

namespace Rsvp

open Words

/-- What a node of the chain lets others see. -/
inductive Fact : Type
  | sent (i : Nat) (o : Output)
  | holds (i : Nat) (key : PathKey) (label : UInt32)

/-- Node `i` has an RSB for `key` with the incoming label `label`. -/
def Node.Held (s : Node) (key : PathKey) (label : UInt32) : Prop :=
  label ≠ 0 ∧ ∃ r ∈ s.rsbs, r.key = key ∧ r.body.labelIn = label

/-- The events of node `i` of the chain, when `A` is what the nodes have published. -/
inductive ChainEvent (hal : Nat → Hal) (A : Set Fact) : Nat → Event → Prop
  | originate {src dest : InAddr} {tunnelId : UInt16} {lspName : Option Bytes}
    {ero : List EroSubobj} {requestFrr : Bool} :
    ChainEvent hal A 0 (.initiatePath src dest tunnelId lspName ero requestFrr)
  | path {i : Nat} {dest : InAddr} {bytes : Bytes} : .sent i (.packet dest true bytes) ∈ A →
    (Output.packet dest true bytes).msgType = some msgPath → ChainEvent hal A (i + 1) (.recv bytes)
  | resv {i j : Nat} {dest : InAddr} {bytes : Bytes} : .sent j (.packet dest false bytes) ∈ A →
    (Output.packet dest false bytes).msgType = some msgResv → (hal i).isLocalAddr dest = true →
    ChainEvent hal A i (.recv bytes)
  | psbRefresh {i : Nat} {p : Ptr} : ChainEvent hal A i (.psbRefresh p)
  | rsbRefresh {i : Nat} {r : Ptr} : ChainEvent hal A i (.rsbRefresh r)

/-- Nodes `0 .. n` with the HALs `hal` and the label pools `labels`. -/
def chain (n : Nat) (hal : Nat → Hal) (labels : Nat → LabelMgr) : Network Nat Node Fact where
  init := fun i => Node.init (labels i)
  step := fun i A s s' => i ≤ n ∧ ∃ env ev, env.toHal = hal i ∧ ChainEvent hal A i ev ∧
    s' = s.step env ev
  gives := fun i s => {a | (∃ o ∈ s.out, a = .sent i o) ∨
    ∃ key label, s.Held key label ∧ a = .holds i key label}

/-- The routes of a chain lead through interfaces whose address belongs to their node and to no
other, and nobody has the address 0.0.0.0. -/
structure Addressed (n : Nat) (hal : Nat → Hal) : Prop where
  own : ∀ i ≤ n, ∀ dest ifindex, (hal i).getEgressIf dest = some ifindex →
    ∃ addr, (hal i).getLocalAddr ifindex = some addr ∧
      ∀ j ≤ n, (hal j).isLocalAddr addr = true → j = i
  zero : ∀ j ≤ n, (hal j).isLocalAddr 0 = false

section Chain

variable {n : Nat} {hal : Nat → Hal} {A B : Set Fact} {i : Nat} {s s' : Node} {act : Act}
  {env : Env}

/-- Only the node before `i` may have the address. -/
def Upstream (n : Nat) (hal : Nat → Hal) (i : Nat) (addr : InAddr) : Prop :=
  ∀ j ≤ n, (hal j).isLocalAddr addr = true → j + 1 = i

/-- A PATH of node `i` leaves through a route of its own; a RESV goes upstream and carries a label
of which `held` tells. -/
structure Output.Fits (n : Nat) (hal : Nat → Hal) (i : Nat) (held : PathKey → UInt32 → Prop)
    (o : Output) : Prop where
  path : o.msgType = some msgPath → ∃ key psb ipDest ifindex, key.session.reserved = 0 ∧
    (hal i).getEgressIf ipDest = some ifindex ∧ o = pathOutput (hal i) key psb ipDest ifindex
  resv : o.msgType = some msgResv → ∃ b rsb merged, b.key.session.reserved = 0 ∧
    Upstream n hal i b.body.prevHop.neighborAddr ∧ held b.key rsb.labelIn ∧
    o = resvOutput (hal i) b rsb merged

/-- What node `i` keeps. -/
structure Node.Linked (n : Nat) (hal : Nat → Hal) (i : Nat) (A : Set Fact) (s : Node) : Prop where
  reserved : ∀ b ∈ s.psbs, b.key.session.reserved = 0
  settled : ∀ b ∈ s.psbs, b.body.isMbbPending = false
  upstream : ∀ b ∈ s.psbs, Upstream n hal i b.body.prevHop.neighborAddr
  fits : ∀ o ∈ s.out, o.Fits n hal i s.Held
  labelOut : ∀ r ∈ s.rsbs, r.body.labelOut ≠ 0 → .holds (i + 1) r.key r.body.labelOut ∈ A
  entries : ∀ k e, s.fwd k = some e → ∃ key, s.EntryOf key k ∧ .holds (i + 1) key e.outLabel ∈ A

/-- The actions that keep a node linked. -/
def Act.Links (n : Nat) (hal : Nat → Hal) (i : Nat) (A : Set Fact) : Act → Prop
  | .hop _ prevHop => Upstream n hal i prevHop.neighborAddr
  | .newPsb key isMbbPending => key.session.reserved = 0 ∧ isMbbPending = false
  | .store key labelOut => .holds (i + 1) key labelOut ∈ A
  | .swap key outLabel _ => .holds (i + 1) key outLabel ∈ A
  | .install key outLabel _ => .holds (i + 1) key outLabel ∈ A
  | .dropRsb _ labelIn => labelIn = 0
  | _ => True

/-! ## Actions -/

/-- A label that is held stays held. -/
theorem Does.held (does : Does (hal i) act s s') (links : act.Links n hal i A) {key : PathKey}
    {label : UInt32} (held : s.Held key label) : s'.Held key label := by
  obtain ⟨pos, r, mem, keyR, labelR⟩ := held
  rcases does.rsb_survives mem (labelR ▸ pos) with ⟨x, memx, keyX, labelX⟩ | rfl
  · exact ⟨pos, x, memx, keyX.trans keyR, labelX.trans labelR⟩
  · exact absurd (labelR.symm.trans links) pos

theorem Output.Fits.mono {held held' : PathKey → UInt32 → Prop} {o : Output}
    (fits : o.Fits n hal i held) (more : ∀ key label, held key label → held' key label) :
    o.Fits n hal i held' := by
  refine ⟨fits.path, fun type => ?_⟩
  obtain ⟨b, rsb, merged, reserved, upstream, had, sent⟩ := fits.resv type
  exact ⟨b, rsb, merged, reserved, upstream, more _ _ had, sent⟩

/-- What an action of a linked node logs. -/
theorem Does.fits (wf : s.Wf) (linked : s.Linked n hal i A) (does : Does (hal i) act s s')
    (links : act.Links n hal i A) : ∀ o ∈ s'.out, o.Fits n hal i s'.Held := by
  obtain ⟨new, out, kinds⟩ := does.log
  intro o mem
  rw [out] at mem
  rcases List.mem_append.mp mem with old | fresh
  · exact (linked.fits o old).mono fun key label => does.held links
  rcases kinds o fresh with minor | ⟨-, sends⟩ | ⟨k, -, sends⟩
  · exact ⟨fun type => absurd type minor.1, fun type => absurd type minor.2⟩
  · obtain ⟨b, memb, psb, ipDest, ifindex, route, rfl⟩ := sends
    refine ⟨fun _ => ⟨b.key, psb, ipDest, ifindex, linked.reserved b memb, route, rfl⟩, ?_⟩
    intro type
    rw [pathOutput_msgType] at type
    cases type
  · obtain ⟨b, memb, r, memr, merged, -, tied, label, rfl⟩ := sends
    constructor
    · intro type
      rw [resvOutput_msgType] at type
      cases type
    · intro _
      have keyB := (wf.psb_of_rsb memb memr tied).1
      exact ⟨b, r.body, merged, linked.reserved b memb, linked.upstream b memb,
        does.held links ⟨label, r, memr, keyB.symm, rfl⟩, rfl⟩

/-- An entry keeps its LSP. -/
theorem Does.entryOf (does : Does (hal i) act s s') (links : act.Links n hal i A) {key : PathKey}
    {k : FwdKey} (entry : s.EntryOf key k) : s'.EntryOf key k := by
  rcases entry with push | ⟨r, mem, keyR, pos, here⟩
  · exact .inl push
  · obtain ⟨-, x, memx, keyX, labelX⟩ := does.held links ⟨pos, r, mem, keyR, rfl⟩
    exact .inr ⟨x, memx, keyX, labelX ▸ pos, labelX ▸ here⟩

theorem Does.linked (zero : ∀ j ≤ n, (hal j).isLocalAddr 0 = false) (wf : s.Wf)
    (linked : s.Linked n hal i A) (does : Does (hal i) act s s') (links : act.Links n hal i A) :
    s'.Linked n hal i A where
  reserved := by
    intro c mem
    rcases does.psb_origin mem with ⟨b, memb, same, -⟩ | ⟨rfl, -⟩
    · rw [same]
      exact linked.reserved b memb
    · exact links.1
  settled := by
    intro c mem
    rcases does.psb_origin mem with ⟨b, memb, -, pending, -⟩ | ⟨rfl, -⟩
    · refine Bool.eq_false_iff.mpr fun waits => ?_
      rw [linked.settled b memb] at pending
      exact Bool.false_ne_true (pending waits)
    · exact links.2
  upstream := by
    intro c mem
    rcases does.psb_origin mem with ⟨b, memb, -, -, same | rfl⟩ | ⟨-, blank⟩
    · rw [same]
      exact linked.upstream b memb
    · exact links
    · rw [blank]
      intro j le owned
      rw [zero j le] at owned
      cases owned
  fits := does.fits wf linked links
  labelOut := by
    intro x mem label
    rcases does.rsb_origin mem with ⟨r, memr, key, same⟩ | rfl | unset
    · rw [key, same]
      exact linked.labelOut r memr (same ▸ label)
    · exact links
    · exact absurd unset label
  entries := by
    intro k e entry
    rcases does.entry_origin wf entry with old | ⟨key, owner, rfl | rfl⟩
    · obtain ⟨key, owner, told⟩ := linked.entries k e old
      exact ⟨key, does.entryOf links owner, told⟩
    · exact ⟨key, owner, links⟩
    · exact ⟨key, owner, links⟩

theorem Runs.linked {ok : Act → Prop} (runs : Runs (hal i) ok s s')
    (zero : ∀ j ≤ n, (hal j).isLocalAddr 0 = false) (wf : s.Wf)
    (links : ∀ act, ok act → act.Links n hal i A) (linked : s.Linked n hal i A) :
    s'.Linked n hal i A ∧ ∀ key label, s.Held key label → s'.Held key label := by
  apply (runs.induct wf (P := fun t => t.Linked n hal i A ∧
    ∀ key label, s.Held key label → t.Held key label) ⟨linked, fun _ _ => id⟩ _).2
  intro t t' act allowed wfT held does
  rcases held with ⟨linkedT, kept⟩
  have fine := links act allowed
  exact ⟨does.linked zero wfT linkedT fine, fun key label held => does.held fine (kept _ _ held)⟩

/-! ## Events -/

theorem Act.Benign.links (quiet : act.Benign) : act.Links n hal i A := by
  cases act <;> first | exact trivial | exact absurd quiet id

theorem MessageInfo.Allows.links_path {info : MessageInfo}
    (type : info.commonHdr.msgType = msgPath) (reserved : info.key.session.reserved = 0)
    (upstream : Upstream n hal i info.hop.neighborAddr) (allows : info.Allows env s act) :
    act.Links n hal i A := by
  have not : ∀ {other : UInt8}, info.commonHdr.msgType = other → other ≠ msgPath → False :=
    fun is differs => differs (is.symm.trans type)
  cases allows with
  | benign quiet => exact quiet.links
  | pathHop => exact upstream
  | pathNewPsb => exact ⟨reserved, rfl⟩
  | pathArm => trivial
  | pathNewRsb => trivial
  | pathResv => trivial
  | pathAdvertise => trivial
  | resvNewRsb => trivial
  | resvResv => trivial
  | resvAdvertise => trivial
  | resvArm => trivial
  | resvStore is => exact (not is (by decide)).elim
  | resvSwap is => exact (not is (by decide)).elim
  | resvInstall is => exact (not is (by decide)).elim
  | resvReject => exact rfl
  | mbbDropRsb is => exact (not is (by decide)).elim
  | mbbDropPsb => trivial
  | pathTearRsb is => exact (not is (by decide)).elim
  | pathTearPsb => trivial
  | resvTear is => exact (not is (by decide)).elim

theorem MessageInfo.Allows.links_resv {info : MessageInfo}
    (type : info.commonHdr.msgType = msgResv)
    (told : .holds (i + 1) info.key info.labelValue ∈ A)
    (settled : ∀ b ∈ s.psbs, b.body.isMbbPending = false) (allows : info.Allows env s act) :
    act.Links n hal i A := by
  have not : ∀ {other : UInt8}, info.commonHdr.msgType = other → other ≠ msgResv → False :=
    fun is differs => differs (is.symm.trans type)
  cases allows with
  | benign quiet => exact quiet.links
  | pathHop is => exact (not is (by decide)).elim
  | pathNewPsb is => exact (not is (by decide)).elim
  | pathArm => trivial
  | pathNewRsb => trivial
  | pathResv => trivial
  | pathAdvertise => trivial
  | resvNewRsb => trivial
  | resvResv => trivial
  | resvAdvertise => trivial
  | resvArm => trivial
  | resvStore => exact told
  | resvSwap => exact told
  | resvInstall => exact told
  | resvReject => exact rfl
  | mbbDropRsb _ found completes =>
    -- No PSB of the chain waits for a make-before-break.
    have waits := completes.pending
    rw [settled _ (Table.find_eq_some found).1] at waits
    cases waits
  | mbbDropPsb => trivial
  | pathTearRsb is => exact (not is (by decide)).elim
  | pathTearPsb => trivial
  | resvTear is => exact (not is (by decide)).elim

/-- A published packet fits its sender, and the label it carries is published with it. -/
def Fact.Good (n : Nat) (hal : Nat → Hal) (A : Set Fact) : Fact → Prop
  | .sent i o => o.Fits n hal i fun key label => .holds i key label ∈ A
  | .holds _ _ _ => True

theorem ChainEvent.links (addressed : Addressed n hal) (le : i ≤ n)
    (good : ∀ a ∈ A, a.Good n hal A) (linked : s.Linked n hal i A) {ev : Event}
    (event : ChainEvent hal A i ev) (allows : ev.Allows env s act) : act.Links n hal i A := by
  cases event with
  | originate =>
    cases allows with
    | benign quiet => exact quiet.links
    | initiatePath => exact ⟨rfl, rfl⟩
  | @path j dest bytes published type =>
    cases allows with
    | benign quiet => exact quiet.links
    | recv received allows =>
      obtain ⟨key, psb, ipDest, ifindex, reserved, route, sent⟩ := (good _ published).path type
      obtain ⟨isPath, keyEq, hop, -⟩ := pathOutput_received sent received
      obtain ⟨addr, address, owner⟩ :=
        addressed.own j (Nat.le_of_succ_le le) ipDest ifindex route
      refine allows.links_path isPath (by rw [keyEq]; rfl) ?_
      rw [hop, address]
      exact fun k leK owned => congrArg Nat.succ (owner k leK owned)
  | @resv _ j dest bytes published type owned =>
    cases allows with
    | benign quiet => exact quiet.links
    | recv received allows =>
      obtain ⟨b, rsb, merged, reserved, upstream, told, sent⟩ := (good _ published).resv type
      obtain ⟨isResv, keyEq, -, label⟩ := resvOutput_received sent received
      have nbr : dest = b.body.prevHop.neighborAddr := (Output.packet.inj sent).1
      -- The RESV comes from the next node: this one owns the address it was sent to.
      have next : i + 1 = j := upstream i le (nbr ▸ owned)
      rw [(PathKey.wire_eq_self_iff b.key).mpr reserved] at keyEq
      refine allows.links_resv isResv ?_ linked.settled
      rw [next, keyEq, label]
      exact told
  | psbRefresh =>
    cases allows with
    | benign quiet => exact quiet.links
  | rsbRefresh =>
    cases allows with
    | benign quiet => exact quiet.links
    | rsbRefreshResv => trivial
    | rsbRefreshAdvertise => trivial

end Chain

/-! ## Runs -/

theorem Node.init_linked (n : Nat) (hal : Nat → Hal) (i : Nat) (A : Set Fact)
    (labels : LabelMgr) : (Node.init labels).Linked n hal i A where
  reserved := fun b mem => absurd mem (Table.not_mem_empty b)
  settled := fun b mem => absurd mem (Table.not_mem_empty b)
  upstream := fun b mem => absurd mem (Table.not_mem_empty b)
  fits := fun _ mem => by cases mem
  labelOut := fun r mem => absurd mem (Table.not_mem_empty r)
  entries := fun _ _ entry => by cases entry

theorem Node.Linked.mono {n : Nat} {hal : Nat → Hal} {i : Nat} {A B : Set Fact} {s : Node}
    (more : A ⊆ B) (linked : s.Linked n hal i A) : s.Linked n hal i B where
  reserved := linked.reserved
  settled := linked.settled
  upstream := linked.upstream
  fits := linked.fits
  labelOut := fun r mem label => more (linked.labelOut r mem label)
  entries := by
    intro k e entry
    obtain ⟨key, owner, told⟩ := linked.entries k e entry
    exact ⟨key, owner, more told⟩

/-- The contract of the nodes of a chain. -/
def chainContract {n : Nat} {hal : Nat → Hal} {labels : Nat → LabelMgr}
    (addressed : Addressed n hal) (pools : ∀ i, (labels i).Wf)
    (unused : ∀ i label, ¬ (labels i).InUse label) : (chain n hal labels).Contract where
  Inv := fun i A s => s.Wf ∧ s.ledger.Sound ∧ s.Linked n hal i A
  Good := fun A a => a.Good n hal A
  mono := fun more inv => ⟨inv.1, inv.2.1, inv.2.2.mono more⟩
  init := fun i A => ⟨.init (pools i), Node.init_sound (unused i), Node.init_linked n hal i A _⟩
  publishes := by
    intro i A s published inv a given
    rcases given with ⟨o, logged, rfl⟩ | ⟨key, label, held, rfl⟩
    · exact (inv.2.2.fits o logged).mono fun key label held =>
        published (.inr ⟨key, label, held, rfl⟩)
    · trivial
  grows := by
    intro i A s s' good inv moves
    obtain ⟨wf, sound, linked⟩ := inv
    obtain ⟨le, env, ev, sameHal, event, rfl⟩ := moves
    have runs := @Node.step_runs env (ev.Allows env s) s wf ev fun _ allows => allows
    rw [sameHal] at runs
    obtain ⟨new, out, -⟩ := Node.step_carries wf env ev
    intro a given
    rcases given with ⟨o, logged, rfl⟩ | ⟨key, label, held, rfl⟩
    · exact .inl ⟨o, by rw [out]; exact List.mem_append_left _ logged, rfl⟩
    · exact .inr ⟨key, label, (runs.linked addressed.zero wf
        (fun act => event.links addressed le good linked) linked).2 _ _ held, rfl⟩
  keeps := by
    intro i A s s' good inv moves
    obtain ⟨wf, sound, linked⟩ := inv
    obtain ⟨le, env, ev, sameHal, event, rfl⟩ := moves
    have runs := @Node.step_runs env (ev.Allows env s) s wf ev fun _ allows => allows
    refine ⟨wf.step env ev, runs.sound wf sound, ?_⟩
    rw [sameHal] at runs
    exact (runs.linked addressed.zero wf (fun act => event.links addressed le good linked)
      linked).1

/-- A label that a configuration publishes is held by its node. -/
theorem held_of_holds {n : Nat} {hal : Nat → Hal} {labels : Nat → LabelMgr} {c : Nat → Node}
    {i : Nat} {key : PathKey} {label : UInt32}
    (told : .holds i key label ∈ (chain n hal labels).facts c) : (c i).Held key label := by
  obtain ⟨j, given⟩ := Set.mem_iUnion.mp told
  rcases given with ⟨o, -, sent⟩ | ⟨k, l, held, same⟩
  · cases sent
  · cases same
    exact held

/-- A labelled packet goes from one node to the next by the entry of its label. -/
def Swaps (c : Nat → Node) (p q : Nat × UInt32) : Prop :=
  p.2 ≠ 0 ∧ q.1 = p.1 + 1 ∧ ∃ e, (c p.1).fwd (.label p.2) = some e ∧ q.2 = e.outLabel

/-- In every configuration that a chain reaches: the label a node sends an LSP to is the label of
that LSP at the next node, different LSPs of a node have different labels, a push leads to an LSP
for its destination, and a packet that enters with the label of an LSP stays on it. -/
theorem chain_labels_agree {n : Nat} {hal : Nat → Hal} {min max : Nat → UInt32}
    (low : ∀ i, 1 ≤ min i) (ordered : ∀ i, min i ≤ max i) (high : ∀ i, max i < 1048576)
    (addressed : Addressed n hal) {c : Nat → Node}
    (reach : (chain n hal fun i => labelMgrInit (min i) (max i) true).Reach c) :
    (∀ i, ∀ r ∈ (c i).rsbs, r.body.labelOut ≠ 0 →
      ∃ x ∈ (c (i + 1)).rsbs, x.key = r.key ∧ x.body.labelIn = r.body.labelOut) ∧
    (∀ i, ∀ r ∈ (c i).rsbs, ∀ x ∈ (c i).rsbs, r.key ≠ x.key → r.body.labelIn ≠ 0 →
      r.body.labelIn ≠ x.body.labelIn) ∧
    (∀ i dest e, (c i).fwd (.push dest) = some e →
      ∃ x ∈ (c (i + 1)).rsbs, x.key.session.destAddr = dest ∧ x.body.labelIn = e.outLabel) ∧
    ∀ key i label q, (c i).Held key label → Relation.ReflTransGen (Swaps c) (i, label) q →
      (c q.1).Held key q.2 := by
  have pools := fun i => labelMgrInit_wf (low i) (ordered i) (high i)
  have inv := fun i => (chainContract addressed (fun i => (pools i).1)
    fun i => (pools i).2).inv_of_reach reach i
  refine ⟨fun i r mem label => ?_, fun i r memr x memx differ label same => ?_,
    fun i dest e entry => ?_, fun key i label q held path => ?_⟩
  · obtain ⟨-, -, linked⟩ := inv i
    exact (held_of_holds (linked.labelOut r mem label)).2
  · obtain ⟨-, sound, -⟩ := inv i
    exact differ (congrArg Block.key (Ledger.Sound.rsb_eq sound memr memx label same))
  · obtain ⟨-, -, linked⟩ := inv i
    obtain ⟨key, owner, told⟩ := linked.entries _ e entry
    obtain ⟨-, x, mem, keyX, labelX⟩ := held_of_holds told
    rcases owner with push | ⟨r, -, -, -, here⟩
    · exact ⟨x, mem, by rw [keyX, FwdKey.push.inj push], labelX⟩
    · cases here
  · induction path with
    | refl => exact held
    | @tail p q _ last ih =>
      obtain ⟨pos, next, e, entry, out⟩ := last
      obtain ⟨-, sound, linked⟩ := inv p.1
      obtain ⟨k, owner, told⟩ := linked.entries _ e entry
      obtain ⟨-, r, mem, keyR, labelR⟩ := ih
      rcases owner with push | ⟨x, memx, keyX, posX, here⟩
      · cases push
      · -- The entry is that of the RSB with this label.
        have same := Ledger.Sound.rsb_eq sound memx mem posX
          ((FwdKey.label.inj here).symm.trans labelR.symm)
        rw [next, out, ← keyR, ← same, keyX]
        exact held_of_holds told

/-! ## Three nodes -/

/-- Node `i` has the address `i + 1` and one interface to everywhere. -/
def sampleHal (i : Nat) : Hal where
  isLocalAddr := (· = UInt32.ofNat (i + 1))
  getLocalAddr := fun _ => some (UInt32.ofNat (i + 1))
  getEgressIf := fun _ => some 2

def sampleHop (i : Nat) : Env :=
  { sampleEnv (fun _ => false) 1 with toHal := sampleHal i }

/-- The nodes in the order they act: node 0 originates an LSP to node 2, its PATH goes down the
chain and the RESV comes back. -/
def headNode : Node :=
  (Node.init (labelMgrInit 16 31 true)).step (sampleHop 0) (.initiatePath 1 3 1 none [] false)

def middleNode : Node :=
  (Node.init (labelMgrInit 32 47 true)).step (sampleHop 1) (.recv headNode.lastPacket)

def tailNode : Node :=
  (Node.init (labelMgrInit 48 63 true)).step (sampleHop 2) (.recv middleNode.lastPacket)

def middleNodeUp : Node := middleNode.step (sampleHop 1) (.recv tailNode.lastPacket)

def headNodeUp : Node := headNode.step (sampleHop 0) (.recv middleNodeUp.lastPacket)

def samplePools (i : Nat) : LabelMgr :=
  labelMgrInit (if i = 0 then 16 else if i = 1 then 32 else 48)
    (if i = 0 then 31 else if i = 1 then 47 else 63) true

/-- The configuration when the LSP is up. -/
def chainUp : Nat → Node :=
  let start := fun i => Node.init (samplePools i)
  Function.update (Function.update (Function.update (Function.update (Function.update start 0
    headNode) 1 middleNode) 2 tailNode) 1 middleNodeUp) 0 headNodeUp

theorem sampleHal_addressed : Addressed 2 sampleHal where
  own := by
    intro i le dest ifindex _
    refine ⟨_, rfl, fun j leJ owned => ?_⟩
    have same : UInt32.ofNat (i + 1) = UInt32.ofNat (j + 1) := of_decide_eq_true owned
    have toNat := congrArg UInt32.toNat same
    rw [UInt32.toNat_ofNat', UInt32.toNat_ofNat', Nat.mod_eq_of_lt (by omega),
      Nat.mod_eq_of_lt (by omega)] at toNat
    omega
  zero := by
    intro j le
    apply decide_eq_false
    intro same
    have toNat := congrArg UInt32.toNat same
    rw [UInt32.toNat_ofNat', Nat.mod_eq_of_lt (by omega)] at toNat
    cases toNat

theorem chainUp_reach : (chain 2 sampleHal samplePools).Reach chainUp := by
  have publish : ∀ (c : Nat → Node) (i : Nat) (o : Output), o ∈ (c i).out →
      .sent i o ∈ (chain 2 sampleHal samplePools).facts c :=
    fun c i o logged => Set.mem_iUnion.mpr ⟨i, .inl ⟨o, logged, rfl⟩⟩
  refine .step (.step (.step (.step (.step .init ?_) ?_) ?_) ?_) ?_
  · exact ⟨by decide, sampleHop 0, _, rfl, .originate, rfl⟩
  · refine ⟨by decide, sampleHop 1, .recv headNode.lastPacket, rfl, .path (publish _ 0
      (.packet 3 true headNode.lastPacket) ?_) ?_, rfl⟩
    · decide +kernel
    · decide +kernel
  · refine ⟨by decide, sampleHop 2, .recv middleNode.lastPacket, rfl, .path (publish _ 1
      (.packet 3 true middleNode.lastPacket) ?_) ?_, rfl⟩
    · decide +kernel
    · decide +kernel
  · refine ⟨by decide, sampleHop 1, .recv tailNode.lastPacket, rfl, .resv (publish _ 2
      (.packet 2 false tailNode.lastPacket) ?_) ?_ ?_, ?_⟩
    · decide +kernel
    · decide +kernel
    · decide +kernel
    · rw [Function.update_of_ne (by decide), Function.update_self]
      rfl
  · refine ⟨by decide, sampleHop 0, .recv middleNodeUp.lastPacket, rfl, .resv (publish _ 1
      (.packet 1 false middleNodeUp.lastPacket) ?_) ?_ ?_, ?_⟩
    · decide +kernel
    · decide +kernel
    · decide +kernel
    · rw [Function.update_of_ne (by decide), Function.update_of_ne (by decide),
        Function.update_of_ne (by decide), Function.update_self]
      rfl

/-- The LSP is up at node 0, and node 1 has it under the label node 0 sends to. -/
theorem chain_labels_agree_up :
    ∃ r ∈ headNodeUp.rsbs, r.body.labelOut = 32 ∧
      ∃ x ∈ middleNodeUp.rsbs, x.key = r.key ∧ x.body.labelIn = r.body.labelOut := by
  have labels : headNodeUp.rsbs.blocks.map (·.body.labelOut) = [32] := by decide +kernel
  have listed : (32 : UInt32) ∈ headNodeUp.rsbs.blocks.map (·.body.labelOut) := by
    rw [labels]
    exact List.mem_singleton.mpr rfl
  obtain ⟨r, mem, label⟩ := List.mem_map.mp listed
  have low : ∀ i : Nat, (1 : UInt32) ≤ (if i = 0 then 16 else if i = 1 then 32 else 48) := by
    intro i
    split
    · decide
    · split <;> decide
  have ordered : ∀ i : Nat, (if i = 0 then 16 else if i = 1 then 32 else 48 : UInt32) ≤
      (if i = 0 then 31 else if i = 1 then 47 else 63) := by
    intro i
    split
    · decide
    · split <;> decide
  have high : ∀ i : Nat, (if i = 0 then 31 else if i = 1 then 47 else 63 : UInt32) < 1048576 := by
    intro i
    split
    · decide
    · split <;> decide
  obtain ⟨agree, -⟩ :=
    chain_labels_agree low ordered high sampleHal_addressed chainUp_reach
  have head : chainUp 0 = headNodeUp := by rw [chainUp, Function.update_self]
  have middle : chainUp 1 = middleNodeUp := by
    rw [chainUp, Function.update_of_ne (by decide), Function.update_self]
  have next := agree 0
  rw [Nat.zero_add, head, middle] at next
  refine ⟨r, Table.mem_def.mpr mem, label, next r (Table.mem_def.mpr mem) ?_⟩
  rw [label]
  decide

end Rsvp
