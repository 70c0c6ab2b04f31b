import RsvpTe.ChainSetup
import RsvpTe.Shutdown

/-!
# Tearing down an LSP along a chain

In `openChain` anything may happen: timers expire, operators act at every node, and what a node has
logged arrives at the node after it or at the owner of its destination, in any order, again, or
never.

Whatever has happened so far: when node 0 tears down an LSP that every node has, its PathTear can go
down the chain (`TearRelay`), and nothing of the LSP is left behind (`chain_tears_down`).  `Node.Rid`
says what is gone and that nothing else is.
-/

namespace Rsvp

open Words

variable {env : Env} {s t u : Node} {info : MessageInfo} {key : PathKey} {hal : Hal}

/-! ## One node -/

/-- From `s` to `t` the LSP is gone with its label and the entry for it, and no other has lost or
gained a block. -/
structure Node.Rid (key : PathKey) (s t : Node) : Prop where
  psb : t.rsvpPsbFind key = none
  rsb : t.rsvpRsbFind key = none
  label : ∀ r ∈ s.rsbs, r.key = key → r.body.labelIn ≠ 0 →
    ¬ t.labels.InUse r.body.labelIn ∧ t.fwd (.label r.body.labelIn) = none
  confined : Confined key s t

/-- Where no PSB is left, no RSB is left, and no label of one. -/
theorem Node.Rid.of_confined (sound : s.ledger.Sound) (wf : t.Wf) (sound' : t.ledger.Sound)
    (confined : Confined key s t) (gone : ∀ b ∈ t.psbs, b.key ≠ key) : s.Rid key t := by
  have noRsb : ∀ r ∈ t.rsbs, r.key ≠ key := by
    intro r mem here
    obtain ⟨b, memb, keyB, -⟩ := wf.owned r mem
    exact gone b memb (keyB.trans here)
  refine ⟨Table.find_eq_none.mpr gone, Table.find_eq_none.mpr noRsb, ?_, confined⟩
  intro r mem here pos
  -- Who holds the label now held it before, and so is `r`.
  have free : ¬ ∃ a, t.ledger.holds r.body.labelIn a := by
    rintro ⟨a, -, x, memx, -, label⟩
    have other := noRsb x memx
    have old := (confined.rsbs x other).mp memx
    exact other (Ledger.Sound.rsb_eq sound mem old pos label.symm ▸ here)
  exact ⟨fun used => free ((sound'.taken_iff _).mp used),
    by_contra fun entry => free (sound'.backed _ ⟨pos, entry⟩)⟩

theorem Node.Rid.bsbRemove (rid : s.Rid key t) : s.Rid key (bsbRemove t key) := by
  have confined := rid.confined.trans (bsbRemove_confined t key)
  unfold Rsvp.bsbRemove at confined ⊢
  split
  · exact rid
  · rename_i b found
    rw [found] at confined
    exact ⟨rid.psb, rid.rsb, rid.label, confined⟩

theorem bsbRemove_find (keyed : t.bsbs.Keyed) : (bsbRemove t key).rsvpBsbFind key = none := by
  unfold bsbRemove
  split
  · assumption
  · rename_i b found
    obtain ⟨mem, rfl⟩ := Table.find_eq_some found
    exact (keyed.find_unlink_eq_none mem mem).mpr rfl

/-- What was logged from `s` to `t`. -/
def Node.logged (s t : Node) : List Output := t.out.drop s.out.length

/-- From `s` to `t` one PathTear has left, through a route, and it is of the LSP. -/
def Node.SendsTear (s t : Node) (hal : Hal) (key : PathKey) : Prop :=
  ∃ b ipDest ifindex, b.key = key ∧ hal.getEgressIf ipDest = some ifindex ∧
    (s.logged t).filter Output.isPathTear = [pathTearOutput hal b ipDest ifindex]

theorem rsvpPsbCleanup_rids (wf : s.Wf) (sound : s.ledger.Sound) {b : Psb} (mem : b ∈ s.psbs) :
    (rsvpPsbCleanup env s b.addr true).Wf ∧ s.Rid b.key (rsvpPsbCleanup env s b.addr true) ∧
      (env.isLocalAddr b.key.session.destAddr = false →
        (∀ addr, env.getEgressIf addr ≠ none) →
        s.SendsTear (rsvpPsbCleanup env s b.addr true) env.toHal b.key) := by
  have runs := @rsvpPsbCleanup_runs env (fun _ => True) s (fun _ _ => trivial) wf b mem
    (fun _ => trivial) trivial true
  obtain ⟨psbs, sent, out, tears, -⟩ := @rsvpPsbCleanup_drops env s wf b mem
  refine ⟨runs.wf wf, .of_confined sound (runs.wf wf) (runs.sound wf sound)
    (rsvpPsbCleanup_confined wf mem true) fun c memc => ?_, fun transit routes => ?_⟩
  · rw [psbs] at memc
    obtain ⟨old, apart⟩ := Table.mem_unlink.mp memc
    exact fun here => apart (congrArg Block.addr (wf.psbKeyed c old b mem here))
  · obtain ⟨ifindex, route⟩ := Option.ne_none_iff_exists'.mp
      (routes ((b.body.ero.popLocal env.toHal).ipDest b.key))
    have due : pathTearOf env b = some (pathTearOutput env.toHal b
        ((b.body.ero.popLocal env.toHal).ipDest b.key) ifindex) := by
      rw [pathTearOf, transit, if_neg Bool.false_ne_true]
      dsimp only
      rw [route, Option.map_some]
    rw [due, Option.toList_some] at tears
    refine ⟨b, _, ifindex, rfl, route, ?_⟩
    rw [Node.logged, out, List.drop_left]
    exact tears

theorem handlePathTear_rids (wf : s.Wf) (sound : s.ledger.Sound) {b : Psb}
    (found : s.rsvpPsbFind info.key = some b) :
    s.Rid info.key (handlePathTear env s info) ∧
      (handlePathTear env s info).rsvpBsbFind info.key = none ∧
      (env.isLocalAddr info.key.session.destAddr = false →
        (∀ addr, env.getEgressIf addr ≠ none) →
        s.SendsTear (handlePathTear env s info) env.toHal info.key) := by
  obtain ⟨mem, keyB⟩ := Table.find_eq_some found
  obtain ⟨wf', rid, sends⟩ := @rsvpPsbCleanup_rids env s wf sound b mem
  rw [keyB] at rid sends
  rw [handlePathTear, found]
  dsimp only
  refine ⟨rid.bsbRemove, bsbRemove_find wf'.bsbKeyed, fun transit routes => ?_⟩
  obtain ⟨c, ipDest, ifindex, keyC, route, tears⟩ := sends transit routes
  refine ⟨c, ipDest, ifindex, keyC, route, ?_⟩
  unfold bsbRemove
  split <;> exact tears

/-- A logged PathTear is received, unless its source is local. -/
theorem pathTearOutput_receives {b : Psb} {ipDest dest : InAddr} {ifindex : UInt32} {useRao : Bool}
    {bytes : Bytes} (sent : Output.packet dest useRao bytes = pathTearOutput hal b ipDest ifindex)
    (foreign : env.isLocalAddr (ownAddr hal b.key ifindex) = false) :
    ∃ info, Receives env bytes info ∧ info.commonHdr.msgType = msgPathTear ∧
      info.key = b.key.wire := by
  cases sent
  obtain ⟨info, parsed, type, keyEq⟩ := parse_pathTearMessage b.key b.body
    (ownAddr hal b.key ifindex) ifindex (ownAddr hal b.key ifindex) ipDest true
  obtain ⟨fits, -⟩ := short_calls_fit b.key .zero ⟨0, 0, 0, 0⟩ none (ownAddr hal b.key ifindex)
    ifindex
  have whole := take_rsvpPacket_built (ownAddr hal b.key ifindex) ipDest msgPathTear
    (forwardTtl b.body.ttl) fits (by decide) true
  rw [← pathTearMessage_eq] at whole
  rw [← whole] at parsed
  refine ⟨info, ⟨fun loops => ?_, parsed⟩, type, keyEq⟩
  have source : u32At (rsvpPacket (ownAddr hal b.key ifindex) ipDest
      (pathTearMessage b.key b.body (ownAddr hal b.key ifindex) ifindex) true) 12 =
        ownAddr hal b.key ifindex := u32At_ipHeader_src ..
  have own : env.isLocalAddr (u32At ((rsvpPacket (ownAddr hal b.key ifindex) ipDest
      (pathTearMessage b.key b.body (ownAddr hal b.key ifindex) ifindex) true).take
        maxRsvpPacketSize) 12) = true := loops.2
  rw [whole, source] at own
  cases foreign.symm.trans own

/-! ## The chain -/

/-- The events of node `i` of an open chain: packets that were logged for it, and everything else. -/
inductive OpenEvent (hal : Nat → Hal) (A : Set Fact) : Nat → Event → Prop
  | along {i : Nat} {dest : InAddr} {bytes : Bytes} : .sent i (.packet dest true bytes) ∈ A →
    OpenEvent hal A (i + 1) (.recv bytes)
  | back {i j : Nat} {dest : InAddr} {bytes : Bytes} : .sent j (.packet dest false bytes) ∈ A →
    (hal i).isLocalAddr dest = true → OpenEvent hal A i (.recv bytes)
  | own {i : Nat} {ev : Event} : (∀ bytes, ev ≠ .recv bytes) → OpenEvent hal A i ev

/-- Nodes `0 .. n` with the HALs `hal` and the label pools `labels`. -/
def openChain (n : Nat) (hal : Nat → Hal) (labels : Nat → LabelMgr) : Network Nat Node Fact where
  init := fun i => Node.init (labels i)
  step := fun i A s s' => i ≤ n ∧ ∃ env ev, env.toHal = hal i ∧ OpenEvent hal A i ev ∧
    s' = s.step env ev
  gives := fun i s => {a | ∃ o ∈ s.out, a = .sent i o}

section Chain

variable {n k : Nat} {hal : Nat → Hal} {labels : Nat → LabelMgr} {c d : Nat → Node}
  {src dest : InAddr}

theorem openChain_reachable (reach : (openChain n hal labels).Reach c) (i : Nat) :
    Reachable (labels i) (c i) := by
  induction reach generalizing i with
  | init => exact .init
  | @step c j s' _ moved ih =>
    obtain ⟨-, env, ev, -, -, rfl⟩ := moved
    by_cases acted : i = j
    · subst acted
      rw [Function.update_self]
      exact .step env ev (ih i)
    · rw [Function.update_of_ne acted]
      exact ih i

/-- Every run of a chain is a run of the open chain. -/
theorem openChain_of_chain (reach : (chain n hal labels).Reach c) :
    (openChain n hal labels).Reach c := by
  induction reach with
  | init => exact .init
  | @step c j s' _ moved ih =>
    obtain ⟨le, env, ev, here, event, rfl⟩ := moved
    have logged : ∀ {i o}, .sent i o ∈ (chain n hal labels).facts c →
        .sent i o ∈ (openChain n hal labels).facts c := by
      intro i o told
      obtain ⟨k, given⟩ := Set.mem_iUnion.mp told
      rcases given with ⟨o', mem, same⟩ | ⟨key, label, -, other⟩
      · cases same
        exact Set.mem_iUnion.mpr ⟨_, _, mem, rfl⟩
      · cases other
    refine .step ih ⟨le, env, ev, here, ?_, rfl⟩
    cases event with
    | path sent _ => exact .along (logged sent)
    | resv sent _ owner => exact .back (logged sent) owner
    | originate => exact .own fun _ => Event.noConfusion
    | psbRefresh => exact .own fun _ => Event.noConfusion
    | rsbRefresh => exact .own fun _ => Event.noConfusion

/-- The run of a teardown: node 0 tears the LSP down, and then the PathTear that node `k` logs with
this arrives at node `k + 1`, for every `k` up to some node.  Nothing else happens. -/
inductive TearRelay (envs : Nat → Env) (c : Nat → Node) (tunnelId lspId : UInt16) :
    Nat → (Nat → Node) → Prop
  | teardown : TearRelay envs c tunnelId lspId 0
    (Function.update c 0 ((c 0).step (envs 0) (.teardown tunnelId lspId)))
  | pass {k : Nat} {d : Nat → Node} {dest : InAddr} {bytes : Bytes} :
    TearRelay envs c tunnelId lspId k d → Output.packet dest true bytes ∈ (c k).logged (d k) →
    (Output.packet dest true bytes).isPathTear = true →
    TearRelay envs c tunnelId lspId (k + 1)
      (Function.update d (k + 1) ((d (k + 1)).step (envs (k + 1)) (.recv bytes)))

/-- A run of a teardown is a run of the chain. -/
theorem TearRelay.moves {envs : Nat → Env} {tunnelId lspId : UInt16}
    (here : ∀ i, (envs i).toHal = hal i) (relay : TearRelay envs c tunnelId lspId k d) (le : k ≤ n) :
    Relation.ReflTransGen (openChain n hal labels).Moves c d := by
  induction relay with
  | teardown =>
    exact .single ⟨0, _, ⟨le, envs 0, _, here 0, .own fun _ => Event.noConfusion, rfl⟩, rfl⟩
  | @pass k d dest bytes _ logged _ ih =>
    have told : Fact.sent k (.packet dest true bytes) ∈ (openChain n hal labels).facts d :=
      Set.mem_iUnion.mpr ⟨k, _, List.mem_of_mem_drop logged, rfl⟩
    exact .tail (ih (Nat.le_of_succ_le le))
      ⟨k + 1, _, ⟨le, envs (k + 1), _, here (k + 1), .along told, rfl⟩, rfl⟩

/-- The PathTear that node `k` has sent is handled as such by the next one. -/
theorem pathTear_arrives (addressed : Addressed n hal) (lt : k < n)
    (reserved : key.session.reserved = 0) (sends : s.SendsTear t (hal k) key)
    (here : env.toHal = hal (k + 1)) {bytes : Bytes}
    (logged : Output.packet dest true bytes ∈ s.logged t)
    (isTear : (Output.packet dest true bytes).isPathTear = true) :
    ∃ info : MessageInfo, info.key = key ∧
      ∀ u : Node, u.step env (.recv bytes) = handlePathTear env u info := by
  obtain ⟨b, ipDest, ifindex, rfl, route, tears⟩ := sends
  have sent := tears ▸ List.mem_filter.mpr ⟨logged, isTear⟩
  obtain ⟨addr, address, owner⟩ := addressed.own k (Nat.le_of_lt lt) ipDest ifindex route
  have foreign : env.isLocalAddr (ownAddr (hal k) b.key ifindex) = false := by
    rw [ownAddr, address, here]
    refine Bool.eq_false_iff.mpr fun own => ?_
    exact absurd (owner (k + 1) lt own) (Nat.succ_ne_self k)
  obtain ⟨info, received, type, keyEq⟩ :=
    pathTearOutput_receives (List.mem_singleton.mp sent) foreign
  rw [(PathKey.wire_eq_self_iff b.key).mpr reserved] at keyEq
  refine ⟨info, keyEq, fun u => ?_⟩
  rw [received.step_eq, rsvpHandleMessage, type]
  rfl

/-- Since configuration `c` the PathTear has come down to node `k`. -/
structure Torn (n : Nat) (hal : Nat → Hal) (key : PathKey) (c : Nat → Node) (k : Nat)
    (d : Nat → Node) : Prop where
  gone : ∀ i ≤ k, (c i).Rid key (d i) ∧ (0 < i → (d i).rsvpBsbFind key = none)
  rest : ∀ i, k < i → d i = c i
  sends : k < n → (c k).SendsTear (d k) (hal k) key

/-- The PathTear goes on to the next node. -/
theorem Torn.pass (addressed : Addressed n hal) (conducts : Conducts n hal src key.session.destAddr)
    (reserved : key.session.reserved = 0) (lt : k < n) (wf : (c (k + 1)).Wf)
    (sound : (c (k + 1)).ledger.Sound) (up : (c (k + 1)).rsvpPsbFind key ≠ none)
    (here : env.toHal = hal (k + 1)) {bytes : Bytes}
    (logged : Output.packet dest true bytes ∈ (c k).logged (d k))
    (isTear : (Output.packet dest true bytes).isPathTear = true) (torn : Torn n hal key c k d) :
    Torn n hal key c (k + 1)
      (Function.update d (k + 1) ((d (k + 1)).step env (.recv bytes))) := by
  obtain ⟨info, rfl, handled⟩ :=
    pathTear_arrives addressed lt reserved (torn.sends lt) here logged isTear
  obtain ⟨b, found⟩ := Option.ne_none_iff_exists'.mp up
  obtain ⟨rid, unblocked, sends⟩ := @handlePathTear_rids env (c (k + 1)) info wf sound b found
  rw [← handled, ← torn.rest (k + 1) (Nat.lt_succ_self k)] at rid unblocked sends
  refine ⟨fun i le => ?_, fun i above => ?_, fun inner => ?_⟩
  · by_cases last : i = k + 1
    · subst last
      rw [Function.update_self, ← torn.rest (k + 1) (Nat.lt_succ_self k)]
      exact ⟨rid, fun _ => unblocked⟩
    · rw [Function.update_of_ne last]
      exact torn.gone i (by omega)
  · rw [Function.update_of_ne (by omega)]
    exact torn.rest i (by omega)
  · rw [Function.update_self, ← torn.rest (k + 1) (Nat.lt_succ_self k), ← here]
    refine sends ?_ ?_
    · rw [here]
      exact (conducts.inner (k + 1) (Nat.succ_pos k) inner).1
    · rw [here]
      exact conducts.routes (k + 1) inner

/-- Where it has come down to an inner node, that node has logged it. -/
theorem Torn.exists_logged (lt : k < n) (torn : Torn n hal key c k d) :
    ∃ dest bytes, Output.packet dest true bytes ∈ (c k).logged (d k) ∧
      (Output.packet dest true bytes).isPathTear = true := by
  obtain ⟨b, ipDest, ifindex, -, -, tears⟩ := torn.sends lt
  exact ⟨ipDest, _, List.mem_filter.mp (tears ▸ List.mem_singleton.mpr rfl)⟩

end Chain

/-- Whatever an open chain has done before: once node 0 tears down an LSP that every node has, its
PathTear can go down the chain, and where it has done so, all of the LSP is gone.  No node has a PSB
or an RSB of it, its labels are free and lead nowhere, nodes after the first do not block it, and no
block of another LSP is touched. -/
theorem chain_tears_down {n : Nat} {hal : Nat → Hal} {min max : Nat → UInt32} {src dest : InAddr}
    (low : ∀ i, 1 ≤ min i) (ordered : ∀ i, min i ≤ max i) (high : ∀ i, max i < 1048576)
    (addressed : Addressed n hal) (conducts : Conducts n hal src dest) {c : Nat → Node}
    (reach : (openChain n hal fun i => labelMgrInit (min i) (max i) true).Reach c)
    (reserved : key.session.reserved = 0) (leads : key.session.destAddr = dest)
    (transit : (hal 0).isLocalAddr dest = false) (up : ∀ i ≤ n, (c i).rsvpPsbFind key ≠ none)
    {tunnelId lspId : UInt16} {b : Psb} (scanned : (c 0).rsvpPsbFindById tunnelId lspId = some b)
    (keyB : b.key = key) {envs : Nat → Env} (here : ∀ i, (envs i).toHal = hal i) :
    (∃ c', TearRelay envs c tunnelId lspId n c') ∧
      ∀ c', TearRelay envs c tunnelId lspId n c' →
        (openChain n hal fun i => labelMgrInit (min i) (max i) true).Reach c' ∧
        ∀ i ≤ n, (c i).Rid key (c' i) ∧ (0 < i → (c' i).rsvpBsbFind key = none) := by
  subst leads keyB
  have pools := fun i => labelMgrInit_wf (low i) (ordered i) (high i)
  have wf := fun i => (openChain_reachable reach i).wf (pools i).1
  have sound := fun i => (openChain_reachable reach i).sound (pools i).1 (pools i).2
  have mem : b ∈ (c 0).psbs := List.mem_of_find?_eq_some scanned
  have first : Torn n hal b.key c 0
      (Function.update c 0 ((c 0).step (envs 0) (.teardown tunnelId lspId))) := by
    obtain ⟨-, rid, sends⟩ := @rsvpPsbCleanup_rids (envs 0) (c 0) (wf 0) (sound 0) b mem
    have handled : (c 0).step (envs 0) (.teardown tunnelId lspId) =
        rsvpPsbCleanup (envs 0) (c 0) b.addr true := by
      rw [Node.step, rsvpTeardownPath, scanned]
    rw [here] at sends
    refine ⟨fun i le => ?_, fun i above => Function.update_of_ne (by omega) _ _, fun pos => ?_⟩
    · rw [Nat.le_zero.mp le, Function.update_self, handled]
      exact ⟨rid, fun absurd => (Nat.lt_irrefl 0 absurd).elim⟩
    · rw [Function.update_self, handled]
      exact sends transit (conducts.routes 0 pos)
  -- Node by node the PathTear comes down.
  have torn : ∀ {k d}, TearRelay envs c tunnelId lspId k d → k ≤ n → Torn n hal b.key c k d := by
    intro k d relay
    induction relay with
    | teardown => exact fun _ => first
    | @pass k d dest bytes _ logged isTear ih =>
      intro le
      exact (ih (Nat.le_of_succ_le le)).pass addressed conducts reserved le (wf (k + 1))
        (sound (k + 1)) (up (k + 1) le) (here (k + 1)) logged isTear
  have relays : ∀ k ≤ n, ∃ d, TearRelay envs c tunnelId lspId k d := by
    intro k
    induction k with
    | zero => exact fun _ => ⟨_, .teardown⟩
    | succ k ih =>
      intro le
      obtain ⟨d, relay⟩ := ih (Nat.le_of_succ_le le)
      obtain ⟨dest, bytes, logged, isTear⟩ := (torn relay (Nat.le_of_succ_le le)).exists_logged le
      exact ⟨_, .pass relay logged isTear⟩
  exact ⟨relays n (Nat.le_refl n), fun c' relay =>
    ⟨reach.moves (relay.moves here (Nat.le_refl n)), (torn relay (Nat.le_refl n)).gone⟩⟩

/-- The LSP of the three nodes goes again, and with it label 32 at node 1. -/
theorem chain_tears_down_up : ∃ c', TearRelay sampleHop chainUp 1 1 2 c' ∧
    (openChain 2 sampleHal samplePools).Reach c' ∧
    (∀ i ≤ 2, (c' i).rsvpPsbFind (ingressKey 1 3 1 1) = none) ∧
      ¬ (c' 1).labels.InUse 32 ∧ (c' 1).fwd (.label 32) = none := by
  have reach := openChain_of_chain chainUp_reach
  have up : ∀ i < 3, (chainUp i).rsvpPsbFind (ingressKey 1 3 1 1) ≠ none := by
    decide +kernel
  have scanned : ∃ b, (chainUp 0).rsvpPsbFindById 1 1 = some b ∧ b.key = ingressKey 1 3 1 1 := by
    have found : ((chainUp 0).rsvpPsbFindById 1 1).map Block.key = some (ingressKey 1 3 1 1) := by
      decide +kernel
    obtain ⟨b, found, key⟩ := Option.map_eq_some_iff.mp found
    exact ⟨b, found, key⟩
  obtain ⟨b, scanned, keyB⟩ := scanned
  obtain ⟨⟨c', relay⟩, works⟩ := chain_tears_down (fun i => (samplePools_range i).1)
    (fun i => (samplePools_range i).2.1) (fun i => (samplePools_range i).2.2) sampleHal_addressed
    sampleHal_conducts reach rfl rfl (by decide) (fun i le => up i (Nat.lt_succ_of_le le)) scanned
    keyB (fun _ => rfl : ∀ i, (sampleHop i).toHal = sampleHal i)
  obtain ⟨reach', gone⟩ := works c' relay
  have listed : (32 : UInt32) ∈ ((chainUp 1).rsbs.blocks.filter
      fun r => r.key = ingressKey 1 3 1 1).map (·.body.labelIn) := by
    decide +kernel
  obtain ⟨r, held, label⟩ := List.mem_map.mp listed
  obtain ⟨mem, keyR⟩ := List.mem_filter.mp held
  obtain ⟨rid, -⟩ := gone 1 (by decide)
  have free := rid.label r (Table.mem_def.mpr mem) (of_decide_eq_true keyR) (by rw [label]; decide)
  rw [label] at free
  exact ⟨c', relay, reach', fun i le => (gone i le).1.psb, free⟩

end Rsvp
