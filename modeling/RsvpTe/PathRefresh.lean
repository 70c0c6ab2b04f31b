import RsvpTe.Outcomes

/-!
# Repeated PATHs

A PATH that is handled twice finds, the second time, a PSB that already holds everything it
writes.  `PathSettled` says so for each role of the node, and `pathArrived_settled` that handling
a PATH leads there, as long as the route does not name this node twice in a row.
-/

namespace Rsvp

open Words

variable {env : Env} {s t : Node} {info : MessageInfo}

/-- The tables, the label pool and the forwarding table are the same. -/
structure SameState (s s' : Node) : Prop where
  psbs : s'.psbs = s.psbs
  rsbs : s'.rsbs = s.rsbs
  bsbs : s'.bsbs = s.bsbs
  labels : s'.labels = s.labels
  fwd : s'.fwd = s.fwd

theorem SameState.logged (s : Node) (out : List Output) : SameState s { s with out := out } :=
  ⟨rfl, rfl, rfl, rfl, rfl⟩

/-! ## Routes -/

/-- No two consecutive hops are `addr`. -/
def Plain (addr : InAddr) (hops : List EroSubobj) : Prop :=
  hops.IsChain fun a b => ¬ (a.addr = addr ∧ b.addr = addr)

/-- Of a plain route at most one hop is popped. -/
theorem Route.popLocal_popLocal {hal : Hal} {ero : Route}
    (plain : Plain (hal.localAddrOrZero 0) ero.hops) :
    (ero.popLocal hal).popLocal hal = ero.popLocal hal := by
  obtain ⟨hops, short⟩ := ero
  cases hops with
  | nil => rfl
  | cons first rest =>
    by_cases here : first.addr = hal.localAddrOrZero 0
    · have popped : Route.popLocal hal ⟨first :: rest, short⟩ =
          ⟨rest, Nat.le_of_succ_le short⟩ := if_pos here
      rw [popped]
      cases rest with
      | nil => rfl
      | cons second _ =>
        have apart := List.isChain_cons_cons.mp plain
        exact if_neg fun again => apart.1 ⟨here, again⟩
    · have kept : Route.popLocal hal ⟨first :: rest, short⟩ = ⟨first :: rest, short⟩ :=
        if_neg here
      rw [kept, kept]

theorem MessageInfo.eroOr_eroOr (info : MessageInfo) (kept : Route) :
    info.eroOr (info.eroOr kept) = info.eroOr kept := by
  unfold MessageInfo.eroOr
  cases info.objs .ero <;> rfl

/-- What is left of the ERO is what a second PATH leaves of it. -/
theorem MessageInfo.popLocal_eroOr_popLocal (info : MessageInfo) {hal : Hal} {kept : Route}
    (plain : Plain (hal.localAddrOrZero 0) (info.eroOr kept).hops) :
    (info.eroOr ((info.eroOr kept).popLocal hal)).popLocal hal =
      (info.eroOr kept).popLocal hal := by
  unfold MessageInfo.eroOr at plain ⊢
  cases held : info.objs .ero with
  | none =>
    rw [held] at plain
    exact Route.popLocal_popLocal plain
  | some _ => rfl

/-! ## A PSB that holds its PATH -/

theorem repeats_pathUpdate (env : Env) (info : MessageInfo) (psb : PsbState) :
    (pathUpdate env info psb).Repeats env info (pathUpdate env info psb).ero := by
  rw [pathUpdate_eq]
  refine ⟨?_, rfl, rfl, ?_, ?_, ?_, ?_, ?_, ?_, rfl, rfl⟩
  · intro o held
    simp only [held, Option.elim_some]
  · intro o held
    simp only [held, Option.elim_some]
  · intro o held
    simp only [held, Option.elim_some]
  · intro o held
    simp only [held, Option.elim_some, and_self]
  · unfold MessageInfo.frrOr
    cases info.objs .fastReroute with
    | none => rfl
    | some o =>
      dsimp only
      split_ifs <;> rfl
  · intro named
    exact if_neg named
  · intro o held
    simp only [held, Option.elim_some, and_self]

theorem pathUpdate_of_repeats {psb : PsbState} (repeats : psb.Repeats env info psb.ero) :
    pathUpdate env info psb = { psb with ero := info.eroOr psb.ero } := by
  have same := (pathUpdate_eq_self_iff psb.ero psb).mpr repeats
  have ero : (pathUpdate env info psb).ero = info.eroOr psb.ero := by rw [pathUpdate_eq]
  have back : pathUpdate env info psb =
      { { pathUpdate env info psb with ero := psb.ero } with
        ero := (pathUpdate env info psb).ero } := rfl
  rw [back, same, ero]

/-- The fields that no PATH touches may differ. -/
theorem PsbState.Repeats.spare {psb : PsbState} {ero : Route} (repeats : psb.Repeats env info ero)
    (ero' : Route) (ifindexOut : UInt32) (bypassPsb : Option Ptr) (bypassTunnelId : UInt16)
    (associatedRsb : Option Ptr) :
    PsbState.Repeats env info ero' { psb with
      ero := ero'
      ifindexOut := ifindexOut
      bypassPsb := bypassPsb
      bypassTunnelId := bypassTunnelId
      associatedRsb := associatedRsb } :=
  ⟨repeats.refreshMs, repeats.ttl, rfl, repeats.rro, repeats.tspec, repeats.prio, repeats.frr,
    repeats.lspName, repeats.prevHop, repeats.timers⟩

/-- Block `c` holds what the PATH leaves, and what else the handler does in its role is done. -/
structure PathSettled (env : Env) (info : MessageInfo) (t : Node) (c : Psb) : Prop where
  mem : c ∈ t.psbs
  key : c.key = info.key
  repeats : c.body.Repeats env info c.body.ero
  egress : env.isLocalAddr info.key.session.destAddr = true →
    info.eroOr c.body.ero = c.body.ero ∧
      ∃ r, t.rsvpRsbFind info.key = some r ∧ r.body.refreshMs = c.body.refreshMs
  own : env.isLocalAddr info.key.session.destAddr = false →
    env.isLocalAddr info.key.sender.sourceAddr = true → info.eroOr c.body.ero = c.body.ero
  transit : env.isLocalAddr info.key.session.destAddr = false →
    env.isLocalAddr info.key.sender.sourceAddr = false →
    (info.eroOr c.body.ero).popLocal env.toHal = c.body.ero ∧
      c.body.ero.popLocal env.toHal = c.body.ero ∧
      ∀ ifindex, env.getEgressIf (c.body.ero.ipDest info.key) = some ifindex →
        c.body.ifindexOut = ifindex ∧ rsvpFrrAutoAssociate t c.addr = t

theorem PathSettled.again {c : Psb} (settled : PathSettled env info t c) :
    SameState t (pathArrived env t info c.addr false) := by
  obtain ⟨mem, key, repeats, egress, own, transit⟩ := settled
  have updated := pathUpdate_of_repeats repeats
  have kept : info.eroOr c.body.ero = c.body.ero →
      t.modPsb c.addr (pathUpdate env info) = t := by
    intro same
    have psbs : t.psbs.modify c.addr (pathUpdate env info) = t.psbs := by
      rw [Table.modify_eq_self_iff mem, updated, same]
    rw [Node.modPsb, psbs]
  unfold pathArrived
  dsimp only
  cases isEgress : env.isLocalAddr info.key.session.destAddr with
  | true =>
    obtain ⟨same, r, found, refreshMs⟩ := egress isEgress
    rw [if_pos rfl, kept same]
    unfold pathEgress
    rw [found, Table.get_of_mem mem]
    have rsbs : t.rsbs.modify r.addr (fun x => { x with refreshMs := c.body.refreshMs }) =
        t.rsbs := by
      rw [Table.modify_eq_self_iff (Table.find_eq_some found).1, ← refreshMs]
    dsimp only [Node.modRsb, Option.map_some, Option.getD_some]
    rw [rsbs]
    exact ⟨rfl, rfl, rfl, rfl, rfl⟩
  | false =>
    rw [if_neg Bool.false_ne_true]
    cases isOwn : env.isLocalAddr info.key.sender.sourceAddr with
    | true =>
      rw [if_pos rfl, kept (own isEgress isOwn)]
      exact ⟨rfl, rfl, rfl, rfl, rfl⟩
    | false =>
      rw [if_neg Bool.false_ne_true]
      obtain ⟨left, popped, routed⟩ := transit isEgress isOwn
      have here := t.mem_modPsb mem (pathUpdate env info)
      rw [updated] at here
      cases route : env.getEgressIf (c.body.ero.ipDest info.key) with
      | none =>
        unfold pathTransit
        rw [Table.get_of_mem here]
        dsimp only [resolvePathNextHop]
        rw [left, key, route]
        dsimp only
        rw [if_neg Bool.false_ne_true]
        obtain ⟨sent, eq⟩ := sendPathErr_out env info protoErrRoutingProblem 0
        rw [eq]
        refine ⟨?_, rfl, rfl, rfl, rfl⟩
        dsimp only [Node.modPsb]
        rw [Table.modify_modify, Table.modify_eq_self_iff mem, Function.comp_apply, updated]
      | some ifindex =>
        obtain ⟨out, associated⟩ := routed ifindex route
        obtain ⟨out', result⟩ := @pathTransit_routed env _ info _ here
          (by dsimp only; rw [left, popped]) ifindex (by dsimp only; rw [left, key, route]) false
        rw [result]
        dsimp only [Node.modPsb]
        have psbs : (t.psbs.modify c.addr (pathUpdate env info)).modify c.addr (fun x =>
            { x with
              ero := (info.eroOr c.body.ero).popLocal env.toHal
              ifindexOut := ifindex }) = t.psbs := by
          rw [Table.modify_modify, Table.modify_eq_self_iff mem, Function.comp_apply, updated, left,
            ← out]
        rw [psbs]
        have same := rsvpFrrAutoAssociate_logged t c.addr out'
        rw [associated] at same
        rw [same]
        exact ⟨rfl, rfl, rfl, rfl, rfl⟩

/-! ## Handling a PATH settles it -/

/-- The RSB of a first PATH at the egress. -/
def egressRsbState (p : Ptr) (refreshMs : UInt32) (x : RsbState) : RsbState :=
  { x with associatedPsb := some p, refreshMs := refreshMs, refreshTimer := true }

/-- At the egress the RSB has the refresh period of the PSB. -/
theorem pathEgress_settled (wf : s.Wf) {b : Psb} (mem : b ∈ s.psbs)
    (memory : s.rsbs.find info.key = none →
      s.rsbs.create rsvpKeyHash env.rsbMem info.key .zero ≠ none) :
    ∃ a, { b with body := { b.body with associatedRsb := a } } ∈
        (pathEgress env s info b.addr).psbs ∧
      ∃ r, (pathEgress env s info b.addr).rsvpRsbFind info.key = some r ∧
        r.body.refreshMs = b.body.refreshMs := by
  unfold pathEgress
  rw [Table.get_of_mem mem]
  dsimp only [Option.map_some, Option.getD_some]
  cases found : s.rsvpRsbFind info.key with
  | some r =>
    refine ⟨b.body.associatedRsb, mem, { r with body := { r.body with
      refreshMs := b.body.refreshMs } }, ?_, rfl⟩
    have moved := s.rsbs.find_modify r.addr (fun x => { x with refreshMs := b.body.refreshMs })
      info.key
    dsimp only [Node.rsvpRsbFind, Node.modRsb] at found ⊢
    rw [moved, found, Option.map_some, if_pos rfl]
  | none =>
    obtain ⟨⟨r, rsbs⟩, created⟩ := Option.ne_none_iff_exists'.mp (memory found)
    rw [Node.rsvpRsbCreate, created]
    have fresh : ∀ x ∈ s.rsbs, x.key ≠ info.key := Table.find_eq_none.mp found
    have keyed := wf.rsbKeyed.modify_create fresh created
      (egressRsbState b.addr b.body.refreshMs)
    have memr : (⟨r, info.key, egressRsbState b.addr b.body.refreshMs .zero⟩ : Rsb) ∈
        rsbs.modify r (egressRsbState b.addr b.body.refreshMs) :=
      (Table.mem_modify_create created).mpr (.inl rfl)
    have memb := s.mem_modPsb mem fun x => { x with associatedRsb := some r }
    -- The node when the RESV goes upstream.
    let linked : Node := { s with
      rsbs := rsbs.modify r (egressRsbState b.addr b.body.refreshMs)
      psbs := s.psbs.modify b.addr fun x => { x with associatedRsb := some r } }
    have psb : linked.psbOf (egressRsbState b.addr b.body.refreshMs .zero) =
        some { b with body := { b.body with associatedRsb := some r } } :=
      Table.get_of_mem memb
    rcases @sendResvUpstream_cases env linked wf.labels _ _ memr psb with
      ⟨-, out, sent⟩ | ⟨-, label, labels, out, -, -, sent⟩
    · refine ⟨some r, ?_⟩
      change _ ∈ (sendResvUpstream env linked r).psbs ∧ ∃ x,
        (sendResvUpstream env linked r).rsbs.find info.key = some x ∧ _
      rw [sent]
      exact ⟨memb, _, keyed.find_of_mem memr, rfl⟩
    · refine ⟨some r, ?_⟩
      change _ ∈ (sendResvUpstream env linked r).psbs ∧ ∃ x,
        (sendResvUpstream env linked r).rsbs.find info.key = some x ∧ _
      rw [sent]
      have moved := linked.rsbs.find_modify r (fun x => { x with labelIn := label }) info.key
      rw [keyed.find_of_mem memr, Option.map_some, if_pos rfl] at moved
      exact ⟨memb, _, moved, rfl⟩

/-- Protection that is looked for leaves the rest of the PSB alone. -/
theorem rsvpFrrAutoAssociate_mem {b : Psb} (mem : b ∈ s.psbs) :
    ∃ bypassPsb bypassTunnelId, { b with body := { b.body with
      bypassPsb := bypassPsb
      bypassTunnelId := bypassTunnelId } } ∈ (rsvpFrrAutoAssociate s b.addr).psbs := by
  unfold rsvpFrrAutoAssociate
  rw [Table.get_of_mem mem]
  dsimp only
  split
  · exact ⟨_, _, mem⟩
  · split
    · exact ⟨_, _, mem⟩
    · exact ⟨_, _, s.mem_modPsb mem _⟩

/-- The PATH is in transit and no route leads to its next hop. -/
structure Unrouted (env : Env) (info : MessageInfo) (ero : Route) : Prop where
  transit : env.isLocalAddr info.key.session.destAddr = false
  foreign : env.isLocalAddr info.key.sender.sourceAddr = false
  missing : env.getEgressIf (((info.eroOr ero).popLocal env.toHal).ipDest info.key) = none

theorem pathArrived_settled (wf : s.Wf) {b : Psb} (mem : b ∈ s.psbs) (key : b.key = info.key)
    (held : info.objs .hopV4 ≠ none)
    (plain : Plain (env.localAddrOrZero 0) (info.eroOr b.body.ero).hops)
    (memory : env.isLocalAddr info.key.session.destAddr = true → s.rsbs.find info.key = none →
      s.rsbs.create rsvpKeyHash env.rsbMem info.key .zero ≠ none) {isNew : Bool}
    (routed : isNew = true → ¬ Unrouted env info b.body.ero) :
    ∃ c, PathSettled env info (pathArrived env s info b.addr isNew) c := by
  have here := s.mem_modPsb mem (pathUpdate env info)
  have repeats := repeats_pathUpdate env info b.body
  have ero : (pathUpdate env info b.body).ero = info.eroOr b.body.ero := by rw [pathUpdate_eq]
  have same : info.eroOr (pathUpdate env info b.body).ero = (pathUpdate env info b.body).ero := by
    rw [ero, info.eroOr_eroOr]
  unfold pathArrived
  dsimp only
  cases isEgress : env.isLocalAddr info.key.session.destAddr with
  | true =>
    rw [if_pos rfl]
    have does : Does env.toHal (.hop info.key info.hop) s
      (s.modPsb b.addr (pathUpdate env info)) := pathUpdate_does held mem key
    obtain ⟨a, memc, r, found, refreshMs⟩ := @pathEgress_settled env _ info (does.wf wf) _ here
      (memory isEgress)
    refine ⟨_, memc, key, repeats.spare _ _ _ _ _, fun _ => ⟨same, r, found, refreshMs⟩, ?_, ?_⟩
    · exact fun transit => by cases isEgress.symm.trans transit
    · exact fun transit => by cases isEgress.symm.trans transit
  | false =>
    rw [if_neg Bool.false_ne_true]
    have none : env.isLocalAddr info.key.session.destAddr ≠ true :=
      fun egress => by cases isEgress.symm.trans egress
    cases isOwn : env.isLocalAddr info.key.sender.sourceAddr with
    | true =>
      rw [if_pos rfl]
      refine ⟨_, here, key, repeats, fun egress => absurd egress none, fun _ _ => same, ?_⟩
      exact fun _ foreign => by cases isOwn.symm.trans foreign
    | false =>
      rw [if_neg Bool.false_ne_true]
      have foreign : env.isLocalAddr info.key.sender.sourceAddr ≠ true :=
        fun own => by cases isOwn.symm.trans own
      have popped := Route.popLocal_popLocal plain
      have left := info.popLocal_eroOr_popLocal plain
      cases route : env.getEgressIf (((info.eroOr b.body.ero).popLocal env.toHal).ipDest
          info.key) with
      | none =>
        have old : isNew = false := Bool.eq_false_iff.mpr fun new =>
          routed new ⟨isEgress, isOwn, route⟩
        unfold pathTransit
        rw [Table.get_of_mem here]
        dsimp only [resolvePathNextHop]
        rw [ero, key, route]
        dsimp only
        rw [old, if_neg Bool.false_ne_true]
        obtain ⟨sent, eq⟩ := sendPathErr_out env info protoErrRoutingProblem 0
        rw [eq]
        refine ⟨_, Node.mem_modPsb _ here fun x =>
          { x with ero := (info.eroOr b.body.ero).popLocal env.toHal }, key,
          repeats.spare _ _ _ _ _, fun egress => absurd egress none,
          fun _ own => absurd own foreign, fun _ _ => ⟨left, popped, fun i found => ?_⟩⟩
        cases route.symm.trans found
      | some ifindex =>
        obtain ⟨out, result⟩ := @pathTransit_routed env _ info _ here
          (by dsimp only; rw [ero, popped]) ifindex (by dsimp only; rw [ero, key, route]) isNew
        rw [result]
        have memT := Node.mem_modPsb (s.modPsb b.addr (pathUpdate env info)) here fun x =>
          { x with
            ero := (pathUpdate env info b.body).ero.popLocal env.toHal
            ifindexOut := ifindex }
        obtain ⟨q, w, memc⟩ := @rsvpFrrAutoAssociate_mem { s with psbs := _, out := out } _ memT
        refine ⟨_, memc, key, repeats.spare _ _ _ _ _, fun egress => absurd egress none,
          fun _ own => absurd own foreign, fun _ _ => ?_⟩
        dsimp only
        rw [ero]
        refine ⟨left, popped, fun i found => ⟨?_, rsvpFrrAutoAssociate_again _ _⟩⟩
        exact Option.some.inj (route.symm.trans found)

/-! ## The handler -/

/-- Other memory for new blocks does not matter any more. -/
theorem PathSettled.congr {env' : Env} {c : Psb} (hal : env'.toHal = env.toHal)
    (strdup : env'.strdupOk = env.strdupOk) (settled : PathSettled env info t c) :
    PathSettled env' info t c := by
  obtain ⟨_, _, _, _, _, _⟩ := env
  obtain ⟨_, _, _, _, _, _⟩ := env'
  dsimp only at hal strdup
  subst hal strdup
  obtain ⟨mem, key, repeats, egress, own, transit⟩ := settled
  refine ⟨mem, key, ?_, egress, own, transit⟩
  exact ⟨repeats.refreshMs, repeats.ttl, rfl, repeats.rro, repeats.tspec, repeats.prio,
    repeats.frr, repeats.lspName, repeats.prevHop, repeats.timers⟩

theorem hop_of_valid {existing : Option Psb}
    (valid : rsvpValidatePathMessage info existing = none) : info.objs .hopV4 ≠ none := by
  intro missing
  rw [rsvpValidatePathMessage, if_pos missing] at valid
  cases valid

/-- A PATH that was valid is valid for the PSB it has now. -/
theorem valid_of_valid {existing : Option Psb}
    (valid : rsvpValidatePathMessage info existing = none) (c : Psb) :
    rsvpValidatePathMessage info (some c) = none := by
  unfold rsvpValidatePathMessage at valid ⊢
  split at valid
  · cases valid
  · rename_i hop
    rw [if_neg hop]
    split at valid
    · cases valid
    · rename_i sender
      rw [if_neg sender]
      exact if_neg fun missing => by cases missing.2

theorem handlePathMessage_found {c : Psb} (found : s.rsvpPsbFind info.key = some c)
    (valid : rsvpValidatePathMessage info (some c) = none) :
    handlePathMessage env s info = pathArrived env s info c.addr false := by
  rw [handlePathMessage, found]
  dsimp only
  rw [valid]

/-- A node with a new PSB for the PATH. -/
def Node.withPsb (s : Node) (p : Ptr) (psbs : Table PathKey PsbState) : Node :=
  { s with psbs := psbs.modify p fun b => { b with refreshMs := rsvpRefreshMs } }

theorem handlePathMessage_new (absent : s.rsvpPsbFind info.key = none)
    (valid : rsvpValidatePathMessage info none = none) {p : Ptr} {psbs : Table PathKey PsbState}
    (created : s.psbs.create rsvpKeyHash env.psbMem info.key .zero = some (p, psbs)) :
    handlePathMessage env s info = pathArrived env (s.withPsb p psbs) info p true := by
  rw [handlePathMessage, absent]
  dsimp only
  rw [valid, Node.rsvpPsbCreate, created]
  rfl

/-- The ERO that the PSB of a message holds. -/
def Node.storedEro (s : Node) (key : PathKey) : Route :=
  (s.rsvpPsbFind key).elim .empty (·.body.ero)

theorem handlePathMessage_unrouted (absent : s.rsvpPsbFind info.key = none)
    (unrouted : Unrouted env info .empty) : SameState s (handlePathMessage env s info) := by
  have refused : ∀ errCode errVal, SameState s (sendPathErr env s info errCode errVal) := by
    intro errCode errVal
    obtain ⟨sent, eq⟩ := sendPathErr_out env info errCode errVal
    rw [eq]
    exact .logged s _
  unfold handlePathMessage
  rw [absent]
  dsimp only
  split
  · exact refused _ _
  · cases made : s.rsvpPsbCreate env info.key with
    | none => exact ⟨rfl, rfl, rfl, rfl, rfl⟩
    | some created =>
      obtain ⟨p, t⟩ := created
      obtain ⟨psbs, created, rfl⟩ := Node.rsvpPsbCreate_eq_some made
      have missing : (resolvePathNextHop env.toHal info.key (pathUpdate env info
          { PsbState.zero with refreshMs := rsvpRefreshMs })).2.1 = none := by
        dsimp only [resolvePathNextHop]
        rw [pathUpdate_eq]
        exact unrouted.missing
      have told := pathArrived_unrouted (s := s) created
        (f := fun b => { b with refreshMs := rsvpRefreshMs }) rfl unrouted.transit
        unrouted.foreign missing
      dsimp only [Node.modPsb]
      rw [told]
      exact refused _ _

theorem handlePathMessage_wf (wf : s.Wf) : (handlePathMessage env s info).Wf := by
  have allowed : PathOk (fun _ => True) env s.rsbs s.labels info :=
    ⟨fun _ _ => trivial, trivial, trivial, trivial, trivial, trivial, fun _ => trivial⟩
  exact (handlePathMessage_runs (fun _ _ => trivial) (fun _ => allowed) wf).wf wf

/-- A PATH that is handled again changes nothing. -/
theorem handlePathMessage_again {env' : Env} (hal : env'.toHal = env.toHal)
    (strdup : env'.strdupOk = env.strdupOk) (wf : s.Wf) (accepted : PathAccepted env s info)
    (plain : Plain (env.localAddrOrZero 0) (info.eroOr (s.storedEro info.key)).hops)
    (memory : env.isLocalAddr info.key.session.destAddr = true → s.rsbs.find info.key = none →
      s.rsbs.create rsvpKeyHash env.rsbMem info.key .zero ≠ none) :
    SameState (handlePathMessage env s info)
      (handlePathMessage env' (handlePathMessage env s info) info) := by
  have valid := accepted.valid
  have held := hop_of_valid valid
  have wf' : (handlePathMessage env s info).Wf := handlePathMessage_wf wf
  have again : ∀ c, PathSettled env info (handlePathMessage env s info) c →
      SameState (handlePathMessage env s info)
        (handlePathMessage env' (handlePathMessage env s info) info) := by
    intro c settled
    have found : (handlePathMessage env s info).rsvpPsbFind info.key = some c :=
      settled.key ▸ wf'.psbKeyed.find_of_mem settled.mem
    rw [@handlePathMessage_found env' _ info c found (valid_of_valid valid c)]
    exact (settled.congr hal strdup).again
  cases found : s.rsvpPsbFind info.key with
  | some b =>
    obtain ⟨mem, key⟩ := Table.find_eq_some found
    rw [Node.storedEro, found] at plain
    obtain ⟨c, settled⟩ := @pathArrived_settled env s info wf b mem key held plain memory false
      Bool.noConfusion
    rw [← handlePathMessage_found found (valid_of_valid valid b)] at settled
    exact again c settled
  | none =>
    rw [Node.storedEro, found] at plain
    by_cases unrouted : Unrouted env info .empty
    · have same := handlePathMessage_unrouted found unrouted
      have absent : (handlePathMessage env s info).rsvpPsbFind info.key = none := by
        rw [Node.rsvpPsbFind, same.psbs]
        exact found
      have unrouted' : Unrouted env' info .empty := by
        obtain ⟨transit, foreign, missing⟩ := unrouted
        rw [← hal] at transit foreign missing
        exact ⟨transit, foreign, missing⟩
      exact handlePathMessage_unrouted absent unrouted'
    · obtain ⟨⟨p, t⟩, made⟩ := Option.ne_none_iff_exists'.mp (accepted.memory found)
      obtain ⟨psbs, created, rfl⟩ := Node.rsvpPsbCreate_eq_some made
      have fresh := Table.find_eq_none.mp found
      have does : Does env.toHal (.newPsb info.key false) s _ := .newPsb fresh created
        (f := fun b => { b with refreshMs := rsvpRefreshMs })
        ⟨rfl, rfl, rfl, rfl, fun waits => by cases waits⟩
      have here := (Table.mem_modify_create created
        (f := fun b => { b with refreshMs := rsvpRefreshMs })).mpr (.inl rfl)
      obtain ⟨c, settled⟩ := @pathArrived_settled env _ info (does.wf wf) ⟨p, info.key, _⟩ here rfl
        held plain memory true fun _ => unrouted
      rw [found] at valid
      apply again c
      rw [handlePathMessage_new found valid created]
      exact settled

end Rsvp
