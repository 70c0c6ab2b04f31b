import RsvpTe.Adjacency

/-!
# PATHs that are not acted on

A PATH is refused when an object is missing, when it is this node's own, and when no route leads
to its next hop.  Only the first of these tests comes before the PSB is written: `Repeats` says
what the PSB must already hold for the other two to change nothing.
-/

namespace Rsvp

open Words

variable {env : Env} {s : Node} {info : MessageInfo}

/-- The PATH is refused: it lacks an object, it is this node's own, or no route leads to the next
hop of the ERO it leaves behind. -/
def PathRejected (env : Env) (s : Node) (info : MessageInfo) : Prop :=
  rsvpValidatePathMessage info (s.rsvpPsbFind info.key) ≠ none ∨
    env.isLocalAddr info.key.session.destAddr = false ∧
      (env.isLocalAddr info.key.sender.sourceAddr = true ∨
        let ero := info.eroOr ((s.rsvpPsbFind info.key).elim .empty (·.body.ero))
        env.getEgressIf ((ero.popLocal env.toHal).ipDest info.key) = none)

/-- The PSB holds all that the PATH would write, `ero` included, and its timers run. -/
structure PsbState.Repeats (env : Env) (info : MessageInfo) (ero : Route) (psb : PsbState) :
    Prop where
  refreshMs : ∀ o, info.objs .timeValues = some o → psb.refreshMs = ntohl (u32At o.data 0)
  ttl : psb.ttl = info.commonHdr.ttl
  ero : psb.ero = ero
  rro : ∀ o, info.objs .rro = some o → psb.rro = .ofBytes o.data
  tspec : ∀ o, info.objs .tspec = some o → psb.tspec = tspecCopyAndNtoh (.ofBytes o.data)
  prio : ∀ o, info.objs .sessAttr = some o →
    psb.setupPrio = u8At o.data 0 ∧ psb.holdingPrio = u8At o.data 1
  frr : info.frrOr psb = (psb.frrMode, psb.frrBandwidth)
  lspName : cString info.lspName ≠ [] → psb.lspName = env.strdup info.lspName
  prevHop : ∀ o, info.objs .hopV4 = some o → psb.prevHop = .ofBytes o.data ∧
    psb.ifindexIn = ntohl (HopIpv4.ofBytes o.data).logicalInterface
  timers : psb.cleanupTimer = true ∧ psb.refreshTimer = true

theorem elim_eq_iff {α β : Type} {x : Option α} {kept : β} {f : α → β} :
    x.elim kept f = kept ↔ ∀ a, x = some a → kept = f a := by
  cases x with
  | none => exact ⟨fun _ _ => (by rintro ⟨⟩), fun _ => rfl⟩
  | some a =>
    constructor
    · intro same b held
      cases held
      exact same.symm
    · exact fun same => (same a rfl).symm

theorem pathUpdate_eq_self_iff (ero : Route) (psb : PsbState) :
    { pathUpdate env info psb with ero := ero } = psb ↔ psb.Repeats env info ero := by
  rw [pathUpdate_eq]
  constructor
  · intro same
    have field : ∀ {α : Type} (f : PsbState → α), f _ = f psb := fun f => congrArg f same
    refine ⟨elim_eq_iff.mp (field (·.refreshMs)), (field (·.ttl)).symm, (field (·.ero)).symm,
      elim_eq_iff.mp (field (·.rro)), elim_eq_iff.mp (field (·.tspec)), fun o held => ?_,
      Prod.ext (field (·.frrMode)) (field (·.frrBandwidth)), fun named => ?_, fun o held => ?_,
      (field (·.cleanupTimer)).symm, (field (·.refreshTimer)).symm⟩
    · exact ⟨elim_eq_iff.mp (field (·.setupPrio)) o held,
        elim_eq_iff.mp (field (·.holdingPrio)) o held⟩
    · have name := field (·.lspName)
      dsimp only at name
      rw [if_neg named] at name
      exact name.symm
    · exact ⟨elim_eq_iff.mp (field (·.prevHop)) o held,
        elim_eq_iff.mp (field (·.ifindexIn)) o held⟩
  · intro repeats
    have name : (if cString info.lspName = [] then psb.lspName else env.strdup info.lspName) =
        psb.lspName := by
      split
      · rfl
      · rename_i named
        exact (repeats.lspName named).symm
    rw [elim_eq_iff.mpr repeats.refreshMs, elim_eq_iff.mpr repeats.rro,
      elim_eq_iff.mpr repeats.tspec, elim_eq_iff.mpr fun o held => (repeats.prio o held).1,
      elim_eq_iff.mpr fun o held => (repeats.prio o held).2, repeats.frr, name,
      elim_eq_iff.mpr fun o held => (repeats.prevHop o held).1,
      elim_eq_iff.mpr fun o held => (repeats.prevHop o held).2, ← repeats.ttl, ← repeats.ero]
    obtain ⟨cleanup, refresh⟩ := repeats.timers
    cases psb
    dsimp only at cleanup refresh
    subst cleanup refresh
    rfl

/-- The ERO that a refused PATH leaves: a hop is popped on the way to the route lookup. -/
def rejectedEro (env : Env) (info : MessageInfo) (kept : Route) : Route :=
  if env.isLocalAddr info.key.sender.sourceAddr then info.eroOr kept
  else (info.eroOr kept).popLocal env.toHal

/-- A PATH that came back is stored and goes no further. -/
theorem pathArrived_own (s : Node) (p : Ptr) (isNew : Bool)
    (transit : env.isLocalAddr info.key.session.destAddr = false)
    (own : env.isLocalAddr info.key.sender.sourceAddr = true) :
    pathArrived env s info p isNew = s.modPsb p (pathUpdate env info) := by
  rw [pathArrived]
  simp only [transit, own, Bool.false_eq_true, if_false, if_true]

/-- What a PATH that is this node's own or has no route does to the PSB it finds. -/
theorem pathArrived_rejected {b : Psb} (found : s.rsvpPsbFind info.key = some b)
    (transit : env.isLocalAddr info.key.session.destAddr = false)
    (refused : env.isLocalAddr info.key.sender.sourceAddr = true ∨
      env.getEgressIf (((info.eroOr b.body.ero).popLocal env.toHal).ipDest info.key) = none) :
    (pathArrived env s info b.addr false).rsbs = s.rsbs ∧
      (pathArrived env s info b.addr false).psbs = s.psbs.modify b.addr fun _ =>
        { pathUpdate env info b.body with ero := rejectedEro env info b.body.ero } := by
  obtain ⟨mem, key⟩ := Table.find_eq_some found
  have updated : (s.modPsb b.addr (pathUpdate env info)).psbs.get b.addr =
      some ⟨b.addr, b.key, pathUpdate env info b.body⟩ :=
    Table.get_of_mem (s.mem_modPsb mem (pathUpdate env info))
  have ero : (pathUpdate env info b.body).ero = info.eroOr b.body.ero := by
    rw [pathUpdate_eq]
  by_cases own : env.isLocalAddr info.key.sender.sourceAddr = true
  · rw [pathArrived_own s b.addr false transit own]
    refine ⟨rfl, Table.modify_congr mem ?_⟩
    rw [rejectedEro, if_pos own, ← ero]
  · have missing := refused.resolve_left own
    rw [← ero, ← key] at missing
    rw [pathArrived]
    simp only [transit, own, Bool.false_eq_true, if_false]
    rw [pathTransit, updated]
    simp only [resolvePathNextHop, missing, Bool.false_eq_true, if_false]
    obtain ⟨sent, eq⟩ := sendPathErr_out env info protoErrRoutingProblem 0
    rw [eq]
    refine ⟨rfl, ?_⟩
    simp only [Node.modPsb, Table.modify_modify]
    refine Table.modify_congr mem ?_
    rw [rejectedEro, if_neg own, ← ero]
    rfl

/-- A PATH that is not acted on leaves the tables as they were iff it is refused before the PSB is
written, or there is no PSB yet and none is kept, or the PSB holds all that the PATH would write. -/
theorem rejected_unchanged_iff (rejected : PathRejected env s info) :
    (handlePathMessage env s info).psbs = s.psbs ∧ (handlePathMessage env s info).rsbs = s.rsbs ↔
      rsvpValidatePathMessage info (s.rsvpPsbFind info.key) ≠ none ∨
      s.rsvpPsbFind info.key = none ∧ (s.rsvpPsbCreate env info.key = none ∨
        env.isLocalAddr info.key.sender.sourceAddr = false) ∨
      ∃ b, s.rsvpPsbFind info.key = some b ∧
        b.body.Repeats env info (rejectedEro env info b.body.ero) := by
  cases invalid : rsvpValidatePathMessage info (s.rsvpPsbFind info.key) with
  | some err =>
    obtain ⟨sent, eq⟩ := sendPathErr_out env info err.1 err.2
    have refused : handlePathMessage env s info = sendPathErr env s info err.1 err.2 := by
      rw [handlePathMessage, invalid]
    rw [refused, eq]
    exact ⟨fun _ => .inl (by rintro ⟨⟩), fun _ => ⟨rfl, rfl⟩⟩
  | none =>
    obtain ⟨transit, refused⟩ := rejected.resolve_left fun some => some invalid
    rw [handlePathMessage, invalid]
    simp only [ne_eq, not_true_eq_false, false_or]
    cases found : s.rsvpPsbFind info.key with
    | some b =>
      obtain ⟨mem, key⟩ := Table.find_eq_some found
      rw [found] at refused
      obtain ⟨rsbs, psbs⟩ := pathArrived_rejected found transit refused
      rw [rsbs, psbs, Table.modify_eq_self_iff mem, pathUpdate_eq_self_iff]
      constructor
      · exact fun both => .inr ⟨b, rfl, both.1⟩
      · intro either
        rcases either with ⟨none, -⟩ | ⟨c, same, repeats⟩
        · cases none
        · cases same
          exact ⟨repeats, rfl⟩
    | none =>
      rw [found] at refused
      have create : s.rsvpPsbCreate env info.key =
        (s.psbs.create rsvpKeyHash env.psbMem info.key .zero).map fun made =>
          (made.1, { s with psbs := made.2 }) := rfl
      cases made : s.psbs.create rsvpKeyHash env.psbMem info.key .zero with
      | none =>
        rw [made] at create
        rw [create]
        exact ⟨fun _ => .inl ⟨rfl, .inl rfl⟩, fun _ => ⟨rfl, rfl⟩⟩
      | some pair =>
        obtain ⟨p, psbs⟩ := pair
        rw [made] at create
        rw [create]
        simp only [Option.map_some]
        by_cases own : env.isLocalAddr info.key.sender.sourceAddr = true
        · -- The new PSB stays in the table.
          rw [pathArrived_own _ p true transit own]
          simp only [Node.modPsb, Table.modify_modify]
          have here := (Table.mem_modify_create made (f := pathUpdate env info ∘ fun b =>
            { b with refreshMs := rsvpRefreshMs })).mpr (.inl rfl)
          constructor
          · intro both
            rw [both.1] at here
            exact absurd rfl ((Table.create_eq_some made).2.1 _ here)
          · intro either
            rcases either with ⟨-, none | foreign⟩ | ⟨b, some, -⟩
            · cases none
            · rw [own] at foreign
              cases foreign
            · cases some
        · have foreign := Bool.eq_false_iff.mpr own
          have missing := refused.resolve_left own
          have undone := pathArrived_unrouted made (f := fun b =>
            { b with refreshMs := rsvpRefreshMs }) rfl transit foreign (by
              rw [resolvePathNextHop, pathUpdate_eq]
              exact missing)
          obtain ⟨sent, eq⟩ := sendPathErr_out env info protoErrRoutingProblem 0
          rw [Node.modPsb, undone, eq]
          exact ⟨fun _ => .inl ⟨trivial, .inr foreign⟩, fun _ => ⟨rfl, rfl⟩⟩

/-- The first PATH of an LSP at a node without a route leaves nothing behind. -/
theorem rejected_unchanged_iff_unrouted :
    ∃ info, rsvpParsePacket (samplePath 0x0300000A 1 5) = .ok info ∧
      (handlePathMessage { sampleEnv (fun _ => false) 1 with getEgressIf := fun _ => none }
        (.init (labelMgrInit 16 31 true)) info).psbs = .empty := by
  obtain ⟨info, parsed, -⟩ := parse_pathMessage (sampleKey 0x0300000A 1) .zero 0x0900000A 5
    0x0900000A 0x0300000A true
  refine ⟨info, parsed, ?_⟩
  have rejected : PathRejected { sampleEnv (fun _ => false) 1 with getEgressIf := fun _ => none }
      (.init (labelMgrInit 16 31 true)) info := .inr ⟨rfl, .inr rfl⟩
  exact ((rejected_unchanged_iff rejected).mpr (.inr (.inl ⟨rfl, .inr rfl⟩))).1

/-- The ingress 10.0.0.9 of a new LSP. -/
def sampleOrigin : Node :=
  (Node.init (labelMgrInit 16 31 true)).step (sampleEnv (· = 0x0900000A) 1)
    (.initiatePath 0x0900000A 0x0300000A 1 none [] false)

/-- Its own PATH comes back through 10.0.0.2: the ingress PSB has a previous hop and a running
cleanup timer. -/
theorem exists_looped_path_stored :
    ∃ info b, Reachable (labelMgrInit 16 31 true) sampleOrigin ∧
      rsvpParsePacket (rsvpPacket 0x0200000A 0x0300000A
        (pathMessage (sampleKey 0x0300000A 1) .zero 0x0200000A 5) true) = .ok info ∧
      PathRejected (sampleEnv (· = 0x0900000A) 1) sampleOrigin info ∧
      b ∈ sampleOrigin.psbs ∧ b.body.isIngress = true ∧ b.body.prevHop.neighborAddr = 0 ∧
      b.body.cleanupTimer = false ∧
      ∃ c ∈ (handlePathMessage (sampleEnv (· = 0x0900000A) 1) sampleOrigin info).psbs,
        c.addr = b.addr ∧ c.body.prevHop.neighborAddr = 0x0200000A ∧
          c.body.cleanupTimer = true := by
  obtain ⟨info, parsed, -, key, hop, valid, -⟩ := parse_pathMessage (sampleKey 0x0300000A 1) .zero
    0x0200000A 5 0x0200000A 0x0300000A true
  have ingress : (sampleOrigin.rsvpPsbFind (sampleKey 0x0300000A 1).wire).any (fun b =>
      b.body.isIngress && b.body.prevHop.neighborAddr = 0 && b.body.cleanupTimer = false) =
        true := by
    decide +kernel
  obtain ⟨b, found, holds⟩ := (Option.any_eq_true _ _).mp ingress
  simp only [Bool.and_eq_true, decide_eq_true_eq] at holds
  obtain ⟨⟨origin, none⟩, idle⟩ := holds
  rw [← key] at found
  obtain ⟨mem, -⟩ := Table.find_eq_some found
  have transit : (sampleEnv (· = 0x0900000A) 1).isLocalAddr info.key.session.destAddr = false := by
    rw [key]
    decide
  have own : (sampleEnv (· = 0x0900000A) 1).isLocalAddr info.key.sender.sourceAddr = true := by
    rw [key]
    decide
  have held : info.objs .hopV4 ≠ Option.none := by
    intro missing
    rw [rsvpValidatePathMessage, if_pos missing] at valid
    cases valid
  have stored : handlePathMessage (sampleEnv (· = 0x0900000A) 1) sampleOrigin info =
      sampleOrigin.modPsb b.addr (pathUpdate (sampleEnv (· = 0x0900000A) 1) info) := by
    rw [handlePathMessage, rsvpValidatePathMessage_refresh valid, found]
    exact pathArrived_own sampleOrigin b.addr false transit own
  refine ⟨info, b, .step _ _ .init, parsed, .inr ⟨transit, .inl own⟩, mem, origin, none, idle,
    ⟨b.addr, b.key, pathUpdate (sampleEnv (· = 0x0900000A) 1) info b.body⟩, ?_, rfl, ?_, ?_⟩
  · rw [stored]
    exact sampleOrigin.mem_modPsb mem _
  · rw [(pathUpdate_hop _ held b.body).1, hop]
  · rw [pathUpdate_eq]

end Rsvp
