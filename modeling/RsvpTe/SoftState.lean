import Mathlib.Data.List.Chain
import RsvpTe.PsbRules

/-!
# Refreshes are idempotent

Soft state is kept by sending the same PATH and RESV again and again.  Handling such a message a
second time changes no table, no label and no forwarding entry, for every role of the node.  The
one thing a route may not do is name this node twice in a row: each handling pops one such hop.
-/

namespace Rsvp

open Words

variable {env : Env} {s : Node} {info : MessageInfo} {addr : InAddr}

/-! ## Plain routes -/

theorem Plain.popLocal {ero : Route} (plain : Plain addr ero.hops) (hal : Hal) :
    Plain addr (ero.popLocal hal).hops := by
  obtain ⟨hops, short⟩ := ero
  cases hops with
  | nil => exact plain
  | cons first rest =>
    by_cases here : first.addr = hal.localAddrOrZero 0
    · have popped : Route.popLocal hal ⟨first :: rest, short⟩ =
          ⟨rest, Nat.le_of_succ_le short⟩ := if_pos here
      rw [popped]
      exact plain.tail
    · have kept : Route.popLocal hal ⟨first :: rest, short⟩ = ⟨first :: rest, short⟩ :=
        if_neg here
      rw [kept]
      exact plain

theorem Plain.orElse {given : List EroSubobj} {kept : Route} (plain : Plain addr given)
    (plain' : Plain addr kept.hops) : Plain addr (Route.orElse given kept).hops := by
  unfold Route.orElse
  split
  · exact plain'
  · exact List.IsChain.take plain maxHops

/-- The ERO of a message is plain. -/
def MessageInfo.PlainEro (addr : InAddr) (info : MessageInfo) : Prop :=
  ∀ o, info.objs .ero = some o → Plain addr (Route.ofBytes o.data).hops

theorem MessageInfo.PlainEro.eroOr (plain : info.PlainEro addr) {kept : Route}
    (plain' : Plain addr kept.hops) : Plain addr (info.eroOr kept).hops := by
  unfold MessageInfo.eroOr
  cases held : info.objs .ero with
  | none => exact plain'
  | some o => exact plain o held

/-- Every ERO that an event brings, received or configured, is plain. -/
def Event.PlainEro (addr : InAddr) : Event → Prop
  | .recv packet => ∀ info, rsvpParsePacket (packet.take maxRsvpPacketSize) = .ok info →
    info.PlainEro addr
  | .initiatePath _ _ _ _ ero _ => Plain addr ero
  | .initiateBypass _ _ _ _ ero _ => Plain addr ero
  | .mbbStart _ _ _ newEro => Plain addr newEro
  | _ => True

/-- The states of every run in which each ERO received or configured is plain. -/
inductive PlainRun (labels : LabelMgr) (addr : InAddr) : Node → Prop
  | init : PlainRun labels addr (Node.init labels)
  | step {s : Node} (env : Env) (ev : Event) : PlainRun labels addr s → ev.PlainEro addr →
    PlainRun labels addr (s.step env ev)

theorem PlainRun.reachable {labels : LabelMgr} (run : PlainRun labels addr s) :
    Reachable labels s := by
  induction run with
  | init => exact .init
  | step env ev _ _ ih => exact .step env ev ih

theorem plain_rule (addr : InAddr) : PsbRule fun b => Plain addr b.body.ero.hops where
  pop := fun _ hal plain => plain.popLocal hal
  out := fun _ _ plain => plain
  spare := fun _ _ _ plain => plain

theorem Event.PlainEro.admits {ev : Event} (plain : ev.PlainEro addr) :
    ev.Admits (fun b => Plain addr b.body.ero.hops) env s := by
  have empty : Plain addr Route.empty.hops := List.IsChain.nil
  cases ev with
  | recv packet =>
    intro info received
    have ero := plain info received.parsed
    refine ⟨fun _ _ _ _ kept => kept, fun _ kept => kept, fun _ b _ kept => ?_, fun _ _ => empty⟩
    change Plain addr (pathUpdate env info b.body).ero.hops
    rw [pathUpdate_eq]
    exact ero.eroOr kept
  | initiatePath src dest tunnelId lspName ero requestFrr => exact fun _ => plain.orElse empty
  | initiateBypass src dest tunnelId name ero protectedIfindex => exact fun _ => plain.orElse empty
  | frrEnable => exact fun _ _ kept _ _ => kept
  | frrTrigger => exact fun _ _ kept _ => kept
  | frrRevert => exact fun _ _ kept => kept
  | mbbStart tunnelId oldLspId newLspId newEro => exact fun _ _ kept => plain.orElse kept
  | psbRefresh => trivial
  | psbCleanup => trivial
  | rsbRefresh => trivial
  | rsbCleanup => trivial
  | bsbCleanup => trivial
  | teardown => trivial

/-- Stored routes are plain. -/
theorem PlainRun.stored {labels : LabelMgr} (pool : labels.Wf) (run : PlainRun labels addr s) :
    s.AllPsbs fun b => Plain addr b.body.ero.hops := by
  induction run with
  | init => exact fun b mem => absurd mem (Table.not_mem_empty b)
  | step env ev before plain ih =>
    exact Node.step_all (plain_rule addr) (before.reachable.wf pool) plain.admits ih

/-! ## The messages -/

/-- A PATH or a RESV that is not refused as malformed and for which memory is there. -/
inductive RefreshAccepted (env : Env) (s : Node) (info : MessageInfo) : Prop
  | path : info.commonHdr.msgType = msgPath → PathAccepted env s info →
    (env.isLocalAddr info.key.session.destAddr = true → s.rsvpRsbFind info.key = none →
      s.rsvpRsbCreate env info.key ≠ none) → RefreshAccepted env s info
  | resv : info.commonHdr.msgType = msgResv → rsvpValidateResvMessage s info = none →
    (s.rsvpRsbFind info.key = none → s.rsvpRsbCreate env info.key ≠ none) →
    RefreshAccepted env s info

theorem rsvpHandleMessage_path (path : info.commonHdr.msgType = msgPath) (s : Node) :
    rsvpHandleMessage env s info = handlePathMessage env s info := by
  rw [rsvpHandleMessage]
  exact if_pos path

theorem rsvpHandleMessage_resv (resv : info.commonHdr.msgType = msgResv) (s : Node) :
    rsvpHandleMessage env s info = handleResvMessage env s info := by
  have other : info.commonHdr.msgType ≠ msgPath := by
    rw [resv]
    decide
  rw [rsvpHandleMessage]
  exact (if_neg other).trans (if_pos resv)

/-- Handling an accepted PATH or RESV again changes nothing, whatever memory the allocator has by
then. -/
theorem refresh_idempotent {min max : UInt32} (low : 1 ≤ min) (ordered : min ≤ max)
    (high : max < 1048576) {env' : Env} (hal : env'.toHal = env.toHal)
    (strdup : env'.strdupOk = env.strdupOk)
    (run : PlainRun (labelMgrInit min max true) (env.localAddrOrZero 0) s)
    (plain : info.PlainEro (env.localAddrOrZero 0)) (accepted : RefreshAccepted env s info) :
    SameState (rsvpHandleMessage env s info)
      (rsvpHandleMessage env' (rsvpHandleMessage env s info) info) := by
  have pool := (labelMgrInit_wf low ordered high).1
  have wf := run.reachable.wf pool
  cases accepted with
  | path type valid memory =>
    have stored : Plain (env.localAddrOrZero 0) (s.storedEro info.key).hops := by
      unfold Node.storedEro
      cases found : s.rsvpPsbFind info.key with
      | none => exact List.IsChain.nil
      | some b => exact run.stored pool b (Table.find_eq_some found).1
    rw [rsvpHandleMessage_path type, rsvpHandleMessage_path type]
    refine handlePathMessage_again hal strdup wf valid (plain.eroOr stored) fun egress absent => ?_
    intro missing
    apply memory egress absent
    rw [Node.rsvpRsbCreate, missing]
    rfl
  | resv type valid memory =>
    rw [rsvpHandleMessage_resv type, rsvpHandleMessage_resv type]
    exact handleResvMessage_again wf valid memory

/-- The first PATH of an LSP in transit, and the same PATH once more. -/
theorem refresh_idempotent_path :
    ∃ info, rsvpParsePacket (samplePath 0x0300000A 1 5) = .ok info ∧
      SameState
        (rsvpHandleMessage (sampleEnv (fun _ => false) 1) (Node.init (labelMgrInit 16 31 true)) info)
        (rsvpHandleMessage (sampleEnv (fun _ => false) 2)
          (rsvpHandleMessage (sampleEnv (fun _ => false) 1) (Node.init (labelMgrInit 16 31 true))
            info) info) := by
  obtain ⟨info, parsed, type, -, -, valid, -⟩ := parse_pathMessage (sampleKey 0x0300000A 1) .zero
    0x0900000A 5 0x0900000A 0x0300000A true
  have bare : (rsvpParsePacket (samplePath 0x0300000A 1 5)).toOption.any
      (fun info => (info.objs .ero).isNone) = true := by
    decide +kernel
  have parsed' : rsvpParsePacket (samplePath 0x0300000A 1 5) = .ok info := parsed
  rw [parsed'] at bare
  have none := Option.isNone_iff_eq_none.mp bare
  have hal : (sampleEnv (fun _ => false) 2).toHal = (sampleEnv (fun _ => false) 1).toHal := rfl
  have strdup : (sampleEnv (fun _ => false) 2).strdupOk = (sampleEnv (fun _ => false) 1).strdupOk :=
    rfl
  refine ⟨info, parsed', ?_⟩
  refine refresh_idempotent (by decide) (by decide) (by decide) hal strdup .init ?_ ?_
  · intro o held
    rw [none] at held
    cases held
  · exact .path type ⟨valid, fun _ => Option.some_ne_none _⟩ fun _ _ => Option.some_ne_none _

end Rsvp
