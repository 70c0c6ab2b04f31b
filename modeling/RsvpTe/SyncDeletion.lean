import RsvpTe.WheelTimer

/-!
# Synchronous deletion (`timer_del_sync`)

Any number of callers add, modify and delete nodes while the tick thread expires them and a fixed
number of workers run their callbacks.  The steps are the sections of the source that run under a
lock; `timer_del_sync` is two, the deletion and the return from its wait for `executing`.

Between the tick that expires it and the start of its callback a node is neither pending nor
executing.  A deletion that finds it there returns at once, and the callback starts afterwards.

There the node is still linked, through the one entry that a bucket would link it by.  The runs are
the careful ones, in which no step puts such a node into a bucket.  So one list never runs into
another, and the lists are those of the memory (`storedSync_run`).
-/

namespace Rsvp

/-! ## Steps -/

/-- Where a worker stands: between two nodes of its batch, in the callback of a node, or after it
and before the section that links the node again. -/
inductive Worker : Type
  | idle
  | calling (n : NodeId)
  | called (n : NodeId)
  deriving DecidableEq, Repr

/-- `batch k` holds what worker `k` has taken and not started, and `waiting c` the node and the
result of the `timer_del_sync` that caller `c` is in. -/
structure SyncThreads : Type where
  wheel : TimerWheel
  workerCount : Nat
  batch : Nat → List NodeId
  worker : Nat → Worker
  executing : NodeId → Bool
  waiting : Nat → Option (NodeId × Int)

inductive SyncStep : Type
  | tick
  | take (worker : Nat)
  | start (worker : Nat)
  | done (worker : Nat)
  | finish (worker : Nat)
  | add (n : NodeId) (expiresMs : UInt32)
  | addPeriodic (n : NodeId) (periodMs : UInt32)
  | mod (n : NodeId) (expiresMs : UInt32)
  | del (n : NodeId)
  | delSync (caller : Nat) (n : NodeId)
  | wake (caller : Nat)
  deriving DecidableEq, Repr

/-- The calls that arm a node. -/
def SyncStep.Arms (n : NodeId) : SyncStep → Prop
  | .add m _ => m = n
  | .addPeriodic m _ => m = n
  | .mod m _ => m = n
  | _ => False

namespace SyncThreads

/-- After `timer_wheel_create`. -/
def init (wheel : TimerWheel) (workerCount : Nat) : SyncThreads where
  wheel := wheel
  workerCount := workerCount
  batch := fun _ => []
  worker := fun _ => .idle
  executing := fun _ => false
  waiting := fun _ => none

/-- The result of `timer_del`. -/
def timerDelResult (s : SyncThreads) (n : NodeId) : Int :=
  if (s.wheel.nodes n).pending then 0 else if s.executing n then 0 else 1

def exec (s : SyncThreads) : SyncStep → Option SyncThreads
  | .tick => some { s with wheel := s.wheel.tick }
  | .take k =>
    if k < s.workerCount ∧ s.worker k = .idle ∧ s.batch k = [] ∧ s.wheel.expiredList ≠ [] then
      some { s with
        wheel := { s.wheel with expiredList := [] }
        batch := Function.update s.batch k s.wheel.expiredList }
    else none
  | .start k =>
    match s.worker k, s.batch k with
    | .idle, n :: rest => some { s with
        batch := Function.update s.batch k rest
        worker := Function.update s.worker k (.calling n)
        executing := Function.update s.executing n true }
    | _, _ => none
  | .done k =>
    match s.worker k with
    | .calling n => some { s with
        worker := Function.update s.worker k (.called n)
        executing := Function.update s.executing n false }
    | _ => none
  | .finish k =>
    match s.worker k with
    | .called n => some { s with
        wheel := s.wheel.finish n
        worker := Function.update s.worker k .idle }
    | _ => none
  | .add n expiresMs => some { s with wheel := s.wheel.timerAdd n expiresMs }
  | .addPeriodic n periodMs => some { s with wheel := s.wheel.timerAddPeriodic n periodMs }
  | .mod n expiresMs => some { s with wheel := s.wheel.timerMod n expiresMs }
  | .del n => some { s with wheel := s.wheel.timerDel n }
  | .delSync c n =>
    if s.waiting c = none then
      some { s with
        wheel := s.wheel.timerDel n
        waiting := Function.update s.waiting c (some (n, s.timerDelResult n)) }
    else none
  | .wake c =>
    match s.waiting c with
    | some (n, _) =>
      if s.executing n then none
      else some { s with waiting := Function.update s.waiting c none }
    | none => none

def run (s : SyncThreads) (steps : List SyncStep) : Option SyncThreads := steps.foldlM exec s

/-- The node waits for its callback, linked in the expired list or in the batch of a worker. -/
def Queued (s : SyncThreads) (n : NodeId) : Prop := n ∈ s.wheel.expiredList ∨ ∃ k, n ∈ s.batch k

/-- No queued node is linked in a bucket, neither by a call nor by a worker that is done with a
periodic one. -/
def Careful (s : SyncThreads) : SyncStep → Prop
  | .add n _ => ¬s.Queued n
  | .addPeriodic n periodMs => periodMs ≠ 0 → ¬s.Queued n
  | .mod n _ => ¬s.Queued n
  | .finish k => ∀ n, s.worker k = .called n →
    (s.wheel.nodes n).period > 0 → (s.wheel.nodes n).pending = false → ¬s.Queued n
  | _ => True

def CarefulRun (s : SyncThreads) : List SyncStep → Prop
  | [] => True
  | step :: steps => s.Careful step ∧ ∀ next, s.exec step = some next → next.CarefulRun steps

/-- Some worker is in the callback of the node. -/
def Running (s : SyncThreads) (n : NodeId) : Prop := ∃ k, s.worker k = .calling n

/-- Once caller `c`, which calls `timer_del_sync` on `n` now, has returned, the callback does not
run in any state of any careful run that does not arm the node. -/
def DelSyncFinal (s : SyncThreads) (c : Nat) (n : NodeId) : Prop :=
  ∀ called before after later, s.exec (.delSync c n) = some called →
    called.CarefulRun (before ++ .wake c :: after) →
    (∀ step ∈ before ++ after, ¬step.Arms n) → SyncStep.wake c ∉ before →
    called.run (before ++ .wake c :: after) = some later → ¬later.Running n

/-- The node is not on its way to a callback, and if it is in one, that is the only one and the
flag tells. -/
structure Settled (s : SyncThreads) (n : NodeId) : Prop where
  expired : n ∉ s.wheel.expiredList
  batch : ∀ k, n ∉ s.batch k
  running : ∀ k, s.worker k = .calling n →
    s.executing n = true ∧ ∀ j, s.worker j = .calling n → j = k

end SyncThreads

/-- Interleavings of careful steps, from a new wheel. -/
inductive SyncRun (tickMs : UInt32) (jiffies : UInt64) (workerCount : Nat) : SyncThreads → Prop
  | init {wheel : TimerWheel} :
    timerWheelCreate tickMs jiffies = some wheel → 0 < workerCount →
    SyncRun tickMs jiffies workerCount (.init wheel workerCount)
  | step {s s' : SyncThreads} {step : SyncStep} :
    SyncRun tickMs jiffies workerCount s → s.Careful step → s.exec step = some s' →
    SyncRun tickMs jiffies workerCount s'

/-! ## What a step does to one node -/

namespace TimerWheel

variable {w : TimerWheel} {n m : NodeId} {place : Option Bucket}

theorem period_internalAddTimer (w : TimerWheel) (n m : NodeId) :
    ((w.internalAddTimer m).nodes n).period = (w.nodes n).period := by
  by_cases same : n = m
  · subst same
    change (Function.update w.nodes n _ n).period = _
    rw [Function.update_self]
  · rw [nodes_internalAddTimer_of_ne w same]

/-- A tick changes no period. -/
theorem period_tick (w : TimerWheel) (n : NodeId) :
    (w.tick.nodes n).period = (w.nodes n).period := by
  have folded : ∀ (list : List NodeId) (v : TimerWheel),
      ((list.foldl internalAddTimer v).nodes n).period = (v.nodes n).period := by
    intro list
    induction list with
    | nil => exact fun v => rfl
    | cons m list ih => exact fun v => (ih _).trans (period_internalAddTimer v n m)
  have cascades : ∀ (cs : List Bucket) (v : TimerWheel),
      ((cs.foldl (fun w b => w.cascade b.level b.index) v).nodes n).period =
        (v.nodes n).period := by
    intro cs
    induction cs with
    | nil => exact fun v => rfl
    | cons c cs ih => exact fun v => (ih _).trans (folded _ _)
  have advanced : (w.advance.nodes n).period = (w.nodes n).period := by
    rw [advance_eq]
    exact cascades _ _
  rw [← advanced, tick]
  dsimp only
  split <;> rfl

theorem period_timerDel (w : TimerWheel) (n : NodeId) : ((w.timerDel n).nodes n).period = 0 := by
  rw [timerDel]
  split
  · exact congrArg TimerNode.period (modNode_self _ n _)
  · exact congrArg TimerNode.period (modNode_self _ n _)

/-- A node that is in no bucket and not expired, and does not come back by itself. -/
structure Off (w : TimerWheel) (n : NodeId) : Prop where
  linked : w.At n none
  period : (w.nodes n).period = 0
  expired : n ∉ w.expiredList

theorem Off.relink (off : w.Off n) (node : TimerNode) (other : n ≠ m) : (w.relink m node).Off n where
  linked := off.linked.relink_of_ne node other
  period := by
    rw [nodes_relink_of_ne w node other]
    exact off.period
  expired := off.expired

theorem expiredList_timerDel (w : TimerWheel) (n : NodeId) :
    (w.timerDel n).expiredList = w.expiredList := by
  rw [timerDel]
  split <;> rfl

theorem expiredList_finish (w : TimerWheel) (n : NodeId) :
    (w.finish n).expiredList = w.expiredList := by
  rw [finish]
  split_ifs <;> rfl

theorem Off.timerDel (off : w.Off n) (m : NodeId) : (w.timerDel m).Off n := by
  have expired : n ∉ (w.timerDel m).expiredList := by
    rw [expiredList_timerDel]
    exact off.expired
  by_cases same : n = m
  · subst same
    exact ⟨off.linked.timerDel, period_timerDel w n, expired⟩
  · have op : (WheelOp.del m).node ≠ some n := fun eq => same (Option.some.inj eq).symm
    obtain ⟨linked, -, node⟩ := off.linked.exec_of_ne op (by simp)
    refine ⟨linked, ?_, expired⟩
    rw [← off.period]
    exact congrArg TimerNode.period node

/-- Without a period a node is not linked again after its callback. -/
theorem Off.finish (off : w.Off n) (m : NodeId) : (w.finish m).Off n := by
  have expired : n ∉ (w.finish m).expiredList := by
    rw [expiredList_finish]
    exact off.expired
  by_cases same : n = m
  · subst same
    have pending : (w.nodes n).pending = false := off.linked.pending
    have once : ¬((w.nodes n).period > 0 ∧ (w.nodes n).pending = false) := by
      rw [off.period]
      exact fun repeats => absurd repeats.1 (by decide)
    have stays : w.finish n = w.modNode n fun node => { node with wheel := false } := by
      rw [TimerWheel.finish, if_neg once, if_pos ⟨off.period, pending⟩]
    rw [stays] at expired ⊢
    refine ⟨⟨off.linked.count, ?_⟩, ?_, expired⟩
    · rw [modNode_self]
      exact pending
    · rw [modNode_self]
      exact off.period
  · refine ⟨off.linked.finish_of_ne same, ?_, expired⟩
    rw [nodes_finish_of_ne w same]
    exact off.period

theorem Off.tick (off : w.Off n) : w.tick.Off n := by
  obtain ⟨count, linked, -, -⟩ := off.linked.tick
  rw [Option.map_none, if_neg (by simp)] at count
  refine ⟨linked, (period_tick w n).trans off.period, ?_⟩
  intro mem
  rcases List.mem_append.mp mem with now | before
  · exact absurd (List.count_pos_iff.mpr now) (by omega)
  · exact off.expired before

end TimerWheel

namespace SyncThreads

variable {s s' : SyncThreads} {n m : NodeId} {k c : Nat} {step : SyncStep}

/-! ## What a step can do -/

theorem exec_take (exec : s.exec (.take k) = some s') :
    s.worker k = .idle ∧ s.batch k = [] ∧ s' = { s with
      wheel := { s.wheel with expiredList := [] }
      batch := Function.update s.batch k s.wheel.expiredList } := by
  rw [SyncThreads.exec] at exec
  split at exec
  · rename_i ready
    exact ⟨ready.2.1, ready.2.2.1, (Option.some.inj exec).symm⟩
  · cases exec

theorem exec_start (exec : s.exec (.start k) = some s') :
    ∃ n rest, s.worker k = .idle ∧ s.batch k = n :: rest ∧ s' = { s with
      batch := Function.update s.batch k rest
      worker := Function.update s.worker k (.calling n)
      executing := Function.update s.executing n true } := by
  rw [SyncThreads.exec] at exec
  split at exec
  · rename_i n rest idle first
    exact ⟨n, rest, idle, first, (Option.some.inj exec).symm⟩
  · cases exec

theorem exec_done (exec : s.exec (.done k) = some s') :
    ∃ n, s.worker k = .calling n ∧ s' = { s with
      worker := Function.update s.worker k (.called n)
      executing := Function.update s.executing n false } := by
  rw [SyncThreads.exec] at exec
  split at exec
  · rename_i n calling
    exact ⟨n, calling, (Option.some.inj exec).symm⟩
  · cases exec

theorem exec_finish (exec : s.exec (.finish k) = some s') :
    ∃ n, s.worker k = .called n ∧ s' = { s with
      wheel := s.wheel.finish n
      worker := Function.update s.worker k .idle } := by
  rw [SyncThreads.exec] at exec
  split at exec
  · rename_i n called
    exact ⟨n, called, (Option.some.inj exec).symm⟩
  · cases exec

theorem exec_delSync (exec : s.exec (.delSync c n) = some s') :
    s.waiting c = none ∧ s' = { s with
      wheel := s.wheel.timerDel n
      waiting := Function.update s.waiting c (some (n, s.timerDelResult n)) } := by
  rw [SyncThreads.exec] at exec
  split at exec
  · rename_i idle
    exact ⟨idle, (Option.some.inj exec).symm⟩
  · cases exec

theorem exec_wake (exec : s.exec (.wake c) = some s') :
    ∃ n result, s.waiting c = some (n, result) ∧ s.executing n = false ∧
      s' = { s with waiting := Function.update s.waiting c none } := by
  rw [SyncThreads.exec] at exec
  split at exec
  · rename_i n result waits
    split at exec
    · cases exec
    · rename_i stopped
      exact ⟨n, result, waits, Bool.eq_false_iff.mpr stopped, (Option.some.inj exec).symm⟩
  · cases exec

/-- A call waits until it is woken. -/
theorem exec_waiting {call : NodeId × Int} (waits : s.waiting c = some call)
    (other : step ≠ .wake c) (exec : s.exec step = some s') : s'.waiting c = some call := by
  cases step with
  | take k =>
    obtain ⟨-, -, rfl⟩ := exec_take exec
    exact waits
  | start k =>
    obtain ⟨-, -, -, -, rfl⟩ := exec_start exec
    exact waits
  | done k =>
    obtain ⟨-, -, rfl⟩ := exec_done exec
    exact waits
  | finish k =>
    obtain ⟨-, -, rfl⟩ := exec_finish exec
    exact waits
  | delSync d n =>
    obtain ⟨idle, rfl⟩ := exec_delSync exec
    have apart : c ≠ d := by
      intro same
      rw [same, idle] at waits
      cases waits
    exact (Function.update_of_ne apart _ _).trans waits
  | wake d =>
    obtain ⟨-, -, -, -, rfl⟩ := exec_wake exec
    have apart : c ≠ d := fun same => other (same ▸ rfl)
    exact (Function.update_of_ne apart _ _).trans waits
  | tick =>
    cases exec
    exact waits
  | add n ms =>
    cases exec
    exact waits
  | addPeriodic n ms =>
    cases exec
    exact waits
  | mod n ms =>
    cases exec
    exact waits
  | del n =>
    cases exec
    exact waits

/-! ## A deleted node -/

/-- The node is nowhere on its way to a callback and will not get there by itself. -/
structure Deleted (s : SyncThreads) (n : NodeId) : Prop where
  off : s.wheel.Off n
  batch : ∀ k, n ∉ s.batch k
  running : ∀ k, s.worker k = .calling n →
    s.executing n = true ∧ ∀ j, s.worker j = .calling n → j = k

theorem Deleted.of_wheel (deleted : s.Deleted n) {wheel : TimerWheel} (off : wheel.Off n) :
    ({ s with wheel := wheel } : SyncThreads).Deleted n :=
  ⟨off, deleted.batch, deleted.running⟩

/-- A worker that moves elsewhere starts no callback of the node. -/
theorem calling_of_update {w : Worker} (elsewhere : w ≠ .calling n) {j : Nat}
    (calls : Function.update s.worker k w j = .calling n) : s.worker j = .calling n ∧ j ≠ k := by
  rw [Function.update_apply] at calls
  split at calls
  · exact absurd calls elsewhere
  · rename_i apart
    exact ⟨calls, apart⟩

/-- A node stays deleted while no worker starts its callback and none in it loses the flag. -/
theorem Deleted.of_workers (deleted : s.Deleted n) (off : s'.wheel.Off n)
    (batch : ∀ j, n ∉ s'.batch j)
    (running : ∀ j, s'.worker j = .calling n →
      s.worker j = .calling n ∧ s'.executing n = s.executing n) :
    s'.Deleted n ∧ (¬s.Running n → ¬s'.Running n) := by
  refine ⟨⟨off, batch, ?_⟩, ?_⟩
  · intro j calls
    obtain ⟨was, flag⟩ := running j calls
    obtain ⟨set, only⟩ := deleted.running j was
    exact ⟨flag.trans set, fun i calls' => only i (running i calls').1⟩
  · intro still called
    obtain ⟨j, calls⟩ := called
    exact still ⟨j, (running j calls).1⟩

/-- Steps that do not arm a deleted node neither bring it back nor start its callback. -/
theorem Deleted.exec (deleted : s.Deleted n) (quiet : ¬step.Arms n)
    (exec : s.exec step = some s') :
    s'.Deleted n ∧ (¬s.Running n → ¬s'.Running n) := by
  cases step with
  | tick =>
    cases exec
    exact ⟨deleted.of_wheel deleted.off.tick, id⟩
  | take k =>
    obtain ⟨-, -, rfl⟩ := exec_take exec
    have linked := deleted.off.linked
    refine ⟨⟨⟨⟨linked.count, linked.pending⟩, deleted.off.period, List.not_mem_nil⟩, ?_,
      deleted.running⟩, id⟩
    intro j
    dsimp only
    rw [Function.update_apply]
    split
    · exact deleted.off.expired
    · exact deleted.batch j
  | start k =>
    obtain ⟨m, rest, idle, first, rfl⟩ := exec_start exec
    have batch := deleted.batch k
    rw [first, List.mem_cons, not_or] at batch
    obtain ⟨other, behind⟩ := batch
    refine deleted.of_workers deleted.off ?_ ?_
    · intro j
      dsimp only
      rw [Function.update_apply]
      split
      · exact behind
      · exact deleted.batch j
    · intro j calls
      have elsewhere : Worker.calling m ≠ .calling n := fun eq => other (Worker.calling.inj eq).symm
      exact ⟨(calling_of_update elsewhere calls).1, Function.update_of_ne other _ _⟩
  | done k =>
    obtain ⟨m, calling, rfl⟩ := exec_done exec
    refine deleted.of_workers deleted.off deleted.batch ?_
    intro j calls
    obtain ⟨was, apart⟩ := calling_of_update (fun eq => by cases eq) calls
    -- the worker that clears a flag would be the only one in the callback
    have other : n ≠ m := by
      intro eq
      rw [← eq] at calling
      exact apart ((deleted.running j was).2 k calling).symm
    exact ⟨was, Function.update_of_ne other _ _⟩
  | finish k =>
    obtain ⟨m, called, rfl⟩ := exec_finish exec
    refine deleted.of_workers (deleted.off.finish m) deleted.batch ?_
    intro j calls
    exact ⟨(calling_of_update (fun eq => by cases eq) calls).1, rfl⟩
  | add m ms =>
    cases exec
    have other : n ≠ m := fun same => quiet same.symm
    obtain ⟨node, -, eq⟩ := s.wheel.exec_arm (.inl rfl : WheelOp.add m ms = .add m ms ∨ _)
    rw [TimerWheel.exec] at eq
    rw [eq]
    exact ⟨deleted.of_wheel (deleted.off.relink node other), id⟩
  | addPeriodic m ms =>
    cases exec
    have other : n ≠ m := fun same => quiet same.symm
    rcases s.wheel.timerAddPeriodic_cases m ms with eq | ⟨node, eq⟩
    · rw [eq]
      exact ⟨deleted, id⟩
    · rw [eq]
      exact ⟨deleted.of_wheel (deleted.off.relink node other), id⟩
  | mod m ms =>
    cases exec
    have other : n ≠ m := fun same => quiet same.symm
    obtain ⟨node, -, eq⟩ := s.wheel.exec_arm (.inr rfl : _ ∨ WheelOp.mod m ms = .mod m ms)
    rw [TimerWheel.exec] at eq
    rw [eq]
    exact ⟨deleted.of_wheel (deleted.off.relink node other), id⟩
  | del m =>
    cases exec
    exact ⟨deleted.of_wheel (deleted.off.timerDel m), id⟩
  | delSync d m =>
    obtain ⟨-, rfl⟩ := exec_delSync exec
    exact ⟨⟨deleted.off.timerDel m, deleted.batch, deleted.running⟩, id⟩
  | wake d =>
    obtain ⟨-, -, -, -, rfl⟩ := exec_wake exec
    exact ⟨⟨deleted.off, deleted.batch, deleted.running⟩, id⟩

theorem run_cons {steps : List SyncStep} (ran : s.run (step :: steps) = some s') :
    ∃ t, s.exec step = some t ∧ t.run steps = some s' := by
  rw [run, List.foldlM_cons] at ran
  exact Option.bind_eq_some_iff.mp ran

theorem run_append {front back : List SyncStep} (ran : s.run (front ++ back) = some s') :
    ∃ t, s.run front = some t ∧ t.run back = some s' := by
  rw [run, List.foldlM_append] at ran
  exact Option.bind_eq_some_iff.mp ran

theorem Deleted.run (deleted : s.Deleted n) {steps : List SyncStep}
    (quiet : ∀ step ∈ steps, ¬step.Arms n) (ran : s.run steps = some s') :
    s'.Deleted n ∧ (¬s.Running n → ¬s'.Running n) := by
  induction steps generalizing s with
  | nil =>
    cases ran
    exact ⟨deleted, id⟩
  | cons step steps ih =>
    obtain ⟨t, exec, rest⟩ := run_cons ran
    obtain ⟨kept, still⟩ := deleted.exec (quiet step List.mem_cons_self) exec
    obtain ⟨kept', still'⟩ := ih kept (fun later mem => quiet later (List.mem_cons_of_mem step mem)) rest
    exact ⟨kept', still' ∘ still⟩

theorem run_waiting {call : NodeId × Int} (waits : s.waiting c = some call) {steps : List SyncStep}
    (blocked : SyncStep.wake c ∉ steps) (ran : s.run steps = some s') :
    s'.waiting c = some call := by
  induction steps generalizing s with
  | nil =>
    cases ran
    exact waits
  | cons step steps ih =>
    obtain ⟨t, exec, rest⟩ := run_cons ran
    rw [List.mem_cons, not_or] at blocked
    exact ih (exec_waiting waits (Ne.symm blocked.1) exec) blocked.2 rest

/-- A deletion that finds the node settled is final. -/
theorem Settled.final (settled : s.Settled n) (linked : ∃ place, s.wheel.At n place) (c : Nat) :
    s.DelSyncFinal c n := by
  intro called before after later start _ quiet blocked ran
  obtain ⟨place, linked⟩ := linked
  obtain ⟨-, rfl⟩ := exec_delSync start
  have expired : n ∉ (s.wheel.timerDel n).expiredList := by
    rw [TimerWheel.expiredList_timerDel]
    exact settled.expired
  have off : (s.wheel.timerDel n).Off n :=
    ⟨linked.timerDel, TimerWheel.period_timerDel s.wheel n, expired⟩
  obtain ⟨mid, waited, rest⟩ := run_append ran
  obtain ⟨woken, wakes, rest⟩ := run_cons rest
  have gone : ({ s with
      wheel := s.wheel.timerDel n
      waiting := Function.update s.waiting c (some (n, s.timerDelResult n)) } :
      SyncThreads).Deleted n := ⟨off, settled.batch, settled.running⟩
  have deleted := gone.run (fun step mem => quiet step (List.mem_append_left after mem)) waited
  have waits := run_waiting (Function.update_self c _ s.waiting) blocked waited
  obtain ⟨m, result, waits', stopped, -⟩ := exec_wake wakes
  rw [waits] at waits'
  cases waits'
  have still : ¬mid.Running n := by
    intro called
    obtain ⟨k, calls⟩ := called
    rw [(deleted.1.running k calls).1] at stopped
    cases stopped
  have harmless : ¬(SyncStep.wake c).Arms n := id
  obtain ⟨kept, still'⟩ := deleted.1.exec harmless wakes
  have onward := kept.run (fun step mem => quiet step (List.mem_append_right before mem)) rest
  exact onward.2 (still' still)

/-! ## A queued node -/

end SyncThreads

/-- The steps of the workers, and `timer_del`. -/
def SyncStep.OfWorker : SyncStep → Prop
  | .take _ => True
  | .start _ => True
  | .done _ => True
  | .finish _ => True
  | .del _ => True
  | _ => False

theorem SyncStep.OfWorker.quiet {step : SyncStep} (worker : step.OfWorker) (n : NodeId) :
    ¬step.Arms n := by
  cases step with
  | add m ms => cases worker
  | addPeriodic m ms => cases worker
  | mod m ms => cases worker
  | _ => exact id

namespace SyncThreads

variable {s s' s'' t : SyncThreads} {n m : NodeId} {k c : Nat} {step : SyncStep}

theorem carefulRun_append {front back : List SyncStep} (careful : s.CarefulRun front)
    (ran : s.run front = some s') (rest : s'.CarefulRun back) : s.CarefulRun (front ++ back) := by
  induction front generalizing s with
  | nil =>
    cases ran
    exact rest
  | cons step front ih =>
    obtain ⟨t, exec, ran⟩ := run_cons ran
    refine ⟨careful.1, fun next exec' => ?_⟩
    cases exec.symm.trans exec'
    exact ih (careful.2 t exec) ran

/-- The workers can get carefully from one state to the other. -/
def Leads (s t : SyncThreads) : Prop :=
  ∃ steps : List SyncStep, (∀ step ∈ steps, step.OfWorker) ∧ s.CarefulRun steps ∧
    s.run steps = some t

theorem Leads.refl (s : SyncThreads) : s.Leads s :=
  ⟨[], fun _ mem => absurd mem List.not_mem_nil, trivial, rfl⟩

theorem Leads.cons (exec : s.exec step = some s') (worker : step.OfWorker)
    (careful : s.Careful step) (rest : s'.Leads t) : s.Leads t := by
  obtain ⟨steps, workers, later, ran⟩ := rest
  refine ⟨step :: steps, List.forall_mem_cons.mpr ⟨worker, workers⟩, ⟨careful, ?_⟩, ?_⟩
  · intro next exec'
    cases exec.symm.trans exec'
    exact later
  · rw [SyncThreads.run, List.foldlM_cons, exec]
    exact ran

theorem Leads.trans (first : s.Leads s') (second : s'.Leads t) : s.Leads t := by
  obtain ⟨front, workers, careful, ran⟩ := first
  obtain ⟨back, workers', careful', ran'⟩ := second
  refine ⟨front ++ back, List.forall_mem_append.mpr ⟨workers, workers'⟩,
    carefulRun_append careful ran careful', ?_⟩
  rw [SyncThreads.run, List.foldlM_append, show front.foldlM exec s = some s' from ran]
  exact ran'

/-- A worker gets done with the node it is at.  The node is deleted first, since one with a period
may be queued again. -/
theorem leads_idle (s : SyncThreads) (k : Nat) :
    ∃ t, s.Leads t ∧ t.worker k = .idle ∧ t.batch = s.batch ∧
      t.wheel.expiredList = s.wheel.expiredList ∧ t.workerCount = s.workerCount := by
  have finishes : ∀ (u : SyncThreads) (m : NodeId), u.worker k = .called m →
      ∃ t, u.Leads t ∧ t.worker k = .idle ∧ t.batch = u.batch ∧
        t.wheel.expiredList = u.wheel.expiredList ∧ t.workerCount = u.workerCount := by
    intro u m called
    have finish : ({ u with wheel := u.wheel.timerDel m } : SyncThreads).exec (.finish k) =
        some { u with
          wheel := (u.wheel.timerDel m).finish m
          worker := Function.update u.worker k .idle } := by
      simp only [exec, called]
    have careful : ({ u with wheel := u.wheel.timerDel m } : SyncThreads).Careful (.finish k) := by
      intro m' called' repeats
      cases called.symm.trans called'
      dsimp only at repeats
      rw [TimerWheel.period_timerDel] at repeats
      exact absurd repeats (by decide)
    have deletes : u.exec (.del m) = some { u with wheel := u.wheel.timerDel m } := rfl
    refine ⟨_, .cons deletes trivial trivial (.cons finish trivial careful (.refl _)),
      Function.update_self .., rfl, ?_, rfl⟩
    exact (TimerWheel.expiredList_finish _ m).trans (TimerWheel.expiredList_timerDel _ m)
  cases at_ : s.worker k with
  | idle => exact ⟨s, .refl s, at_, rfl, rfl, rfl⟩
  | called m => exact finishes s m at_
  | calling m =>
    have done : s.exec (.done k) = some { s with
        worker := Function.update s.worker k (.called m)
        executing := Function.update s.executing m false } := by
      simp only [exec, at_]
    obtain ⟨t, leads, rest⟩ := finishes { s with
      worker := Function.update s.worker k (.called m)
      executing := Function.update s.executing m false } m (Function.update_self ..)
    exact ⟨t, .cons done trivial trivial leads, rest⟩

/-- A worker gets to the callback of the first node of its batch. -/
theorem leads_first {rest : List NodeId} (first : s.batch k = m :: rest) :
    ∃ t, s.Leads t ∧ t.worker k = .calling m ∧ t.batch k = rest ∧
      t.wheel.expiredList = s.wheel.expiredList ∧ t.workerCount = s.workerCount := by
  obtain ⟨u, leads, idle, batch, expired, count⟩ := leads_idle s k
  have start : u.exec (.start k) = some { u with
      batch := Function.update u.batch k rest
      worker := Function.update u.worker k (.calling m)
      executing := Function.update u.executing m true } := by
    simp only [exec, idle, batch, first]
  exact ⟨_, leads.trans (.cons start trivial trivial (.refl _)), Function.update_self ..,
    Function.update_self .., expired, count⟩

/-- A worker gets to the callback of every node of its batch. -/
theorem leads_calling (mem : n ∈ s.batch k) : ∃ t, s.Leads t ∧ t.Running n := by
  generalize eq : s.batch k = batch at mem
  induction batch generalizing s with
  | nil => cases mem
  | cons m rest ih =>
    obtain ⟨u, leads, calling, left, -⟩ := leads_first eq
    rcases List.mem_cons.mp mem with rfl | later
    · exact ⟨u, leads, k, calling⟩
    · obtain ⟨t, onward, running⟩ := ih left later
      exact ⟨t, leads.trans onward, running⟩

/-- A worker gets through its batch. -/
theorem leads_drained (s : SyncThreads) (k : Nat) :
    ∃ t, s.Leads t ∧ t.worker k = .idle ∧ t.batch k = [] ∧
      t.wheel.expiredList = s.wheel.expiredList ∧ t.workerCount = s.workerCount := by
  generalize eq : s.batch k = batch
  induction batch generalizing s with
  | nil =>
    obtain ⟨t, leads, idle, batch, rest⟩ := leads_idle s k
    exact ⟨t, leads, idle, batch ▸ eq, rest⟩
  | cons m rest ih =>
    obtain ⟨u, leads, -, left, expired, count⟩ := leads_first eq
    obtain ⟨t, onward, idle, drained, expired', count'⟩ := ih u left
    exact ⟨t, leads.trans onward, idle, drained, expired'.trans expired, count'.trans count⟩

/-- A worker takes the expired nodes and gets to the callback of each. -/
theorem leads_expired (mem : n ∈ s.wheel.expiredList) (workers : 0 < s.workerCount) :
    ∃ t, s.Leads t ∧ t.Running n := by
  obtain ⟨u, leads, idle, drained, expired, count⟩ := leads_drained s 0
  rw [← expired] at mem
  have take : u.exec (.take 0) = some { u with
      wheel := { u.wheel with expiredList := [] }
      batch := Function.update u.batch 0 u.wheel.expiredList } :=
    if_pos ⟨count ▸ workers, idle, drained, List.ne_nil_of_mem mem⟩
  have taken : n ∈ ({ u with
      wheel := { u.wheel with expiredList := [] }
      batch := Function.update u.batch 0 u.wheel.expiredList } : SyncThreads).batch 0 := by
    dsimp only
    rw [Function.update_self]
    exact mem
  obtain ⟨t, onward, running⟩ := leads_calling taken
  exact ⟨t, leads.trans (.cons take trivial trivial onward), running⟩

/-- A callback that runs after the return, by the workers alone, is one too many. -/
theorem DelSyncFinal.not_leads {called mid : SyncThreads} {before : List SyncStep} {result : Int}
    (final : s.DelSyncFinal c n) (start : s.exec (.delSync c n) = some called)
    (workers : ∀ step ∈ before, step.OfWorker) (careful : called.CarefulRun before)
    (ran : called.run before = some mid)
    (waits : mid.waiting c = some (n, result)) (stopped : mid.executing n = false)
    (leads : ({ mid with waiting := Function.update mid.waiting c none } : SyncThreads).Leads t) :
    ¬t.Running n := by
  obtain ⟨after, workers', careful', ran'⟩ := leads
  have wakes : mid.exec (.wake c) =
      some { mid with waiting := Function.update mid.waiting c none } := by
    simp only [exec, waits, stopped, Bool.false_eq_true, if_false]
  have onward : mid.CarefulRun (.wake c :: after) := by
    refine ⟨trivial, fun next exec => ?_⟩
    cases wakes.symm.trans exec
    exact careful'
  refine final called before after t start (carefulRun_append careful ran onward) ?_ ?_ ?_
  · intro step mem
    rcases List.mem_append.mp mem with front | back
    · exact SyncStep.OfWorker.quiet (workers step front) n
    · exact SyncStep.OfWorker.quiet (workers' step back) n
  · exact fun mem => workers _ mem
  · rw [run, List.foldlM_append, show before.foldlM exec called = some mid from ran]
    change ((SyncStep.wake c :: after).foldlM exec mid) = some t
    rw [List.foldlM_cons, wakes]
    exact ran'

/-- A deletion that finds the node unsettled is not final: the workers can make it fail. -/
theorem DelSyncFinal.settled (final : s.DelSyncFinal c n) (idle : s.waiting c = none)
    (flagged : s.executing n = true → s.Running n) (workers : 0 < s.workerCount) : s.Settled n := by
  obtain ⟨called, start⟩ : ∃ called, s.exec (.delSync c n) = some called := ⟨_, if_pos idle⟩
  obtain ⟨-, eq⟩ := exec_delSync start
  have worker : called.worker = s.worker := eq ▸ rfl
  have batch : called.batch = s.batch := eq ▸ rfl
  have executing : called.executing = s.executing := eq ▸ rfl
  have count : called.workerCount = s.workerCount := eq ▸ rfl
  have expired : called.wheel.expiredList = s.wheel.expiredList :=
    eq ▸ s.wheel.expiredList_timerDel n
  have waits : called.waiting c = some (n, s.timerDelResult n) := eq ▸ Function.update_self ..
  have ofWorker : ∀ k, ∀ step ∈ [SyncStep.done k], SyncStep.OfWorker step :=
    fun k => List.forall_mem_singleton.mpr trivial
  have careful : ∀ k, called.CarefulRun [.done k] := fun k => ⟨trivial, fun _ _ => trivial⟩
  -- the worker that the flag speaks of clears it
  have done : ∀ k, s.worker k = .calling n → called.run [.done k] = some { called with
      worker := Function.update called.worker k (.called n)
      executing := Function.update called.executing n false } := by
    intro k calls
    rw [← worker] at calls
    simp only [run, List.foldlM_cons, List.foldlM_nil, exec, calls, Option.bind_eq_bind,
      Option.bind_some, Option.pure_def]
  have wake : ∃ before mid, (∀ step ∈ before, SyncStep.OfWorker step) ∧
      called.CarefulRun before ∧ called.run before = some mid ∧ mid.waiting c = some (n, s.timerDelResult n) ∧
      mid.executing n = false ∧ mid.batch = s.batch ∧
      mid.wheel.expiredList = s.wheel.expiredList ∧ mid.workerCount = s.workerCount := by
    cases flag : s.executing n with
    | false =>
      rw [← executing] at flag
      exact ⟨[], called, fun _ mem => absurd mem List.not_mem_nil, trivial, rfl, waits, flag, batch,
        expired, count⟩
    | true =>
      obtain ⟨k, calls⟩ := flagged flag
      exact ⟨[.done k], _, ofWorker k, careful k, done k calls, waits,
        Function.update_self .., batch, expired, count⟩
  refine ⟨?_, ?_, ?_⟩
  · intro mem
    obtain ⟨before, mid, ofWorkers, careful, ran, waits, stopped, -, expired, count⟩ := wake
    rw [← expired] at mem
    rw [← count] at workers
    obtain ⟨t, leads, running⟩ := leads_expired
      (s := { mid with waiting := Function.update mid.waiting c none }) mem workers
    exact final.not_leads start ofWorkers careful ran waits stopped leads running
  · intro k mem
    obtain ⟨before, mid, ofWorkers, careful, ran, waits, stopped, batch, -⟩ := wake
    rw [← batch] at mem
    obtain ⟨t, leads, running⟩ := leads_calling
      (s := { mid with waiting := Function.update mid.waiting c none }) mem
    exact final.not_leads start ofWorkers careful ran waits stopped leads running
  · intro k calls
    have flag : s.executing n = true := by
      by_contra stopped
      rw [Bool.not_eq_true, ← executing] at stopped
      apply final.not_leads start (fun _ mem => absurd mem List.not_mem_nil) trivial rfl waits
        stopped (.refl _)
      exact ⟨k, worker ▸ calls⟩
    refine ⟨flag, fun j calls' => ?_⟩
    by_contra apart
    apply final.not_leads start (ofWorker k) (careful k) (done k calls) waits
      (Function.update_self ..) (.refl _)
    refine ⟨j, (Function.update_of_ne apart _ _).trans ?_⟩
    rw [worker]
    exact calls'

/-! ## Runs -/

/-- A node is in at most one bucket, whatever the threads do. -/
theorem exists_at_exec (linked : ∃ place, s.wheel.At n place) (exec : s.exec step = some s') :
    ∃ place, s'.wheel.At n place := by
  have relinked : ∀ m node, ∃ place, (s.wheel.relink m node).At n place := by
    intro m node
    obtain ⟨place, linked⟩ := linked
    by_cases same : n = m
    · subst same
      exact ⟨_, (linked.relink node).1⟩
    · exact ⟨place, linked.relink_of_ne node same⟩
  have deleted : ∀ m, ∃ place, (s.wheel.timerDel m).At n place :=
    fun m => TimerWheel.exists_at_exec (.del m) linked
  cases step with
  | tick =>
    cases exec
    exact TimerWheel.exists_at_exec .tick linked
  | take k =>
    obtain ⟨-, -, rfl⟩ := exec_take exec
    obtain ⟨place, linked⟩ := linked
    exact ⟨place, linked.count, linked.pending⟩
  | start k =>
    obtain ⟨-, -, -, -, rfl⟩ := exec_start exec
    exact linked
  | done k =>
    obtain ⟨-, -, rfl⟩ := exec_done exec
    exact linked
  | finish k =>
    obtain ⟨m, -, rfl⟩ := exec_finish exec
    obtain ⟨place, linked⟩ := linked
    by_cases same : n = m
    · subst same
      exact linked.finish
    · exact ⟨place, linked.finish_of_ne same⟩
  | add m ms =>
    cases exec
    exact TimerWheel.exists_at_exec (.add m ms) linked
  | addPeriodic m ms =>
    cases exec
    rcases s.wheel.timerAddPeriodic_cases m ms with eq | ⟨node, eq⟩
    · rw [eq]
      exact linked
    · rw [eq]
      exact relinked m node
  | mod m ms =>
    cases exec
    exact TimerWheel.exists_at_exec (.mod m ms) linked
  | del m =>
    cases exec
    exact deleted m
  | delSync c m =>
    obtain ⟨-, rfl⟩ := exec_delSync exec
    exact deleted m
  | wake c =>
    obtain ⟨-, -, -, -, rfl⟩ := exec_wake exec
    exact linked

/-- A node that is marked as executing is in a callback. -/
theorem flagged_exec (flagged : s.executing n = true → s.Running n) (exec : s.exec step = some s') :
    s'.executing n = true → s'.Running n := by
  cases step with
  | take k =>
    obtain ⟨-, -, rfl⟩ := exec_take exec
    exact flagged
  | start k =>
    obtain ⟨m, rest, idle, -, rfl⟩ := exec_start exec
    intro flag
    by_cases same : n = m
    · subst same
      exact ⟨k, Function.update_self ..⟩
    · dsimp only at flag
      rw [Function.update_of_ne same] at flag
      obtain ⟨j, calls⟩ := flagged flag
      refine ⟨j, (Function.update_of_ne ?_ _ _).trans calls⟩
      intro here
      rw [here, idle] at calls
      cases calls
  | done k =>
    obtain ⟨m, calling, rfl⟩ := exec_done exec
    intro flag
    by_cases same : n = m
    · subst same
      dsimp only at flag
      rw [Function.update_self] at flag
      cases flag
    · dsimp only at flag
      rw [Function.update_of_ne same] at flag
      obtain ⟨j, calls⟩ := flagged flag
      refine ⟨j, (Function.update_of_ne ?_ _ _).trans calls⟩
      intro here
      rw [here, calling] at calls
      exact same (Worker.calling.inj calls).symm
  | finish k =>
    obtain ⟨m, called, rfl⟩ := exec_finish exec
    intro flag
    obtain ⟨j, calls⟩ := flagged flag
    refine ⟨j, (Function.update_of_ne ?_ _ _).trans calls⟩
    intro here
    rw [here, called] at calls
    cases calls
  | delSync c m =>
    obtain ⟨-, rfl⟩ := exec_delSync exec
    exact flagged
  | wake c =>
    obtain ⟨-, -, -, -, rfl⟩ := exec_wake exec
    exact flagged
  | tick =>
    cases exec
    exact flagged
  | add m ms =>
    cases exec
    exact flagged
  | addPeriodic m ms =>
    cases exec
    exact flagged
  | mod m ms =>
    cases exec
    exact flagged
  | del m =>
    cases exec
    exact flagged

theorem exec_workerCount (exec : s.exec step = some s') : s'.workerCount = s.workerCount := by
  cases step with
  | take k =>
    obtain ⟨-, -, rfl⟩ := exec_take exec
    rfl
  | start k =>
    obtain ⟨-, -, -, -, rfl⟩ := exec_start exec
    rfl
  | done k =>
    obtain ⟨-, -, rfl⟩ := exec_done exec
    rfl
  | finish k =>
    obtain ⟨-, -, rfl⟩ := exec_finish exec
    rfl
  | delSync c m =>
    obtain ⟨-, rfl⟩ := exec_delSync exec
    rfl
  | wake c =>
    obtain ⟨-, -, -, -, rfl⟩ := exec_wake exec
    rfl
  | _ =>
    cases exec
    rfl

end SyncThreads

namespace SyncRun

variable {tickMs : UInt32} {jiffies : UInt64} {workerCount : Nat} {s : SyncThreads}

theorem linked (run : SyncRun tickMs jiffies workerCount s) (n : NodeId) :
    ∃ place, s.wheel.At n place := by
  induction run with
  | init created _ => exact ⟨none, (TimerWheel.at_timerWheelCreate created n).1⟩
  | step _ _ exec ih => exact SyncThreads.exists_at_exec ih exec

theorem flagged (run : SyncRun tickMs jiffies workerCount s) (n : NodeId) :
    s.executing n = true → s.Running n := by
  induction run with
  | init _ _ =>
    intro flag
    cases flag
  | step _ _ exec ih => exact SyncThreads.flagged_exec ih exec

theorem workers (run : SyncRun tickMs jiffies workerCount s) : 0 < s.workerCount := by
  induction run with
  | init _ positive => exact positive
  | step _ _ exec ih =>
    rw [SyncThreads.exec_workerCount exec]
    exact ih

end SyncRun

variable {tickMs : UInt32} {jiffies : UInt64} {workerCount : Nat} {s : SyncThreads}

/-- In careful runs a synchronous deletion is final iff it finds the node settled: neither expired
and waiting for its callback, nor in a callback that `executing` does not cover. -/
theorem delSyncFinal_iff (run : SyncRun tickMs jiffies workerCount s) {c : Nat}
    (idle : s.waiting c = none) (n : NodeId) : s.DelSyncFinal c n ↔ s.Settled n := by
  constructor
  · intro final
    exact final.settled idle (run.flagged n) run.workers
  · intro settled
    exact settled.final (run.linked n) c

theorem SyncRun.steps (run : SyncRun tickMs jiffies workerCount s) {steps : List SyncStep}
    {t : SyncThreads} (careful : s.CarefulRun steps) (ran : s.run steps = some t) :
    SyncRun tickMs jiffies workerCount t := by
  induction steps generalizing s with
  | nil =>
    cases ran
    exact run
  | cons step steps ih =>
    obtain ⟨u, exec, rest⟩ := SyncThreads.run_cons ran
    exact ih (run.step careful.1 exec) (careful.2 u exec) rest

theorem SyncThreads.not_queued_init (wheel : TimerWheel) (empty : wheel.expiredList = [])
    (workerCount : Nat) (n : NodeId) : ¬(SyncThreads.init wheel workerCount).Queued n := by
  rintro (expired | ⟨k, taken⟩)
  · exact List.not_mem_nil (empty ▸ expired)
  · cases taken

/-- A periodic node is deleted by another thread while its callback runs. -/
theorem delSyncFinal_iff_running :
    ∃ s, SyncRun 10 0 1 s ∧ s.Running 0 ∧ s.DelSyncFinal 0 0 := by
  have created : SyncRun 10 0 1 _ := .init (rfl : timerWheelCreate 10 0 = _) Nat.one_pos
  have careful : SyncThreads.CarefulRun (.init ⟨0, 10, fun _ => [], [], fun _ => .init⟩ 1)
      [.addPeriodic 0 10, .tick, .take 0, .start 0] :=
    ⟨fun _ => SyncThreads.not_queued_init _ rfl 1 0, fun _ _ =>
      ⟨trivial, fun _ _ => ⟨trivial, fun _ _ => ⟨trivial, fun _ _ => trivial⟩⟩⟩⟩
  have run : SyncRun 10 0 1 _ := created.steps careful rfl
  refine ⟨_, run, ⟨0, rfl⟩, (delSyncFinal_iff run rfl 0).mpr ⟨List.not_mem_nil, ?_, ?_⟩⟩
  · intro k
    cases k with
    | zero => exact List.not_mem_nil
    | succ k => exact List.not_mem_nil
  · intro k calls
    refine ⟨rfl, ?_⟩
    intro j calls'
    cases k with
    | zero =>
      cases j with
      | zero => rfl
      | succ j => cases calls'
    | succ k => cases calls

/-- A node of one tick is deleted after it has expired and before a worker takes it: the call
returns at once, and the callback starts. -/
theorem exists_callback_after_delSync :
    ∃ s called later, SyncRun 10 0 1 s ∧ s.exec (.delSync 0 0) = some called ∧
      called.waiting 0 = some (0, 1) ∧
      called.run [.wake 0, .take 0, .start 0] = some later ∧ later.Running 0 ∧
      ¬s.DelSyncFinal 0 0 := by
  have created : SyncRun 10 0 1 _ := .init (rfl : timerWheelCreate 10 0 = _) Nat.one_pos
  have careful : SyncThreads.CarefulRun (.init ⟨0, 10, fun _ => [], [], fun _ => .init⟩ 1)
      [.add 0 10, .tick] :=
    ⟨SyncThreads.not_queued_init _ rfl 1 0, fun _ _ => ⟨trivial, fun _ _ => trivial⟩⟩
  have run : SyncRun 10 0 1 _ := created.steps careful rfl
  refine ⟨_, _, _, run, rfl, rfl, rfl, ⟨0, rfl⟩, ?_⟩
  intro final
  refine final _ [] [.take 0, .start 0] _ rfl ?_ ?_ List.not_mem_nil rfl ⟨0, rfl⟩
  · exact ⟨trivial, fun _ _ => ⟨trivial, fun _ _ => ⟨trivial, fun _ _ => trivial⟩⟩⟩
  intro step mem
  simp only [List.nil_append, List.mem_cons, List.not_mem_nil, or_false] at mem
  rcases mem with rfl | rfl
  · exact id
  · exact id

end Rsvp
