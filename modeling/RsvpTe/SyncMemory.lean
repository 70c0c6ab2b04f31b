import RsvpTe.MemoryThreads
import RsvpTe.SyncDeletion
import RsvpTe.WheelRuns

/-!
# Synchronous deletion in memory

The steps of `SyncThreads` on the wheel as it is stored.  A worker in the loop over its `node_list`
keeps the position it is at and the next one, which it has read before the callback.  A step gives no
result if it goes wrong in memory, and the result `none` if its thread is not at it.

On every careful run the stored wheel does not go wrong, and its rings and the loops of the workers
hold the lists of `SyncThreads` (`storedSync_run`).  The node in a callback may be armed then: its
worker has left it behind.
-/

namespace Rsvp

/-! ## Steps -/

structure SyncMemory : Type where
  wheel : WheelMemory
  workerCount : Nat
  cursor : Nat → Option (ListAddr × ListAddr)
  worker : Nat → Worker
  executing : NodeId → Bool
  waiting : Nat → Option (NodeId × Int)

namespace SyncMemory

def init (wheel : WheelMemory) (workerCount : Nat) : SyncMemory where
  wheel := wheel
  workerCount := workerCount
  cursor := fun _ => none
  worker := fun _ => .idle
  executing := fun _ => false
  waiting := fun _ => none

/-- The result of `timer_del`. -/
def timerDelResult (p : SyncMemory) (n : NodeId) : Int :=
  if (p.wheel.nodes n).pending then 0 else if p.executing n then 0 else 1

/-- The wheel and the loops of the workers. -/
def threads (p : SyncMemory) : MemoryThreads :=
  ⟨p.wheel, p.cursor, fun _ => false, fun _ => false, .idle⟩

/-- A section that only works on the wheel. -/
def onWheel (p : SyncMemory) (wheel : Option WheelMemory) : Option (Option SyncMemory) :=
  wheel.map fun wheel => some { p with wheel := wheel }

def exec (p : SyncMemory) : SyncStep → Option (Option SyncMemory)
  | .tick => p.onWheel p.wheel.tick
  | .take k =>
    if k < p.workerCount ∧ p.worker k = .idle ∧ p.cursor k = none ∧
        listEmpty p.wheel.links .expiredList = false then do
      let t ← p.threads.take k
      return some { p with wheel := t.wheel, cursor := t.cursor }
    else some none
  | .start k =>
    match p.worker k, p.cursor k with
    | .idle, some (pos, _) => do
      let n ← listEntry pos
      return some { p with
        worker := Function.update p.worker k (.calling n)
        executing := Function.update p.executing n true }
    | _, _ => some none
  | .done k =>
    match p.worker k with
    | .calling n => some (some { p with
        worker := Function.update p.worker k (.called n)
        executing := Function.update p.executing n false })
    | _ => some none
  | .finish k =>
    match p.worker k, p.cursor k with
    | .called _, some (pos, n) => do
      let t ← p.threads.finish k pos n
      return some { p with
        wheel := t.wheel
        cursor := t.cursor
        worker := Function.update p.worker k .idle }
    | _, _ => some none
  | .add n expiresMs => p.onWheel (p.wheel.timerAdd n expiresMs)
  | .addPeriodic n periodMs => p.onWheel (p.wheel.timerAddPeriodic n periodMs)
  | .mod n expiresMs => p.onWheel (p.wheel.timerMod n expiresMs)
  | .del n => p.onWheel (p.wheel.timerDel n)
  | .delSync c n =>
    if p.waiting c = none then do
      let wheel ← p.wheel.timerDel n
      return some { p with
        wheel := wheel
        waiting := Function.update p.waiting c (some (n, p.timerDelResult n)) }
    else some none
  | .wake c =>
    match p.waiting c with
    | some (n, _) =>
      if p.executing n then some none
      else some (some { p with waiting := Function.update p.waiting c none })
    | none => some none

def run (p : SyncMemory) : List SyncStep → Option (Option SyncMemory)
  | [] => some (some p)
  | step :: steps => do
    match ← p.exec step with
    | some next => next.run steps
    | none => return none

end SyncMemory

/-! ## The lists -/

namespace SyncThreads

variable {s s' : SyncThreads} {n : NodeId} {k : Nat} {step : SyncStep}

/-- The nodes from the one that worker `k` is at. -/
def track (s : SyncThreads) (k : Nat) : List NodeId :=
  match s.worker k with
  | .idle => s.batch k
  | .calling n => n :: s.batch k
  | .called n => n :: s.batch k

def threads (s : SyncThreads) : WheelThreads :=
  ⟨s.wheel, s.track, fun _ => false, fun _ => false, .idle⟩

/-- What a worker has still to come to is queued. -/
theorem not_mem_batchHeld_track (free : ¬ s.Queued n) (l : Local) : n ∉ batchHeld s.track l := by
  cases l with
  | nodeList k =>
    intro inside
    apply free
    refine .inr ⟨k, ?_⟩
    rw [batchHeld, track] at inside
    cases worker : s.worker k <;> rw [worker] at inside
    · exact List.mem_of_mem_tail inside
    · exact inside
    · exact inside
  | _ => exact List.not_mem_nil

theorem not_mem_expiredList (free : ¬ s.Queued n) : n ∉ s.wheel.expiredList :=
  fun inside => free (.inl inside)

/-- A node that is not pending and not queued is in no list. -/
theorem unlinked_of_not_queued {place : Option Bucket} (linked : s.wheel.At n place)
    (idle : (s.wheel.nodes n).pending = false) (free : ¬ s.Queued n) :
    Unlinked s.wheel (batchHeld s.track) n := by
  refine ⟨fun b => List.count_eq_zero.mp ?_, not_mem_expiredList free, not_mem_batchHeld_track free⟩
  cases place with
  | none => exact linked.count b
  | some _ => cases linked.pending.symm.trans idle

/-- The worker moves on, and the others stay. -/
theorem track_update {batch : Nat → List NodeId} {worker : Nat → Worker} {list : List NodeId}
    {wheel : TimerWheel} {executing : NodeId → Bool}
    (others : ∀ j, j ≠ k → batch j = s.batch j ∧ worker j = s.worker j)
    (here : ({ s with wheel, batch, worker, executing } : SyncThreads).track k = list) :
    ({ s with wheel, batch, worker, executing } : SyncThreads).track =
      Function.update s.track k list := by
  funext j
  by_cases same : j = k
  · rw [same, Function.update_self, here]
  · rw [Function.update_of_ne same, track, track]
    dsimp only
    rw [(others j same).1, (others j same).2]

/-! ## No pending node is queued -/

theorem apart_of_wheel {wheel : TimerWheel} (expired : wheel.expiredList = s.wheel.expiredList)
    (apart : (s.wheel.nodes n).pending = true → ¬ s.Queued n)
    (pending : (wheel.nodes n).pending = true → (s.wheel.nodes n).pending = false →
      ¬ s.Queued n) :
    (wheel.nodes n).pending = true → ¬ ({ s with wheel := wheel } : SyncThreads).Queued n := by
  intro now queued
  rw [Queued, expired] at queued
  cases before : (s.wheel.nodes n).pending with
  | true => exact apart before queued
  | false => exact pending now before queued

theorem apart_exec (linked : ∃ place, s.wheel.At n place)
    (apart : (s.wheel.nodes n).pending = true → ¬ s.Queued n) (careful : s.Careful step)
    (exec : s.exec step = some s') : (s'.wheel.nodes n).pending = true → ¬ s'.Queued n := by
  obtain ⟨place, linked⟩ := linked
  have sequential : ∀ op : WheelOp, op ≠ .tick →
      (op.node = some n → ((s.wheel.exec op).nodes n).pending = true → ¬ s.Queued n) →
      ((s.wheel.exec op).nodes n).pending = true →
        ¬ ({ s with wheel := s.wheel.exec op } : SyncThreads).Queued n := by
    intro op ticking own
    refine apart_of_wheel (TimerWheel.expiredList_exec s.wheel ticking) apart fun now before => ?_
    by_cases named : op.node = some n
    · exact own named now
    · rw [(linked.exec_of_ne named ticking).2.2, before] at now
      cases now
  have deleted : ∀ m, ((s.wheel.timerDel m).nodes n).pending = true →
      ¬ ({ s with wheel := s.wheel.timerDel m } : SyncThreads).Queued n := by
    refine fun m => sequential (.del m) (by simp) fun named now => ?_
    cases named
    cases linked.timerDel.pending.symm.trans now
  cases step with
  | tick =>
    cases exec
    intro now queued
    have unexpired : place.isSome = true → n ∉ s.wheel.expiredList := fun held inside =>
      apart (linked.pending.trans held) (.inl inside)
    obtain ⟨place', moved, unexpired'⟩ :=
      @TimerWheel.apart_exec s.wheel n .tick ⟨place, linked, unexpired⟩ (by simp)
    rcases queued with expired | ⟨k, inside⟩
    · exact unexpired' (moved.pending.symm.trans now) expired
    · refine apart ?_ (.inr ⟨k, inside⟩)
      rw [linked.pending]
      cases place with
      | none => cases linked.tick.2.1.pending.symm.trans now
      | some _ => rfl
  | take k =>
    obtain ⟨-, -, rfl⟩ := exec_take exec
    intro now queued
    apply apart now
    rcases queued with expired | ⟨j, inside⟩
    · cases expired
    · dsimp only at inside
      rw [Function.update_apply] at inside
      split at inside
      · exact .inl inside
      · exact .inr ⟨j, inside⟩
  | start k =>
    obtain ⟨m, rest, -, first, rfl⟩ := exec_start exec
    intro now queued
    apply apart now
    rcases queued with expired | ⟨j, inside⟩
    · exact .inl expired
    · dsimp only at inside
      rw [Function.update_apply] at inside
      split at inside
      · exact .inr ⟨k, first ▸ List.mem_cons_of_mem m inside⟩
      · exact .inr ⟨j, inside⟩
  | done k =>
    obtain ⟨-, -, rfl⟩ := exec_done exec
    exact apart
  | finish k =>
    obtain ⟨m, called, rfl⟩ := exec_finish exec
    refine apart_of_wheel (TimerWheel.expiredList_finish s.wheel m) apart fun now before => ?_
    by_cases same : n = m
    · subst same
      by_cases rearm : (s.wheel.nodes n).period > 0
      · exact careful n called rearm before
      · have stays : ((s.wheel.finish n).nodes n).pending = (s.wheel.nodes n).pending := by
          rw [TimerWheel.finish, if_neg fun both => rearm both.1]
          split
          · rw [TimerWheel.modNode_self]
          · rfl
        cases (stays.trans before).symm.trans now
    · rw [TimerWheel.nodes_finish_of_ne s.wheel same, before] at now
      cases now
  | add m ms =>
    cases exec
    refine sequential (.add m ms) (by simp) fun named _ => ?_
    cases named
    exact careful
  | addPeriodic m ms =>
    cases exec
    by_cases zero : ms = 0
    · have same : s.wheel.timerAddPeriodic m ms = s.wheel := if_pos zero
      dsimp only
      rw [same]
      exact apart
    · rcases s.wheel.timerAddPeriodic_cases m ms with eq | ⟨node, eq⟩
      · dsimp only
        rw [eq]
        exact apart
      · dsimp only
        rw [eq]
        refine apart_of_wheel rfl apart fun now before => ?_
        by_cases same : n = m
        · subst same
          exact careful zero
        · rw [TimerWheel.nodes_relink_of_ne s.wheel node same, before] at now
          cases now
  | mod m ms =>
    cases exec
    refine sequential (.mod m ms) (by simp) fun named _ => ?_
    cases named
    exact careful
  | del m =>
    cases exec
    exact deleted m
  | delSync c m =>
    obtain ⟨-, rfl⟩ := exec_delSync exec
    exact deleted m
  | wake c =>
    obtain ⟨-, -, -, -, rfl⟩ := exec_wake exec
    exact apart

end SyncThreads

/-! ## The steps keep to the lists -/

structure SyncMemory.Represents (p : SyncMemory) (s : SyncThreads) : Prop where
  wheel : p.wheel.Represents s.wheel (batchStack s.track) (batchHeld s.track)
  cursor : ∀ k, p.cursor k = batchCursor k (s.track k)
  workerCount : p.workerCount = s.workerCount
  worker : p.worker = s.worker
  executing : p.executing = s.executing
  waiting : p.waiting = s.waiting

namespace SyncMemory.Represents

variable {p : SyncMemory} {s : SyncThreads} {k c : Nat} {n : NodeId} {step : SyncStep}

theorem threads (represents : p.Represents s) : p.threads.Represents s.threads :=
  ⟨represents.wheel, represents.cursor, rfl, rfl, rfl⟩

theorem onWheel (represents : p.Represents s) {m : Option WheelMemory} {wheel : TimerWheel}
    (works : ∃ m', m = some m' ∧ m'.Represents wheel (batchStack s.track) (batchHeld s.track)) :
    ∃ next, p.onWheel m = some next ∧ Option.Rel Represents next (some { s with wheel := wheel }) := by
  obtain ⟨m', rfl, rep⟩ := works
  exact ⟨_, rfl, .some ⟨rep, represents.cursor, represents.workerCount, represents.worker,
    represents.executing, represents.waiting⟩⟩

theorem take (represents : p.Represents s) :
    ∃ next, p.exec (.take k) = some next ∧ Option.Rel Represents next (s.exec (.take k)) := by
  rw [SyncMemory.exec, SyncThreads.exec, represents.workerCount, represents.worker]
  have empty : listEmpty p.wheel.links .expiredList = true ↔ s.wheel.expiredList = [] :=
    (listEmpty_iff represents.wheel.holds rfl).trans List.map_eq_nil_iff
  by_cases idle : s.worker k = .idle
  · have track : s.track k = s.batch k := by
      rw [SyncThreads.track, idle]
    have waiting : p.cursor k = none ↔ s.batch k = [] := by
      rw [represents.cursor, track]
      cases s.batch k with
      | nil => exact iff_of_true rfl rfl
      | cons n rest => exact iff_of_false (Option.some_ne_none _) (List.cons_ne_nil n rest)
    have guard : k < s.workerCount ∧ s.worker k = .idle ∧ p.cursor k = none ∧
        listEmpty p.wheel.links .expiredList = false ↔
          k < s.workerCount ∧ s.worker k = .idle ∧ s.batch k = [] ∧ s.wheel.expiredList ≠ [] := by
      rw [waiting, ← Bool.not_eq_true, empty]
    by_cases ready : k < s.workerCount ∧ s.worker k = .idle ∧ s.batch k = [] ∧
        s.wheel.expiredList ≠ []
    · obtain ⟨t, done, rep⟩ :=
        represents.threads.take (k := k) (track.trans ready.2.2.1) ready.2.2.2
      rw [if_pos (guard.mpr ready), if_pos ready, done]
      have moved := @SyncThreads.track_update s k
        (Function.update s.batch k s.wheel.expiredList) s.worker s.wheel.expiredList
        { s.wheel with expiredList := [] } s.executing
        (fun j other => ⟨Function.update_of_ne other _ _, rfl⟩)
        (by rw [SyncThreads.track]; dsimp only; rw [idle]; exact Function.update_self ..)
      refine ⟨_, rfl, .some ⟨?_, fun j => ?_, rfl, rfl, represents.executing, represents.waiting⟩⟩
      · rw [moved]
        exact rep.wheel
      · rw [moved]
        exact rep.cursor j
    · rw [if_neg fun all => ready (guard.mp all), if_neg ready]
      exact ⟨_, rfl, .none⟩
  · rw [if_neg fun all => idle all.2.1, if_neg fun all => idle all.2.1]
    exact ⟨_, rfl, .none⟩

theorem start (represents : p.Represents s) :
    ∃ next, p.exec (.start k) = some next ∧ Option.Rel Represents next (s.exec (.start k)) := by
  rw [SyncMemory.exec, SyncThreads.exec, represents.cursor, represents.worker, SyncThreads.track]
  cases idle : s.worker k with
  | calling n => exact ⟨_, rfl, .none⟩
  | called n => exact ⟨_, rfl, .none⟩
  | idle =>
    cases first : s.batch k with
    | nil => exact ⟨_, rfl, .none⟩
    | cons n rest =>
      have same := @SyncThreads.track_update s k (Function.update s.batch k rest)
        (Function.update s.worker k (.calling n)) (n :: rest) s.wheel
        (Function.update s.executing n true)
        (fun j other => ⟨Function.update_of_ne other _ _, Function.update_of_ne other _ _⟩)
        (by rw [SyncThreads.track]; dsimp only; rw [Function.update_self, Function.update_self])
      have here : n :: rest = s.track k := by
        rw [SyncThreads.track, idle]
        exact first.symm
      rw [here, Function.update_eq_self] at same
      refine ⟨_, rfl, .some ⟨?_, fun j => ?_, represents.workerCount, rfl,
        congrArg (Function.update · n true) represents.executing, represents.waiting⟩⟩
      · rw [same]
        exact represents.wheel
      · rw [same]
        exact represents.cursor j

theorem done (represents : p.Represents s) :
    ∃ next, p.exec (.done k) = some next ∧ Option.Rel Represents next (s.exec (.done k)) := by
  rw [SyncMemory.exec, SyncThreads.exec, represents.worker]
  cases calling : s.worker k with
  | idle => exact ⟨_, rfl, .none⟩
  | called n => exact ⟨_, rfl, .none⟩
  | calling n =>
    have same := @SyncThreads.track_update s k s.batch (Function.update s.worker k (.called n))
      (s.track k) s.wheel (Function.update s.executing n false)
      (fun j other => ⟨rfl, Function.update_of_ne other _ _⟩)
      (by rw [SyncThreads.track, SyncThreads.track, calling]; dsimp only; rw [Function.update_self])
    rw [Function.update_eq_self] at same
    refine ⟨_, rfl, .some ⟨?_, fun j => ?_, represents.workerCount, rfl,
      congrArg (Function.update · n false) represents.executing, represents.waiting⟩⟩
    · rw [same]
      exact represents.wheel
    · rw [same]
      exact represents.cursor j

theorem finish (represents : p.Represents s) (linked : ∀ n, ∃ place, s.wheel.At n place)
    (careful : s.Careful (.finish k)) :
    ∃ next, p.exec (.finish k) = some next ∧ Option.Rel Represents next (s.exec (.finish k)) := by
  rw [SyncMemory.exec, SyncThreads.exec, represents.cursor, represents.worker]
  cases called : s.worker k with
  | idle => exact ⟨_, rfl, .none⟩
  | calling n => exact ⟨_, rfl, .none⟩
  | called n =>
    have first : s.track k = n :: s.batch k := by
      rw [SyncThreads.track, called]
    obtain ⟨place, linked⟩ := linked n
    obtain ⟨t, done, rep⟩ := represents.threads.finish (k := k) (fun repeats idle =>
      SyncThreads.unlinked_of_not_queued linked idle (careful n called repeats idle)) first
    rw [first]
    dsimp only [batchCursor]
    rw [done]
    have moved := @SyncThreads.track_update s k s.batch (Function.update s.worker k .idle)
      (s.batch k) (s.wheel.finish n) s.executing
      (fun j other => ⟨rfl, Function.update_of_ne other _ _⟩)
      (by rw [SyncThreads.track]; dsimp only; rw [Function.update_self])
    refine ⟨_, rfl, .some ⟨?_, fun j => ?_, represents.workerCount, rfl, represents.executing,
      represents.waiting⟩⟩
    · rw [moved]
      exact rep.wheel
    · rw [moved]
      exact rep.cursor j

/-- One step of a thread. -/
theorem exec (represents : p.Represents s) (linked : ∀ n, ∃ place, s.wheel.At n place)
    (apart : ∀ n, (s.wheel.nodes n).pending = true → ¬ s.Queued n) (careful : s.Careful step) :
    ∃ next, p.exec step = some next ∧ Option.Rel Represents next (s.exec step) := by
  have deleted : ∀ n, ∃ m', p.wheel.timerDel n = some m' ∧
      m'.Represents (s.wheel.timerDel n) (batchStack s.track) (batchHeld s.track) := by
    intro n
    obtain ⟨place, linked⟩ := linked n
    exact represents.wheel.timerDel linked fun pending =>
      ⟨SyncThreads.not_mem_expiredList (apart n pending),
        SyncThreads.not_mem_batchHeld_track (apart n pending)⟩
  cases step with
  | tick => exact represents.onWheel (represents.wheel.tick rfl rfl)
  | take k => exact represents.take
  | start k => exact represents.start
  | done k => exact represents.done
  | finish k => exact represents.finish linked careful
  | add n ms =>
    obtain ⟨place, linked⟩ := linked n
    exact represents.onWheel (represents.wheel.timerAdd linked
      (SyncThreads.not_mem_expiredList careful) (SyncThreads.not_mem_batchHeld_track careful) ms)
  | addPeriodic n ms =>
    obtain ⟨place, linked⟩ := linked n
    exact represents.onWheel (represents.wheel.timerAddPeriodic linked ms fun positive =>
      ⟨SyncThreads.not_mem_expiredList (careful positive),
        SyncThreads.not_mem_batchHeld_track (careful positive)⟩)
  | mod n ms =>
    obtain ⟨place, linked⟩ := linked n
    exact represents.onWheel (represents.wheel.timerMod linked
      (SyncThreads.not_mem_expiredList careful) (SyncThreads.not_mem_batchHeld_track careful) ms)
  | del n => exact represents.onWheel (deleted n)
  | delSync c n =>
    rw [SyncMemory.exec, SyncThreads.exec, represents.waiting]
    split
    · obtain ⟨wheel, done, rep⟩ := deleted n
      have result : p.timerDelResult n = s.timerDelResult n := by
        rw [SyncMemory.timerDelResult, SyncThreads.timerDelResult, represents.wheel.nodes,
          represents.executing]
      rw [done, result]
      exact ⟨_, rfl, .some ⟨rep, represents.cursor, represents.workerCount, represents.worker,
        represents.executing, rfl⟩⟩
    · exact ⟨_, rfl, .none⟩
  | wake c =>
    rw [SyncMemory.exec, SyncThreads.exec, represents.waiting, represents.executing]
    cases s.waiting c with
    | none => exact ⟨_, rfl, .none⟩
    | some call =>
      dsimp only
      split
      · exact ⟨_, rfl, .none⟩
      · exact ⟨_, rfl, .some ⟨represents.wheel, represents.cursor, represents.workerCount,
          represents.worker, rfl, rfl⟩⟩

theorem run (steps : List SyncStep) (represents : p.Represents s)
    (linked : ∀ n, ∃ place, s.wheel.At n place)
    (apart : ∀ n, (s.wheel.nodes n).pending = true → ¬ s.Queued n) (careful : s.CarefulRun steps) :
    ∃ next, p.run steps = some next ∧ Option.Rel Represents next (s.run steps) := by
  induction steps generalizing p s with
  | nil => exact ⟨_, rfl, .some represents⟩
  | cons step steps ih =>
    obtain ⟨now, later⟩ := careful
    obtain ⟨next, done, together⟩ := represents.exec linked apart now
    rw [SyncMemory.run, SyncThreads.run, List.foldlM_cons, done]
    cases moved : s.exec step with
    | none =>
      rw [moved] at together
      cases together
      exact ⟨_, rfl, .none⟩
    | some s' =>
      rw [moved] at together
      cases together with
      | some represents' =>
        exact ih represents' (fun n => SyncThreads.exists_at_exec (linked n) moved)
          (fun n => SyncThreads.apart_exec (linked n) (apart n) now moved) (later s' moved)

end SyncMemory.Represents

/-- Every careful run goes through in memory as it does in `SyncThreads`: the same steps are possible,
none goes wrong, and the stored wheel holds the lists that the run leads to. -/
theorem storedSync_run {tickMs : UInt32} {jiffies : UInt64} {wheel : TimerWheel}
    (created : timerWheelCreate tickMs jiffies = some wheel) (workerCount : Nat)
    {steps : List SyncStep} (careful : (SyncThreads.init wheel workerCount).CarefulRun steps) :
    ∃ memory next, WheelMemory.create tickMs jiffies = some memory ∧
      (SyncMemory.init memory workerCount).run steps = some next ∧
      Option.Rel SyncMemory.Represents next ((SyncThreads.init wheel workerCount).run steps) := by
  obtain ⟨memory, stored, represents⟩ := WheelMemory.represents_create created
  rw [← batchStack_nil, ← batchHeld_nil] at represents
  have start : (SyncMemory.init memory workerCount).Represents (.init wheel workerCount) :=
    ⟨represents, fun k => rfl, rfl, rfl, rfl, rfl⟩
  obtain ⟨-, empty, -⟩ := TimerWheel.at_timerWheelCreate created 0
  obtain ⟨next, reached, holds⟩ := start.run steps
    (fun n => ⟨none, (TimerWheel.at_timerWheelCreate created n).1⟩)
    (fun n _ => SyncThreads.not_queued_init wheel empty workerCount n) careful
  exact ⟨memory, next, stored, reached, holds⟩

end Rsvp
