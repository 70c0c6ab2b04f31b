import RsvpTe.WheelMemory

/-!
# The threads around the wheel in memory

The steps of `WheelThreads` on the wheel as it is stored.  A worker in the loop over its
`node_list` keeps the position it is at and the next one, which it has read before.  A step gives
no result if it goes wrong in memory, and the result `none` if its thread is not at it.

For every schedule of the threads in which no node of the expired list or of a batch is armed, the
stored wheel never goes wrong and keeps representing the lists of `WheelThreads`.
-/

namespace Rsvp

open LinkMem (Shape Loose)

structure MemoryThreads : Type where
  wheel : WheelMemory
  cursor : Nat → Option (ListAddr × ListAddr)
  called : Nat → Bool
  active : NodeId → Bool
  main : MainThread

namespace MemoryThreads

def init (wheel : WheelMemory) : MemoryThreads :=
  ⟨wheel, fun _ => none, fun _ => false, fun _ => false, .idle⟩

/-- The call on the wheel that the main thread has come to. -/
def mainCall (s : MemoryThreads) : Option (Option MemoryThreads) :=
  match s.main with
  | .idle => some none
  | .mod n timeoutMs => do
    let wheel ← s.wheel.timerMod n timeoutMs
    return some { s with wheel := wheel, main := .idle }
  | .del n restart => do
    let wheel ← s.wheel.timerDel n
    return some { s with
      wheel := wheel
      active := Function.update s.active n false
      main := match restart with
        | none => .idle
        | some timeoutMs => .add n timeoutMs }
  | .add n timeoutMs => do
    let wheel ← (s.wheel.initNode n).timerAdd n timeoutMs
    return some { s with
      wheel := wheel
      active := Function.update s.active n true
      main := .idle }

/-- A worker takes the expired list and starts its loop. -/
def take (s : MemoryThreads) (k : Nat) : Option MemoryThreads := do
  let links := initListHead s.wheel.links (.stack (.nodeList k))
  let links ← listSpliceInit links .expiredList (.stack (.nodeList k))
  let pos ← links.next (.stack (.nodeList k))
  let n ← links.next pos
  return { s with
    wheel := { s.wheel with links := links }
    cursor := Function.update s.cursor k (some (pos, n)) }

/-- The last section for the node at `pos`; the loop goes on at `n`. -/
def finish (s : MemoryThreads) (k : Nat) (pos n : ListAddr) : Option MemoryThreads := do
  let node ← listEntry pos
  let wheel ← s.wheel.finish node
  let next ← wheel.links.next n
  return { s with
    wheel := wheel
    cursor := Function.update s.cursor k
      (if n = .stack (.nodeList k) then none else some (n, next))
    called := Function.update s.called k false }

def exec (s : MemoryThreads) : ThreadStep → Option (Option MemoryThreads)
  | .reset n timeoutMs =>
    if s.main = .idle then
      some (some (if s.active n then { s with main := .mod n timeoutMs } else s))
    else some none
  | .start n timeoutMs =>
    if s.main = .idle then
      some (some { s with
        main := if s.active n then .del n (some timeoutMs) else .add n timeoutMs })
    else some none
  | .stop n =>
    if s.main = .idle then
      some (some (if s.active n then { s with main := .del n none } else s))
    else some none
  | .main => s.mainCall
  | .tick => do
    let wheel ← s.wheel.tick
    return some { s with wheel := wheel }
  | .take k =>
    if s.cursor k = none ∧ listEmpty s.wheel.links .expiredList = false then do
      let s ← s.take k
      return some s
    else some none
  | .callback k =>
    match s.cursor k, s.called k with
    | some (pos, _), false => do
      let n ← listEntry pos
      return some { s with
        active := Function.update s.active n false
        called := Function.update s.called k true }
    | _, _ => some none
  | .finish k =>
    match s.cursor k, s.called k with
    | some (pos, n), true => do
      let s ← s.finish k pos n
      return some s
    | _, _ => some none

/-- A schedule: the steps that their threads are not at are passed over. -/
def run (s : MemoryThreads) (schedule : List ThreadStep) : Option MemoryThreads :=
  schedule.foldlM (fun s step => do
    let next ← s.exec step
    return next.getD s) s

end MemoryThreads

namespace WheelThreads

def run (s : WheelThreads) (schedule : List ThreadStep) : WheelThreads :=
  schedule.foldl (fun s step => (s.exec step).getD s) s

/-- Every step of a schedule is careful. -/
def CarefulSchedule (s : WheelThreads) : List ThreadStep → Prop
  | [] => True
  | step :: rest => s.Careful step ∧ ((s.exec step).getD s).CarefulSchedule rest

end WheelThreads

/-! ## The lists that workers have under way -/

/-- The node a worker is at is linked no more; its loop follows the rest. -/
def batchStack (batch : Nat → List NodeId) : Local → Option Shape
  | .nodeList k => if batch k = [] then none else some .trail
  | _ => none

def batchHeld (batch : Nat → List NodeId) : Local → List NodeId
  | .nodeList k => (batch k).tail
  | _ => []

/-- Where the loop over a batch stands. -/
def batchCursor (k : Nat) : List NodeId → Option (ListAddr × ListAddr)
  | [] => none
  | n :: rest => some (.entry n, (rest.map .entry).headD (.stack (.nodeList k)))

theorem batchStack_nil : batchStack (fun _ => []) = fun _ => none := by
  funext l
  cases l <;> rfl

theorem batchHeld_nil : batchHeld (fun _ => []) = fun _ => [] := by
  funext l
  cases l <;> rfl

theorem batchStack_update (batch : Nat → List NodeId) (k : Nat) (list : List NodeId) :
    batchStack (Function.update batch k list) =
      Function.update (batchStack batch) (.nodeList k)
        (if list = [] then none else some .trail) := by
  funext l
  cases l with
  | nodeList j =>
    by_cases same : j = k
    · rw [same, Function.update_self, batchStack, Function.update_self]
    · rw [Function.update_of_ne fun eq => same (Local.nodeList.inj eq), batchStack, batchStack,
        Function.update_of_ne same]
  | _ => rfl

theorem batchHeld_update (batch : Nat → List NodeId) (k : Nat) (list : List NodeId) :
    batchHeld (Function.update batch k list) =
      Function.update (batchHeld batch) (.nodeList k) list.tail := by
  funext l
  cases l with
  | nodeList j =>
    by_cases same : j = k
    · rw [same, Function.update_self, batchHeld, Function.update_self]
    · rw [Function.update_of_ne fun eq => same (Local.nodeList.inj eq), batchHeld, batchHeld,
        Function.update_of_ne same]
  | _ => rfl

structure MemoryThreads.Represents (p : MemoryThreads) (s : WheelThreads) : Prop where
  wheel : p.wheel.Represents s.wheel (batchStack s.batch) (batchHeld s.batch)
  cursor : ∀ k, p.cursor k = batchCursor k (s.batch k)
  called : p.called = s.called
  active : p.active = s.active
  main : p.main = s.main

namespace WheelThreads

variable {s : WheelThreads} {n : NodeId} {k : Nat} {rest : List NodeId}

theorem not_mem_batchHeld (free : ∀ k, n ∉ s.batch k) (l : Local) : n ∉ batchHeld s.batch l := by
  cases l with
  | nodeList k => exact fun inside => free k (List.mem_of_mem_tail inside)
  | _ => exact List.not_mem_nil

/-- The node whose callback a worker has run is in no list. -/
theorem LinkedIn.unlinked {home : Option Home} (linked : s.LinkedIn n home)
    (first : s.batch k = n :: rest) : Unlinked s.wheel (batchHeld s.batch) n := by
  have count := linked.batch k
  rw [first, List.count_cons_self] at count
  have here : home = some (.batch k) := by
    by_contra elsewhere
    rw [if_neg elsewhere] at count
    exact absurd count (Nat.succ_ne_zero _)
  subst here
  refine ⟨fun b => List.count_eq_zero.mp (linked.wheel.count b),
    List.count_eq_zero.mp linked.expired, fun l => ?_⟩
  cases l with
  | nodeList j =>
    rw [batchHeld]
    by_cases same : j = k
    · rw [same, first, List.tail_cons]
      rw [if_pos rfl] at count
      exact List.count_eq_zero.mp (Nat.succ_inj.mp count)
    · refine fun inside => absurd (List.mem_of_mem_tail inside) (List.count_eq_zero.mp ?_)
      rw [linked.batch j, if_neg]
      exact fun eq => same (Home.batch.inj (Option.some.inj eq)).symm
  | _ => exact List.not_mem_nil

theorem LinkedIn.free_of_pending {home : Option Home} (linked : s.LinkedIn n home)
    (pending : (s.wheel.nodes n).pending = true) :
    n ∉ s.wheel.expiredList ∧ ∀ l, n ∉ batchHeld s.batch l := by
  obtain ⟨b, rfl⟩ := linked.pending_iff.mp pending
  exact ⟨List.count_eq_zero.mp linked.expired,
    not_mem_batchHeld fun k => List.count_eq_zero.mp (linked.batch k)⟩

end WheelThreads

namespace MemoryThreads.Represents

variable {p : MemoryThreads} {s : WheelThreads} {n : NodeId} {k : Nat}

/-- The worker `k` has come to another position. -/
theorem cursor_update (represents : p.Represents s) {list : List NodeId}
    {at_ : Option (ListAddr × ListAddr)} (here : at_ = batchCursor k list) (j : Nat) :
    Function.update p.cursor k at_ j = batchCursor j (Function.update s.batch k list j) := by
  by_cases same : j = k
  · rw [same, Function.update_self, Function.update_self, here]
  · rw [Function.update_of_ne same, Function.update_of_ne same, represents.cursor]

theorem mainCall (represents : p.Represents s) (linked : ∀ n, ∃ home, s.LinkedIn n home)
    (careful : s.Careful .main) :
    ∃ next, p.mainCall = some next ∧ Option.Rel Represents next s.mainCall := by
  rw [MemoryThreads.mainCall, WheelThreads.mainCall, represents.main]
  rw [WheelThreads.Careful] at careful
  cases main : s.main with
  | idle => exact ⟨none, rfl, .none⟩
  | mod n timeoutMs =>
    rw [main] at careful
    obtain ⟨home, linked⟩ := linked n
    obtain ⟨wheel, done, rep⟩ := represents.wheel.timerMod linked.wheel careful.1
      (WheelThreads.not_mem_batchHeld careful.2) timeoutMs
    dsimp only
    rw [done]
    exact ⟨_, rfl, .some ⟨rep, represents.cursor, represents.called, represents.active, rfl⟩⟩
  | del n restart =>
    obtain ⟨home, linked⟩ := linked n
    obtain ⟨wheel, done, rep⟩ := represents.wheel.timerDel linked.wheel linked.free_of_pending
    dsimp only
    rw [done]
    exact ⟨_, rfl, .some ⟨rep, represents.cursor, represents.called,
      congrArg (Function.update · n false) represents.active, rfl⟩⟩
  | add n timeoutMs =>
    rw [main] at careful
    have unlinked : Unlinked s.wheel (batchHeld s.batch) n := ⟨fun b => careful (.bucket b), careful .expired,
      WheelThreads.not_mem_batchHeld fun k => careful (.batch k)⟩
    have blank : (s.wheel.modNode n fun _ => .init).At n none := by
      refine ⟨fun b => List.count_eq_zero.mpr (careful (.bucket b)), ?_⟩
      rw [TimerWheel.modNode_self]
      rfl
    obtain ⟨wheel, done, rep⟩ := (represents.wheel.initNode unlinked).timerAdd blank unlinked.2.1
      unlinked.2.2 timeoutMs
    dsimp only
    rw [done]
    exact ⟨_, rfl, .some ⟨rep, represents.cursor, represents.called,
      congrArg (Function.update · n true) represents.active, rfl⟩⟩

theorem take (represents : p.Represents s) (free : s.batch k = [])
    (full : s.wheel.expiredList ≠ []) :
    ∃ next, p.take k = some next ∧ next.Represents { s with
      wheel := { s.wheel with expiredList := [] }
      batch := Function.update s.batch k s.wheel.expiredList } := by
  have unused : batchStack s.batch (.nodeList k) = none := if_pos free
  have entered := represents.wheel.enter unused
  have isRing := shapes_stack_self (batchStack s.batch) (.nodeList k) (some .ring)
  have differs : ListAddr.expiredList ≠ .stack (.nodeList k) := by simp
  obtain ⟨links, spliced, holds⟩ := listSpliceInit_holds entered.holds isRing rfl differs
  have gathered : entries s.wheel (batchHeld s.batch) .expiredList ++ entries s.wheel (batchHeld s.batch)
      (.stack (.nodeList k)) = s.wheel.expiredList.map .entry := by
    rw [entries, entries, represents.wheel.held_eq_nil unused, List.map_nil, List.append_nil]
  have emptied : ([] : List ListAddr) = ([] : List NodeId).map .entry := rfl
  rw [gathered, update_entries_stack, emptied, update_entries_expiredList] at holds
  obtain ⟨n, rest, at_⟩ := List.exists_cons_of_ne_nil full
  rw [at_] at holds
  -- the first two positions are read
  have ring : links.Ring _ _ := holds.fits isRing
  rw [entries_stack_self, List.map_cons] at ring
  have first := ring.next_head
  have second := ring.path.2.next_start
  have loosened := holds.loosen isRing
  rw [update_shapes, Function.update_idem] at loosened
  obtain ⟨ahead, -⟩ := loosened.advance (shapes_stack_self (batchStack s.batch) _ _)
    (entries_stack_self _ (batchHeld s.batch) _ _)
  rw [update_entries_stack, Function.update_idem] at ahead
  rw [at_]
  refine ⟨{ p with
    wheel := { p.wheel with links := links }
    cursor := Function.update p.cursor k (batchCursor k (n :: rest)) }, ?_,
    ⟨represents.wheel.jiffies, represents.wheel.tickMs, represents.wheel.nodes, ?_⟩,
    represents.cursor_update rfl, represents.called, represents.active, represents.main⟩
  · rw [MemoryThreads.take, spliced]
    simp only [Option.bind_eq_bind, Option.bind_some, first, List.headD_cons, second]
    rfl
  · dsimp only
    rw [batchStack_update, batchHeld_update, if_neg (List.cons_ne_nil n rest)]
    exact ahead

theorem finish {node : NodeId} {rest : List NodeId} (represents : p.Represents s)
    (free : (s.wheel.nodes node).period > 0 → (s.wheel.nodes node).pending = false →
      Unlinked s.wheel (batchHeld s.batch) node) (first : s.batch k = node :: rest) :
    ∃ next, p.finish k (.entry node) ((rest.map .entry).headD (.stack (.nodeList k))) = some next ∧
      next.Represents { s with
        wheel := s.wheel.finish node
        batch := Function.update s.batch k rest
        called := Function.update s.called k false } := by
  obtain ⟨wheel, done, rep⟩ := represents.wheel.finish free
  have isTrail : batchStack s.batch (.nodeList k) = some .trail := by
    rw [batchStack, if_neg (by rw [first]; exact List.cons_ne_nil node rest)]
  have isHead : shapes (batchStack s.batch) (.stack (.nodeList k)) = some .trail := isTrail
  have fits : wheel.links.Trail _ _ ∧ _ := rep.holds.fits isHead
  have under : entries (s.wheel.finish node) (batchHeld s.batch) (.stack (.nodeList k)) =
      rest.map .entry := by
    rw [entries, batchHeld, first, List.tail_cons]
  rw [under] at fits
  have called : Function.update p.called k false = Function.update s.called k false := by
    rw [represents.called]
  simp only [MemoryThreads.finish, listEntry, done, Option.bind_eq_bind, Option.bind_some]
  cases rest with
  | nil =>
    obtain ⟨next, read⟩ := Option.isSome_iff_exists.mp fits.2
    rw [List.map_nil, List.headD_nil, read, Option.bind_some, if_pos rfl]
    refine ⟨_, rfl, ?_, represents.cursor_update rfl, called, represents.active, represents.main⟩
    dsimp only
    rw [batchStack_update, batchHeld_update, if_pos rfl]
    exact rep.leave (.nodeList k)
  | cons m rest =>
    have differs : ListAddr.entry m ≠ .stack (.nodeList k) := by simp
    rw [List.map_cons, List.headD_cons, fits.1.1, Option.bind_some, if_neg differs]
    refine ⟨_, rfl, ⟨rep.jiffies, rep.tickMs, rep.nodes, ?_⟩, represents.cursor_update rfl, called,
      represents.active, represents.main⟩
    obtain ⟨ahead, -⟩ := rep.holds.advance isHead under
    dsimp only
    rw [batchStack_update, batchHeld_update, if_neg (List.cons_ne_nil m rest), List.tail_cons,
      ← isTrail, Function.update_eq_self, ← update_entries_stack]
    exact ahead

/-- One step of a thread. -/
theorem exec {step : ThreadStep} (represents : p.Represents s)
    (linked : ∀ n, ∃ home, s.LinkedIn n home) (careful : s.Careful step) :
    ∃ next, p.exec step = some next ∧ Option.Rel Represents next (s.exec step) := by
  cases step with
  | reset n timeoutMs =>
    rw [MemoryThreads.exec, WheelThreads.exec, represents.main, represents.active]
    split
    · refine ⟨_, rfl, .some ?_⟩
      split
      · exact ⟨represents.wheel, represents.cursor, represents.called, rfl, rfl⟩
      · exact represents
    · exact ⟨_, rfl, .none⟩
  | start n timeoutMs =>
    rw [MemoryThreads.exec, WheelThreads.exec, represents.main, represents.active]
    split
    · exact ⟨_, rfl, .some
        ⟨represents.wheel, represents.cursor, represents.called, rfl, rfl⟩⟩
    · exact ⟨_, rfl, .none⟩
  | stop n =>
    rw [MemoryThreads.exec, WheelThreads.exec, represents.main, represents.active]
    split
    · refine ⟨_, rfl, ?_⟩
      split
      · exact .some ⟨represents.wheel, represents.cursor, represents.called, rfl, rfl⟩
      · exact .some represents
    · exact ⟨_, rfl, .none⟩
  | main => exact represents.mainCall linked careful
  | tick =>
    obtain ⟨wheel, done, rep⟩ := represents.wheel.tick rfl rfl
    rw [MemoryThreads.exec, WheelThreads.exec, done]
    exact ⟨_, rfl, .some
      ⟨rep, represents.cursor, represents.called, represents.active, represents.main⟩⟩
  | take k =>
    have empty : listEmpty p.wheel.links .expiredList = true ↔ s.wheel.expiredList = [] :=
      (listEmpty_iff represents.wheel.holds rfl).trans List.map_eq_nil_iff
    have waiting : p.cursor k = none ↔ s.batch k = [] := by
      rw [represents.cursor]
      cases s.batch k with
      | nil => exact iff_of_true rfl rfl
      | cons n rest => exact iff_of_false (Option.some_ne_none _) (List.cons_ne_nil n rest)
    have guard : p.cursor k = none ∧ listEmpty p.wheel.links .expiredList = false ↔
        s.batch k = [] ∧ s.wheel.expiredList ≠ [] := by
      rw [waiting, ← Bool.not_eq_true, empty]
    rw [MemoryThreads.exec, WheelThreads.exec]
    by_cases ready : s.batch k = [] ∧ s.wheel.expiredList ≠ []
    · obtain ⟨next, done, rep⟩ := represents.take ready.1 ready.2
      rw [if_pos (guard.mpr ready), if_pos ready, done]
      exact ⟨_, rfl, .some rep⟩
    · rw [if_neg fun both => ready (guard.mp both), if_neg ready]
      exact ⟨_, rfl, .none⟩
  | callback k =>
    rw [MemoryThreads.exec, WheelThreads.exec, represents.cursor, represents.called]
    cases s.batch k with
    | nil => exact ⟨_, rfl, .none⟩
    | cons n rest =>
      cases s.called k with
      | true => exact ⟨_, rfl, .none⟩
      | false =>
        exact ⟨_, rfl, .some ⟨represents.wheel, represents.cursor, rfl,
          congrArg (Function.update · n false) represents.active, represents.main⟩⟩
  | finish k =>
    rw [MemoryThreads.exec, WheelThreads.exec, represents.cursor, represents.called]
    cases first : s.batch k with
    | nil => exact ⟨_, rfl, .none⟩
    | cons n rest =>
      cases s.called k with
      | false => exact ⟨_, rfl, .none⟩
      | true =>
        obtain ⟨home, linked⟩ := linked n
        obtain ⟨next, done, rep⟩ := represents.finish (fun _ _ => linked.unlinked first) first
        dsimp only [batchCursor]
        rw [done]
        exact ⟨_, rfl, .some rep⟩

theorem run (schedule : List ThreadStep) (represents : p.Represents s)
    (linked : ∀ n, ∃ home, s.LinkedIn n home) (careful : s.CarefulSchedule schedule) :
    ∃ next, p.run schedule = some next ∧ next.Represents (s.run schedule) := by
  induction schedule generalizing p s with
  | nil => exact ⟨p, rfl, represents⟩
  | cons step rest ih =>
    obtain ⟨now, later⟩ := careful
    obtain ⟨next, done, together⟩ := represents.exec linked now
    have follow : ∀ {p' s'}, MemoryThreads.Represents p' s' → (∀ n, ∃ home, s'.LinkedIn n home) →
        next.getD p = p' → (s.exec step).getD s = s' →
        ∃ final, p.run (step :: rest) = some final ∧ final.Represents (s.run (step :: rest)) := by
      rintro p' s' represents linked rfl rfl
      obtain ⟨final, reached, holds⟩ := ih represents linked later
      refine ⟨final, ?_, holds⟩
      rw [MemoryThreads.run, List.foldlM_cons, done]
      exact reached
    cases moved : s.exec step with
    | none =>
      rw [moved] at together
      cases together
      exact follow represents linked rfl (by rw [moved]; rfl)
    | some s' =>
      rw [moved] at together
      cases together with
      | some represents =>
        exact follow represents (WheelThreads.linked_exec linked now moved) rfl (by rw [moved]; rfl)

end MemoryThreads.Represents

/-- On every schedule that is careful the stored wheel never goes wrong, and it represents the
lists that the same schedule leads to. -/
theorem storedWheel_run {tickMs : UInt32} {jiffies : UInt64} {wheel : TimerWheel}
    (created : timerWheelCreate tickMs jiffies = some wheel) (schedule : List ThreadStep)
    (careful : (WheelThreads.init wheel).CarefulSchedule schedule) :
    ∃ memory p, WheelMemory.create tickMs jiffies = some memory ∧
      (MemoryThreads.init memory).run schedule = some p ∧
      p.Represents ((WheelThreads.init wheel).run schedule) := by
  obtain ⟨memory, stored, represents⟩ := WheelMemory.represents_create created
  rw [← batchStack_nil, ← batchHeld_nil] at represents
  have start : (MemoryThreads.init memory).Represents (.init wheel) :=
    ⟨represents, fun k => rfl, rfl, rfl, rfl⟩
  obtain ⟨p, reached, holds⟩ := start.run schedule (CarefulRun.init created).linked careful
  exact ⟨memory, p, stored, reached, holds⟩

/-- A timer of one tick expires, and a worker runs its callback. -/
theorem storedWheel_run_expiry : ∃ memory p, WheelMemory.create 10 0 = some memory ∧
    (MemoryThreads.init memory).run
      [.start 0 10, .main, .tick, .take 0, .callback 0, .finish 0] = some p ∧
    p.active 0 = false := by
  have careful : (WheelThreads.init ⟨0, 10, fun _ => [], [], fun _ => .init⟩).CarefulSchedule
      [.start 0 10, .main, .tick, .take 0, .callback 0, .finish 0] := by
    refine ⟨trivial, fun h => ?_, trivial, trivial, trivial, trivial, trivial⟩
    cases h <;> exact List.not_mem_nil
  obtain ⟨memory, p, stored, reached, represents⟩ :=
    storedWheel_run (rfl : timerWheelCreate 10 0 = _) _ careful
  refine ⟨memory, p, stored, reached, ?_⟩
  rw [represents.active]
  decide +kernel

end Rsvp
