import RsvpTe.WheelTimer

/-!
# The threads around the wheel

The main thread arms and stops the nodes of the RSVP timers, the tick thread moves expired nodes
to the expired list, and any number of workers take that list and run its callbacks.  The steps
are the sections of the source that run under a lock, with the tests of `timer->active` as steps
of their own.

A node leaves its bucket with `pending = false` but stays linked, in the expired list and then in
the batch of a worker, while `timer_mod` and `timer_add` look at `pending` only.  `CarefulRun` is
a run in which they are never called on such a node.
-/

namespace Rsvp

/-! ## Steps -/

/-- Where the main thread stands in `rsvp_timer_reset`, `rsvp_timer_stop` or `rsvp_timer_start`:
the call on the wheel that comes next.  A `timer_del` may be the first half of a restart. -/
inductive MainThread : Type
  | idle
  | mod (n : NodeId) (timeoutMs : UInt32)
  | del (n : NodeId) (restart : Option UInt32)
  | add (n : NodeId) (timeoutMs : UInt32)
  deriving DecidableEq, Repr

/-- `called k` tells that the callback of the first node of worker `k`'s batch has returned, and
`active n` is the flag of the `rsvp_timer_t` that holds the node. -/
structure WheelThreads : Type where
  wheel : TimerWheel
  batch : Nat → List NodeId
  called : Nat → Bool
  active : NodeId → Bool
  main : MainThread

inductive ThreadStep : Type
  | reset (n : NodeId) (timeoutMs : UInt32)
  | start (n : NodeId) (timeoutMs : UInt32)
  | stop (n : NodeId)
  | main
  | tick
  | take (worker : Nat)
  | callback (worker : Nat)
  | finish (worker : Nat)
  deriving DecidableEq, Repr

namespace WheelThreads

def init (wheel : TimerWheel) : WheelThreads :=
  ⟨wheel, fun _ => [], fun _ => false, fun _ => false, .idle⟩

/-- The call on the wheel that the main thread has come to. -/
def mainCall (s : WheelThreads) : Option WheelThreads :=
  match s.main with
  | .idle => none
  | .mod n timeoutMs => some { s with wheel := s.wheel.timerMod n timeoutMs, main := .idle }
  | .del n restart => some { s with
      wheel := s.wheel.timerDel n
      active := Function.update s.active n false
      main := match restart with
        | none => .idle
        | some timeoutMs => .add n timeoutMs }
  | .add n timeoutMs => some { s with
      wheel := (s.wheel.modNode n fun _ => .init).timerAdd n timeoutMs
      active := Function.update s.active n true
      main := .idle }

def exec (s : WheelThreads) : ThreadStep → Option WheelThreads
  | .reset n timeoutMs =>
    if s.main = .idle then
      some (if s.active n then { s with main := .mod n timeoutMs } else s)
    else none
  | .start n timeoutMs =>
    if s.main = .idle then
      some { s with
        main := if s.active n then .del n (some timeoutMs) else .add n timeoutMs }
    else none
  | .stop n =>
    if s.main = .idle then some (if s.active n then { s with main := .del n none } else s)
    else none
  | .main => s.mainCall
  | .tick => some { s with wheel := s.wheel.tick }
  | .take k =>
    if s.batch k = [] ∧ s.wheel.expiredList ≠ [] then
      some { s with
        wheel := { s.wheel with expiredList := [] }
        batch := Function.update s.batch k s.wheel.expiredList }
    else none
  | .callback k =>
    match s.batch k, s.called k with
    | n :: _, false => some { s with
        active := Function.update s.active n false
        called := Function.update s.called k true }
    | _, _ => none
  | .finish k =>
    match s.batch k, s.called k with
    | n :: rest, true => some { s with
        wheel := s.wheel.finish n
        batch := Function.update s.batch k rest
        called := Function.update s.called k false }
    | _, _ => none

end WheelThreads

/-! ## Where a node is linked -/

/-- The lists a node can be linked in. -/
inductive Home : Type
  | bucket (b : Bucket)
  | expired
  | batch (worker : Nat)
  deriving DecidableEq, Repr

def Home.bucket? : Home → Option Bucket
  | .bucket b => some b
  | _ => none

namespace WheelThreads

def list (s : WheelThreads) : Home → List NodeId
  | .bucket b => s.wheel.buckets b
  | .expired => s.wheel.expiredList
  | .batch k => s.batch k

/-- The node is linked once, in `home`, or nowhere; it is pending iff that is a bucket. -/
structure LinkedIn (s : WheelThreads) (n : NodeId) (home : Option Home) : Prop where
  wheel : s.wheel.At n (home.bind Home.bucket?)
  expired : s.wheel.expiredList.count n = if home = some .expired then 1 else 0
  batch : ∀ k, (s.batch k).count n = if home = some (.batch k) then 1 else 0

variable {s s' : WheelThreads} {n m : NodeId} {home : Option Home}

theorem LinkedIn.count (linked : s.LinkedIn n home) (h : Home) :
    (s.list h).count n = if home = some h then 1 else 0 := by
  cases h with
  | expired => exact linked.expired
  | batch k => exact linked.batch k
  | bucket b =>
    have counted := linked.wheel.count b
    change (s.wheel.buckets b).count n = _
    rw [counted]
    rcases home with _ | ⟨c⟩ | _ | k
    · rfl
    · simp only [Option.bind_some, Home.bucket?, Option.some.injEq, Home.bucket.injEq]
    · rfl
    · rfl

theorem LinkedIn.pending_iff (linked : s.LinkedIn n home) :
    (s.wheel.nodes n).pending = true ↔ ∃ b, home = some (.bucket b) := by
  rw [linked.wheel.pending]
  rcases home with _ | ⟨c⟩ | _ | k <;> simp [Home.bucket?]

/-- A step that changes only the wheel, and in it neither the node nor the expired list. -/
theorem LinkedIn.of_wheel (linked : s.LinkedIn n home) (batch : s'.batch = s.batch)
    (kept : s'.wheel.At n (home.bind Home.bucket?))
    (expired : s'.wheel.expiredList = s.wheel.expiredList) : s'.LinkedIn n home :=
  ⟨kept, expired ▸ linked.expired, batch ▸ linked.batch⟩

/-- A node that was in neither the expired list nor a batch is linked in a bucket. -/
theorem LinkedIn.of_bucket {b : Bucket} (batch : s'.batch = s.batch)
    (put : s'.wheel.At n (some b)) (expired : s'.wheel.expiredList = s.wheel.expiredList)
    (early : n ∉ s.wheel.expiredList) (free : ∀ k, n ∉ s.batch k) :
    s'.LinkedIn n (some (.bucket b)) := by
  refine ⟨put, ?_, fun k => ?_⟩
  · rw [expired]
    exact List.count_eq_zero.mpr early
  · rw [batch]
    exact List.count_eq_zero.mpr (free k)

theorem LinkedIn.timerMod (linked : s.LinkedIn n home) {timeoutMs : UInt32}
    (early : m ∉ s.wheel.expiredList) (free : ∀ k, m ∉ s.batch k) (batch : s'.batch = s.batch)
    (wheel : s'.wheel = s.wheel.timerMod m timeoutMs) : ∃ home', s'.LinkedIn n home' := by
  have expired : s'.wheel.expiredList = s.wheel.expiredList := by
    rw [wheel, TimerWheel.timerMod]
    split <;> rfl
  by_cases same : n = m
  · subst same
    have put := (linked.wheel.arm (.inr rfl : _ ∨ WheelOp.mod n timeoutMs = _)).1
    rw [TimerWheel.exec, ← wheel] at put
    exact ⟨_, .of_bucket batch put expired early free⟩
  · refine ⟨home, linked.of_wheel batch ?_ expired⟩
    have op : (WheelOp.mod m timeoutMs).node ≠ some n := fun eq => same (Option.some.inj eq).symm
    rw [wheel]
    exact (linked.wheel.exec_of_ne op (by rintro ⟨⟩)).1

/-- `timer_node_init` and `timer_add` on a node that is linked nowhere. -/
theorem LinkedIn.timerAdd (linked : s.LinkedIn n home) {timeoutMs : UInt32}
    (free : ∀ h, m ∉ s.list h) (batch : s'.batch = s.batch)
    (wheel : s'.wheel = (s.wheel.modNode m fun _ => .init).timerAdd m timeoutMs) :
    ∃ home', s'.LinkedIn n home' := by
  have expired : s'.wheel.expiredList = s.wheel.expiredList := by
    rw [wheel, TimerWheel.timerAdd]
    split <;> rfl
  by_cases same : n = m
  · subst same
    have blank : (s.wheel.modNode n fun _ => .init).At n none := by
      refine ⟨fun b => List.count_eq_zero.mpr (free (.bucket b)), ?_⟩
      rw [TimerWheel.modNode_self]
      rfl
    have put := (blank.arm (.inl rfl : WheelOp.add n timeoutMs = _ ∨ _)).1
    rw [TimerWheel.exec, ← wheel] at put
    exact ⟨_, .of_bucket batch put expired (free .expired) fun k => free (.batch k)⟩
  · have blank : (s.wheel.modNode m fun _ => .init).At n (home.bind Home.bucket?) := by
      refine ⟨linked.wheel.count, ?_⟩
      rw [TimerWheel.modNode_of_ne _ _ same]
      exact linked.wheel.pending
    have op : (WheelOp.add m timeoutMs).node ≠ some n := fun eq => same (Option.some.inj eq).symm
    refine ⟨home, linked.of_wheel batch ?_ expired⟩
    rw [wheel]
    exact (blank.exec_of_ne op (by rintro ⟨⟩)).1

theorem LinkedIn.timerDel (linked : s.LinkedIn n home) (batch : s'.batch = s.batch)
    (wheel : s'.wheel = s.wheel.timerDel m) : ∃ home', s'.LinkedIn n home' := by
  have expired : s'.wheel.expiredList = s.wheel.expiredList := by
    rw [wheel, TimerWheel.timerDel]
    split <;> rfl
  by_cases same : n = m
  · subst same
    have gone := linked.wheel.timerDel
    rw [← wheel] at gone
    rcases home with _ | ⟨b⟩ | _ | k
    · exact ⟨_, linked.of_wheel batch gone expired⟩
    · refine ⟨none, gone, ?_, ?_⟩
      · rw [expired, linked.expired]
        rfl
      · intro k
        rw [batch, linked.batch]
        rfl
    · exact ⟨_, linked.of_wheel batch gone expired⟩
    · exact ⟨_, linked.of_wheel batch gone expired⟩
  · have op : (WheelOp.del m).node ≠ some n := fun eq => same (Option.some.inj eq).symm
    refine ⟨home, linked.of_wheel batch ?_ expired⟩
    rw [wheel]
    exact (linked.wheel.exec_of_ne op (by rintro ⟨⟩)).1

/-- The tick moves the nodes of its bucket to the expired list. -/
theorem LinkedIn.tick (linked : s.LinkedIn n home) (batch : s'.batch = s.batch)
    (wheel : s'.wheel = s.wheel.tick) : ∃ home', s'.LinkedIn n home' := by
  obtain ⟨count, moved, -, -⟩ := linked.wheel.tick
  have expired : s'.wheel.expiredList.count n =
      s.wheel.expiring.count n + s.wheel.expiredList.count n := by
    rw [wheel]
    exact List.count_append
  rw [count, linked.expired] at expired
  rw [← wheel] at moved
  have idle : ∀ h : Home, h.bucket? = none → home = some h → ∃ home', s'.LinkedIn n home' := by
    intro h outside here
    rw [here, Option.bind_some, outside] at moved expired
    refine ⟨home, ?_, ?_, batch ▸ linked.batch⟩
    · rw [here, Option.bind_some, outside]
      exact moved
    · rw [here, expired]
      exact Nat.zero_add _
  rcases home with _ | ⟨b⟩ | _ | k
  · exact ⟨none, moved, expired, batch ▸ linked.batch⟩
  · simp only [Option.bind_some, Home.bucket?, Option.map_some, Option.some.injEq, reduceCtorEq,
      if_false, Nat.add_zero] at moved expired
    by_cases now : TimerWheel.settle (s.wheel.jiffies + 1) (s.wheel.nodes n).expires b =
        ⟨.tv1, TimerWheel.indexOf (s.wheel.jiffies + 1) .tv1⟩
    · rw [if_pos now] at expired
      rw [Option.filter_some, if_neg (by simp [now])] at moved
      exact ⟨some .expired, moved, expired, fun k => batch ▸ linked.batch k⟩
    · rw [if_neg now] at expired
      rw [Option.filter_some, if_pos (decide_eq_true now)] at moved
      exact ⟨some (.bucket _), moved, expired, fun k => batch ▸ linked.batch k⟩
  · exact idle .expired rfl rfl
  · exact idle (.batch k) rfl rfl

/-- A worker takes the expired list as its batch. -/
theorem LinkedIn.take (linked : s.LinkedIn n home) {k : Nat} (free : s.batch k = [])
    (batch : s'.batch = Function.update s.batch k s.wheel.expiredList)
    (wheel : s'.wheel = { s.wheel with expiredList := [] }) : ∃ home', s'.LinkedIn n home' := by
  have kept : s'.wheel.At n (home.bind Home.bucket?) := by
    rw [wheel]
    exact ⟨linked.wheel.count, linked.wheel.pending⟩
  have emptied : s'.wheel.expiredList.count n = 0 := by
    rw [wheel]
    rfl
  have counted : ∀ l, (s'.batch l).count n =
      if l = k then s.wheel.expiredList.count n else (s.batch l).count n := by
    intro l
    rw [batch, Function.update_apply]
    split <;> rfl
  have absent := linked.batch k
  rw [free] at absent
  by_cases here : home = some .expired
  · subst here
    refine ⟨some (.batch k), kept, emptied, fun l => ?_⟩
    rw [counted, linked.expired, linked.batch]
    simp only [if_true, reduceCtorEq, Option.some.injEq, Home.batch.injEq, if_false, eq_comm]
  · refine ⟨home, kept, by rw [emptied, if_neg here], fun l => ?_⟩
    rw [counted, linked.expired, linked.batch, if_neg here]
    split
    · rename_i taken
      rw [taken]
      exact absent
    · rfl

/-- A worker is done with the first node of its batch. -/
theorem LinkedIn.finish (linked : s.LinkedIn n home) {k : Nat} {rest : List NodeId}
    (first : s.batch k = m :: rest) (batch : s'.batch = Function.update s.batch k rest)
    (wheel : s'.wheel = s.wheel.finish m) : ∃ home', s'.LinkedIn n home' := by
  have expired : s'.wheel.expiredList = s.wheel.expiredList := by
    rw [wheel, TimerWheel.finish]
    split_ifs <;> rfl
  have counted : ∀ l, (s'.batch l).count n =
      if l = k then rest.count n else (s.batch l).count n := by
    intro l
    rw [batch, Function.update_apply]
    split <;> rfl
  have head := linked.batch k
  rw [first, List.count_cons] at head
  by_cases same : n = m
  · subst same
    rw [if_pos (beq_self_eq_true n)] at head
    have here : home = some (.batch k) := by
      by_contra elsewhere
      rw [if_neg elsewhere] at head
      omega
    subst here
    rw [if_pos rfl, Nat.add_eq_right] at head
    have left : ∀ l, (s'.batch l).count n = 0 := by
      intro l
      rw [counted, linked.batch]
      split
      · exact head
      · rename_i other
        exact if_neg fun eq => other (Home.batch.inj (Option.some.inj eq)).symm
    have unexpired : s'.wheel.expiredList.count n = 0 := by
      rw [expired, linked.expired]
      rfl
    obtain ⟨place, put⟩ := linked.wheel.finish
    rw [← wheel] at put
    rcases place with _ | b
    · exact ⟨none, put, unexpired, left⟩
    · exact ⟨some (.bucket b), put, unexpired, left⟩
  · rw [if_neg (by simpa using Ne.symm same), Nat.add_zero] at head
    refine ⟨home, ?_, expired ▸ linked.expired, fun l => ?_⟩
    · rw [wheel]
      exact linked.wheel.finish_of_ne same
    · rw [counted]
      split
      · rename_i here
        rw [here, head]
      · exact linked.batch l

/-- No node in the expired list or in a batch is armed, and none is initialised while linked. -/
def Careful (s : WheelThreads) : ThreadStep → Prop
  | .main =>
    match s.main with
    | .mod n _ => n ∉ s.wheel.expiredList ∧ ∀ k, n ∉ s.batch k
    | .add n _ => ∀ h, n ∉ s.list h
    | _ => True
  | _ => True

theorem linked_exec {step : ThreadStep} (linked : ∀ n, ∃ home, s.LinkedIn n home)
    (careful : s.Careful step) (exec : s.exec step = some s') :
    ∀ n, ∃ home, s'.LinkedIn n home := by
  intro n
  obtain ⟨home, linked⟩ := linked n
  have moved : ∀ main, ∃ home, ({ s with main := main } : WheelThreads).LinkedIn n home :=
    fun main => ⟨home, linked.wheel, linked.expired, linked.batch⟩
  cases step with
  | reset m timeoutMs =>
    rw [WheelThreads.exec] at exec
    split at exec
    · split at exec
      · cases exec
        exact moved _
      · cases exec
        exact ⟨home, linked⟩
    · cases exec
  | start m timeoutMs =>
    rw [WheelThreads.exec] at exec
    split at exec
    · cases exec
      exact moved _
    · cases exec
  | stop m =>
    rw [WheelThreads.exec] at exec
    split at exec
    · split at exec
      · cases exec
        exact moved _
      · cases exec
        exact ⟨home, linked⟩
    · cases exec
  | main =>
    rw [WheelThreads.exec, mainCall] at exec
    rw [Careful] at careful
    cases main : s.main with
    | idle =>
      rw [main] at exec
      cases exec
    | mod m timeoutMs =>
      rw [main] at exec careful
      cases exec
      exact linked.timerMod careful.1 careful.2 rfl rfl
    | del m restart =>
      rw [main] at exec
      cases exec
      exact linked.timerDel rfl rfl
    | add m timeoutMs =>
      rw [main] at exec careful
      cases exec
      exact linked.timerAdd careful rfl rfl
  | tick =>
    cases exec
    exact linked.tick rfl rfl
  | take k =>
    rw [WheelThreads.exec] at exec
    split at exec
    · rename_i ready
      cases exec
      exact linked.take ready.1 rfl rfl
    · cases exec
  | callback k =>
    rw [WheelThreads.exec] at exec
    split at exec
    · cases exec
      exact ⟨home, linked.wheel, linked.expired, linked.batch⟩
    · cases exec
  | finish k =>
    rw [WheelThreads.exec] at exec
    split at exec
    · rename_i first _
      cases exec
      exact linked.finish first rfl rfl
    · cases exec

end WheelThreads

/-! ## Runs -/

/-- Interleavings of careful steps from a new wheel. -/
inductive CarefulRun (tickMs : UInt32) (jiffies : UInt64) : WheelThreads → Prop
  | init {wheel : TimerWheel} :
    timerWheelCreate tickMs jiffies = some wheel → CarefulRun tickMs jiffies (.init wheel)
  | step {s s' : WheelThreads} {step : ThreadStep} :
    CarefulRun tickMs jiffies s → s.Careful step → s.exec step = some s' →
    CarefulRun tickMs jiffies s'

variable {tickMs : UInt32} {jiffies : UInt64} {s : WheelThreads}

theorem CarefulRun.linked (run : CarefulRun tickMs jiffies s) :
    ∀ n, ∃ home, s.LinkedIn n home := by
  induction run with
  | init created =>
    intro n
    obtain ⟨linked, empty, -⟩ := TimerWheel.at_timerWheelCreate created n
    refine ⟨none, linked, ?_, fun k => rfl⟩
    change (List.count n _) = 0
    rw [WheelThreads.init, empty]
    rfl
  | step _ careful exec ih => exact WheelThreads.linked_exec ih careful exec

/-- In every state of a careful run each node is linked at most once, and a pending one is linked
in exactly one bucket. -/
theorem linked_once_of_carefulRun (run : CarefulRun tickMs jiffies s) (n : NodeId) :
    ∃ home : Option Home, (∀ h, (s.list h).count n = if home = some h then 1 else 0) ∧
      ((s.wheel.nodes n).pending = true → ∃ b, home = some (.bucket b)) := by
  obtain ⟨home, linked⟩ := run.linked n
  exact ⟨home, linked.count, linked.pending_iff.mp⟩

/-- A timer of one tick expires and a worker takes its node. -/
theorem linked_once_of_carefulRun_expiry :
    ∃ s : WheelThreads, s.batch 0 = [0] ∧
      ∃ home : Option Home, ∀ h, (s.list h).count 0 = if home = some h then 1 else 0 := by
  have created := CarefulRun.init (rfl : timerWheelCreate 10 0 = _)
  have called := @CarefulRun.step _ _ _ _ (.start 0 10) created trivial rfl
  have started := @CarefulRun.step _ _ _ _ .main called ?_ rfl
  · have expired := @CarefulRun.step _ _ _ _ .tick started trivial rfl
    have taken := @CarefulRun.step _ _ _ _ (.take 0) expired trivial rfl
    obtain ⟨home, once, -⟩ := linked_once_of_carefulRun taken 0
    exact ⟨_, rfl, home, once⟩
  · intro h
    cases h <;> exact List.not_mem_nil

/-- A timer of one tick is reset while its node is on the expired list: the node is linked in a
bucket as well. -/
theorem exists_doubly_linked :
    ∃ wheel s, timerWheelCreate 10 0 = some wheel ∧
      [ThreadStep.start 0 10, .main, .tick, .reset 0 10, .main].foldlM WheelThreads.exec
        (.init wheel) = some s ∧
      0 ∈ s.list .expired ∧ 0 ∈ s.list (.bucket ⟨.tv1, 2⟩) := by
  refine ⟨_, _, rfl, rfl, ?_, ?_⟩
  · decide +kernel
  · decide +kernel

end Rsvp
