import RsvpTe.Lib.Slots
import Mathlib.Logic.Function.Basic

/-!
# The timer bridge (`rsvp_timers.c`)

Worker threads of the timer wheel turn an expiry into a message in a pipe; the main thread
reads the pipe and runs the user callback.  A registry of (timer, sequence number) pairs is
meant to recognise messages whose timer was stopped or restarted in between.

The bridge is a state with five kinds of step: `start`, `stop`, `reset` by the main thread,
`fire` by a worker (enabled while the timer is in the wheel) and `deliver`, one round of the
reading loop.  `Issued` is what makes a delivery fresh, and `GuardedRun.issued` shows that
every delivery is fresh in runs that never start or stop a timer whose expiry is unread.
-/

namespace Rsvp

/-- An `rsvp_timer_t*`. -/
abbrev TimerId : Type := Nat

/-- `struct active_timer_entry` and `struct timer_exp_msg`: a timer and a generation of it. -/
structure TimerMsg : Type where
  timer : TimerId
  seq : UInt64
  deriving DecidableEq, Repr

/-- The bridge: registry, sequence counter, the `active` and `seq` fields of every timer,
which timers are in the wheel, and the messages in the pipe, oldest first. -/
structure TimerBridge : Type where
  activeTimers : List (Option TimerMsg)
  globalTimerSeq : UInt64
  active : TimerId → Bool
  seq : TimerId → UInt64
  inWheel : TimerId → Bool
  pipe : List TimerMsg

def maxActiveTimers : Nat := 2048

def rsvpTimerInit : TimerBridge where
  activeTimers := List.replicate maxActiveTimers none
  globalTimerSeq := 1
  active := fun _ => false
  seq := fun _ => 0
  inWheel := fun _ => false
  pipe := []

namespace TimerBridge

/-- A full registry drops the registration. -/
def registerActiveTimer (s : TimerBridge) (timer : TimerId) (seq : UInt64) : TimerBridge :=
  { s with activeTimers := Slots.put ⟨timer, seq⟩ s.activeTimers }

def unregisterActiveTimer (s : TimerBridge) (timer : TimerId) : TimerBridge :=
  { s with activeTimers := Slots.clear (·.timer = timer) s.activeTimers }

def isTimerActiveAndMatches (s : TimerBridge) (timer : TimerId) (seq : UInt64) : Bool :=
  match Slots.find (·.timer = timer) s.activeTimers with
  | some entry => entry.seq = seq
  | none => false

/-- A worker runs the wheel callback: the timer leaves the wheel and its message enters the
pipe. -/
def internalWheelCb (s : TimerBridge) (timer : TimerId) : TimerBridge :=
  { s with
    inWheel := Function.update s.inWheel timer false
    active := Function.update s.active timer false
    pipe := s.pipe ++ [⟨timer, s.seq timer⟩] }

def rsvpTimerStop (s : TimerBridge) (timer : TimerId) : TimerBridge :=
  if s.active timer then
    let stopped := { s with
      inWheel := Function.update s.inWheel timer false
      active := Function.update s.active timer false }
    stopped.unregisterActiveTimer timer
  else s

/-- `added` tells whether `timer_add` succeeded. -/
def rsvpTimerStart (s : TimerBridge) (timer : TimerId) (added : Bool) : TimerBridge :=
  let idle := if s.active timer then s.rsvpTimerStop timer else s
  let next := idle.globalTimerSeq + 1
  let armed := { idle with
    active := Function.update idle.active timer true
    globalTimerSeq := next
    seq := Function.update idle.seq timer next }
  let registered := armed.registerActiveTimer timer next
  if added then { registered with inWheel := Function.update registered.inWheel timer true }
  else
    { registered with active := Function.update registered.active timer false }
      |>.unregisterActiveTimer timer

/-- `timer_mod` puts the node of an active timer back into the wheel. -/
def rsvpTimerReset (s : TimerBridge) (timer : TimerId) : TimerBridge :=
  if s.active timer then { s with inWheel := Function.update s.inWheel timer true } else s

/-- The user callback the next round of `rsvp_timer_handle_exp` runs, if any. -/
def invoked (s : TimerBridge) : Option TimerMsg :=
  match s.pipe with
  | [] => none
  | msg :: _ => if s.isTimerActiveAndMatches msg.timer msg.seq then some msg else none

/-- One round of `rsvp_timer_handle_exp`. -/
def rsvpTimerHandleExp (s : TimerBridge) : TimerBridge :=
  match s.pipe with
  | [] => s
  | msg :: rest =>
    if s.isTimerActiveAndMatches msg.timer msg.seq then
      { s with pipe := rest }.unregisterActiveTimer msg.timer
    else { s with pipe := rest }

end TimerBridge

/-! ## Runs -/

/-- The steps of the bridge. -/
inductive TimerAction : Type
  | start (timer : TimerId) (added : Bool)
  | stop (timer : TimerId)
  | reset (timer : TimerId)
  | fire (timer : TimerId)
  | deliver
  deriving DecidableEq, Repr

/-- The timer a `start` or `stop` is called on. -/
def TimerAction.touched : TimerAction → Option TimerId
  | .start t _ => some t
  | .stop t => some t
  | _ => none

/-- One step; `fire` is enabled only while its timer is in the wheel. -/
def TimerBridge.exec (s : TimerBridge) : TimerAction → Option TimerBridge
  | .start t added => some (s.rsvpTimerStart t added)
  | .stop t => some (s.rsvpTimerStop t)
  | .reset t => some (s.rsvpTimerReset t)
  | .fire t => if s.inWheel t then some (s.internalWheelCb t) else none
  | .deliver => some s.rsvpTimerHandleExp

/-- The state a sequence of steps leads to. -/
def timerRun (trace : List TimerAction) : Option TimerBridge :=
  trace.foldlM TimerBridge.exec rsvpTimerInit

/-- A `start` of the run issued `msg.seq` to its timer, and no `start` or `stop` of that timer
came after it. -/
def Issued (trace : List TimerAction) (msg : TimerMsg) : Prop :=
  ∃ before added after s, trace = before ++ .start msg.timer added :: after ∧
    timerRun before = some s ∧ (s.rsvpTimerStart msg.timer added).seq msg.timer = msg.seq ∧
    ∀ a ∈ after, a.touched ≠ some msg.timer

/-- No message of the timer that would still be acted on is unread in the pipe. -/
def TimerBridge.Quiet (s : TimerBridge) (timer : TimerId) : Prop :=
  ∀ msg ∈ s.pipe, msg.timer = timer → s.isTimerActiveAndMatches timer msg.seq = false

/-- Runs in which a timer is started or stopped only while it is quiet. -/
inductive GuardedRun : List TimerAction → TimerBridge → Prop
  | init : GuardedRun [] rsvpTimerInit
  | step {trace : List TimerAction} {s s' : TimerBridge} {a : TimerAction} :
    GuardedRun trace s → (∀ t, a.touched = some t → s.Quiet t) → s.exec a = some s' →
    GuardedRun (trace ++ [a]) s'

theorem GuardedRun.timerRun {trace : List TimerAction} {s : TimerBridge}
    (run : GuardedRun trace s) : timerRun trace = some s := by
  induction run with
  | init => rfl
  | step _ _ exec ih =>
    rw [Rsvp.timerRun, List.foldlM_append]
    rw [Rsvp.timerRun] at ih
    rw [ih]
    simpa only [Option.bind_eq_bind, Option.bind_some, List.foldlM_cons, List.foldlM_nil,
      bind_pure] using exec

/-! ## What a guarded run keeps -/

namespace TimerBridge

/-- The registry entries. -/
def registered (s : TimerBridge) : List TimerMsg := Slots.entries s.activeTimers

theorem registered_init : rsvpTimerInit.registered = [] := by
  simp only [registered, Slots.entries, rsvpTimerInit, List.filterMap_replicate_of_none, id]

theorem registered_unregister (s : TimerBridge) (timer : TimerId) :
    (s.unregisterActiveTimer timer).registered = s.registered.eraseP (·.timer = timer) :=
  Slots.entries_clear _ _

theorem registered_register (s : TimerBridge) (timer : TimerId) (seq : UInt64) :
    (s.registerActiveTimer timer seq).registered = s.registered ∨
      (s.registerActiveTimer timer seq).registered.Perm (⟨timer, seq⟩ :: s.registered) :=
  Slots.entries_put _ _

/-- A start leaves the timer stopped first. -/
theorem stopped_if_active (s : TimerBridge) (timer : TimerId) :
    (if s.active timer then s.rsvpTimerStop timer else s) = s.rsvpTimerStop timer := by
  unfold rsvpTimerStop
  split
  · rfl
  · rfl

theorem started_added (s : TimerBridge) (timer : TimerId) :
    (s.rsvpTimerStart timer true).registered = ((s.rsvpTimerStop timer).registerActiveTimer timer
        ((s.rsvpTimerStop timer).globalTimerSeq + 1)).registered ∧
      (s.rsvpTimerStart timer true).active =
        Function.update (s.rsvpTimerStop timer).active timer true ∧
      (s.rsvpTimerStart timer true).seq = Function.update (s.rsvpTimerStop timer).seq timer
        ((s.rsvpTimerStop timer).globalTimerSeq + 1) ∧
      (s.rsvpTimerStart timer true).pipe = (s.rsvpTimerStop timer).pipe := by
  rw [rsvpTimerStart, stopped_if_active]
  exact ⟨rfl, rfl, rfl, rfl⟩

/-- A start that the wheel refuses takes its entry back. -/
theorem started_refused (s : TimerBridge) (timer : TimerId) :
    (s.rsvpTimerStart timer false).registered = ((s.rsvpTimerStop timer).registerActiveTimer timer
        ((s.rsvpTimerStop timer).globalTimerSeq + 1)).registered.eraseP (·.timer = timer) ∧
      (∀ other, other ≠ timer →
        (s.rsvpTimerStart timer false).active other = (s.rsvpTimerStop timer).active other ∧
        (s.rsvpTimerStart timer false).seq other = (s.rsvpTimerStop timer).seq other) ∧
      (s.rsvpTimerStart timer false).pipe = (s.rsvpTimerStop timer).pipe := by
  rw [rsvpTimerStart, stopped_if_active]
  refine ⟨registered_unregister _ _, ?_, rfl⟩
  intro other ne
  constructor
  · exact (Function.update_of_ne ne _ _).trans (Function.update_of_ne ne _ _)
  · exact Function.update_of_ne ne _ _

/-- The registry holds at most one entry per timer. -/
def Distinct (s : TimerBridge) : Prop := (s.registered.map TimerMsg.timer).Nodup

/-- A message that is acted on is a registry entry. -/
theorem mem_registered_of_matches {s : TimerBridge} {msg : TimerMsg}
    (found : s.isTimerActiveAndMatches msg.timer msg.seq = true) : msg ∈ s.registered := by
  rw [isTimerActiveAndMatches, Slots.find_eq] at found
  cases first : (Slots.entries s.activeTimers).find? (·.timer = msg.timer) with
  | none =>
    rw [first] at found
    cases found
  | some entry =>
    rw [first] at found
    have timer : entry.timer = msg.timer := by simpa using List.find?_some first
    have seq : entry.seq = msg.seq := by simpa using found
    have same : entry = msg := by
      cases entry
      cases msg
      simp_all
    exact same ▸ List.mem_of_find?_eq_some first

/-- With distinct entries, every registry entry is acted on. -/
theorem matches_of_mem_registered {s : TimerBridge} (distinct : s.Distinct) {msg : TimerMsg}
    (mem : msg ∈ s.registered) : s.isTimerActiveAndMatches msg.timer msg.seq = true := by
  have first : (Slots.entries s.activeTimers).find? (·.timer = msg.timer) = some msg :=
    Slots.find?_key_of_mem TimerMsg.timer distinct mem
  rw [isTimerActiveAndMatches, Slots.find_eq, first]
  exact decide_eq_true rfl

end TimerBridge

theorem Issued.snoc {trace : List TimerAction} {msg : TimerMsg} (issued : Issued trace msg)
    {a : TimerAction} (other : a.touched ≠ some msg.timer) : Issued (trace ++ [a]) msg := by
  obtain ⟨before, added, after, s, shape, run, seq, untouched⟩ := issued
  refine ⟨before, added, after ++ [a], s, ?_, run, seq, ?_⟩
  · rw [shape, List.append_assoc, List.cons_append]
  · intro b mem
    rcases List.mem_append.mp mem with early | last
    · exact untouched b early
    · rw [List.mem_singleton.mp last]
      exact other

/-- The invariant: every registry entry is the current generation of its timer, and its timer
is either running with that generation or has left it in the pipe. -/
structure Tracked (trace : List TimerAction) (s : TimerBridge) : Prop where
  issued : ∀ msg ∈ s.registered, Issued trace msg
  distinct : s.Distinct
  pending : ∀ msg ∈ s.registered,
    (s.active msg.timer = true ∧ s.seq msg.timer = msg.seq) ∨ msg ∈ s.pipe

namespace Tracked

variable {trace : List TimerAction} {s : TimerBridge}

/-- A quiet timer that is not running has no registry entry. -/
theorem unregistered (tracked : Tracked trace s) {timer : TimerId} (quiet : s.Quiet timer)
    (idle : s.active timer = false) : ∀ msg ∈ s.registered, msg.timer ≠ timer := by
  rintro msg mem rfl
  rcases tracked.pending msg mem with ⟨running, -⟩ | unread
  · rw [idle] at running
    cases running
  · have acted := TimerBridge.matches_of_mem_registered tracked.distinct mem
    rw [quiet msg unread rfl] at acted
    cases acted

/-- What a completed `stop` leaves: no entry of the timer, and every other timer as it was. -/
theorem stop (tracked : Tracked trace s) {timer : TimerId} (quiet : s.Quiet timer) :
    (∀ msg ∈ (s.rsvpTimerStop timer).registered, msg ∈ s.registered ∧ msg.timer ≠ timer) ∧
      (s.rsvpTimerStop timer).Distinct ∧ (s.rsvpTimerStop timer).pipe = s.pipe ∧
      (∀ other, other ≠ timer → (s.rsvpTimerStop timer).active other = s.active other) ∧
      (s.rsvpTimerStop timer).seq = s.seq := by
  unfold TimerBridge.rsvpTimerStop
  cases running : s.active timer with
  | false =>
    exact ⟨fun msg mem => ⟨mem, tracked.unregistered quiet running msg mem⟩, tracked.distinct,
      rfl, fun _ _ => rfl, rfl⟩
  | true =>
    refine ⟨?_, ?_, rfl, ?_, rfl⟩
    · intro msg mem
      rw [if_pos rfl, TimerBridge.registered_unregister] at mem
      exact ⟨List.mem_of_mem_eraseP mem,
        Slots.key_ne_of_mem_eraseP TimerMsg.timer timer tracked.distinct mem⟩
    · rw [if_pos rfl, TimerBridge.Distinct, TimerBridge.registered_unregister]
      exact Slots.nodup_map_eraseP TimerMsg.timer _ tracked.distinct
    · intro other ne
      exact Function.update_of_ne ne _ _

/-- A state whose entries are old ones of timers the step did not touch stays tracked. -/
theorem keep (tracked : Tracked trace s) {s' : TimerBridge} {a : TimerAction}
    (old : ∀ msg ∈ s'.registered, msg ∈ s.registered ∧ a.touched ≠ some msg.timer)
    (distinct : s'.Distinct)
    (pending : ∀ msg ∈ s'.registered, ((s.active msg.timer = true ∧
        s.seq msg.timer = msg.seq) ∨ msg ∈ s.pipe) →
      (s'.active msg.timer = true ∧ s'.seq msg.timer = msg.seq) ∨ msg ∈ s'.pipe) :
    Tracked (trace ++ [a]) s' where
  issued msg mem := (tracked.issued msg (old msg mem).1).snoc (old msg mem).2
  distinct := distinct
  pending msg mem := pending msg mem (tracked.pending msg (old msg mem).1)

theorem exec_stop (tracked : Tracked trace s) {timer : TimerId} (quiet : s.Quiet timer) :
    Tracked (trace ++ [.stop timer]) (s.rsvpTimerStop timer) := by
  obtain ⟨old, distinct, pipe, active, seq⟩ := tracked.stop quiet
  refine tracked.keep (fun msg mem => ⟨(old msg mem).1, ?_⟩) distinct ?_
  · exact fun same => (old msg mem).2 (Option.some.inj same).symm
  · intro msg mem was
    rwa [pipe, seq, active _ (old msg mem).2]

/-- The registration of a stopped timer adds its entry, or is dropped by a full registry. -/
theorem register (tracked : Tracked trace s) {timer : TimerId} (quiet : s.Quiet timer)
    (seq : UInt64) :
    ((s.rsvpTimerStop timer).registerActiveTimer timer seq).Distinct ∧
      ∀ msg ∈ ((s.rsvpTimerStop timer).registerActiveTimer timer seq).registered,
        msg = ⟨timer, seq⟩ ∨ (msg ∈ s.registered ∧ msg.timer ≠ timer) := by
  obtain ⟨old, distinct, -⟩ := tracked.stop quiet
  rcases (s.rsvpTimerStop timer).registered_register timer seq with same | perm
  · rw [TimerBridge.Distinct, same]
    exact ⟨distinct, fun msg mem => .inr (old msg mem)⟩
  · constructor
    · apply (perm.map TimerMsg.timer).nodup_iff.mpr
      rw [List.map_cons, List.nodup_cons]
      refine ⟨fun mem => ?_, distinct⟩
      obtain ⟨msg, mem, same⟩ := List.mem_map.mp mem
      exact (old msg mem).2 same
    · intro msg mem
      exact (List.mem_cons.mp (perm.mem_iff.mp mem)).imp_right (old msg)

theorem untouched_start {timer other : TimerId} {added : Bool} (ne : other ≠ timer) :
    (TimerAction.start timer added).touched ≠ some other :=
  fun same => ne (Option.some.inj same).symm

theorem exec_start_added (tracked : Tracked trace s) (run : timerRun trace = some s)
    {timer : TimerId} (quiet : s.Quiet timer) :
    Tracked (trace ++ [.start timer true]) (s.rsvpTimerStart timer true) := by
  obtain ⟨-, -, pipe, active, seq⟩ := tracked.stop quiet
  obtain ⟨registered, activeOf, seqOf, pipeOf⟩ := s.started_added timer
  obtain ⟨distinct, split⟩ := tracked.register quiet ((s.rsvpTimerStop timer).globalTimerSeq + 1)
  have isIssued : Issued (trace ++ [.start timer true])
      ⟨timer, (s.rsvpTimerStop timer).globalTimerSeq + 1⟩ := by
    refine ⟨trace, true, [], s, rfl, run, ?_, fun _ mem => by cases mem⟩
    rw [seqOf]
    exact Function.update_self _ _ _
  rw [← registered] at split
  refine ⟨?_, ?_, ?_⟩
  · intro msg mem
    rcases split msg mem with rfl | ⟨was, ne⟩
    · exact isIssued
    · exact (tracked.issued msg was).snoc (untouched_start ne)
  · rw [TimerBridge.Distinct, registered]
    exact distinct
  · intro msg mem
    rw [activeOf, seqOf, pipeOf, pipe]
    rcases split msg mem with rfl | ⟨was, ne⟩
    · exact .inl ⟨Function.update_self _ _ _, Function.update_self _ _ _⟩
    · rw [Function.update_of_ne ne, Function.update_of_ne ne, active _ ne, seq]
      exact tracked.pending msg was

theorem exec_start_refused (tracked : Tracked trace s) {timer : TimerId} (quiet : s.Quiet timer) :
    Tracked (trace ++ [.start timer false]) (s.rsvpTimerStart timer false) := by
  obtain ⟨-, -, pipe, active, seq⟩ := tracked.stop quiet
  obtain ⟨registered, others, pipeOf⟩ := s.started_refused timer
  obtain ⟨distinct, split⟩ := tracked.register quiet ((s.rsvpTimerStop timer).globalTimerSeq + 1)
  have left : ∀ msg ∈ (s.rsvpTimerStart timer false).registered,
      msg ∈ s.registered ∧ msg.timer ≠ timer := by
    intro msg mem
    rw [registered] at mem
    have ne := Slots.key_ne_of_mem_eraseP TimerMsg.timer timer distinct mem
    rcases split msg (List.mem_of_mem_eraseP mem) with rfl | old
    · exact absurd rfl ne
    · exact old
  refine tracked.keep (fun msg mem => ⟨(left msg mem).1, untouched_start (left msg mem).2⟩) ?_ ?_
  · rw [TimerBridge.Distinct, registered]
    exact Slots.nodup_map_eraseP TimerMsg.timer _ distinct
  · intro msg mem was
    have ne := (left msg mem).2
    rwa [(others _ ne).1, (others _ ne).2, pipeOf, pipe, active _ ne, seq]

theorem exec_start (tracked : Tracked trace s) (run : timerRun trace = some s)
    {timer : TimerId} (added : Bool) (quiet : s.Quiet timer) :
    Tracked (trace ++ [.start timer added]) (s.rsvpTimerStart timer added) := by
  cases added with
  | true => exact tracked.exec_start_added run quiet
  | false => exact tracked.exec_start_refused quiet

theorem exec_reset (tracked : Tracked trace s) (timer : TimerId) :
    Tracked (trace ++ [.reset timer]) (s.rsvpTimerReset timer) := by
  unfold TimerBridge.rsvpTimerReset
  split
  all_goals
    exact tracked.keep (fun msg mem => ⟨mem, (by rintro ⟨⟩)⟩) tracked.distinct (fun _ _ was => was)

theorem exec_fire (tracked : Tracked trace s) (timer : TimerId) :
    Tracked (trace ++ [.fire timer]) (s.internalWheelCb timer) := by
  refine tracked.keep (fun msg mem => ⟨mem, (by rintro ⟨⟩)⟩) tracked.distinct ?_
  intro msg mem was
  rcases was with ⟨running, seq⟩ | unread
  · by_cases same : msg.timer = timer
    · subst same
      have fired : msg = ⟨msg.timer, s.seq msg.timer⟩ := by rw [seq]
      exact .inr (List.mem_append.mpr (.inr (List.mem_singleton.mpr fired)))
    · exact .inl ⟨(Function.update_of_ne same _ _).trans running, seq⟩
  · exact .inr (List.mem_append.mpr (.inl unread))

theorem exec_deliver (tracked : Tracked trace s) :
    Tracked (trace ++ [.deliver]) s.rsvpTimerHandleExp := by
  unfold TimerBridge.rsvpTimerHandleExp
  cases read : s.pipe with
  | nil =>
    exact tracked.keep (fun msg mem => ⟨mem, (by rintro ⟨⟩)⟩) tracked.distinct (fun _ _ was => was)
  | cons head rest =>
    simp only
    -- A message that is read and not acted on is not a registry entry.
    split
    · have registered : ({ s with pipe := rest }.unregisterActiveTimer head.timer).registered =
          s.registered.eraseP (·.timer = head.timer) := TimerBridge.registered_unregister _ _
      refine tracked.keep (fun msg mem => ⟨?_, (by rintro ⟨⟩)⟩) ?_ ?_
      · rw [registered] at mem
        exact List.mem_of_mem_eraseP mem
      · rw [TimerBridge.Distinct, registered]
        exact Slots.nodup_map_eraseP TimerMsg.timer _ tracked.distinct
      · intro msg mem was
        rw [registered] at mem
        have ne := Slots.key_ne_of_mem_eraseP TimerMsg.timer head.timer tracked.distinct mem
        rcases was with running | unread
        · exact .inl running
        · rw [read] at unread
          rcases List.mem_cons.mp unread with rfl | later
          · exact absurd rfl ne
          · exact .inr later
    · rename_i ignored
      refine tracked.keep (fun msg mem => ⟨mem, (by rintro ⟨⟩)⟩) tracked.distinct ?_
      intro msg mem was
      rcases was with running | unread
      · exact .inl running
      · rw [read] at unread
        rcases List.mem_cons.mp unread with rfl | later
        · exact absurd (TimerBridge.matches_of_mem_registered tracked.distinct mem) ignored
        · exact .inr later

end Tracked

/-- Every guarded run keeps the invariant. -/
theorem GuardedRun.tracked {trace : List TimerAction} {s : TimerBridge}
    (run : GuardedRun trace s) : Tracked trace s := by
  induction run with
  | init =>
    have empty := TimerBridge.registered_init
    refine ⟨?_, ?_, ?_⟩
    · rw [empty]
      exact fun _ mem => by cases mem
    · rw [TimerBridge.Distinct, empty]
      exact List.nodup_nil
    · rw [empty]
      exact fun _ mem => by cases mem
  | @step trace s s' a before quiet exec tracked =>
    cases a with
    | start timer added =>
      cases exec
      exact tracked.exec_start before.timerRun added (quiet timer rfl)
    | stop timer =>
      cases exec
      exact tracked.exec_stop (quiet timer rfl)
    | reset timer =>
      cases exec
      exact tracked.exec_reset timer
    | fire timer =>
      rw [TimerBridge.exec] at exec
      split at exec
      · cases exec
        exact tracked.exec_fire timer
      · cases exec
    | deliver =>
      cases exec
      exact tracked.exec_deliver

/-- In a run that starts and stops timers only while they are quiet, every callback belongs to
the current generation of its timer. -/
theorem invoked_issued_of_guardedRun {trace : List TimerAction} {s : TimerBridge}
    (run : GuardedRun trace s) {msg : TimerMsg} (invoked : s.invoked = some msg) :
    Issued trace msg := by
  have tracked := run.tracked
  unfold TimerBridge.invoked at invoked
  cases read : s.pipe with
  | nil =>
    rw [read] at invoked
    cases invoked
  | cons head rest =>
    rw [read] at invoked
    simp only at invoked
    split at invoked
    · rename_i acted
      cases invoked
      exact tracked.issued msg (TimerBridge.mem_registered_of_matches acted)
    · cases invoked

/-- A timer that expires undisturbed. -/
theorem invoked_issued_of_guardedRun_expiry :
    GuardedRun [.start 0 true, .fire 0]
        ((rsvpTimerInit.rsvpTimerStart 0 true).internalWheelCb 0) ∧
      ((rsvpTimerInit.rsvpTimerStart 0 true).internalWheelCb 0).invoked = some ⟨0, 2⟩ ∧
      Issued [.start 0 true, .fire 0] ⟨0, 2⟩ := by
  have started : GuardedRun [.start 0 true] (rsvpTimerInit.rsvpTimerStart 0 true) :=
    GuardedRun.init.step (fun _ _ _ mem => by cases mem) rfl
  have fired : GuardedRun [.start 0 true, .fire 0]
      ((rsvpTimerInit.rsvpTimerStart 0 true).internalWheelCb 0) :=
    started.step (fun _ touched => by cases touched) rfl
  exact ⟨fired, rfl, invoked_issued_of_guardedRun fired rfl⟩

/-- The refresh timer 0 and the cleanup timer 1 of one state block expire in one batch; the
cleanup callback stops the refresh timer before the block is freed. -/
def batchExpiry : List TimerAction :=
  [.start 0 true, .start 1 true, .fire 1, .fire 0, .deliver, .stop 0]

/-- The refresh callback runs although its timer was stopped. -/
theorem exists_stale_invoked :
    ∃ trace s msg, timerRun trace = some s ∧ s.invoked = some msg ∧ ¬ Issued trace msg := by
  refine ⟨batchExpiry, _, ⟨0, 2⟩, rfl, rfl, ?_⟩
  rintro ⟨before, added, after, s, shape, -, -, untouched⟩
  have last := congrArg List.getLast? shape
  cases after with
  | nil =>
    rw [List.getLast?_append_cons] at last
    cases last
  | cons a after =>
    rw [List.getLast?_append_cons, List.getLast?_cons_cons] at last
    have stopped : TimerAction.stop 0 ∈ a :: after := List.mem_of_getLast? last.symm
    exact untouched _ stopped rfl

end Rsvp
