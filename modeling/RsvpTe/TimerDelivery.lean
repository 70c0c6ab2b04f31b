import RsvpTe.Timers

/-!
# Which expiries are delivered

A message is acted on if it names the first registry entry of its timer.  Between the start of a
generation and the reading of its message only the messages of the same timer that are read
before change the entries of the timer, so whether the message is acted on is settled when the
generation is started: `invoked_iff_first`.
-/

namespace Rsvp

/-- The timer that an action of the main thread starts, stops or resets. -/
def TimerAction.disturbs : TimerAction → Option TimerId
  | .start t _ => some t
  | .stop t => some t
  | .reset t => some t
  | _ => none

/-- The sequence numbers of a timer in a list of messages. -/
def seqsOf (t : TimerId) (msgs : List TimerMsg) : List UInt64 :=
  (msgs.filter (·.timer = t)).map TimerMsg.seq

/-- The entries of a timer that are left when messages of it are read: each message removes the
first entry if that has its number. -/
def remaining (entries unread : List UInt64) : List UInt64 :=
  unread.foldl (fun left seq => if left.head? = some seq then left.tail else left) entries

theorem seqsOf_append (t : TimerId) (front back : List TimerMsg) :
    seqsOf t (front ++ back) = seqsOf t front ++ seqsOf t back := by
  rw [seqsOf, List.filter_append, List.map_append]
  rfl

theorem seqsOf_cons_self {t : TimerId} {msg : TimerMsg} (own : msg.timer = t)
    (msgs : List TimerMsg) : seqsOf t (msg :: msgs) = msg.seq :: seqsOf t msgs := by
  rw [seqsOf, List.filter_cons_of_pos (by simpa using own)]
  rfl

theorem seqsOf_cons_of_ne {t : TimerId} {msg : TimerMsg} (other : msg.timer ≠ t)
    (msgs : List TimerMsg) : seqsOf t (msg :: msgs) = seqsOf t msgs := by
  rw [seqsOf, List.filter_cons_of_neg (by simpa using other)]
  rfl

namespace TimerBridge

variable {s s' : TimerBridge} {t u : TimerId}

/-- The numbers registered for a timer, in slot order. -/
def generations (s : TimerBridge) (t : TimerId) : List UInt64 := seqsOf t s.registered

theorem matches_iff (s : TimerBridge) (t : TimerId) (seq : UInt64) :
    s.isTimerActiveAndMatches t seq = true ↔ (s.generations t).head? = some seq := by
  rw [isTimerActiveAndMatches, Slots.find_eq, generations, seqsOf, List.head?_map, List.head?_filter]
  change _ ↔ Option.map _ ((Slots.entries s.activeTimers).find? _) = _
  cases (Slots.entries s.activeTimers).find? (·.timer = t) with
  | none => exact ⟨(by rintro ⟨⟩), (by rintro ⟨⟩)⟩
  | some entry => simp only [decide_eq_true_eq, Option.map_some, Option.some.injEq]

theorem generations_unregister_self (s : TimerBridge) (t : TimerId) :
    (s.unregisterActiveTimer t).generations t = (s.generations t).tail := by
  rw [generations, registered_unregister, seqsOf, Slots.filter_eraseP_self, List.map_tail]
  rfl

theorem generations_unregister_of_ne (s : TimerBridge) (other : u ≠ t) :
    (s.unregisterActiveTimer u).generations t = s.generations t := by
  rw [generations, registered_unregister, seqsOf, Slots.filter_eraseP_of_disjoint]
  · rfl
  · intro msg own
    have same : msg.timer = u := of_decide_eq_true own
    exact decide_eq_false (same ▸ other)

theorem generations_register_of_ne (s : TimerBridge) (seq : UInt64) (other : u ≠ t) :
    (s.registerActiveTimer u seq).generations t = s.generations t :=
  congrArg (List.map TimerMsg.seq)
    (Slots.filter_entries_put (fun msg => decide (msg.timer = t)) (decide_eq_false other)
      s.activeTimers)

theorem generations_stop_of_ne (s : TimerBridge) (other : u ≠ t) :
    (s.rsvpTimerStop u).generations t = s.generations t ∧
      (s.rsvpTimerStop u).seq = s.seq ∧ (s.rsvpTimerStop u).pipe = s.pipe ∧
      (s.rsvpTimerStop u).inWheel t = s.inWheel t := by
  rw [rsvpTimerStop]
  split
  · exact ⟨generations_unregister_of_ne _ other, rfl, rfl,
      Function.update_of_ne other.symm ..⟩
  · exact ⟨rfl, rfl, rfl, rfl⟩

theorem generations_start_of_ne (s : TimerBridge) (added : Bool) (other : u ≠ t) :
    (s.rsvpTimerStart u added).generations t = s.generations t ∧
      (s.rsvpTimerStart u added).seq t = s.seq t ∧ (s.rsvpTimerStart u added).pipe = s.pipe ∧
      (s.rsvpTimerStart u added).inWheel t = s.inWheel t := by
  have idle : ∃ idle : TimerBridge, (if s.active u then s.rsvpTimerStop u else s) = idle ∧
      idle.generations t = s.generations t ∧ idle.seq = s.seq ∧ idle.pipe = s.pipe ∧
      idle.inWheel t = s.inWheel t := by
    refine ⟨_, rfl, ?_⟩
    split
    · exact generations_stop_of_ne s other
    · exact ⟨rfl, rfl, rfl, rfl⟩
  obtain ⟨idle, eq, kept, seq, pipe, inWheel⟩ := idle
  rw [rsvpTimerStart, eq]
  have armed := generations_register_of_ne { idle with
    active := Function.update idle.active u true
    globalTimerSeq := idle.globalTimerSeq + 1
    seq := Function.update idle.seq u (idle.globalTimerSeq + 1) } (idle.globalTimerSeq + 1) other
  have numbered : Function.update idle.seq u (idle.globalTimerSeq + 1) t = s.seq t := by
    rw [Function.update_of_ne other.symm, seq]
  cases added with
  | true =>
    refine ⟨armed.trans kept, numbered, pipe, ?_⟩
    rw [← inWheel]
    exact Function.update_of_ne other.symm ..
  | false =>
    refine ⟨?_, numbered, pipe, inWheel⟩
    exact (generations_unregister_of_ne _ other).trans (armed.trans kept)

/-- Reading a message of the timer uses up its first entry if that has the same number. -/
theorem generations_handleExp {msg : TimerMsg} {rest : List TimerMsg}
    (read : s.pipe = msg :: rest) :
    s.rsvpTimerHandleExp.pipe = rest ∧ s.rsvpTimerHandleExp.seq = s.seq ∧
      s.rsvpTimerHandleExp.inWheel = s.inWheel ∧
      s.rsvpTimerHandleExp.generations t =
        remaining (s.generations t) (seqsOf t [msg]) := by
  rw [rsvpTimerHandleExp, read]
  dsimp only
  by_cases own : msg.timer = t
  · rw [seqsOf_cons_self own]
    split
    · rename_i acted
      rw [own, matches_iff] at acted
      refine ⟨rfl, rfl, rfl, ?_⟩
      rw [own, generations_unregister_self]
      exact (if_pos acted).symm
    · rename_i ignored
      rw [own, matches_iff] at ignored
      exact ⟨rfl, rfl, rfl, (if_neg ignored).symm⟩
  · rw [seqsOf_cons_of_ne own]
    split
    · exact ⟨rfl, rfl, rfl, generations_unregister_of_ne _ own⟩
    · exact ⟨rfl, rfl, rfl, rfl⟩

/-- A step other than a delivery that does not disturb a timer leaves its entries alone. -/
theorem generations_exec {a : TimerAction} (exec : s.exec a = some s')
    (quiet : a.disturbs ≠ some t) (other : a ≠ .deliver) :
    s'.generations t = s.generations t ∧ s'.seq t = s.seq t ∧
      (s.inWheel t = false → s'.inWheel t = false) ∧
      ∃ sent, s'.pipe = s.pipe ++ sent ∧ (a ≠ .fire t → seqsOf t sent = []) := by
  have none : s.pipe = s.pipe ++ [] := (List.append_nil _).symm
  cases a with
  | start u added =>
    cases exec
    obtain ⟨kept, seq, pipe, inWheel⟩ := generations_start_of_ne s added
      fun same : u = t => quiet (congrArg some same)
    exact ⟨kept, seq, inWheel.trans, [], pipe.trans none, fun _ => rfl⟩
  | stop u =>
    cases exec
    obtain ⟨kept, seq, pipe, inWheel⟩ := generations_stop_of_ne s
      fun same : u = t => quiet (congrArg some same)
    exact ⟨kept, congrFun seq t, inWheel.trans, [], pipe.trans none, fun _ => rfl⟩
  | reset u =>
    cases exec
    rw [rsvpTimerReset]
    split
    · refine ⟨rfl, rfl, fun out => ?_, [], none, fun _ => rfl⟩
      rw [← out]
      exact Function.update_of_ne (fun same : t = u => quiet (congrArg some same.symm)) ..
    · exact ⟨rfl, rfl, id, [], none, fun _ => rfl⟩
  | fire u =>
    rw [TimerBridge.exec] at exec
    split at exec
    · cases exec
      refine ⟨rfl, rfl, fun out => ?_, [⟨u, s.seq u⟩], rfl, fun differs => ?_⟩
      · change Function.update s.inWheel u false t = false
        rw [Function.update_apply, out, ite_self]
      · exact seqsOf_cons_of_ne (fun same => differs (congrArg TimerAction.fire same)) []
    · cases exec
  | deliver => exact absurd rfl other

end TimerBridge

/-! ## Runs -/

section Runs

variable {s f d : TimerBridge} {t : TimerId}

theorem remaining_append (entries front back : List UInt64) :
    remaining entries (front ++ back) = remaining (remaining entries front) back :=
  List.foldl_append

theorem foldlM_cons_eq_some {a : TimerAction} {trace : List TimerAction}
    (run : (a :: trace).foldlM TimerBridge.exec s = some d) :
    ∃ s', s.exec a = some s' ∧ trace.foldlM TimerBridge.exec s' = some d :=
  Option.bind_eq_some_iff.mp run

/-- A timer that has left the wheel stays out of it until it is started or reset. -/
theorem inWheel_run {trace : List TimerAction}
    (run : trace.foldlM TimerBridge.exec s = some d)
    (quiet : ∀ a ∈ trace, a.disturbs ≠ some t) (out : s.inWheel t = false) :
    d.inWheel t = false := by
  induction trace generalizing s with
  | nil =>
    cases run
    exact out
  | cons a trace ih =>
    obtain ⟨s', exec, run⟩ := foldlM_cons_eq_some run
    refine ih run (fun b mem => quiet b (List.mem_cons_of_mem _ mem)) ?_
    by_cases delivers : a = .deliver
    · subst delivers
      cases exec
      cases read : s.pipe with
      | nil =>
        rw [TimerBridge.rsvpTimerHandleExp, read]
        exact out
      | cons msg rest =>
        obtain ⟨-, -, inWheel, -⟩ := @TimerBridge.generations_handleExp s t msg rest read
        rw [inWheel]
        exact out
    · exact (TimerBridge.generations_exec exec (quiet a List.mem_cons_self) delivers).2.2.1 out

/-- Until the timer fires, what the unread messages will leave of its entries stays the same. -/
theorem remaining_run {trace : List TimerAction}
    (run : trace.foldlM TimerBridge.exec s = some f)
    (quiet : ∀ a ∈ trace, a.disturbs ≠ some t) (armed : f.inWheel t = true) :
    remaining (f.generations t) (seqsOf t f.pipe) = remaining (s.generations t) (seqsOf t s.pipe) ∧
      f.seq t = s.seq t := by
  induction trace generalizing s with
  | nil =>
    cases run
    exact ⟨rfl, rfl⟩
  | cons a trace ih =>
    obtain ⟨s', exec, run⟩ := foldlM_cons_eq_some run
    have later : ∀ a ∈ trace, a.disturbs ≠ some t := fun b mem =>
      quiet b (List.mem_cons_of_mem _ mem)
    obtain ⟨left, seq⟩ := ih run later
    rw [left, seq]
    by_cases delivers : a = .deliver
    · subst delivers
      cases exec
      cases read : s.pipe with
      | nil =>
        rw [TimerBridge.rsvpTimerHandleExp, read]
        dsimp only
        rw [read]
        exact ⟨rfl, rfl⟩
      | cons msg rest =>
        obtain ⟨pipe, seq, -, entries⟩ := @TimerBridge.generations_handleExp s t msg rest read
        rw [pipe, seq, entries, ← remaining_append, ← seqsOf_append]
        exact ⟨rfl, rfl⟩
    · obtain ⟨entries, seq, out, sent, pipe, foreign⟩ :=
        TimerBridge.generations_exec exec (quiet a List.mem_cons_self) delivers
      by_cases fires : a = .fire t
      · subst fires
        rw [TimerBridge.exec] at exec
        split at exec
        · cases exec
          have gone := inWheel_run run later (Function.update_self ..)
          rw [armed] at gone
          cases gone
        · cases exec
      · rw [entries, seq, pipe, seqsOf_append, foreign fires, List.append_nil]
        exact ⟨rfl, rfl⟩

/-- Reading the messages in front of the pipe. -/
theorem generations_run {trace : List TimerAction} {front back : List TimerMsg}
    (run : trace.foldlM TimerBridge.exec s = some d)
    (quiet : ∀ a ∈ trace, a.disturbs ≠ some t) (pipe : s.pipe = front ++ back)
    (turn : trace.count .deliver = front.length) :
    d.generations t = remaining (s.generations t) (seqsOf t front) ∧
      ∃ sent, d.pipe = back ++ sent := by
  induction trace generalizing s front back with
  | nil =>
    cases run
    rw [List.count_nil] at turn
    have empty := List.eq_nil_of_length_eq_zero turn.symm
    subst empty
    exact ⟨rfl, [], by rw [pipe, List.append_nil, List.nil_append]⟩
  | cons a trace ih =>
    obtain ⟨s', exec, run⟩ := foldlM_cons_eq_some run
    have later : ∀ a ∈ trace, a.disturbs ≠ some t := fun b mem =>
      quiet b (List.mem_cons_of_mem _ mem)
    by_cases delivers : a = .deliver
    · subst delivers
      cases exec
      rw [List.count_cons_self] at turn
      cases front with
      | nil => cases turn
      | cons msg front =>
        obtain ⟨read, -, -, entries⟩ := @TimerBridge.generations_handleExp s t msg (front ++ back) pipe
        obtain ⟨left, sent⟩ := ih run later read (Nat.succ.inj turn)
        rw [left, entries, ← remaining_append, ← seqsOf_append]
        exact ⟨rfl, sent⟩
    · obtain ⟨entries, -, -, sent, grown, -⟩ :=
        TimerBridge.generations_exec exec (quiet a List.mem_cons_self) delivers
      rw [List.count_cons_of_ne delivers] at turn
      rw [pipe, List.append_assoc] at grown
      obtain ⟨left, more, last⟩ := ih run later grown turn
      rw [left, entries]
      exact ⟨rfl, sent ++ more, by rw [last, List.append_assoc]⟩

/-- The generation that starting the timer in `s` registers is the first entry of the timer, once
the messages of the timer that are unread in `s` have been read. -/
def TimerBridge.First (s : TimerBridge) (t : TimerId) : Prop :=
  (remaining ((s.rsvpTimerStart t true).generations t) (seqsOf t s.pipe)).head? =
    some ((s.rsvpTimerStart t true).seq t)

theorem pipe_start (s : TimerBridge) (t : TimerId) (added : Bool) :
    (s.rsvpTimerStart t added).pipe = s.pipe := by
  rw [TimerBridge.rsvpTimerStart, TimerBridge.rsvpTimerStop]
  cases added <;> cases s.active t <;> rfl

theorem remaining_of_notMem {entries unread : List UInt64} {seq : UInt64}
    (fresh : seq ∉ unread) (first : entries.head? = some seq) :
    remaining entries unread = entries := by
  induction unread with
  | nil => rfl
  | cons other unread ih =>
    rw [List.mem_cons, not_or] at fresh
    have differs : entries.head? ≠ some other := by
      rw [first]
      exact fun same => fresh.1 (Option.some.inj same)
    rw [remaining, List.foldl_cons, if_neg differs]
    exact ih fresh.2

/-- A timer without an entry that finds a free slot is first. -/
theorem TimerBridge.first_of_free
    (unregistered : ∀ msg ∈ (s.rsvpTimerStop t).registered, msg.timer ≠ t)
    (free : none ∈ (s.rsvpTimerStop t).activeTimers)
    (fresh : (s.rsvpTimerStop t).globalTimerSeq + 1 ∉ seqsOf t s.pipe) : s.First t := by
  have idle : (if s.active t then s.rsvpTimerStop t else s) = s.rsvpTimerStop t := by
    rw [rsvpTimerStop]
    split <;> rfl
  have seq : (s.rsvpTimerStart t true).seq t = (s.rsvpTimerStop t).globalTimerSeq + 1 := by
    rw [rsvpTimerStart, idle]
    exact Function.update_self ..
  have put : (s.rsvpTimerStart t true).registered.Perm
      (⟨t, (s.rsvpTimerStop t).globalTimerSeq + 1⟩ :: (s.rsvpTimerStop t).registered) := by
    rw [rsvpTimerStart, idle]
    exact Slots.entries_put_of_free _ free
  have none : (s.rsvpTimerStop t).registered.filter (·.timer = t) = [] := by
    rw [List.filter_eq_nil_iff]
    exact fun msg mem own => unregistered msg mem (of_decide_eq_true own)
  have only : (s.rsvpTimerStart t true).generations t =
      [(s.rsvpTimerStop t).globalTimerSeq + 1] := by
    have own := put.filter (·.timer = t)
    rw [List.filter_cons_of_pos (by simp), none] at own
    rw [generations, seqsOf, List.perm_singleton.mp own]
    rfl
  rw [First, only, seq, remaining_of_notMem fresh rfl]
  rfl

/-- A generation that is started in `s`, fires and is left alone until its message is read has its
callback run at that reading iff it was first when it was started. -/
theorem invoked_iff_first {before mid rest : List TimerAction}
    (start : timerRun before = some s)
    (armed : timerRun (before ++ .start t true :: mid) = some f)
    (read : timerRun (before ++ .start t true :: (mid ++ .fire t :: rest)) = some d)
    (quiet : ∀ a ∈ mid ++ rest, a.disturbs ≠ some t)
    (turn : rest.count .deliver = f.pipe.length) :
    d.invoked = some ⟨t, (s.rsvpTimerStart t true).seq t⟩ ↔ s.First t := by
  rw [timerRun] at start
  rw [timerRun, List.foldlM_append, start] at armed read
  have mids : mid.foldlM TimerBridge.exec (s.rsvpTimerStart t true) = some f := armed
  have later : (mid ++ .fire t :: rest).foldlM TimerBridge.exec (s.rsvpTimerStart t true) =
    some d := read
  rw [List.foldlM_append, mids] at later
  obtain ⟨fired, fire, rests⟩ := @foldlM_cons_eq_some f d _ _ later
  rw [TimerBridge.exec] at fire
  split at fire
  · rename_i inWheel
    cases fire
    obtain ⟨left, seq⟩ := remaining_run mids
      (fun a mem => quiet a (List.mem_append_left _ mem)) inWheel
    obtain ⟨entries, sent, pipe⟩ := generations_run rests
      (fun a mem => quiet a (List.mem_append_right _ mem)) rfl turn
    have first : d.generations t =
        remaining ((s.rsvpTimerStart t true).generations t) (seqsOf t s.pipe) := by
      rw [entries, ← pipe_start s t true, ← left]
      rfl
    rw [TimerBridge.invoked, pipe, List.singleton_append]
    dsimp only
    rw [TimerBridge.First, ← first, ← seq, ← TimerBridge.matches_iff]
    cases d.isTimerActiveAndMatches t (f.seq t) <;> simp
  · cases fire

/-- A first generation of a timer, read while another timer is running. -/
theorem invoked_iff_first_alone :
    (((rsvpTimerInit.rsvpTimerStart 0 true).rsvpTimerStart 1 true).internalWheelCb 0).invoked =
      some ⟨0, 2⟩ := by
  have free : none ∈ rsvpTimerInit.activeTimers := by
    rw [rsvpTimerInit, List.mem_replicate]
    exact ⟨by decide, rfl⟩
  have first : rsvpTimerInit.First 0 := by
    refine TimerBridge.first_of_free ?_ free List.not_mem_nil
    change ∀ msg ∈ rsvpTimerInit.registered, _
    rw [TimerBridge.registered_init]
    exact List.forall_mem_nil _
  exact (@invoked_iff_first rsvpTimerInit _ _ 0 [] [.start 1 true] [] rfl rfl rfl (by decide)
    rfl).mpr first

/-- Timer 0 is restarted in a lower slot while its expiry is unread, which leaves its old entry
behind; timer 1 then takes the lower slot again. -/
def leftoverEntry : List TimerAction :=
  [.start 1 true, .start 0 true, .fire 0, .stop 1, .start 0 true, .fire 0, .deliver, .deliver,
    .start 1 true]

/-- From then on no expiry of timer 0 runs its callback. -/
theorem exists_expiry_lost :
    ∃ f d, timerRun (leftoverEntry ++ [.start 0 true]) = some f ∧
      timerRun (leftoverEntry ++ [.start 0 true, .fire 0]) = some d ∧
      d.pipe = [⟨0, f.seq 0⟩] ∧ d.invoked = none := by
  refine ⟨_, _, rfl, rfl, ?_, ?_⟩
  · decide +kernel
  · decide +kernel

end Runs

end Rsvp
