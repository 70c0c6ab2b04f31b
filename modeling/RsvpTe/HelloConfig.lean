import RsvpTe.HelloAdjacency

/-!
# Configured and discovered neighbours

An entry is made by the operator or by the first Hello of its address, whichever comes first, and
keeps its interface: a Hello makes it with interface 0, which no later `rsvpHelloAddNeighbor`
replaces.  The interface decides which LSPs a failure of the neighbour switches to their bypasses.
-/

namespace Rsvp

variable {h : List HelloEvent} {addr localAddr : InAddr} {ifindex : UInt32} {rand : Rand}

/-- The event detects a failure of a neighbour: its dead timer, which was running, expires, or it
restarted. -/
def FailureDetected (addr : InAddr) (h : List HelloEvent) (ev : HelloEvent) : Prop :=
  (ev = .deadTimer addr ∧ ∃ n ∈ helloTable h, n.addr = addr ∧ n.deadTimer = true) ∨
    Restarts addr h ev

/-- Every failure of a neighbour that is detected after it was configured triggers FRR for the
interface of the configuration. -/
def ConfiguredTriggers (h : List HelloEvent) (addr localAddr : InAddr) (ifindex : UInt32)
    (rand : Rand) : Prop :=
  ∀ later ev, FailureDetected addr (h ++ .add addr localAddr ifindex rand :: later) ev →
    .frrTrigger ifindex ∈ helloCalls (h ++ .add addr localAddr ifindex rand :: later) ev

/-- An address that found the table full never gets an entry. -/
theorem absent_append (absent : ∀ n ∈ helloTable h, n.addr ≠ addr)
    (full : maxNeighbors ≤ (helloTable h).length) (later : List HelloEvent) :
    (∀ n ∈ helloTable (h ++ later), n.addr ≠ addr) ∧
      maxNeighbors ≤ (helloTable (h ++ later)).length := by
  induction later using List.reverseRecOn with
  | nil =>
    rw [List.append_nil]
    exact ⟨absent, full⟩
  | append_singleton later ev ih =>
    obtain ⟨absent, full⟩ := ih
    have distinct := (HelloTable.Tracks.helloTable (h ++ later)).distinct
    rw [← List.append_assoc, helloTable_snoc]
    constructor
    · intro n mem
      rcases distinct.mem_step.mp mem with ⟨m, memm, rfl⟩ | made
      · rw [ev.effect_addr]
        exact absent m memm
      · obtain ⟨admits, -⟩ := HelloEvent.fresh_eq_some made
        exact absurd admits (HelloTable.not_admits_of_full full _)
    · rw [distinct.step_eq, List.length_append, List.length_map]
      exact Nat.le_trans full (Nat.le_add_right _ _)

/-- The entry of a configured address: the one it had, or a new one with the interface of the
configuration. -/
theorem ifindex_of_configured {n : Neighbor} {later : List HelloEvent}
    (kept : ∀ m ∈ helloTable h, m.addr = addr → m.ifindex = ifindex)
    (mem : n ∈ helloTable (h ++ .add addr localAddr ifindex rand :: later))
    (here : n.addr = addr) : n.ifindex = ifindex := by
  have split : h ++ .add addr localAddr ifindex rand :: later =
      (h ++ [.add addr localAddr ifindex rand]) ++ later := by
    rw [List.append_assoc, List.singleton_append]
  rw [split] at mem
  -- The table after the configuration has an entry with that interface, or is full for good.
  have configured : (∃ m ∈ helloTable (h ++ [.add addr localAddr ifindex rand]),
      m.addr = addr ∧ m.ifindex = ifindex) ∨
      ((∀ m ∈ helloTable (h ++ [.add addr localAddr ifindex rand]), m.addr ≠ addr) ∧
        maxNeighbors ≤ (helloTable (h ++ [.add addr localAddr ifindex rand])).length) := by
    rw [helloTable_snoc]
    dsimp only [HelloTable.step]
    rcases HelloTable.rsvpHelloAddNeighbor_cases rand (helloTable h) addr localAddr ifindex with
      ⟨m, memm, same, eq⟩ | ⟨-, eq⟩ | ⟨absent, full, eq⟩
    · rw [eq]
      exact .inl ⟨m, memm, same, kept m memm same⟩
    · rw [eq]
      exact .inl ⟨_, List.mem_append_right _ List.mem_cons_self, rfl, rfl⟩
    · rw [eq]
      exact .inr ⟨absent, full⟩
  rcases configured with ⟨m, memm, same, right⟩ | ⟨absent, full⟩
  · obtain ⟨m', memm', kept'⟩ := mem_helloTable_append memm later
    have one := List.inj_on_of_nodup_map (HelloTable.Tracks.helloTable _).distinct mem memm'
      (here.trans (kept'.addr.trans same).symm)
    rw [one, kept'.ifindex, right]
  · exact absurd here ((absent_append absent full later).1 n mem)

/-- Configuration and discovery commute iff the address has no entry with another interface when it
is configured. -/
theorem configuredTriggers_iff :
    ConfiguredTriggers h addr localAddr ifindex rand ↔
      ∀ n ∈ helloTable h, n.addr = addr → n.ifindex = ifindex := by
  constructor
  · rintro triggers n mem rfl
    -- A Hello arms the dead timer of the entry, which then expires.
    obtain ⟨m, memm, same⟩ := mem_helloTable_append mem [.add n.addr localAddr ifindex rand]
    have distinct := (HelloTable.Tracks.helloTable
      (h ++ [.add n.addr localAddr ifindex rand])).distinct
    have heard : m.hears 1 ∈ helloTable
        (h ++ .add n.addr localAddr ifindex rand :: [.recv n.addr 1 0 helloCtypeAck rand]) := by
      have split : h ++ .add n.addr localAddr ifindex rand ::
          [.recv n.addr 1 0 helloCtypeAck rand] =
          h ++ [.add n.addr localAddr ifindex rand] ++ [.recv n.addr 1 0 helloCtypeAck rand] := by
        rw [List.append_assoc, List.singleton_append]
      rw [split, helloTable_snoc, distinct.mem_step]
      exact .inl ⟨m, memm, if_pos same.addr⟩
    have called := triggers [.recv n.addr 1 0 helloCtypeAck rand] (.deadTimer n.addr)
      (.inl ⟨rfl, _, heard, same.addr, rfl⟩)
    have calls := (HelloTable.Tracks.helloTable
      (h ++ .add n.addr localAddr ifindex rand ::
        [.recv n.addr 1 0 helloCtypeAck rand])).distinct.deadTimer_calls heard
    have here : (m.hears 1).addr = n.addr := same.addr
    rw [here] at calls
    rw [helloCalls, calls] at called
    cases List.mem_singleton.mp called
    exact same.ifindex.symm
  · intro kept later ev detected
    have distinct := (HelloTable.Tracks.helloTable
      (h ++ .add addr localAddr ifindex rand :: later)).distinct
    rcases detected with ⟨rfl, n, mem, here, -⟩ | ⟨heard, i, called⟩
    · have right := ifindex_of_configured kept mem here
      subst here
      rw [helloCalls, distinct.deadTimer_calls mem, right]
      exact List.mem_singleton_self _
    · cases ev with
      | recv src x y cType rand' =>
        obtain ⟨x', heard⟩ := Option.ne_none_iff_exists'.mp heard
        obtain ⟨rfl, -⟩ := Option.ite_some_none_eq_some.mp heard
        obtain ⟨n, mem, here, -, rfl⟩ := distinct.recv_triggers_iff.mp called
        rw [ifindex_of_configured kept mem here] at called
        exact called
      | add => exact absurd rfl heard
      | helloTimer => exact absurd rfl heard
      | deadTimer => exact absurd rfl heard

def sampleRand : Rand := ⟨fun _ => 7, 0, by decide⟩

/-- A neighbour that was discovered before it was configured for interface 5 triggers FRR for
interface 0. -/
theorem exists_placeholder_triggered : ∃ h addr localAddr ifindex rand later ev,
    (∀ ev ∈ h, HelloEvent.instanceFrom addr ev ≠ none) ∧
      FailureDetected addr (h ++ .add addr localAddr ifindex rand :: later) ev ∧
      helloCalls (h ++ .add addr localAddr ifindex rand :: later) ev = [.frrTrigger 0] ∧
      ifindex ≠ 0 := by
  refine ⟨[.recv 0x0200000A 1 0 helloCtypeAck sampleRand], 0x0200000A, 0x0100000A, 5, sampleRand,
    [], .deadTimer 0x0200000A, ?_, .inl ⟨rfl, ?_⟩, ?_, by decide⟩
  · intro ev mem
    rw [List.mem_singleton.mp mem]
    exact Option.some_ne_none _
  · decide +kernel
  · decide +kernel

end Rsvp
