import RsvpTe.Hello
import RsvpTe.Messages

/-!
# Adjacencies over whole histories

An event touches the entry of one address: `HelloEvent.effect` says what it leaves of an entry and
`HelloEvent.fresh` which entry it adds, and the table after the event is the one followed by the
other (`HelloTable.step_eq`).  `Tracks` then ties each entry to the history: its instance is that of
the last Hello from its address, and it is up while no dead timer has expired since.
-/

namespace Rsvp

open Words

/-! ## One event -/

/-- What a Hello leaves of the entry of its source. -/
def Neighbor.hears (n : Neighbor) (rxSrcInstance : UInt32) : Neighbor :=
  { n with state := .up, dstInstance := rxSrcInstance, deadTimer := true }

/-- What an event leaves of an entry. -/
def HelloEvent.effect (ev : HelloEvent) (n : Neighbor) : Neighbor :=
  match ev with
  | .add _ _ _ _ => n
  | .recv src rxSrcInstance _ _ _ => if n.addr = src then n.hears rxSrcInstance else n
  | .helloTimer addr => if n.addr = addr then { n with helloTimer := true } else n
  | .deadTimer addr => if n.addr = addr then { n with state := .down, deadTimer := false } else n

/-- An address that is not in the table would get an entry. -/
def HelloTable.Admits (t : HelloTable) (addr : InAddr) : Prop :=
  (∀ n ∈ t, n.addr ≠ addr) ∧ t.length < maxNeighbors

instance (t : HelloTable) (addr : InAddr) : Decidable (t.Admits addr) := inferInstanceAs
  (Decidable (_ ∧ _))

/-- The entry an event adds to a table. -/
def HelloEvent.fresh (ev : HelloEvent) (t : HelloTable) : Option Neighbor :=
  match ev with
  | .add addr localAddr ifindex rand =>
    if t.Admits addr then some (.new rand addr localAddr ifindex) else none
  | .recv src rxSrcInstance _ _ rand =>
    if t.Admits src then some ((Neighbor.new rand src 0 0).hears rxSrcInstance) else none
  | _ => none

/-- What no event changes in an entry. -/
structure Neighbor.Same (n m : Neighbor) : Prop where
  addr : m.addr = n.addr
  localAddr : m.localAddr = n.localAddr
  ifindex : m.ifindex = n.ifindex
  srcInstance : m.srcInstance = n.srcInstance

theorem HelloEvent.effect_same (ev : HelloEvent) (n : Neighbor) : n.Same (ev.effect n) := by
  unfold effect
  split <;> (try split) <;> exact ⟨rfl, rfl, rfl, rfl⟩

theorem HelloEvent.effect_addr (ev : HelloEvent) (n : Neighbor) :
    (ev.effect n).addr = n.addr := (ev.effect_same n).addr

namespace HelloTable

variable {t : HelloTable}

/-- At most one entry per address. -/
def Distinct (t : HelloTable) : Prop := (t.map Neighbor.addr).Nodup

theorem find_eq_none {addr : InAddr} :
    t.rsvpHelloFindNeighbor addr = none ↔ ∀ n ∈ t, n.addr ≠ addr := by
  rw [rsvpHelloFindNeighbor, List.find?_eq_none]
  simp only [decide_eq_true_eq, ne_eq]

theorem find_eq_some {addr : InAddr} {n : Neighbor}
    (found : t.rsvpHelloFindNeighbor addr = some n) : n ∈ t ∧ n.addr = addr :=
  ⟨List.mem_of_find?_eq_some found, by simpa using List.find?_some found⟩

theorem Distinct.find_of_mem (distinct : t.Distinct) {n : Neighbor} (mem : n ∈ t) :
    t.rsvpHelloFindNeighbor n.addr = some n :=
  Slots.find?_key_of_mem Neighbor.addr distinct mem

/-- Writing back the entry of an address changes that entry. -/
theorem Distinct.store_eq (distinct : t.Distinct) {n : Neighbor} (mem : n ∈ t)
    (f : Neighbor → Neighbor) (addr : (f n).addr = n.addr) :
    t.store (f n) = t.map fun m => if m.addr = n.addr then f m else m := by
  apply List.map_congr_left
  intro m memm
  rw [addr]
  split
  · rename_i same
    rw [List.inj_on_of_nodup_map distinct memm mem same]
  · rfl

theorem map_of_absent {addr : InAddr} (absent : ∀ n ∈ t, n.addr ≠ addr)
    (f : Neighbor → Neighbor) : (t.map fun m => if m.addr = addr then f m else m) = t := by
  conv_rhs => rw [← List.map_id t]
  exact List.map_congr_left fun m mem => if_neg (absent m mem)

/-- The entry an event is about, or its absence. -/
theorem find_cases (t : HelloTable) (addr : InAddr) :
    (∃ n ∈ t, n.addr = addr ∧ t.rsvpHelloFindNeighbor addr = some n) ∨
      ((∀ n ∈ t, n.addr ≠ addr) ∧ t.rsvpHelloFindNeighbor addr = none) := by
  cases found : t.rsvpHelloFindNeighbor addr with
  | none => exact .inr ⟨find_eq_none.mp found, rfl⟩
  | some n => exact .inl ⟨n, (find_eq_some found).1, (find_eq_some found).2, rfl⟩

/-- A call that adds a neighbour finds an entry, makes one, or finds the table full. -/
theorem rsvpHelloAddNeighbor_cases (rand : Rand) (t : HelloTable) (addr localAddr : InAddr)
    (ifindex : UInt32) :
    (∃ n ∈ t, n.addr = addr ∧ rsvpHelloAddNeighbor rand t addr localAddr ifindex = (some n, t)) ∨
      (t.Admits addr ∧ rsvpHelloAddNeighbor rand t addr localAddr ifindex =
        (some (.new rand addr localAddr ifindex), t ++ [.new rand addr localAddr ifindex])) ∨
      ((∀ n ∈ t, n.addr ≠ addr) ∧ maxNeighbors ≤ t.length ∧
        rsvpHelloAddNeighbor rand t addr localAddr ifindex = (none, t)) := by
  rw [rsvpHelloAddNeighbor]
  rcases t.find_cases addr with ⟨n, mem, here, found⟩ | ⟨absent, found⟩
  · rw [found]
    exact .inl ⟨n, mem, here, rfl⟩
  · rw [found]
    by_cases full : maxNeighbors ≤ t.length
    · exact .inr (.inr ⟨absent, full, if_pos full⟩)
    · exact .inr (.inl ⟨⟨absent, Nat.lt_of_not_le full⟩, if_neg full⟩)

theorem not_admits_of_mem {n : Neighbor} (mem : n ∈ t) : ¬ t.Admits n.addr :=
  fun admits => admits.1 n mem rfl

theorem not_admits_of_full (full : maxNeighbors ≤ t.length) (addr : InAddr) : ¬ t.Admits addr :=
  fun admits => absurd admits.2 (Nat.not_lt.mpr full)

theorem recvEntry_eq (rand : Rand) (t : HelloTable) (src : InAddr) :
    recvEntry rand t src = rsvpHelloAddNeighbor rand t src 0 0 := by
  rw [recvEntry, rsvpHelloAddNeighbor]
  rcases t.find_cases src with ⟨n, -, -, found⟩ | ⟨-, found⟩ <;> rw [found]

/-- A Hello in closed form: its source hears it, a change of a known instance triggers FRR, and a
REQUEST is answered. -/
theorem rsvpHelloRecv_of_find {n : Neighbor} {src : InAddr} {t' : HelloTable} {rand : Rand}
    (entry : recvEntry rand t src = (some n, t')) (x y : UInt32) (cType : UInt8) :
    rsvpHelloRecv rand t src x y cType =
      (t'.store (n.hears x),
        (if n.restarted x then [.frrTrigger n.ifindex] else []) ++
          if cType = helloCtypeRequest then sendHello (n.hears x) helloCtypeAck else []) := by
  rw [rsvpHelloRecv, entry]
  dsimp only
  have raised : ∀ m : Neighbor, m.addr = n.addr ∧ m.localAddr = n.localAddr ∧
      m.ifindex = n.ifindex ∧ m.srcInstance = n.srcInstance ∧ m.helloTimer = n.helloTimer →
      (if ({ m with dstInstance := x, deadTimer := true } : Neighbor).state ≠ .up then
        { m with dstInstance := x, deadTimer := true, state := .up }
      else { m with dstInstance := x, deadTimer := true }) = n.hears x := by
    intro m same
    obtain ⟨addr, localAddr, ifindex, srcInstance, helloTimer⟩ := same
    rw [Neighbor.hears, ← addr, ← localAddr, ← ifindex, ← srcInstance, ← helloTimer]
    split
    · rfl
    · rename_i up
      rw [← not_not.mp up]
  have reset := raised (if n.restarted x then { n with state := .idle, dstInstance := 0 } else n)
    (by split <;> exact ⟨rfl, rfl, rfl, rfl, rfl⟩)
  rw [reset]

/-- The table after an event. -/
theorem Distinct.step_eq (distinct : t.Distinct) (ev : HelloEvent) :
    (t.step ev).1 = t.map ev.effect ++ (ev.fresh t).toList := by
  cases ev with
  | add addr localAddr ifindex rand =>
    have all : t.map (HelloEvent.add addr localAddr ifindex rand).effect = t := List.map_id t
    rw [all]
    dsimp only [step, HelloEvent.fresh]
    rcases rsvpHelloAddNeighbor_cases rand t addr localAddr ifindex with
      ⟨n, mem, rfl, eq⟩ | ⟨admits, eq⟩ | ⟨-, full, eq⟩
    · rw [eq, if_neg (not_admits_of_mem mem), Option.toList_none, List.append_nil]
    · rw [eq, if_pos admits, Option.toList_some]
    · rw [eq, if_neg (not_admits_of_full full addr), Option.toList_none, List.append_nil]
  | recv src x y cType rand =>
    dsimp only [step, HelloEvent.fresh]
    rcases rsvpHelloAddNeighbor_cases rand t src 0 0 with
      ⟨n, mem, rfl, eq⟩ | ⟨admits, eq⟩ | ⟨absent, full, eq⟩
    · rw [rsvpHelloRecv_of_find ((recvEntry_eq rand t n.addr).trans eq),
        if_neg (not_admits_of_mem mem), Option.toList_none, List.append_nil]
      exact distinct.store_eq mem (·.hears x) rfl
    · rw [rsvpHelloRecv_of_find ((recvEntry_eq rand t src).trans eq), if_pos admits,
        Option.toList_some]
      change store _ _ = _
      rw [store, List.map_append]
      congr 1
      · apply List.map_congr_left
        intro m mem
        have other : m.addr ≠ src := admits.1 m mem
        exact (if_neg other).trans (if_neg other).symm
      · exact congrArg (fun n => [n]) (if_pos rfl)
    · have all : t.map (HelloEvent.recv src x y cType rand).effect = t := map_of_absent absent _
      rw [rsvpHelloRecv, recvEntry_eq, eq, all, if_neg (not_admits_of_full full src),
        Option.toList_none, List.append_nil]
  | helloTimer addr =>
    dsimp only [step, HelloEvent.fresh]
    rw [helloTimerCb, Option.toList_none, List.append_nil]
    rcases t.find_cases addr with ⟨n, mem, rfl, found⟩ | ⟨absent, found⟩
    · rw [found]
      exact distinct.store_eq mem (fun n => { n with helloTimer := true }) rfl
    · rw [found]
      exact (map_of_absent absent _).symm
  | deadTimer addr =>
    dsimp only [step, HelloEvent.fresh]
    rw [deadTimerCb, Option.toList_none, List.append_nil]
    rcases t.find_cases addr with ⟨n, mem, rfl, found⟩ | ⟨absent, found⟩
    · rw [found]
      exact distinct.store_eq mem (fun n => { n with state := .down, deadTimer := false }) rfl
    · rw [found]
      exact (map_of_absent absent _).symm

end HelloTable

/-! ## Histories -/

/-- The instance in a Hello from an address. -/
def HelloEvent.instanceFrom (addr : InAddr) : HelloEvent → Option UInt32
  | .recv src rxSrcInstance _ _ _ => if src = addr then some rxSrcInstance else none
  | _ => none

/-- The instances in the Hellos from an address, the latest last. -/
def instancesFrom (addr : InAddr) (h : List HelloEvent) : List UInt32 :=
  h.filterMap (·.instanceFrom addr)

/-- The instance in the last Hello from an address, 0 if there is none. -/
def lastInstance (addr : InAddr) (h : List HelloEvent) : UInt32 :=
  (instancesFrom addr h).getLast?.getD 0

/-- The address has sent a Hello and its dead timer has not expired since. -/
def Alive (addr : InAddr) (h : List HelloEvent) : Prop :=
  ∃ earlier ev later, h = earlier ++ ev :: later ∧ ev.instanceFrom addr ≠ none ∧
    .deadTimer addr ∉ later

variable {h : List HelloEvent} {ev : HelloEvent} {addr : InAddr}

theorem helloTable_snoc (h : List HelloEvent) (ev : HelloEvent) :
    helloTable (h ++ [ev]) = ((helloTable h).step ev).1 := List.foldl_concat ..

theorem instancesFrom_snoc (addr : InAddr) (h : List HelloEvent) (ev : HelloEvent) :
    instancesFrom addr (h ++ [ev]) = instancesFrom addr h ++ (ev.instanceFrom addr).toList := by
  rw [instancesFrom, List.filterMap_append]
  cases received : ev.instanceFrom addr with
  | none => exact congrArg (_ ++ ·) (List.filterMap_cons_none received)
  | some x => exact congrArg (_ ++ ·) (List.filterMap_cons_some received)

theorem lastInstance_snoc (addr : InAddr) (h : List HelloEvent) (ev : HelloEvent) :
    lastInstance addr (h ++ [ev]) = (ev.instanceFrom addr).getD (lastInstance addr h) := by
  rw [lastInstance, instancesFrom_snoc]
  cases ev.instanceFrom addr with
  | none => rw [Option.toList_none, List.append_nil, Option.getD_none, lastInstance]
  | some x => rw [Option.toList_some, List.getLast?_concat, Option.getD_some, Option.getD_some]

theorem alive_snoc (addr : InAddr) (h : List HelloEvent) (ev : HelloEvent) :
    Alive addr (h ++ [ev]) ↔
      ev.instanceFrom addr ≠ none ∨ ev ≠ .deadTimer addr ∧ Alive addr h := by
  constructor
  · rintro ⟨earlier, heard, later, eq, received, silent⟩
    rcases List.eq_nil_or_concat later with rfl | ⟨later, last, rfl⟩
    · obtain ⟨-, last⟩ := List.append_inj' eq rfl
      exact .inl (List.singleton_inj.mp last ▸ received)
    · rw [List.concat_eq_append, ← List.cons_append, ← List.append_assoc] at eq
      obtain ⟨rest, same⟩ := List.append_inj' eq rfl
      cases List.singleton_inj.mp same
      rw [List.concat_eq_append, List.mem_append, List.mem_singleton, not_or] at silent
      exact .inr ⟨fun dead => silent.2 dead.symm, earlier, heard, later, rest, received, silent.1⟩
  · rintro (received | ⟨other, earlier, heard, later, rfl, received, silent⟩)
    · exact ⟨h, ev, [], rfl, received, List.not_mem_nil⟩
    · refine ⟨earlier, heard, later ++ [ev], ?_, received, fun mem => ?_⟩
      · rw [List.append_assoc, List.cons_append]
      · rcases List.mem_append.mp mem with old | last
        · exact silent old
        · exact other (List.mem_singleton.mp last).symm

/-- What a table says about the history it comes from. -/
structure HelloTable.Tracks (t : HelloTable) (h : List HelloEvent) : Prop where
  distinct : t.Distinct
  room : t.length ≤ maxNeighbors
  srcInstance : ∀ n ∈ t, n.srcInstance ≠ 0
  dstInstance : ∀ n ∈ t, n.dstInstance = lastInstance n.addr h
  up : ∀ n ∈ t, n.state = .up ↔ Alive n.addr h
  unheard : ∀ addr, t.Admits addr → instancesFrom addr h = []

namespace HelloEvent

theorem effect_dstInstance (ev : HelloEvent) (n : Neighbor) :
    (ev.effect n).dstInstance = (ev.instanceFrom n.addr).getD n.dstInstance := by
  cases ev with
  | add => rfl
  | recv src x y cType rand =>
    by_cases here : n.addr = src
    · rw [effect, instanceFrom, if_pos here, if_pos here.symm]
      rfl
    · rw [effect, instanceFrom, if_neg here, if_neg (Ne.symm here)]
      rfl
  | helloTimer addr =>
    rw [effect]
    split <;> rfl
  | deadTimer addr =>
    rw [effect]
    split <;> rfl

theorem effect_up (ev : HelloEvent) (n : Neighbor) :
    (ev.effect n).state = .up ↔
      ev.instanceFrom n.addr ≠ none ∨ ev ≠ .deadTimer n.addr ∧ n.state = .up := by
  cases ev with
  | add => simp [effect, instanceFrom]
  | recv src x y cType rand =>
    by_cases here : n.addr = src
    · simp [effect, instanceFrom, here, Neighbor.hears]
    · simp [effect, instanceFrom, here, Ne.symm here]
  | helloTimer addr =>
    by_cases here : n.addr = addr
    · simp [effect, instanceFrom, here]
    · simp [effect, instanceFrom, here]
  | deadTimer addr =>
    by_cases here : n.addr = addr
    · simp [effect, instanceFrom, here]
    · simp [effect, instanceFrom, here, Ne.symm here]

/-- An entry is added for an address with room, and it has heard of the event at most. -/
theorem fresh_eq_some {t : HelloTable} {n : Neighbor} (made : ev.fresh t = some n) :
    t.Admits n.addr ∧ n.srcInstance ≠ 0 ∧ n.dstInstance = (ev.instanceFrom n.addr).getD 0 ∧
      (n.state = .up ↔ ev.instanceFrom n.addr ≠ none) := by
  cases ev with
  | add addr localAddr ifindex rand =>
    obtain ⟨admits, rfl⟩ := Option.ite_some_none_eq_some.mp made
    refine ⟨admits, rand.drawn_ne_zero, rfl, ?_⟩
    simp [instanceFrom, Neighbor.new]
  | recv src x y cType rand =>
    obtain ⟨admits, rfl⟩ := Option.ite_some_none_eq_some.mp made
    refine ⟨admits, rand.drawn_ne_zero, ?_, ?_⟩
    · simp [instanceFrom, Neighbor.new, Neighbor.hears]
    · simp [instanceFrom, Neighbor.new, Neighbor.hears]
  | helloTimer => cases made
  | deadTimer => cases made

theorem fresh_of_instanceFrom {t : HelloTable} (heard : ev.instanceFrom addr ≠ none)
    (admits : t.Admits addr) : ∃ n, ev.fresh t = some n ∧ n.addr = addr := by
  cases ev with
  | recv src x y cType rand =>
    obtain ⟨x, heard⟩ := Option.ne_none_iff_exists'.mp heard
    obtain ⟨rfl, -⟩ := Option.ite_some_none_eq_some.mp heard
    exact ⟨_, if_pos admits, rfl⟩
  | add => exact absurd rfl heard
  | helloTimer => exact absurd rfl heard
  | deadTimer => exact absurd rfl heard

end HelloEvent

/-- What was heard once was heard. -/
theorem not_alive_of_unheard (unheard : instancesFrom addr h = []) : ¬ Alive addr h := by
  rintro ⟨earlier, ev, later, rfl, received, -⟩
  refine received (List.filterMap_eq_nil_iff.mp unheard ev ?_)
  exact List.mem_append_right _ List.mem_cons_self

theorem lastInstance_of_unheard (unheard : instancesFrom addr h = []) :
    lastInstance addr h = 0 := by
  rw [lastInstance, unheard]
  rfl

/-- A known instance was heard. -/
theorem lastInstance_mem (known : lastInstance addr h ≠ 0) :
    lastInstance addr h ∈ instancesFrom addr h := by
  unfold lastInstance at known ⊢
  cases last : (instancesFrom addr h).getLast? with
  | none =>
    rw [last] at known
    exact absurd rfl known
  | some x => exact List.mem_of_getLast? last

/-- An address with room after an event had room before it, and was not heard. -/
theorem HelloTable.Distinct.admits_of_step {t : HelloTable} (distinct : t.Distinct)
    (admits : (t.step ev).1.Admits addr) : t.Admits addr ∧ ev.instanceFrom addr = none := by
  rw [distinct.step_eq] at admits
  obtain ⟨absent, room⟩ := admits
  have before : t.Admits addr := by
    constructor
    · intro n mem
      rw [← ev.effect_addr n]
      exact absent _ (List.mem_append_left _ (List.mem_map_of_mem mem))
    · rw [List.length_append, List.length_map] at room
      exact Nat.lt_of_le_of_lt (Nat.le_add_right _ _) room
  refine ⟨before, by_contra fun heard => ?_⟩
  obtain ⟨n, made, here⟩ := HelloEvent.fresh_of_instanceFrom heard before
  refine absent n (List.mem_append_right _ ?_) here
  rw [made]
  exact List.mem_cons_self

/-- Every entry after an event is an entry before it, or the one that the event adds. -/
theorem HelloTable.Distinct.mem_step {t : HelloTable} (distinct : t.Distinct) {n : Neighbor} :
    n ∈ (t.step ev).1 ↔ (∃ m ∈ t, ev.effect m = n) ∨ ev.fresh t = some n := by
  rw [distinct.step_eq, List.mem_append, List.mem_map, Option.mem_toList]

namespace HelloTable.Tracks

variable {t : HelloTable}

theorem step (tracks : t.Tracks h) (ev : HelloEvent) : (t.step ev).1.Tracks (h ++ [ev]) where
  distinct := by
    rw [Distinct, tracks.distinct.step_eq, List.map_append, List.map_map]
    have old : t.map (Neighbor.addr ∘ ev.effect) = t.map Neighbor.addr :=
      List.map_congr_left fun n _ => ev.effect_addr n
    rw [old]
    cases made : ev.fresh t with
    | none =>
      rw [Option.toList_none, List.map_nil, List.append_nil]
      exact tracks.distinct
    | some n =>
      obtain ⟨⟨absent, -⟩, -⟩ := HelloEvent.fresh_eq_some made
      refine tracks.distinct.append (List.nodup_singleton _) ?_
      intro a mem mem'
      obtain ⟨m, memm, rfl⟩ := List.mem_map.mp mem
      exact absent m memm (List.mem_singleton.mp mem')
  room := by
    rw [tracks.distinct.step_eq, List.length_append, List.length_map]
    cases made : ev.fresh t with
    | none => exact tracks.room
    | some n =>
      obtain ⟨⟨-, room⟩, -⟩ := HelloEvent.fresh_eq_some made
      exact room
  srcInstance := by
    intro n mem
    rcases tracks.distinct.mem_step.mp mem with ⟨m, memm, rfl⟩ | made
    · rw [(ev.effect_same m).srcInstance]
      exact tracks.srcInstance m memm
    · exact (HelloEvent.fresh_eq_some made).2.1
  dstInstance := by
    intro n mem
    rw [lastInstance_snoc]
    rcases tracks.distinct.mem_step.mp mem with ⟨m, memm, rfl⟩ | made
    · rw [ev.effect_dstInstance, ev.effect_addr, tracks.dstInstance m memm]
    · obtain ⟨admits, -, dst, -⟩ := HelloEvent.fresh_eq_some made
      rw [dst, lastInstance_of_unheard (tracks.unheard _ admits)]
  up := by
    intro n mem
    rw [alive_snoc]
    rcases tracks.distinct.mem_step.mp mem with ⟨m, memm, rfl⟩ | made
    · rw [ev.effect_up, ev.effect_addr, tracks.up m memm]
    · obtain ⟨admits, -, -, up⟩ := HelloEvent.fresh_eq_some made
      rw [up]
      have silent := not_alive_of_unheard (tracks.unheard _ admits)
      exact ⟨.inl, fun either => either.resolve_right fun both => silent both.2⟩
  unheard := by
    intro addr admits
    obtain ⟨before, heard⟩ := tracks.distinct.admits_of_step admits
    rw [instancesFrom_snoc, heard, tracks.unheard addr before]
    rfl

/-- The table after a history tracks it. -/
theorem helloTable (h : List HelloEvent) : (helloTable h).Tracks h := by
  induction h using List.reverseRecOn with
  | nil =>
    exact { distinct := List.nodup_nil
            room := Nat.zero_le _
            srcInstance := List.forall_mem_nil _
            dstInstance := List.forall_mem_nil _
            up := List.forall_mem_nil _
            unheard := fun _ _ => rfl }
  | append_singleton h ev ih =>
    rw [helloTable_snoc]
    exact ih.step ev

end HelloTable.Tracks

/-- An entry stays for good. -/
theorem mem_helloTable_append {n : Neighbor} (mem : n ∈ helloTable h) (later : List HelloEvent) :
    ∃ m ∈ helloTable (h ++ later), n.Same m := by
  induction later using List.reverseRecOn with
  | nil =>
    rw [List.append_nil]
    exact ⟨n, mem, rfl, rfl, rfl, rfl⟩
  | append_singleton later ev ih =>
    obtain ⟨m, memm, addr, localAddr, ifindex, srcInstance⟩ := ih
    have same := ev.effect_same m
    rw [← List.append_assoc, helloTable_snoc]
    refine ⟨ev.effect m, (HelloTable.Tracks.helloTable _).distinct.mem_step.mpr
      (.inl ⟨m, memm, rfl⟩), ?_⟩
    exact ⟨same.addr.trans addr, same.localAddr.trans localAddr, same.ifindex.trans ifindex,
      same.srcInstance.trans srcInstance⟩

/-! ## Calls -/

def helloCall (srcInstance dstInstance : UInt32) (cType : UInt8) : AddCall :=
  ⟨classHello, cType, bytes32 (htonl srcInstance) ++ bytes32 (htonl dstInstance)⟩

def helloMessage (n : Neighbor) (cType : UInt8) : Bytes :=
  built 128 msgHello 255 [helloCall n.srcInstance n.dstInstance cType]

theorem helloCall_fits (srcInstance dstInstance : UInt32) (cType : UInt8) :
    commonHdrLen + spans [helloCall srcInstance dstInstance cType] ≤ 128 := by
  rw [spans_cons, (helloCall srcInstance dstInstance cType).span_eq (n := 8) rfl]
  decide

/-- The one object of a Hello always fits. -/
theorem sendHello_eq (n : Neighbor) (cType : UInt8) :
    sendHello n cType = [.sendPacket n.localAddr n.addr (helloMessage n cType)] := by
  have image := Builder.Image.init msgHello (show commonHdrLen ≤ 128 by decide)
  have fits := helloCall_fits n.srcInstance n.dstInstance cType
  obtain ⟨code, -⟩ := image.add_fits fits
  have message : helloMessage n cType = ((rsvpBuilderInit 128 msgHello).add
      (helloCall n.srcInstance n.dstInstance cType)).2.finish := by
    rw [helloMessage, built, setTtl_rsvpBuilderInit msgHello (by decide)]
    rfl
  rw [message]
  exact if_neg (not_not_intro code)

/-- The packet parses as a Hello with these instances. -/
def CarriesInstances (packet : Bytes) (srcInstance dstInstance : UInt32) : Prop :=
  ∃ info o, rsvpParsePacket packet = .ok info ∧ info.commonHdr.msgType = msgHello ∧
    info.objs .helloObj = some o ∧ ntohl (u32At o.data 0) = srcInstance ∧
    ntohl (u32At o.data 4) = dstInstance

theorem helloMessage_carries (n : Neighbor) {cType : UInt8}
    (kind : cType = helloCtypeRequest ∨ cType = helloCtypeAck) (src dest : InAddr) :
    CarriesInstances (rsvpPacket src dest (helloMessage n cType) false) n.srcInstance
      n.dstInstance := by
  have valid : ∀ c ∈ [helloCall n.srcInstance n.dstInstance cType], c.Valid := by
    intro c mem
    rw [List.mem_singleton.mp mem]
    exact AddCall.valid_mk .helloObj (show slotOfClass classHello = some .helloObj by decide)
      (decide_eq_true kind) (Nat.le_refl 8)
  have mandatory : ∀ k ∈ mandatorySlots msgHello,
      (firstCall [helloCall n.srcInstance n.dstInstance cType] k).isSome = true := by
    have none : mandatorySlots msgHello = [] := by decide
    rw [none]
    exact List.forall_mem_nil _
  obtain ⟨info, parsed, decodes, -⟩ := parse_built 255
    (helloCall_fits n.srcInstance n.dstInstance cType) (by decide) valid mandatory src dest false
  obtain ⟨o, held, data⟩ := decodes.data_eq (k := .helloObj) rfl
  have first : u32At (bytes32 (htonl n.srcInstance) ++ bytes32 (htonl n.dstInstance)) 0 =
      htonl n.srcInstance := le32_bytes _
  have second : u32At (bytes32 (htonl n.srcInstance) ++ bytes32 (htonl n.dstInstance)) 4 =
      htonl n.dstInstance := le32_bytes _
  refine ⟨info, o, parsed, decodes.msgType, held, ?_, ?_⟩
  · rw [data, helloCall, first]
    exact bswap32_bswap32 _
  · rw [data, helloCall, second]
    exact bswap32_bswap32 _

namespace HelloTable

variable {t : HelloTable}

/-- What a Hello calls: its source has an entry afterwards, which answers, and which triggered if it
was there before and saw a restart. -/
theorem recv_calls_cases (rand : Rand) (t : HelloTable) (src : InAddr) (x y : UInt32)
    (cType : UInt8) :
    (∃ n, (n ∈ t ∧ n.addr = src ∨ t.Admits src ∧ n = .new rand src 0 0) ∧
      (t.step (.recv src x y cType rand)).2 =
        (if n.restarted x then [.frrTrigger n.ifindex] else []) ++
          if cType = helloCtypeRequest then sendHello (n.hears x) helloCtypeAck else []) ∨
      (∀ n ∈ t, n.addr ≠ src) ∧ maxNeighbors ≤ t.length ∧
        (t.step (.recv src x y cType rand)).2 = [] := by
  dsimp only [step]
  rcases rsvpHelloAddNeighbor_cases rand t src 0 0 with
    ⟨n, mem, here, eq⟩ | ⟨admits, eq⟩ | ⟨absent, full, eq⟩
  · rw [rsvpHelloRecv_of_find ((recvEntry_eq rand t src).trans eq)]
    exact .inl ⟨n, .inl ⟨mem, here⟩, rfl⟩
  · rw [rsvpHelloRecv_of_find ((recvEntry_eq rand t src).trans eq)]
    exact .inl ⟨_, .inr ⟨admits, rfl⟩, rfl⟩
  · rw [rsvpHelloRecv, recvEntry_eq, eq]
    exact .inr ⟨absent, full, rfl⟩

/-- Whatever is sent is the Hello of an entry as the event leaves it. -/
theorem Distinct.sends (distinct : t.Distinct) {src dest : InAddr} {msg : Bytes}
    (sent : .sendPacket src dest msg ∈ (t.step ev).2) :
    ∃ n ∈ (t.step ev).1, n.localAddr = src ∧ n.addr = dest ∧
      ∃ cType, (cType = helloCtypeRequest ∨ cType = helloCtypeAck) ∧ msg = helloMessage n cType := by
  have hello : ∀ {n : Neighbor} {cType : UInt8}, .sendPacket src dest msg ∈ sendHello n cType →
      n.localAddr = src ∧ n.addr = dest ∧ msg = helloMessage n cType := by
    intro n cType mem
    rw [sendHello_eq, List.mem_singleton] at mem
    cases mem
    exact ⟨rfl, rfl, rfl⟩
  cases ev with
  | add => cases sent
  | deadTimer addr =>
    dsimp only [step, deadTimerCb] at sent
    split at sent
    · cases sent
    · cases List.mem_singleton.mp sent
  | helloTimer addr =>
    dsimp only [step, helloTimerCb] at sent
    split at sent
    · cases sent
    · rename_i n found
      obtain ⟨localAddr, dest, msg⟩ := hello sent
      obtain ⟨mem, here⟩ := find_eq_some found
      have after : (HelloEvent.helloTimer addr).effect n = { n with helloTimer := true } :=
        if_pos here
      exact ⟨_, distinct.mem_step.mpr (.inl ⟨n, mem, after⟩), localAddr, dest, _, .inl rfl, msg⟩
  | recv from_ x y cType rand =>
    rcases recv_calls_cases rand t from_ x y cType with ⟨n, entry, calls⟩ | ⟨-, -, calls⟩
    · have after : n.hears x ∈ (t.step (.recv from_ x y cType rand)).1 := by
        rw [distinct.mem_step]
        rcases entry with ⟨mem, here⟩ | ⟨admits, rfl⟩
        · exact .inl ⟨n, mem, if_pos here⟩
        · exact .inr (if_pos admits)
      rw [calls, List.mem_append] at sent
      rcases sent with trigger | answer
      · split at trigger
        · cases List.mem_singleton.mp trigger
        · cases trigger
      · split at answer
        · obtain ⟨localAddr, dest, msg⟩ := hello answer
          exact ⟨_, after, localAddr, dest, _, .inr rfl, msg⟩
        · cases answer
    · rw [calls] at sent
      cases sent

theorem frrTrigger_not_mem_sendHello (n : Neighbor) (cType : UInt8) (i : UInt32) :
    .frrTrigger i ∉ sendHello n cType := by
  rw [sendHello_eq, List.mem_singleton]
  exact HelloCall.noConfusion

/-- A Hello triggers FRR iff its source has an entry and restarted. -/
theorem Distinct.recv_triggers_iff (distinct : t.Distinct) {rand : Rand} {src : InAddr}
    {x y : UInt32} {cType : UInt8} {i : UInt32} :
    .frrTrigger i ∈ (t.step (.recv src x y cType rand)).2 ↔
      ∃ n ∈ t, n.addr = src ∧ n.restarted x = true ∧ n.ifindex = i := by
  have answers : ∀ n : Neighbor, .frrTrigger i ∉
      if cType = helloCtypeRequest then sendHello n helloCtypeAck else [] := by
    intro n
    split
    · exact frrTrigger_not_mem_sendHello n _ i
    · exact List.not_mem_nil
  rcases recv_calls_cases rand t src x y cType with ⟨n, entry, calls⟩ | ⟨absent, -, calls⟩
  · rw [calls, List.mem_append, or_iff_left (answers _)]
    have triggers : HelloCall.frrTrigger i ∈
        (if n.restarted x then [HelloCall.frrTrigger n.ifindex] else []) ↔
        n.restarted x = true ∧ n.ifindex = i := by
      split
      · rename_i restarted
        rw [List.mem_singleton, HelloCall.frrTrigger.injEq]
        exact ⟨fun same => ⟨restarted, same.symm⟩, fun both => both.2.symm⟩
      · rename_i steady
        exact ⟨fun mem => absurd mem List.not_mem_nil, fun both => absurd both.1 steady⟩
    rw [triggers]
    rcases entry with ⟨mem, here⟩ | ⟨admits, rfl⟩
    · constructor
      · exact fun both => ⟨n, mem, here, both⟩
      · rintro ⟨m, memm, same, both⟩
        rw [List.inj_on_of_nodup_map distinct mem memm (here.trans same.symm)]
        exact both
    · constructor
      · -- A new entry knows no instance yet.
        rintro ⟨restarted, -⟩
        exact absurd rfl (of_decide_eq_true restarted).1
      · rintro ⟨m, memm, same, -⟩
        exact absurd same (admits.1 m memm)
  · rw [calls]
    constructor
    · exact fun mem => absurd mem List.not_mem_nil
    · rintro ⟨m, memm, same, -⟩
      exact absurd same (absent m memm)

theorem Distinct.deadTimer_calls (distinct : t.Distinct) {n : Neighbor} (mem : n ∈ t) :
    (t.step (.deadTimer n.addr)).2 = [.frrTrigger n.ifindex] := by
  dsimp only [step]
  rw [deadTimerCb, distinct.find_of_mem mem]

end HelloTable

/-! ## The adjacency invariant -/

/-- A reception triggers FRR iff its source is a neighbour and the Hello before it carried another
instance than zero and this one. -/
theorem triggers_iff {rand : Rand} {src : InAddr} {x y : UInt32} {cType : UInt8} :
    (∃ i, .frrTrigger i ∈ helloCalls h (.recv src x y cType rand)) ↔
      (∃ n ∈ helloTable h, n.addr = src) ∧ lastInstance src h ≠ 0 ∧ x ≠ lastInstance src h := by
  have tracks := HelloTable.Tracks.helloTable h
  constructor
  · rintro ⟨i, called⟩
    obtain ⟨n, mem, rfl, restarted, -⟩ := tracks.distinct.recv_triggers_iff.mp called
    rw [← tracks.dstInstance n mem]
    exact ⟨⟨n, mem, rfl⟩, of_decide_eq_true restarted⟩
  · rintro ⟨⟨n, mem, rfl⟩, differs⟩
    rw [← tracks.dstInstance n mem] at differs
    exact ⟨n.ifindex, tracks.distinct.recv_triggers_iff.mpr
      ⟨n, mem, rfl, decide_eq_true differs, rfl⟩⟩

/-- An event that brings a Hello from an address triggers FRR. -/
def Restarts (addr : InAddr) (h : List HelloEvent) (ev : HelloEvent) : Prop :=
  ev.instanceFrom addr ≠ none ∧ ∃ i, .frrTrigger i ∈ helloCalls h ev

theorem restarts_iff {x : UInt32} (heard : ev.instanceFrom addr = some x) :
    Restarts addr h ev ↔
      (∃ n ∈ helloTable h, n.addr = addr) ∧ lastInstance addr h ≠ 0 ∧ x ≠ lastInstance addr h := by
  cases ev with
  | recv src x' y cType rand =>
    obtain ⟨rfl, same⟩ := Option.ite_some_none_eq_some.mp heard
    cases same
    rw [← triggers_iff]
    exact ⟨And.right, fun called => ⟨by rw [heard]; exact Option.some_ne_none x, called⟩⟩
  | add => cases heard
  | helloTimer => cases heard
  | deadTimer => cases heard

/-- Without a trigger a known instance stays. -/
theorem lastInstance_of_steady {n : Neighbor} (mem : n ∈ helloTable h)
    (known : lastInstance n.addr h ≠ 0) (later : List HelloEvent)
    (steady : ∀ before ev rest, later = before ++ ev :: rest → ¬ Restarts n.addr (h ++ before) ev) :
    lastInstance n.addr (h ++ later) = lastInstance n.addr h := by
  induction later using List.reverseRecOn with
  | nil => rw [List.append_nil]
  | append_singleton later ev ih =>
    have before := ih fun before ev' rest eq => steady before ev' (rest ++ [ev]) (by
      rw [eq, List.append_assoc, List.cons_append])
    rw [← List.append_assoc, lastInstance_snoc]
    cases heard : ev.instanceFrom n.addr with
    | none => exact before
    | some x =>
      obtain ⟨m, memm, same⟩ := mem_helloTable_append mem later
      have silent := steady later ev [] rfl
      rw [restarts_iff heard, before] at silent
      rw [Option.getD_some]
      by_contra differs
      exact silent ⟨⟨m, memm, same.addr⟩, known, differs⟩

/-- What holds of the adjacencies after a history. -/
structure AdjacencyInvariant (h : List HelloEvent) : Prop where
  /-- One entry per address, and no more than the table holds. -/
  table : ((helloTable h).map Neighbor.addr).Nodup ∧ (helloTable h).length ≤ maxNeighbors
  /-- The instance of this node toward a neighbour is not zero and stays. -/
  srcInstance : ∀ n ∈ helloTable h, n.srcInstance ≠ 0 ∧
    ∀ later, ∃ m ∈ helloTable (h ++ later), m.addr = n.addr ∧ m.srcInstance = n.srcInstance
  /-- A Hello carries that instance and the one of the last Hello from its destination. -/
  sent : ∀ ev src dest msg, .sendPacket src dest msg ∈ helloCalls h ev →
    ∃ n ∈ helloTable (h ++ [ev]), n.addr = dest ∧
      CarriesInstances (rsvpPacket src dest msg false) n.srcInstance
        (lastInstance dest (h ++ [ev]))
  up : ∀ n ∈ helloTable h, n.state = .up ↔ Alive n.addr h
  /-- A reception triggers FRR iff the Hello before it carried another instance than zero and
  this one. -/
  restart : ∀ src x y cType rand, (∃ i, .frrTrigger i ∈ helloCalls h (.recv src x y cType rand)) ↔
    (∃ n ∈ helloTable (h ++ [.recv src x y cType rand]), n.addr = src) ∧
      lastInstance src h ≠ 0 ∧ x ≠ lastInstance src h
  /-- Between two Hellos with different instances other than zero there is a trigger. -/
  between : ∀ n ∈ helloTable h, lastInstance n.addr h ≠ 0 → ∀ later,
    lastInstance n.addr (h ++ later) ≠ 0 →
    lastInstance n.addr (h ++ later) ≠ lastInstance n.addr h →
    ∃ before ev rest, later = before ++ ev :: rest ∧ Restarts n.addr (h ++ before) ev
  /-- A neighbour that keeps its instance triggers nothing. -/
  steady : ∀ addr x, (∀ x' ∈ instancesFrom addr h, x' = x) → ∀ before ev rest,
    h = before ++ ev :: rest → ¬ Restarts addr before ev

theorem adjacencyInvariant (h : List HelloEvent) : AdjacencyInvariant h where
  table := ⟨(HelloTable.Tracks.helloTable h).distinct, (HelloTable.Tracks.helloTable h).room⟩
  srcInstance := by
    intro n mem
    refine ⟨(HelloTable.Tracks.helloTable h).srcInstance n mem, fun later => ?_⟩
    obtain ⟨m, memm, same⟩ := mem_helloTable_append mem later
    exact ⟨m, memm, same.addr, same.srcInstance⟩
  sent := by
    intro ev src dest msg sent
    obtain ⟨n, mem, rfl, rfl, cType, kind, rfl⟩ :=
      (HelloTable.Tracks.helloTable h).distinct.sends sent
    rw [← helloTable_snoc] at mem
    have carries := helloMessage_carries n kind n.localAddr n.addr
    rw [(HelloTable.Tracks.helloTable _).dstInstance n mem] at carries
    exact ⟨n, mem, rfl, carries⟩
  up := (HelloTable.Tracks.helloTable h).up
  restart := by
    intro src x y cType rand
    rw [triggers_iff]
    constructor
    · rintro ⟨⟨n, mem, rfl⟩, differs⟩
      obtain ⟨m, memm, same⟩ := mem_helloTable_append mem [.recv n.addr x y cType rand]
      exact ⟨⟨m, memm, same.addr⟩, differs⟩
    · rintro ⟨⟨n, mem, rfl⟩, known, differs⟩
      have tracks := HelloTable.Tracks.helloTable h
      rw [helloTable_snoc, tracks.distinct.mem_step] at mem
      rcases mem with ⟨m, memm, after⟩ | made
      · exact ⟨⟨m, memm, after ▸ (HelloEvent.effect_addr _ m).symm⟩, known, differs⟩
      · obtain ⟨admits, -⟩ := HelloEvent.fresh_eq_some made
        exact absurd (lastInstance_of_unheard (tracks.unheard _ admits)) known
  between := by
    intro n mem known later known' differs
    by_contra none
    simp only [not_exists, not_and] at none
    exact differs (lastInstance_of_steady mem known later none)
  steady := by
    intro addr x all before ev rest eq restarts
    cases heard : ev.instanceFrom addr with
    | none => exact restarts.1 heard
    | some x' =>
      obtain ⟨-, known, differs⟩ := (restarts_iff heard).mp restarts
      have sent : ∀ x'' ∈ instancesFrom addr before, x'' = x := fun x'' mem => all x'' (by
        rw [eq, instancesFrom, List.filterMap_append]
        exact List.mem_append_left _ mem)
      have now : x' = x := all x' (by
        rw [eq, instancesFrom, List.filterMap_append, List.filterMap_cons_some heard]
        exact List.mem_append_right _ List.mem_cons_self)
      exact differs (now.trans (sent _ (lastInstance_mem known)).symm)

end Rsvp
