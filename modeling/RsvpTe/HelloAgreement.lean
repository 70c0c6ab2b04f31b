import RsvpTe.HelloNetwork

/-!
# What the two ends of a link know of each other

A daemon only ever knows the instance that its neighbour has for it, and takes no HELLO for that of a
restart (`hello_agreement`).  Whatever the daemons have done, lost and timed out before: once a hello
timer expires, its REQUEST and the ACK that answers it leave both ends of the link up, each with the
instance of the other (`adjacency_comes_up`).  That run of three steps is an `Exchange`.
-/

namespace Rsvp

open Words

variable {ι : Type} {w : Wiring ι} {labels : ι → LabelMgr} {envs : ι → Set Env} {c : ι → Daemon}
variable {env : Env} {d : Daemon} {n : Neighbor} {i : ι}

/-! ## One exchange -/

/-- The packet of a HELLO. -/
def Neighbor.helloPacket (n : Neighbor) (answer : Bool) : Output :=
  .packet n.addr false (rsvpPacket n.localAddr n.addr (Message.hello n answer).bytes false)

/-- A HELLO always fits its packet. -/
theorem sendHello_performed (s : Node) (n : Neighbor) (answer : Bool) :
    (sendHello n (if answer then helloCtypeAck else helloCtypeRequest)).foldl (Node.perform env) s =
      s.emit (n.helloPacket answer) := by
  rw [sendHello_eq, Neighbor.helloPacket, bytes_hello]
  exact rsvpSendPacket_built s n.localAddr n.addr msgHello 255 (helloCall_fits _ _ _) (by decide)
    false

/-- A hello timer sends a REQUEST and runs again. -/
theorem Daemon.helloTimer_sends (distinct : d.hellos.Distinct) (mem : n ∈ d.hellos) :
    (d.step env (.helloTimer n.addr)).node.out = d.node.out ++ [n.helloPacket false] ∧
      { n with helloTimer := true } ∈ (d.step env (.helloTimer n.addr)).hellos := by
  constructor
  · have calls : (d.hellos.step (.helloTimer n.addr)).2 = sendHello n helloCtypeRequest := by
      dsimp only [HelloTable.step, HelloTable.helloTimerCb]
      rw [distinct.find_of_mem mem]
    have node : (d.step env (.helloTimer n.addr)).node = d.node.emit (n.helloPacket false) := by
      rw [← sendHello_performed]
      exact congrArg (fun calls => List.foldl (Node.perform env) d.node calls) calls
    rw [node]
    rfl
  · rw [d.step_hellos]
    exact distinct.mem_step.mpr (.inl ⟨n, mem, if_pos rfl⟩)

/-- What is read as a HELLO is parsed as one and does not come from here. -/
theorem receivedHello_parsed {bytes : Bytes} {rand : Rand} {event : HelloEvent}
    (heard : receivedHello env bytes rand = some event) :
    ¬ (iphdrLen ≤ (bytes.take maxRsvpPacketSize).length ∧
        env.isLocalAddr (u32At (bytes.take maxRsvpPacketSize) 12) = true) ∧
      ∃ info, rsvpParsePacket (bytes.take maxRsvpPacketSize) = .ok info ∧
        info.commonHdr.msgType = msgHello := by
  unfold receivedHello at heard
  dsimp only at heard
  by_cases loops : iphdrLen ≤ (bytes.take maxRsvpPacketSize).length ∧
      env.isLocalAddr (u32At (bytes.take maxRsvpPacketSize) 12) = true
  · rw [if_pos loops] at heard
    cases heard
  · rw [if_neg loops] at heard
    cases parsed : rsvpParsePacket (bytes.take maxRsvpPacketSize) with
    | ok info =>
      rw [parsed] at heard
      by_cases type : info.commonHdr.msgType = msgHello
      · exact ⟨loops, info, rfl, type⟩
      · dsimp only at heard
        rw [if_neg type] at heard
        cases heard
    | _ =>
      rw [parsed] at heard
      cases heard

/-- The state machine does nothing with a HELLO. -/
theorem step_recv_hello {bytes : Bytes} {rand : Rand} {event : HelloEvent}
    (heard : receivedHello env bytes rand = some event) (s : Node) :
    s.step env (.recv bytes) = s := by
  obtain ⟨loops, info, parsed, type⟩ := receivedHello_parsed heard
  have handled : rsvpHandleMessage env s info = s := by
    rw [rsvpHandleMessage, type]
    rfl
  simp only [Node.step, dispatchPacket, if_neg loops, parsed, handled, ite_self]

/-- A HELLO whose source has an entry or room for one leaves the entry up, with the instance it
brought, and a REQUEST is answered.  Nothing else is sent if it is not that of a restart. -/
theorem Daemon.hears (distinct : d.hellos.Distinct) {src : InAddr} {x y : UInt32} {cType : UInt8}
    {rand : Rand} {bytes : Bytes}
    (heard : receivedHello env bytes rand = some (.recv src x y cType rand))
    (room : (∃ m ∈ d.hellos, m.addr = src) ∨ d.hellos.length < maxNeighbors)
    (steady : ∀ k ∈ d.hellos, k.addr = src → k.restarted x = false) :
    ∃ m ∈ (d.step env (.packet bytes rand)).hellos, m.addr = src ∧ m.state = .up ∧
      m.dstInstance = x ∧
      (d.step env (.packet bytes rand)).node.out =
        d.node.out ++ (if cType = helloCtypeRequest then [m.helloPacket true] else []) ∧
      ∀ k ∈ d.hellos, k.addr = src → m = k.hears x := by
  have hellos : (d.step env (.packet bytes rand)).hellos =
      (d.hellos.step (.recv src x y cType rand)).1 := by
    rw [d.step_hellos, DaemonEvent.hello, heard]
    rfl
  have node : (d.step env (.packet bytes rand)).node =
      (d.hellos.step (.recv src x y cType rand)).2.foldl (Node.perform env) d.node := by
    unfold Daemon.step
    dsimp only
    rw [heard, step_recv_hello heard]
    rfl
  rw [hellos, node]
  rcases HelloTable.recv_calls_cases rand d.hellos src x y cType with
    ⟨k, entry, calls⟩ | ⟨absent, full, -⟩
  · have calm : k.restarted x = false := by
      rcases entry with ⟨mem, here⟩ | ⟨-, rfl⟩
      · exact steady k mem here
      · rfl
    have sent : ((d.hellos.step (.recv src x y cType rand)).2.foldl (Node.perform env) d.node).out =
        d.node.out ++ if cType = helloCtypeRequest then [(k.hears x).helloPacket true] else [] := by
      rw [calls, calm, if_neg Bool.false_ne_true, List.nil_append]
      split
      · exact congrArg Node.out (@sendHello_performed env d.node (k.hears x) true)
      · exact (List.append_nil _).symm
    rcases entry with ⟨mem, here⟩ | ⟨admits, rfl⟩
    · refine ⟨k.hears x, distinct.mem_step.mpr (.inl ⟨k, mem, if_pos here⟩), here, rfl, rfl, sent,
        fun k' mem' here' => ?_⟩
      rw [List.inj_on_of_nodup_map distinct mem mem' (here.trans here'.symm)]
    · exact ⟨_, distinct.mem_step.mpr (.inr (if_pos admits)), rfl, rfl, rfl, sent,
        fun k' mem' here' => absurd here' (admits.1 k' mem')⟩
  · rcases room with ⟨m, mem, here⟩ | room
    · exact absurd here (absent m mem)
    · exact absurd room (Nat.not_lt.mpr full)

/-! ## Agreement -/

/-- A published entry is an entry. -/
theorem has_of_entry {j : ι} {addr : InAddr} {x : UInt32}
    (told : .entry j addr x ∈ (helloNetwork w labels envs).facts c) : (c j).hellos.Has addr x := by
  obtain ⟨k, given⟩ := Set.mem_iUnion.mp told
  rcases given with ⟨dest, useRao, bytes, -, sent⟩ | ⟨n, mem, same⟩
  · cases sent
  · cases same
    exact ⟨n, mem, rfl, rfl⟩

/-- The owner of an address has one instance for whom it hears from. -/
theorem Wiring.Known.unique {addr : InAddr} {x y : UInt32}
    (agrees : ∀ j, (c j).Agrees w ((helloNetwork w labels envs).facts c) j)
    (first : w.Known ((helloNetwork w labels envs).facts c) i addr x)
    (second : w.Known ((helloNetwork w labels envs).facts c) i addr y) : x = y := by
  obtain ⟨j, owner, told⟩ := first
  obtain ⟨k, owner', told'⟩ := second
  cases owner.symm.trans owner'
  obtain ⟨n, mem, here, rfl⟩ := has_of_entry told
  obtain ⟨m, memm, here', rfl⟩ := has_of_entry told'
  rw [List.inj_on_of_nodup_map (agrees j).distinct mem memm (here.trans here'.symm)]

/-- A HELLO of a neighbour never looks like that of one that restarted. -/
theorem Wiring.Brings.steady (agrees : ∀ j, (c j).Agrees w ((helloNetwork w labels envs).facts c) j)
    {src : InAddr} {x y : UInt32} {cType : UInt8} {rand : Rand}
    (brings : w.Brings ((helloNetwork w labels envs).facts c) i (.recv src x y cType rand))
    (mem : n ∈ (c i).hellos) (here : n.addr = src) : n.restarted x = false := by
  cases brings with
  | recv known _ =>
    subst here
    by_contra restarts
    obtain ⟨heard, differs⟩ := of_decide_eq_true (Bool.not_eq_false _ ▸ restarts)
    exact differs (known.unique agrees (((agrees i).fits n mem).known heard))

/-! ## Delivery -/

/-- The HELLO of entry `n` of daemon `i` arrives at daemon `j`, behind any IP header from its link. -/
def HelloArrives [DecidableEq ι] (w : Wiring ι) (envs : ι → Set Env) (i j : ι) (n : Neighbor)
    (answer : Bool) (c c' : ι → Daemon) : Prop :=
  ∃ env ∈ envs j, ∃ bytes rand,
    Delivered (w.source i n.addr)
      (rsvpPacket n.localAddr n.addr (Message.hello n answer).bytes false) bytes ∧
    c' = Function.update c j ((c j).step env (.packet bytes rand))

/-- A HELLO that was sent over its link is heard at the other end. -/
theorem Neighbor.helloPacket_heard {src : InAddr} {bytes : Bytes} {answer : Bool}
    (link : n.localAddr = 0 ∨ n.localAddr = src) (foreign : env.isLocalAddr src = false)
    (arrives : Delivered src
      (rsvpPacket n.localAddr n.addr (Message.hello n answer).bytes false) bytes) (rand : Rand) :
    receivedHello env bytes rand = some (n.heardFrom answer src rand) := by
  have source : (if n.localAddr = 0 then src else n.localAddr) = src := by
    rcases link with zero | same
    · exact if_pos zero
    · rw [same, ite_self]
  have heard := (arrives.receivedHello env rand).2 n answer rfl
  rw [source, foreign] at heard
  exact heard

/-- What becomes of a logged HELLO that arrives at the other end of its link. -/
theorem hello_delivered [DecidableEq ι]
    (own : ∀ i, ∀ env ∈ envs i, ∀ addr, env.isLocalAddr addr = true → w.owner addr = some i)
    (reach : (helloNetwork w labels envs).Reach c) {i j : ι} (apart : i ≠ j) {answer : Bool}
    (sent : n.helloPacket answer ∈ (c i).node.out)
    (link : n.localAddr = 0 ∨ n.localAddr = w.source i n.addr) (owner : w.owner n.addr = some j)
    (room : (∃ m ∈ (c j).hellos, m.addr = w.source i n.addr) ∨
      (c j).hellos.length < maxNeighbors)
    {c' : ι → Daemon} (arrives : HelloArrives w envs i j n answer c c') :
    (helloNetwork w labels envs).Moves c c' ∧ (∀ k, k ≠ j → c' k = c k) ∧
      ∃ m ∈ (c' j).hellos, m.addr = w.source i n.addr ∧ m.state = .up ∧
        m.dstInstance = n.srcInstance ∧
        (c' j).node.out = (c j).node.out ++ (if answer then [] else [m.helloPacket true]) ∧
        ∀ k ∈ (c j).hellos, k.addr = w.source i n.addr → m = k.hears n.srcInstance := by
  obtain ⟨env, found, bytes, rand, delivered, rfl⟩ := arrives
  have agrees := fun i => (helloContract w labels envs).inv_of_reach reach i
  have good := (helloContract w labels envs).good agrees
  have foreign : env.isLocalAddr (w.source i n.addr) = false := by
    apply Bool.eq_false_iff.mpr
    intro here
    exact apart (Option.some.inj ((w.owner_source i n.addr).symm.trans (own j env found _ here)))
  have heard := n.helloPacket_heard link foreign delivered rand
  have told : .packet i n.addr
      (rsvpPacket n.localAddr n.addr (Message.hello n answer).bytes false) ∈
        (helloNetwork w labels envs).facts c :=
    Network.gives_subset_facts c i (.inl ⟨n.addr, false, _, sent, rfl⟩)
  have allows : w.Allows j ((helloNetwork w labels envs).facts c) env (.packet bytes rand) :=
    .delivered told owner delivered
  have brings := allows.brings good heard
  obtain ⟨m, mem, here, up, dst, log, same⟩ := Daemon.hears (agrees j).distinct heard room
    fun k mem here => brings.steady agrees mem here
  refine ⟨⟨j, _, ⟨env, found, _, allows, rfl⟩, rfl⟩, fun k other => Function.update_of_ne other _ _,
    m, ?_, here, up, dst, ?_, same⟩
  · rw [Function.update_self]
    exact mem
  · rw [Function.update_self, log]
    cases answer <;> rfl

/-- In every configuration that the daemons reach, over links that lose, delay, repeat and reorder
packets: the instance that a daemon knows of a neighbour is that of the neighbour's entry for it; a
HELLO that arrives carries no instance or that of the entry for its source; and FRR is only
triggered by a dead timer. -/
theorem hello_agreement [DecidableEq ι] (reach : (helloNetwork w labels envs).Reach c) :
    (∀ i, ∀ n ∈ (c i).hellos, n.dstInstance ≠ 0 → ∃ j, w.owner n.addr = some j ∧
      ∃ m ∈ (c j).hellos, m.addr = w.source i n.addr ∧ m.srcInstance = n.dstInstance) ∧
    ∀ i env ev event, w.Allows i ((helloNetwork w labels envs).facts c) env ev →
      ev.hello env = some event →
      (∀ src x y cType rand, event = .recv src x y cType rand → y ≠ 0 →
        ∃ n ∈ (c i).hellos, n.addr = src ∧ n.srcInstance = y) ∧
      ∀ ifindex, .frrTrigger ifindex ∈ ((c i).hellos.step event).2 →
        ∃ addr, ev = .deadTimer addr := by
  have agrees := fun i => (helloContract w labels envs).inv_of_reach reach i
  have good := (helloContract w labels envs).good agrees
  constructor
  · intro i n mem known
    obtain ⟨j, owner, told⟩ := ((agrees i).fits n mem).known known
    exact ⟨j, owner, has_of_entry told⟩
  · intro i env ev event allows hello
    have brings := allows.brings good hello
    constructor
    · rintro src x y cType rand rfl known
      cases brings with
      | recv _ told => exact has_of_entry (told known)
    · intro ifindex called
      cases event with
      | add => exact absurd called List.not_mem_nil
      | recv src x y cType rand =>
        obtain ⟨n, mem, here, restarts, -⟩ := (agrees i).distinct.recv_triggers_iff.mp called
        cases (brings.steady agrees mem here).symm.trans restarts
      | helloTimer addr =>
        dsimp only [HelloTable.step, HelloTable.helloTimerCb] at called
        split at called
        · exact absurd called List.not_mem_nil
        · exact absurd called (HelloTable.frrTrigger_not_mem_sendHello _ _ _)
      | deadTimer addr =>
        cases ev with
        | deadTimer => exact ⟨_, rfl⟩
        | packet bytes rand =>
          obtain ⟨src, x, y, cType, same⟩ := receivedHello_recv hello
          cases same
        | lsp => cases hello
        | addNeighbor => cases hello
        | helloTimer => cases hello

/-- Two daemons at the ends of one link. -/
def twoEnds : Wiring Bool where
  owner := fun a => if a = 1 then some false else if a = 2 then some true else none
  source := fun i _ => if i then 2 else 1
  owner_source := by
    intro i a
    cases i <;> rfl
  source_source := by
    intro i j a owner
    split at owner
    · rename_i here
      cases owner
      exact here.symm
    · split at owner
      · rename_i here
        cases owner
        exact here.symm
      · cases owner

abbrev sampleLink : Network Bool Daemon (HelloFact Bool) :=
  helloNetwork twoEnds (fun _ => labelMgrInit 16 31 true) fun _ => {sampleEnv (fun _ => false) 1}

/-- The first daemon has configured the second, with instance 9 for it. -/
def sampleEnds : Bool → Daemon :=
  Function.update sampleLink.init false ((sampleLink.init false).step (sampleEnv (fun _ => false) 1)
    (.addNeighbor 2 0 3 ⟨fun _ => 9, 0, by decide⟩))

theorem sampleEnds_reach : sampleLink.Reach sampleEnds :=
  .step .init ⟨_, rfl, _, .addNeighbor (.inl rfl), rfl⟩

theorem sampleEnds_own (i : Bool) : ∀ env ∈ ({sampleEnv (fun _ => false) 1} : Set Env),
    ∀ addr, env.isLocalAddr addr = true → twoEnds.owner addr = some i := by
  rintro env rfl addr here
  cases here

/-- The second daemon hears a REQUEST, and knows the instance of the first. -/
theorem hello_agreement_request : ∃ c, sampleLink.Reach c ∧ ∃ m ∈ (c true).hellos,
    m.dstInstance = 9 ∧ ∃ n ∈ (c false).hellos, n.addr = 2 ∧ n.srcInstance = 9 := by
  have distinct : (sampleEnds false).hellos.Distinct :=
    ((helloContract _ _ _).inv_of_reach sampleEnds_reach false).distinct
  have listed : (⟨2, 0, 3, 9, 0, .idle, true, false⟩ : Neighbor) ∈ (sampleEnds false).hellos := by
    decide +kernel
  obtain ⟨log, -⟩ := @Daemon.helloTimer_sends (sampleEnv (fun _ => false) 1) _ _ distinct listed
  have first : sampleLink.Reach (Function.update sampleEnds false
      ((sampleEnds false).step (sampleEnv (fun _ => false) 1) (.helloTimer 2))) :=
    .step sampleEnds_reach ⟨_, rfl, _, .helloTimer 2, rfl⟩
  obtain ⟨second, -, m, mem, here, -, dst, -⟩ := hello_delivered sampleEnds_own first
    (n := ⟨2, 0, 3, 9, 0, .idle, true, false⟩) (show false ≠ true by decide)
    (by rw [Function.update_self, log]; exact List.mem_append_right _ List.mem_cons_self) (.inl rfl)
    rfl (.inr (by decide +kernel))
    ⟨_, rfl, _, ⟨fun _ => 1, 0, by decide⟩, delivered_rsvpPacket (.inl rfl) _ _ _, rfl⟩
  refine ⟨_, first.moves (.single second), m, mem, dst, ?_⟩
  obtain ⟨known, -⟩ := hello_agreement (first.moves (.single second))
  obtain ⟨j, owner, n, memn, heren, srcInstance⟩ := known true m mem (by rw [dst]; decide)
  rw [here] at owner
  cases owner
  exact ⟨n, memn, heren, srcInstance.trans dst⟩

/-! ## Coming up -/

/-- The run of one exchange: the hello timer of entry `n` expires at `i` and sends a REQUEST, the
REQUEST arrives at `j`, which sends the ACK of entry `m`, and the ACK arrives at `i`. -/
structure Exchange [DecidableEq ι] (w : Wiring ι) (envs : ι → Set Env) (i j : ι) (n m : Neighbor)
    (c c₁ c₂ c₃ : ι → Daemon) : Prop where
  timer : ∃ env ∈ envs i, c₁ = Function.update c i ((c i).step env (.helloTimer n.addr))
  asks : (c₁ i).node.out = (c i).node.out ++ [n.helloPacket false]
  request : HelloArrives w envs i j n false c₁ c₂
  answers : (c₂ j).node.out = (c₁ j).node.out ++ [m.helloPacket true]
  ack : HelloArrives w envs j i m true c₂ c₃

/-- Both ends of the link are up, each with the instance of the other. -/
structure BothUp (w : Wiring ι) (i j : ι) (addr : InAddr) (c : ι → Daemon) (n m : Neighbor) :
    Prop where
  mem : n ∈ (c i).hellos ∧ m ∈ (c j).hellos
  link : n.addr = addr ∧ m.addr = w.source i addr
  up : n.state = .up ∧ m.state = .up
  instances : n.dstInstance = m.srcInstance ∧ m.dstInstance = n.srcInstance

theorem Neighbor.helloPacket_inj {m : Neighbor} {answer : Bool}
    (same : n.helloPacket answer = m.helloPacket answer) : n.addr = m.addr ∧
      rsvpPacket n.localAddr n.addr (Message.hello n answer).bytes false =
        rsvpPacket m.localAddr m.addr (Message.hello m answer).bytes false := by
  rw [helloPacket, helloPacket] at same
  injection same with dest useRao bytes
  exact ⟨dest, bytes⟩

section Exchange

variable [DecidableEq ι] {j : ι} {c₁ c₂ c₃ : ι → Daemon} {m : Neighbor}

/-- How far an exchange has come when the REQUEST has arrived. -/
structure Requested (w : Wiring ι) (labels : ι → LabelMgr) (envs : ι → Set Env) (i j : ι)
    (n m : Neighbor) (c c₁ c₂ : ι → Daemon) : Prop where
  moves : (helloNetwork w labels envs).Moves c c₁ ∧ (helloNetwork w labels envs).Moves c₁ c₂
  asks : (c₁ i).node.out = (c i).node.out ++ [n.helloPacket false]
  answers : (c₂ j).node.out = (c₁ j).node.out ++ [m.helloPacket true]
  mem : { n with helloTimer := true } ∈ (c₂ i).hellos ∧ m ∈ (c₂ j).hellos
  addr : m.addr = w.source i n.addr
  link : m.localAddr = 0 ∨ m.localAddr = w.source j m.addr
  up : m.state = .up
  dst : m.dstInstance = n.srcInstance

theorem requested_of_timer
    (own : ∀ i, ∀ env ∈ envs i, ∀ addr, env.isLocalAddr addr = true → w.owner addr = some i)
    (reach : (helloNetwork w labels envs).Reach c) (apart : i ≠ j) (mem : n ∈ (c i).hellos)
    (owner : w.owner n.addr = some j)
    (room : (∃ m ∈ (c j).hellos, m.addr = w.source i n.addr) ∨
      (c j).hellos.length < maxNeighbors)
    (timer : ∃ env ∈ envs i, c₁ = Function.update c i ((c i).step env (.helloTimer n.addr)))
    (request : HelloArrives w envs i j n false c₁ c₂) :
    ∃ m, Requested w labels envs i j n m c c₁ c₂ := by
  obtain ⟨env, found, rfl⟩ := timer
  have agrees := (helloContract w labels envs).inv_of_reach reach i
  have first : (helloNetwork w labels envs).Moves c
      (Function.update c i ((c i).step env (.helloTimer n.addr))) :=
    ⟨i, _, ⟨env, found, _, .helloTimer n.addr, rfl⟩, rfl⟩
  obtain ⟨log, ticked⟩ := @Daemon.helloTimer_sends env (c i) n agrees.distinct mem
  generalize (c i).step env (.helloTimer n.addr) = d at log ticked first request
  have sent : n.helloPacket false ∈ (Function.update c i d i).node.out := by
    rw [Function.update_self, log]
    exact List.mem_append_right _ List.mem_cons_self
  have room' : (∃ m ∈ (Function.update c i d j).hellos, m.addr = w.source i n.addr) ∨
      (Function.update c i d j).hellos.length < maxNeighbors := by
    rw [Function.update_of_ne apart.symm]
    exact room
  have reach' := reach.moves (.single first)
  obtain ⟨second, still, m, memm, here, up, dst, answers, -⟩ := hello_delivered own reach' apart sent
    (agrees.fits n mem).localAddr owner room' request
  have agrees' := (helloContract w labels envs).inv_of_reach (reach'.moves (.single second)) j
  refine ⟨m, ⟨first, second⟩, ?_, answers, ⟨?_, memm⟩, here, (agrees'.fits m memm).localAddr, up, dst⟩
  · rw [Function.update_self]
    exact log
  · rw [still i apart, Function.update_self]
    exact ticked

/-- Then the ACK can arrive, and does what it says. -/
theorem Requested.answered
    (own : ∀ i, ∀ env ∈ envs i, ∀ addr, env.isLocalAddr addr = true → w.owner addr = some i)
    (reach : (helloNetwork w labels envs).Reach c) (apart : i ≠ j) (owner : w.owner n.addr = some j)
    (requested : Requested w labels envs i j n m c c₁ c₂)
    (ack : HelloArrives w envs j i m true c₂ c₃) :
    (helloNetwork w labels envs).Reach c₃ ∧ ∃ n', BothUp w i j n.addr c₃ n' m := by
  have reach' := (reach.moves (.single requested.moves.1)).moves (.single requested.moves.2)
  have back : w.source j m.addr = n.addr := by
    rw [requested.addr]
    exact w.source_source owner
  have sent : m.helloPacket true ∈ (c₂ j).node.out := by
    rw [requested.answers]
    exact List.mem_append_right _ List.mem_cons_self
  have owner' : w.owner m.addr = some i := by
    rw [requested.addr]
    exact w.owner_source i n.addr
  obtain ⟨third, still, n', memn, here, up, dst, -, same⟩ := hello_delivered own reach' apart.symm
    sent requested.link owner' (.inl ⟨_, requested.mem.1, back.symm⟩) ack
  have kept := same _ requested.mem.1 back.symm
  refine ⟨reach'.moves (.single third), n', ⟨memn, ?_⟩, ⟨here.trans back, requested.addr⟩,
    ⟨up, requested.up⟩, dst, ?_⟩
  · rw [still j apart.symm]
    exact requested.mem.2
  · rw [requested.dst, kept]
    rfl

/-- From every configuration that the daemons reach: where the daemon at the other end of a
neighbour's link has an entry for the link, or room for it, an exchange can follow, and each that
does leaves both ends up, each with the instance of the other. -/
theorem adjacency_comes_up
    (own : ∀ i, ∀ env ∈ envs i, ∀ addr, env.isLocalAddr addr = true → w.owner addr = some i)
    (runs : ∀ i, (envs i).Nonempty) (reach : (helloNetwork w labels envs).Reach c)
    (apart : i ≠ j) (mem : n ∈ (c i).hellos) (owner : w.owner n.addr = some j)
    (room : (∃ m ∈ (c j).hellos, m.addr = w.source i n.addr) ∨
      (c j).hellos.length < maxNeighbors) :
    (∃ m c₁ c₂ c₃, Exchange w envs i j n m c c₁ c₂ c₃) ∧
      ∀ m c₁ c₂ c₃, Exchange w envs i j n m c c₁ c₂ c₃ →
        (helloNetwork w labels envs).Reach c₃ ∧ ∃ n' m', BothUp w i j n.addr c₃ n' m' := by
  constructor
  · obtain ⟨env, found⟩ := runs i
    obtain ⟨env', found'⟩ := runs j
    have rand : Rand := ⟨fun _ => 1, 0, by decide⟩
    have link := (((helloContract w labels envs).inv_of_reach reach i).fits n mem).localAddr
    have request := (⟨env', found', _, rand, delivered_rsvpPacket link _ _ _, rfl⟩ :
      HelloArrives w envs i j n false
        (Function.update c i ((c i).step env (.helloTimer n.addr))) _)
    obtain ⟨m, requested⟩ := requested_of_timer own reach apart mem owner room ⟨env, found, rfl⟩ request
    exact ⟨m, _, _, _, ⟨env, found, rfl⟩, requested.asks, request, requested.answers, env, found, _,
      rand, delivered_rsvpPacket requested.link _ _ _, rfl⟩
  · intro m c₁ c₂ c₃ exchange
    obtain ⟨m', requested⟩ :=
      requested_of_timer own reach apart mem owner room exchange.timer exchange.request
    -- The ACK that was sent is that of `m'`.
    have one := List.append_cancel_left (exchange.answers.symm.trans requested.answers)
    obtain ⟨addr, packet⟩ := Neighbor.helloPacket_inj (List.cons_eq_cons.mp one).1
    have ack : HelloArrives w envs j i m' true c₂ c₃ := by
      have ack := exchange.ack
      rw [HelloArrives, packet, addr] at ack
      exact ack
    obtain ⟨reach', n', both⟩ := requested.answered own reach apart owner ack
    exact ⟨reach', n', m', both⟩

end Exchange

/-- Both ends of the link come up. -/
theorem adjacency_comes_up_pair :
    ∃ c, sampleLink.Reach c ∧ ∃ n m, BothUp twoEnds false true 2 c n m := by
  have listed : (⟨2, 0, 3, 9, 0, .idle, true, false⟩ : Neighbor) ∈ (sampleEnds false).hellos := by
    decide +kernel
  obtain ⟨⟨m, c₁, c₂, c₃, exchange⟩, works⟩ := adjacency_comes_up sampleEnds_own
    (fun _ => ⟨_, rfl⟩) sampleEnds_reach (show false ≠ true by decide) listed rfl
    (.inr (by decide +kernel))
  exact ⟨c₃, works m c₁ c₂ c₃ exchange⟩

end Rsvp
