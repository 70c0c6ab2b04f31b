import RsvpTe.Writes
import RsvpTe.Lib.Network

/-!
# HELLO between daemons

Daemons run next to each other and send each other HELLOs over links that lose, delay, repeat and
reorder packets.  A daemon keeps one entry, with an instance of its own, for every address it hears
of, so that the two ends of a link only agree if each sees one address of the other: `Wiring`.

What a daemon learns from a HELLO is then the instance of the entry at the other end
(`Daemon.Agrees`), and as entries stay, no HELLO ever looks like one of a neighbour that restarted.
-/

namespace Rsvp

open Words

variable {ι : Type}

/-! ## The network -/

/-- Who has an address, and the address from which a daemon reaches another address.  The two
addresses of a link are reached from each other. -/
structure Wiring (ι : Type) : Type where
  owner : InAddr → Option ι
  source : ι → InAddr → InAddr
  owner_source : ∀ i a, owner (source i a) = some i
  source_source : ∀ {i j : ι} {a : InAddr}, owner a = some j → source j (source i a) = a

/-- What becomes of a packet on its way from `src`: the kernel fills in a source address that is
zero, and any other field of the IP header may change. -/
structure Delivered (src : InAddr) (sent received : Bytes) : Prop where
  header : IpHeader (received.take (ipHdrLen received))
  source : u32At received 12 = if u32At sent 12 = 0 then src else u32At sent 12
  message : received.drop (ipHdrLen received) = sent.drop (ipHdrLen sent)

/-- What a daemon has published: the packets it sent and the entries it has. -/
inductive HelloFact (ι : Type) : Type
  | packet (sender : ι) (dest : InAddr) (bytes : Bytes)
  | entry (i : ι) (addr : InAddr) (srcInstance : UInt32)

/-- What may happen to daemon `i`: a packet for one of its addresses arrives, or one that is no
HELLO from anywhere; neighbours are added with the address of the link or with none. -/
inductive Wiring.Allows (w : Wiring ι) (i : ι) (A : Set (HelloFact ι)) (env : Env) :
    DaemonEvent → Prop
  | delivered {j : ι} {dest : InAddr} {sent bytes : Bytes} {rand : Rand} :
    .packet j dest sent ∈ A → w.owner dest = some i → Delivered (w.source j dest) sent bytes →
    Allows w i A env (.packet bytes rand)
  | foreign {bytes : Bytes} {rand : Rand} : receivedHello env bytes rand = none →
    Allows w i A env (.packet bytes rand)
  | lsp (ev : Event) : Allows w i A env (.lsp ev)
  | addNeighbor {addr localAddr : InAddr} {ifindex : UInt32} {rand : Rand} :
    localAddr = 0 ∨ localAddr = w.source i addr →
    Allows w i A env (.addNeighbor addr localAddr ifindex rand)
  | helloTimer (addr : InAddr) : Allows w i A env (.helloTimer addr)
  | deadTimer (addr : InAddr) : Allows w i A env (.deadTimer addr)

/-- The daemons, in any environments out of `envs`. -/
def helloNetwork (w : Wiring ι) (labels : ι → LabelMgr) (envs : ι → Set Env) :
    Network ι Daemon (HelloFact ι) where
  init := fun i => ⟨Node.init (labels i), []⟩
  step := fun i A d d' => ∃ env ∈ envs i, ∃ ev, w.Allows i A env ev ∧ d' = d.step env ev
  gives := fun i d => { a |
    (∃ dest useRao bytes, .packet dest useRao bytes ∈ d.node.out ∧ a = .packet i dest bytes) ∨
      ∃ n ∈ d.hellos, a = .entry i n.addr n.srcInstance }

/-! ## Delivery -/

/-- The parser reads a message behind any IP header. -/
theorem Message.parse_header (m : Message) {ip : Bytes} (header : IpHeader ip) :
    ∃ info, rsvpParsePacket (ip ++ m.bytes) = .ok info ∧
      Decodes info m.msgType (m.ttl.getD 255) m.objects ∧
      info.srcIp = u32At (ip ++ m.bytes) 12 := by
  rw [m.bytes_eq]
  obtain ⟨image, same⟩ := image_built m.msgType (m.ttl.getD 255) m.fits
  have small : m.size < 2 ^ 16 := Nat.lt_of_le_of_lt m.size_le (by decide)
  obtain ⟨info, parsed, decodes, srcIp, -⟩ := image.parse (by rw [same]; exact small) m.valid header
    (fun k mem => m.firstCall_held (List.mem_append_left _ mem))
  exact ⟨info, parsed, decodes, srcIp⟩

theorem Message.length_le (m : Message) : m.bytes.length ≤ 1500 := by
  rw [m.bytes_eq, length_built _ _ m.fits]
  exact Nat.le_trans m.fits m.size_le

theorem ipHdrLen_le (buffer : Bytes) : ipHdrLen buffer ≤ 60 := by
  have low : (u8At buffer 0 % 16).toNat < 16 := by
    rw [UInt8.toNat_mod]
    exact Nat.mod_lt _ (by decide)
  unfold ipHdrLen
  omega

/-- A message arrives behind some header with the source address of its link. -/
theorem Delivered.split {src s dest : InAddr} {m : Message} {useRao : Bool} {bytes : Bytes}
    (delivered : Delivered src (rsvpPacket s dest m.bytes useRao) bytes) :
    ∃ ip, IpHeader ip ∧ bytes = ip ++ m.bytes ∧ bytes.take maxRsvpPacketSize = bytes ∧
      u32At bytes 12 = if s = 0 then src else s := by
  obtain ⟨header, source, message⟩ := delivered
  have sent := ipHeader_isHeader s dest (if commonHdrLen ≤ m.bytes.length then u8At m.bytes 4 else 255)
    (iphdrLen + (if useRao then 4 else 0) + m.bytes.length) useRao
  have from_ : u32At (rsvpPacket s dest m.bytes useRao) 12 = s := u32At_ipHeader_src ..
  rw [from_] at source
  have whole : bytes.drop (ipHdrLen bytes) = m.bytes := by
    rw [message, rsvpPacket, sent.ipHdrLen_append, List.drop_left' rfl]
  have split : bytes = bytes.take (ipHdrLen bytes) ++ m.bytes := by
    rw [← whole, List.take_append_drop]
  refine ⟨_, header, split, List.take_of_length_le ?_, source⟩
  have front := List.length_take_le (ipHdrLen bytes) bytes
  have length := m.length_le
  have low := ipHdrLen_le bytes
  rw [split, List.length_append, maxRsvpPacketSize]
  omega

/-- A packet is delivered if nothing but its source address is filled in. -/
theorem delivered_rsvpPacket {src s : InAddr} (own : s = 0 ∨ s = src) (dest : InAddr) (msg : Bytes)
    (useRao : Bool) :
    Delivered src (rsvpPacket s dest msg useRao) (rsvpPacket src dest msg useRao) := by
  have header := fun s => ipHeader_isHeader s dest
    (if commonHdrLen ≤ msg.length then u8At msg 4 else 255)
    (iphdrLen + (if useRao then 4 else 0) + msg.length) useRao
  have from_ : ∀ s, u32At (rsvpPacket s dest msg useRao) 12 = s := fun s => u32At_ipHeader_src ..
  constructor
  · rw [rsvpPacket, (header src).ipHdrLen_append, List.take_left' rfl]
    exact header src
  · rw [from_, from_]
    rcases own with zero | same
    · exact (if_pos zero).symm
    · rw [same, ite_self]
  · rw [rsvpPacket, rsvpPacket, (header src).ipHdrLen_append, (header s).ipHdrLen_append,
      List.drop_left' rfl, List.drop_left' rfl]

/-- The event a HELLO causes at its destination. -/
def Neighbor.heardFrom (n : Neighbor) (answer : Bool) (src : InAddr) (rand : Rand) : HelloEvent :=
  .recv src n.srcInstance n.dstInstance (if answer then helloCtypeAck else helloCtypeRequest) rand

/-- A HELLO is read as it was sent, unless its source is local, and nothing else is read as one. -/
theorem Delivered.receivedHello {src s dest : InAddr} {m : Message} {useRao : Bool} {bytes : Bytes}
    (delivered : Delivered src (rsvpPacket s dest m.bytes useRao) bytes) (env : Env) (rand : Rand) :
    (m.OfLsp → receivedHello env bytes rand = none) ∧
      ∀ n answer, m = .hello n answer → receivedHello env bytes rand =
        if env.isLocalAddr (if s = 0 then src else s) then none
        else some (n.heardFrom answer (if s = 0 then src else s) rand) := by
  obtain ⟨ip, header, split, whole, source⟩ := delivered.split
  obtain ⟨info, parsed, decodes, srcIp⟩ := m.parse_header header
  rw [← split] at parsed srcIp
  have long : iphdrLen ≤ bytes.length := by
    rw [split, List.length_append]
    exact Nat.le_trans header.long (Nat.le_add_right _ _)
  constructor
  · intro lsp
    have other : info.commonHdr.msgType ≠ msgHello := by
      rw [decodes.msgType]
      exact lsp.msgType_ne
    unfold Rsvp.receivedHello
    dsimp only
    rw [whole, parsed]
    dsimp only
    rw [if_neg other, ite_self]
  · rintro n answer rfl
    have type : info.commonHdr.msgType = msgHello := decodes.msgType
    obtain ⟨objs, -, rfl⟩ := Accepted.of_ok parsed
    obtain ⟨o, held, data⟩ := decodes.data_eq (k := .helloObj) rfl
    have kind : (extracted bytes objs).helloCtype =
        if answer then helloCtypeAck else helloCtypeRequest := by
      have call := decodes.objs .helloObj
      rw [held] at call
      have cType := congrArg (fun c => (c.map AddCall.cType).getD 0) call
      have first : firstFit objs .helloObj = some o := held
      rw [extracted, first]
      exact cType
    have first : u32At o.data 0 = htonl n.srcInstance := by
      rw [data]
      exact le32_bytes _
    have second : u32At o.data 4 = htonl n.dstInstance := by
      rw [data]
      exact le32_bytes _
    unfold Rsvp.receivedHello
    dsimp only
    rw [whole, source, parsed]
    dsimp only
    have swapped : ∀ v, ntohl (htonl v) = v := bswap32_bswap32
    rw [if_pos type, held, Option.map_some, kind, first, second, srcIp, source, swapped, swapped]
    by_cases own : env.isLocalAddr (if s = 0 then src else s) = true
    · rw [if_pos ⟨long, own⟩, if_pos own]
    · rw [if_neg fun both => own both.2, if_neg own, Neighbor.heardFrom]

/-! ## One step -/

/-- The event of the HELLO module in an event of the daemon. -/
def DaemonEvent.hello (env : Env) : DaemonEvent → Option HelloEvent
  | .packet bytes rand => receivedHello env bytes rand
  | .lsp _ => none
  | .addNeighbor addr localAddr ifindex rand => some (.add addr localAddr ifindex rand)
  | .helloTimer addr => some (.helloTimer addr)
  | .deadTimer addr => some (.deadTimer addr)

/-- A packet is heard as a HELLO or not at all. -/
theorem receivedHello_recv {env : Env} {bytes : Bytes} {rand : Rand} {event : HelloEvent}
    (heard : receivedHello env bytes rand = some event) :
    ∃ src x y cType, event = .recv src x y cType rand := by
  unfold receivedHello at heard
  dsimp only at heard
  split at heard
  · cases heard
  · split at heard
    · split at heard
      · obtain ⟨o, -, rfl⟩ := Option.map_eq_some_iff.mp heard
        exact ⟨_, _, _, _, rfl⟩
      · cases heard
    · cases heard

theorem Daemon.step_hellos (env : Env) (d : Daemon) (ev : DaemonEvent) :
    (d.step env ev).hellos =
      (ev.hello env).elim d.hellos fun event => (d.hellos.step event).1 := by
  cases ev with
  | packet bytes rand =>
    unfold Daemon.step
    dsimp only [DaemonEvent.hello]
    cases receivedHello env bytes rand <;> rfl
  | _ => rfl

/-- From `s` to `t` the log grows by messages of the state machine and by what `calls` sends. -/
def Node.Transmits (calls : List HelloCall) (s t : Node) : Prop :=
  ∃ new, t.out = s.out ++ new ∧ ∀ dest useRao bytes, .packet dest useRao bytes ∈ new →
    (∃ (m : Message) (src : InAddr), m.OfLsp ∧ bytes = rsvpPacket src dest m.bytes useRao) ∨
      ∃ src msg, .sendPacket src dest msg ∈ calls ∧ bytes = rsvpPacket src dest msg false

namespace Node.Transmits

variable {calls : List HelloCall} {s t u : Node}

theorem refl (calls : List HelloCall) (s : Node) : s.Transmits calls s :=
  ⟨[], (List.append_nil _).symm, fun _ _ _ mem => absurd mem List.not_mem_nil⟩

theorem trans (first : s.Transmits calls t) (second : t.Transmits calls u) : s.Transmits calls u := by
  obtain ⟨new, out, kinds⟩ := first
  obtain ⟨more, out', kinds'⟩ := second
  refine ⟨new ++ more, by rw [out', out, List.append_assoc], fun dest useRao bytes mem => ?_⟩
  rcases List.mem_append.mp mem with old | late
  · exact kinds dest useRao bytes old
  · exact kinds' dest useRao bytes late

theorem of_writes (writes : Writes s t) : s.Transmits calls t := by
  induction writes with
  | refl => exact refl calls s
  | @tail t u _ last ih =>
    apply ih.trans
    have quiet : u.out = t.out → t.Transmits calls u := fun same =>
      ⟨[], by rw [same, List.append_nil], fun _ _ _ mem => absurd mem List.not_mem_nil⟩
    cases last with
    | packet src dest useRao lsp =>
      refine ⟨[_], rfl, fun dest' useRao' bytes mem => ?_⟩
      cases List.mem_singleton.mp mem
      exact .inl ⟨_, src, lsp, rfl⟩
    | install =>
      refine ⟨[_], rfl, fun dest useRao bytes mem => ?_⟩
      cases List.mem_singleton.mp mem
    | remove =>
      refine ⟨[_], rfl, fun dest useRao bytes mem => ?_⟩
      cases List.mem_singleton.mp mem
    | psbs => exact quiet rfl
    | bsbs => exact quiet rfl
    | nextLspId => exact quiet rfl
    | rsb => exact quiet rfl
    | newRsb => exact quiet rfl
    | dropRsb => exact quiet rfl
    | take => exact quiet rfl
    | free => exact quiet rfl

theorem performs (env : Env) (sent : List HelloCall) (s : Node) (part : sent ⊆ calls) :
    s.Transmits calls (sent.foldl (Node.perform env) s) := by
  induction sent generalizing s with
  | nil => exact refl calls s
  | cons c sent ih =>
    obtain ⟨here, rest⟩ := List.cons_subset.mp part
    refine trans ?_ (ih (s.perform env c) rest)
    cases c with
    | frrTrigger ifindex => exact of_writes (rsvpFrrTrigger_writes (.refl s) ifindex)
    | sendPacket src dest msg =>
      dsimp only [Node.perform]
      rcases rsvpSendPacket_cases s src dest msg false with dropped | sent
      · rw [dropped]
        exact refl calls s
      · rw [sent]
        refine ⟨[_], rfl, fun dest' useRao bytes mem => ?_⟩
        cases List.mem_singleton.mp mem
        exact .inr ⟨src, msg, here, rfl⟩

end Node.Transmits

/-- What a daemon logs: messages of the state machine, and what its HELLO module sends. -/
theorem Daemon.step_logs (env : Env) (d : Daemon) (ev : DaemonEvent) :
    d.node.Transmits ((ev.hello env).elim [] fun event => (d.hellos.step event).2)
      (d.step env ev).node := by
  cases ev with
  | packet bytes rand =>
    have handled := fun calls =>
      @Node.Transmits.of_writes calls _ _ (d.node.step_writes env (.recv bytes))
    unfold Daemon.step
    dsimp only [DaemonEvent.hello]
    cases receivedHello env bytes rand with
    | none => exact handled _
    | some event => exact (handled _).trans (.performs env _ _ (List.Subset.refl _))
  | lsp ev => exact .of_writes (d.node.step_writes env ev)
  | addNeighbor => exact .performs env _ _ (List.Subset.refl _)
  | helloTimer => exact .performs env _ _ (List.Subset.refl _)
  | deadTimer => exact .performs env _ _ (List.Subset.refl _)

/-! ## What the daemons rely on -/

/-- The owner of `addr` has an entry with this instance for the address from which `i` reaches
`addr`. -/
def Wiring.Known (w : Wiring ι) (A : Set (HelloFact ι)) (i : ι) (addr : InAddr) (x : UInt32) :
    Prop :=
  ∃ j, w.owner addr = some j ∧ .entry j (w.source i addr) x ∈ A

/-- An entry has the address of its link or none, and knows the instance of the other end if it
knows one. -/
structure Wiring.Fits (w : Wiring ι) (A : Set (HelloFact ι)) (i : ι) (n : Neighbor) : Prop where
  localAddr : n.localAddr = 0 ∨ n.localAddr = w.source i n.addr
  known : n.dstInstance ≠ 0 → w.Known A i n.addr n.dstInstance

/-- A packet of `i` is a message of the state machine, or the HELLO of an entry in `has`. -/
def Wiring.Says (w : Wiring ι) (A : Set (HelloFact ι)) (has : InAddr → UInt32 → Prop) (i : ι)
    (dest : InAddr) (bytes : Bytes) : Prop :=
  (∃ (m : Message) (src : InAddr) (useRao : Bool),
    m.OfLsp ∧ bytes = rsvpPacket src dest m.bytes useRao) ∨
  ∃ n answer, bytes = rsvpPacket n.localAddr dest (Message.hello n answer).bytes false ∧
    n.addr = dest ∧ w.Fits A i n ∧ has dest n.srcInstance

/-- The daemon has an entry with this address and instance. -/
def HelloTable.Has (t : HelloTable) (addr : InAddr) (x : UInt32) : Prop :=
  ∃ n ∈ t, n.addr = addr ∧ n.srcInstance = x

/-- The HELLO side of a daemon agrees with what the others have published. -/
structure Daemon.Agrees (w : Wiring ι) (A : Set (HelloFact ι)) (i : ι) (d : Daemon) : Prop where
  history : ∃ h, d.hellos = helloTable h
  fits : ∀ n ∈ d.hellos, w.Fits A i n
  speaks : ∀ dest useRao bytes, .packet dest useRao bytes ∈ d.node.out →
    w.Says A d.hellos.Has i dest bytes

/-- A published fact: a packet of an entry that is published too. -/
def HelloFact.Good (w : Wiring ι) (A : Set (HelloFact ι)) : HelloFact ι → Prop
  | .packet i dest bytes => w.Says A (fun addr x => .entry i addr x ∈ A) i dest bytes
  | .entry _ _ _ => True

/-- A HELLO brings the instance of the other end, and none or one of an entry here. -/
inductive Wiring.Brings (w : Wiring ι) (A : Set (HelloFact ι)) (i : ι) : HelloEvent → Prop
  | add {addr localAddr : InAddr} {ifindex : UInt32} {rand : Rand} :
    localAddr = 0 ∨ localAddr = w.source i addr → Brings w A i (.add addr localAddr ifindex rand)
  | recv {src : InAddr} {x y : UInt32} {cType : UInt8} {rand : Rand} : w.Known A i src x →
    (y ≠ 0 → .entry i src y ∈ A) → Brings w A i (.recv src x y cType rand)
  | helloTimer (addr : InAddr) : Brings w A i (.helloTimer addr)
  | deadTimer (addr : InAddr) : Brings w A i (.deadTimer addr)

variable {w : Wiring ι} {A B : Set (HelloFact ι)} {i : ι} {n : Neighbor} {event : HelloEvent}

theorem Wiring.Known.mono {addr : InAddr} {x : UInt32} (more : A ⊆ B) (known : w.Known A i addr x) :
    w.Known B i addr x := by
  obtain ⟨j, owner, entry⟩ := known
  exact ⟨j, owner, more entry⟩

theorem Wiring.Fits.mono (more : A ⊆ B) (fits : w.Fits A i n) : w.Fits B i n :=
  ⟨fits.localAddr, fun known => (fits.known known).mono more⟩

theorem Wiring.Says.mono {has held : InAddr → UInt32 → Prop} {dest : InAddr} {bytes : Bytes}
    (more : A ⊆ B) (kept : ∀ addr x, has addr x → held addr x) (speaks : w.Says A has i dest bytes) :
    w.Says B held i dest bytes := by
  rcases speaks with lsp | ⟨n, answer, packet, here, fits, entry⟩
  · exact .inl lsp
  · exact .inr ⟨n, answer, packet, here, fits.mono more, kept _ _ entry⟩

/-- An event with good facts brings what it must. -/
theorem Wiring.Allows.brings {env : Env} {ev : DaemonEvent} (good : ∀ a ∈ A, a.Good w A)
    (allows : w.Allows i A env ev) (hello : ev.hello env = some event) : w.Brings A i event := by
  cases allows with
  | @delivered j dest sent bytes rand told owner delivered =>
    rcases good _ told with ⟨m, src, useRao, lsp, rfl⟩ | ⟨n, answer, rfl, rfl, fits, entry⟩
    · cases ((delivered.receivedHello env rand).1 lsp).symm.trans hello
    · have heard := ((delivered.receivedHello env rand).2 n answer rfl).symm.trans hello
      have source : (if n.localAddr = 0 then w.source j n.addr else n.localAddr) =
          w.source j n.addr := by
        split
        · rfl
        · rename_i set
          exact fits.localAddr.resolve_left set
      rw [source] at heard
      split at heard
      · cases heard
      · cases heard
        refine .recv ⟨j, w.owner_source j n.addr, ?_⟩ fun known => ?_
        · rw [w.source_source owner]
          exact entry
        · obtain ⟨k, owner', told⟩ := fits.known known
          cases owner.symm.trans owner'
          exact told
  | foreign other => cases other.symm.trans hello
  | lsp => cases hello
  | addNeighbor own =>
    cases hello
    exact .add own
  | helloTimer addr =>
    cases hello
    exact .helloTimer addr
  | deadTimer addr =>
    cases hello
    exact .deadTimer addr

theorem Wiring.Brings.known {addr : InAddr} {x : UInt32} (brings : w.Brings A i event)
    (heard : event.instanceFrom addr = some x) : w.Known A i addr x := by
  cases brings with
  | recv known =>
    obtain ⟨rfl, same⟩ := Option.ite_some_none_eq_some.mp heard
    cases same
    exact known
  | add => cases heard
  | helloTimer => cases heard
  | deadTimer => cases heard

theorem Wiring.Fits.effect (fits : w.Fits A i n) (brings : w.Brings A i event) :
    w.Fits A i (event.effect n) := by
  have same := event.effect_same n
  constructor
  · rw [same.localAddr, same.addr]
    exact fits.localAddr
  · rw [same.addr, event.effect_dstInstance]
    cases heard : event.instanceFrom n.addr with
    | none => exact fits.known
    | some x => exact fun _ => brings.known heard

theorem Wiring.Brings.fresh {t : HelloTable} (brings : w.Brings A i event)
    (made : event.fresh t = some n) : w.Fits A i n := by
  obtain ⟨-, -, dst, -⟩ := HelloEvent.fresh_eq_some made
  constructor
  · cases brings with
    | add own =>
      obtain ⟨-, rfl⟩ := Option.ite_some_none_eq_some.mp made
      exact own
    | recv =>
      obtain ⟨-, rfl⟩ := Option.ite_some_none_eq_some.mp made
      exact .inl rfl
    | helloTimer => cases made
    | deadTimer => cases made
  · rw [dst]
    cases heard : event.instanceFrom n.addr with
    | none => exact fun known => absurd rfl known
    | some x => exact fun _ => brings.known heard

/-- An entry of a table is there after an event. -/
theorem HelloTable.Distinct.has_step {t : HelloTable} (distinct : t.Distinct) {addr : InAddr}
    {x : UInt32} (has : t.Has addr x) : HelloTable.Has (t.step event).1 addr x := by
  obtain ⟨n, mem, rfl, rfl⟩ := has
  have same := event.effect_same n
  exact ⟨event.effect n, distinct.mem_step.mpr (.inl ⟨n, mem, rfl⟩), same.addr, same.srcInstance⟩

theorem Daemon.Agrees.distinct {d : Daemon} (agrees : d.Agrees w A i) : d.hellos.Distinct := by
  obtain ⟨h, history⟩ := agrees.history
  rw [history]
  exact (HelloTable.Tracks.helloTable h).distinct

/-- A step with good facts keeps the agreement. -/
theorem Daemon.Agrees.step {env : Env} {ev : DaemonEvent} {d : Daemon} (good : ∀ a ∈ A, a.Good w A)
    (agrees : d.Agrees w A i) (allows : w.Allows i A env ev) : (d.step env ev).Agrees w A i := by
  obtain ⟨new, out, kinds⟩ := d.step_logs env ev
  have hellos := d.step_hellos env ev
  cases hello : ev.hello env with
  | none =>
    rw [hello] at kinds hellos
    refine ⟨by rw [hellos]; exact agrees.history, by rw [hellos]; exact agrees.fits, ?_⟩
    intro dest useRao bytes mem
    rw [out] at mem
    rw [hellos]
    rcases List.mem_append.mp mem with old | late
    · exact agrees.speaks dest useRao bytes old
    · rcases kinds dest useRao bytes late with ⟨m, src, lsp⟩ | ⟨src, msg, sent, -⟩
      · exact .inl ⟨m, src, useRao, lsp⟩
      · exact absurd sent List.not_mem_nil
  | some event =>
    rw [hello] at kinds hellos
    have brings := allows.brings good hello
    have entries : ∀ n ∈ (d.hellos.step event).1, w.Fits A i n := by
      intro n mem
      rcases agrees.distinct.mem_step.mp mem with ⟨m, memm, rfl⟩ | made
      · exact (agrees.fits m memm).effect brings
      · exact brings.fresh made
    obtain ⟨h, history⟩ := agrees.history
    refine ⟨⟨h ++ [event], ?_⟩, by rw [hellos]; exact entries, ?_⟩
    · rw [hellos, Option.elim_some, history, helloTable_snoc]
    intro dest useRao bytes logged
    rw [out] at logged
    rw [hellos]
    rcases List.mem_append.mp logged with old | late
    · exact (agrees.speaks dest useRao bytes old).mono (Set.Subset.refl A) fun _ _ =>
        agrees.distinct.has_step
    · rcases kinds dest useRao bytes late with ⟨m, src, lsp⟩ | ⟨src, msg, sent, packet⟩
      · exact .inl ⟨m, src, useRao, lsp⟩
      · obtain ⟨n, mem, rfl, rfl, cType, kind, rfl⟩ := agrees.distinct.sends sent
        have speaks : ∀ answer : Bool, cType = (if answer then helloCtypeAck else helloCtypeRequest) →
            w.Says A (HelloTable.Has (d.hellos.step event).1) i n.addr bytes := fun answer same =>
          .inr ⟨n, answer, by rw [packet, bytes_hello, same], rfl, entries n mem, n, mem, rfl, rfl⟩
        rcases kind with request | ack
        · exact speaks false request
        · exact speaks true ack

theorem Daemon.Agrees.mono {d : Daemon} (more : A ⊆ B) (agrees : d.Agrees w A i) :
    d.Agrees w B i :=
  ⟨agrees.history, fun n mem => (agrees.fits n mem).mono more, fun dest useRao bytes mem =>
    (agrees.speaks dest useRao bytes mem).mono more fun _ _ => id⟩

/-- The contract of the daemons. -/
def helloContract (w : Wiring ι) (labels : ι → LabelMgr) (envs : ι → Set Env) :
    (helloNetwork w labels envs).Contract where
  Inv := fun i A d => d.Agrees w A i
  Good := fun A a => a.Good w A
  mono := fun more agrees => agrees.mono more
  init := fun i A => ⟨⟨[], rfl⟩, List.forall_mem_nil _, fun _ _ _ mem => absurd mem List.not_mem_nil⟩
  publishes := by
    intro i A d published agrees a given
    rcases given with ⟨dest, useRao, bytes, logged, rfl⟩ | ⟨n, mem, rfl⟩
    · change w.Says A (fun addr x => .entry i addr x ∈ A) i dest bytes
      apply (agrees.speaks dest useRao bytes logged).mono (Set.Subset.refl A)
      intro addr x has
      obtain ⟨n, mem, rfl, rfl⟩ := has
      exact published (.inr ⟨n, mem, rfl⟩)
    · trivial
  grows := by
    intro i A d d' good agrees moves
    obtain ⟨env, -, ev, allows, rfl⟩ := moves
    obtain ⟨new, out, -⟩ := d.step_logs env ev
    intro a given
    rcases given with ⟨dest, useRao, bytes, logged, rfl⟩ | ⟨n, mem, rfl⟩
    · exact .inl ⟨dest, useRao, bytes, by rw [out]; exact List.mem_append_left _ logged, rfl⟩
    · have has : (d.step env ev).hellos.Has n.addr n.srcInstance := by
        rw [d.step_hellos env ev]
        cases ev.hello env with
        | none => exact ⟨n, mem, rfl, rfl⟩
        | some event => exact agrees.distinct.has_step ⟨n, mem, rfl, rfl⟩
      obtain ⟨m, memm, addr, srcInstance⟩ := has
      exact .inr ⟨m, memm, by rw [addr, srcInstance]⟩
  keeps := by
    intro i A d d' good agrees moves
    obtain ⟨env, -, ev, allows, rfl⟩ := moves
    exact agrees.step good allows

end Rsvp
