import Mathlib.Order.Lattice.Nat
import RsvpTe.Senders

/-!
# HELLO adjacencies (`rsvp_hello.c`)

The neighbour table is an array that only grows: `g_neighbors[0 .. g_nbor_count)`, every cell of it
active, is the list `HelloTable`.  A timer is its `active` flag and is named by the address of its
neighbour; the counters and time stamps of a neighbour are only printed and are left out.

What the module asks of the rest of the daemon is logged as `HelloCall`s, and `HelloEvent` lists
what can happen to it after `rsvp_hello_init`.
-/

namespace Rsvp

open Words

/-- `RSVP_MAX_NEIGHBORS`. -/
def maxNeighbors : Nat := 128

/-- `rsvp_nbor_state_t`. -/
inductive NborState : Type
  | idle
  | up
  | down
  deriving DecidableEq, Repr

/-- `struct rsvp_neighbor`. -/
structure Neighbor : Type where
  addr : InAddr
  localAddr : InAddr
  ifindex : UInt32
  srcInstance : UInt32
  dstInstance : UInt32
  state : NborState
  helloTimer : Bool
  deadTimer : Bool
  deriving DecidableEq, Repr

abbrev HelloTable : Type := List Neighbor

/-- The values `rand()` goes through; it answers zero only so often. -/
structure Rand : Type where
  value : Nat → UInt32
  ends : ∃ n, value n ≠ 0

/-- `while (inst == 0) inst = rand();` -/
def Rand.drawn (rand : Rand) : UInt32 := rand.value (Nat.find rand.ends)

theorem Rand.drawn_ne_zero (rand : Rand) : rand.drawn ≠ 0 := Nat.find_spec rand.ends

/-- An entry as it is filled in. -/
def Neighbor.new (rand : Rand) (addr localAddr : InAddr) (ifindex : UInt32) : Neighbor where
  addr := addr
  localAddr := localAddr
  ifindex := ifindex
  srcInstance := rand.drawn
  dstInstance := 0
  state := .idle
  helloTimer := true
  deadTimer := false

/-- The peer has a known instance and sends another. -/
def Neighbor.restarted (n : Neighbor) (rxSrcInstance : UInt32) : Bool :=
  n.dstInstance ≠ 0 ∧ rxSrcInstance ≠ n.dstInstance

/-- A call into the dispatcher, always without the router alert option, or the state machine. -/
inductive HelloCall : Type
  | sendPacket (src dest : InAddr) (msg : Bytes)
  | frrTrigger (failedIfindex : UInt32)
  deriving DecidableEq, Repr

namespace HelloTable

/-- Write an entry back. -/
def store (t : HelloTable) (n : Neighbor) : HelloTable :=
  t.map fun m => if m.addr = n.addr then n else m

def rsvpHelloFindNeighbor (t : HelloTable) (addr : InAddr) : Option Neighbor :=
  t.find? (·.addr = addr)

/-- An entry that exists is returned as it is. -/
def rsvpHelloAddNeighbor (rand : Rand) (t : HelloTable) (addr localAddr : InAddr)
    (ifindex : UInt32) : Option Neighbor × HelloTable :=
  match t.rsvpHelloFindNeighbor addr with
  | some existing => (some existing, t)
  | none =>
    if maxNeighbors ≤ t.length then (none, t)
    else
      let n := Neighbor.new rand addr localAddr ifindex
      (some n, t ++ [n])

end HelloTable

/-- A Hello in its buffer of 128 bytes.  This is the one sender that looks at the result of the
builder. -/
def sendHello (n : Neighbor) (cType : UInt8) : List HelloCall :=
  let (code, b) := rsvpBuilderAddHello (rsvpBuilderInit 128 msgHello) n.srcInstance n.dstInstance
    cType
  if code ≠ 0 then [] else [.sendPacket n.localAddr n.addr b.finish]

namespace HelloTable

def helloTimerCb (t : HelloTable) (addr : InAddr) : HelloTable × List HelloCall :=
  match t.rsvpHelloFindNeighbor addr with
  | none => (t, [])
  | some n => (t.store { n with helloTimer := true }, sendHello n helloCtypeRequest)

def deadTimerCb (t : HelloTable) (addr : InAddr) : HelloTable × List HelloCall :=
  match t.rsvpHelloFindNeighbor addr with
  | none => (t, [])
  | some n => (t.store { n with state := .down, deadTimer := false }, [.frrTrigger n.ifindex])

/-- The entry of a Hello's source, made with a zero local address and interface for an unknown
one. -/
def recvEntry (rand : Rand) (t : HelloTable) (src : InAddr) : Option Neighbor × HelloTable :=
  match t.rsvpHelloFindNeighbor src with
  | some n => (some n, t)
  | none => rsvpHelloAddNeighbor rand t src 0 0

def rsvpHelloRecv (rand : Rand) (t : HelloTable) (src : InAddr)
    (rxSrcInstance _rxDstInstance : UInt32) (cType : UInt8) : HelloTable × List HelloCall :=
  match recvEntry rand t src with
  | (none, t) => (t, [])
  | (some n, t) =>
    let reset : Neighbor :=
      if n.restarted rxSrcInstance then { n with state := .idle, dstInstance := 0 } else n
    let triggered : List HelloCall :=
      if n.restarted rxSrcInstance then [.frrTrigger n.ifindex] else []
    let heard : Neighbor := { reset with dstInstance := rxSrcInstance, deadTimer := true }
    let raised : Neighbor := if heard.state ≠ .up then { heard with state := .up } else heard
    let answered : List HelloCall :=
      if cType = helloCtypeRequest then sendHello raised helloCtypeAck else []
    (t.store raised, triggered ++ answered)

end HelloTable

/-! ## Histories -/

/-- What happens to the module after `rsvp_hello_init`. -/
inductive HelloEvent : Type
  | add (addr localAddr : InAddr) (ifindex : UInt32) (rand : Rand)
  | recv (src : InAddr) (srcInstance dstInstance : UInt32) (cType : UInt8) (rand : Rand)
  | helloTimer (addr : InAddr)
  | deadTimer (addr : InAddr)

def HelloTable.step (t : HelloTable) : HelloEvent → HelloTable × List HelloCall
  | .add addr localAddr ifindex rand => ((rsvpHelloAddNeighbor rand t addr localAddr ifindex).2, [])
  | .recv src srcInstance dstInstance cType rand =>
    rsvpHelloRecv rand t src srcInstance dstInstance cType
  | .helloTimer addr => helloTimerCb t addr
  | .deadTimer addr => deadTimerCb t addr

/-- The table after a history, the latest event last. -/
def helloTable (h : List HelloEvent) : HelloTable := h.foldl (fun t ev => (t.step ev).1) []

/-- What an event calls after a history. -/
def helloCalls (h : List HelloEvent) (ev : HelloEvent) : List HelloCall :=
  ((helloTable h).step ev).2

end Rsvp
