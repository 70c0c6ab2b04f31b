import RsvpTe.Hello
import RsvpTe.StateMachine

/-!
# The daemon (`rsvp_dispatcher_run`, `rsvp_handle_message`)

The LSP state machine and the HELLO module run in one event loop.  A HELLO that the dispatcher
reads goes to `rsvp_hello_recv`, and what the HELLO module calls is carried out at once: a packet is
sent, or the state machine switches the LSPs of an interface to their bypasses.
-/

namespace Rsvp

open Words

structure Daemon : Type where
  node : Node
  hellos : HelloTable

/-- A call of the HELLO module. -/
def Node.perform (env : Env) (s : Node) : HelloCall → Node
  | .sendPacket src dest msg => rsvpSendPacket s src dest msg false
  | .frrTrigger failedIfindex => rsvpFrrTrigger env s failedIfindex

/-- The HELLO module acts; its table does not depend on what its calls do. -/
def Daemon.hello (env : Env) (d : Daemon) (ev : HelloEvent) : Daemon :=
  let (t, calls) := d.hellos.step ev
  ⟨calls.foldl (Node.perform env) d.node, t⟩

/-- The HELLO a packet is read as.  A packet with a local source address is dropped. -/
def receivedHello (env : Env) (packet : Bytes) (rand : Rand) : Option HelloEvent :=
  let buffer := packet.take maxRsvpPacketSize
  if iphdrLen ≤ buffer.length ∧ env.isLocalAddr (u32At buffer 12) then none
  else
    match rsvpParsePacket buffer with
    | .ok info =>
      if info.commonHdr.msgType = msgHello then
        (info.objs .helloObj).map fun o =>
          .recv info.srcIp (ntohl (u32At o.data 0)) (ntohl (u32At o.data 4)) info.helloCtype rand
      else none
    | _ => none

/-- Everything that makes the daemon act: a packet, a timer or an operator call of the state
machine, a new neighbour and the two timers of a neighbour. -/
inductive DaemonEvent : Type
  | packet (bytes : Bytes) (rand : Rand)
  | lsp (ev : Event)
  | addNeighbor (addr localAddr : InAddr) (ifindex : UInt32) (rand : Rand)
  | helloTimer (addr : InAddr)
  | deadTimer (addr : InAddr)

def Daemon.step (env : Env) (d : Daemon) : DaemonEvent → Daemon
  | .packet bytes rand =>
    let handled : Daemon := { d with node := d.node.step env (.recv bytes) }
    match receivedHello env bytes rand with
    | none => handled
    | some ev => handled.hello env ev
  | .lsp ev => { d with node := d.node.step env ev }
  | .addNeighbor addr localAddr ifindex rand => d.hello env (.add addr localAddr ifindex rand)
  | .helloTimer addr => d.hello env (.helloTimer addr)
  | .deadTimer addr => d.hello env (.deadTimer addr)

/-- The states of the daemon after its start. -/
inductive Daemon.Reachable (labels : LabelMgr) : Daemon → Prop
  | init : Daemon.Reachable labels ⟨Node.init labels, []⟩
  | step {d : Daemon} (env : Env) (ev : DaemonEvent) : Daemon.Reachable labels d →
    Daemon.Reachable labels (d.step env ev)

end Rsvp
