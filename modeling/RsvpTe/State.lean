import RsvpTe.Lib.Table
import RsvpTe.LabelMgr
import RsvpTe.Protocol

/-!
# State blocks, tables and the node (`rsvp_state.h`, `rsvp_state_db.c`, `hal_netlink.h`)

A `Node` is everything the state machine owns: the three state tables, the label pool, the
forwarding table as `hal_mpls_install` and `hal_mpls_remove` maintain it, the LSP-ID counter,
and the log of what it handed to the network and to the forwarding plane.

What the node asks of its surroundings is an `Env`: the answers of the HAL, the results of the
allocations of one event, and what a read through a pointer to a freed PSB yields.
-/

namespace Rsvp

open Words

/-! ## State blocks -/

/-- `rsvp_frr_mode_t`. -/
inductive FrrMode : Type
  | none
  | oneToOne
  | facility
  deriving DecidableEq, Repr

/-- `MAX_ERO_HOPS` and `MAX_RRO_HOPS`. -/
def maxHops : Nat := 32

/-- A stored ERO or RRO: an array of `maxHops` subobjects of which the first ones are in use. -/
structure Route : Type where
  hops : List EroSubobj
  short : hops.length ≤ maxHops
  deriving DecidableEq

def Route.empty : Route := ⟨[], by decide⟩

/-- The first `maxHops` subobjects of a list. -/
def Route.clamp (hops : List EroSubobj) : Route := ⟨hops.take maxHops, List.length_take_le _ _⟩

/-- The fields of `struct rsvp_psb` besides its key and its chain.  A timer is its `active`
flag.  `refresh_count` and `next_if` are never read. -/
structure PsbState : Type where
  prevHop : HopIpv4
  ifindexIn : UInt32
  ifindexOut : UInt32
  lspName : Option Bytes
  ero : Route
  rro : Route
  tspec : SenderTspec
  setupPrio : UInt8
  holdingPrio : UInt8
  cleanupTimer : Bool
  refreshTimer : Bool
  refreshMs : UInt32
  ttl : UInt8
  isIngress : Bool
  frrMode : FrrMode
  isBypassTunnel : Bool
  frrActive : Bool
  bypassTunnelId : UInt16
  bypassPsb : Option Ptr
  frrBandwidth : UInt32
  frrProtectedIfindex : UInt32
  isMbbPending : Bool
  mbbOldLspId : UInt16
  associatedRsb : Option Ptr
  deriving DecidableEq

/-- What `calloc` leaves in a PSB. -/
def PsbState.zero : PsbState where
  prevHop := ⟨0, 0⟩
  ifindexIn := 0
  ifindexOut := 0
  lspName := none
  ero := .empty
  rro := .empty
  tspec := .zero
  setupPrio := 0
  holdingPrio := 0
  cleanupTimer := false
  refreshTimer := false
  refreshMs := 0
  ttl := 0
  isIngress := false
  frrMode := .none
  isBypassTunnel := false
  frrActive := false
  bypassTunnelId := 0
  bypassPsb := none
  frrBandwidth := 0
  frrProtectedIfindex := 0
  isMbbPending := false
  mbbOldLspId := 0
  associatedRsb := none

/-- The fields of `struct rsvp_rsb` besides its key and its chain.  `refresh_count` and
`hal_handle` are never read. -/
structure RsbState : Type where
  nextHop : HopIpv4
  labelIn : UInt32
  labelOut : UInt32
  flowspec : SenderTspec
  style : UInt8
  cleanupTimer : Bool
  refreshTimer : Bool
  refreshMs : UInt32
  ttl : UInt8
  associatedPsb : Option Ptr
  deriving DecidableEq

def RsbState.zero : RsbState where
  nextHop := ⟨0, 0⟩
  labelIn := 0
  labelOut := 0
  flowspec := .zero
  style := 0
  cleanupTimer := false
  refreshTimer := false
  refreshMs := 0
  ttl := 0
  associatedPsb := none

/-- The fields of `struct rsvp_bsb` besides its key and its chain. -/
structure BsbState : Type where
  flowspecQb : SenderTspec
  blockadeTimer : Bool
  deriving DecidableEq

def BsbState.zero : BsbState := ⟨.zero, false⟩

abbrev Psb : Type := Block PathKey PsbState
abbrev Rsb : Type := Block PathKey RsbState
abbrev Bsb : Type := Block PathKey BsbState

def hashSize : Nat := 1024

/-- `rsvp_key_hash`: the polynomial hash of the fields as the host loads them, reduced to a
bucket.  The reserved fields of the key do not enter. -/
def rsvpKeyHash (key : PathKey) : Nat :=
  let fields : List UInt32 := [key.session.destAddr, key.session.tunnelId.toUInt32,
    key.session.extendedTunnelId, key.sender.sourceAddr, key.sender.lspId.toUInt32]
  (fields.foldl (fun hash field => hash * 31 + field) 0).toNat % hashSize

/-! ## Surroundings -/

/-- The HAL queries.  A failing query is `none`; `hal_netlink_get_egress_if` never answers a
negative interface otherwise. -/
structure Hal : Type where
  isLocalAddr : InAddr → Bool
  getLocalAddr : UInt32 → Option InAddr
  getEgressIf : InAddr → Option UInt32

/-- What one event sees besides the state: the HAL, the addresses the allocator answers with,
whether `strdup` succeeds, and what freed PSB memory reads as. -/
structure Env : Type extends Hal where
  psbMem : Option Ptr
  rsbMem : Option Ptr
  bsbMem : Option Ptr
  strdupOk : Bool
  freed : Ptr → Psb

/-- The `local` variable of a caller that ignores the result code: zero when the query
failed. -/
def Hal.localAddrOrZero (hal : Hal) (ifindex : UInt32) : InAddr :=
  (hal.getLocalAddr ifindex).getD 0

/-! ## Forwarding table -/

/-- The key of a forwarding entry: the incoming label, or the destination for a push. -/
inductive FwdKey : Type
  | label (inLabel : UInt32)
  | push (dest : InAddr)
  deriving DecidableEq, Repr

def fwdKey (inLabel : UInt32) (dest : InAddr) : FwdKey :=
  if inLabel = 0 then .push dest else .label inLabel

/-- Two entries are one for the same label, and without a label for the same destination. -/
theorem fwdKey_eq_iff {inLabel inLabel' : UInt32} {dest dest' : InAddr} :
    fwdKey inLabel dest = fwdKey inLabel' dest' ↔
      inLabel = inLabel' ∧ (inLabel = 0 → dest = dest') := by
  unfold fwdKey
  constructor
  · intro same
    split at same <;> split at same
    · rename_i zero zero'
      exact ⟨zero.trans zero'.symm, fun _ => FwdKey.push.inj same⟩
    · cases same
    · cases same
    · rename_i pos _
      exact ⟨FwdKey.label.inj same, fun zero => absurd zero pos⟩
  · rintro ⟨rfl, dest⟩
    split
    · rename_i zero
      rw [dest zero]
    · rfl

structure FwdEntry : Type where
  outLabel : UInt32
  outIfindex : UInt32
  nextHop : InAddr
  deriving DecidableEq, Repr

abbrev FwdTable : Type := FwdKey → Option FwdEntry

/-! ## The node -/

/-- What the node hands out: an IP packet with its destination and whether it carries the
router alert option, or a call of the forwarding plane. -/
inductive Output : Type
  | packet (dest : InAddr) (useRao : Bool) (bytes : Bytes)
  | mplsInstall (inLabel outLabel outIfindex : UInt32) (nextHop dest : InAddr)
  | mplsRemove (inLabel : UInt32) (dest : Option InAddr)
  deriving DecidableEq, Repr

structure Node : Type where
  psbs : Table PathKey PsbState
  rsbs : Table PathKey RsbState
  bsbs : Table PathKey BsbState
  labels : LabelMgr
  fwd : FwdTable
  nextLspId : UInt16
  out : List Output

/-- The node after `rsvp_state_db_init` and `label_mgr_init`. -/
def Node.init (labels : LabelMgr) : Node where
  psbs := .empty
  rsbs := .empty
  bsbs := .empty
  labels := labels
  fwd := fun _ => none
  nextLspId := 1
  out := []

namespace Node

/-- Log an output, the latest last. -/
def emit (s : Node) (o : Output) : Node := { s with out := s.out ++ [o] }

def modPsb (s : Node) (p : Ptr) (f : PsbState → PsbState) : Node :=
  { s with psbs := s.psbs.modify p f }

def modRsb (s : Node) (p : Ptr) (f : RsbState → RsbState) : Node :=
  { s with rsbs := s.rsbs.modify p f }

def halMplsInstall (s : Node) (inLabel outLabel outIfindex : UInt32) (nextHop dest : InAddr) :
    Node :=
  { s with
    fwd := Function.update s.fwd (fwdKey inLabel dest) (some ⟨outLabel, outIfindex, nextHop⟩) }
      |>.emit (.mplsInstall inLabel outLabel outIfindex nextHop dest)

/-- A push entry cannot be removed without its destination. -/
def halMplsRemove (s : Node) (inLabel : UInt32) (dest : Option InAddr) : Node :=
  let fwd :=
    match dest with
    | some dest => Function.update s.fwd (fwdKey inLabel dest) none
    | none => if inLabel = 0 then s.fwd else Function.update s.fwd (.label inLabel) none
  { s with fwd := fwd }.emit (.mplsRemove inLabel dest)

/-! ## State database -/

def rsvpPsbFind (s : Node) (key : PathKey) : Option Psb := s.psbs.find key

def rsvpRsbFind (s : Node) (key : PathKey) : Option Rsb := s.rsbs.find key

def rsvpBsbFind (s : Node) (key : PathKey) : Option Bsb := s.bsbs.find key

/-- The first PSB of the bucket walk with these identifiers, in host order. -/
def rsvpPsbFindById (s : Node) (tunnelId lspId : UInt16) : Option Psb :=
  s.psbs.blocks.find? fun b =>
    ntohs b.key.session.tunnelId = tunnelId ∧ ntohs b.key.sender.lspId = lspId

def rsvpPsbCreate (env : Env) (s : Node) (key : PathKey) : Option (Ptr × Node) :=
  (s.psbs.create rsvpKeyHash env.psbMem key .zero).map fun (p, psbs) => (p, { s with psbs })

def rsvpRsbCreate (env : Env) (s : Node) (key : PathKey) : Option (Ptr × Node) :=
  (s.rsbs.create rsvpKeyHash env.rsbMem key .zero).map fun (p, rsbs) => (p, { s with rsbs })

def rsvpBsbCreate (env : Env) (s : Node) (key : PathKey) : Option (Ptr × Node) :=
  (s.bsbs.create rsvpKeyHash env.bsbMem key .zero).map fun (p, bsbs) => (p, { s with bsbs })

/-- The cross pointer of the RSB is broken before the PSB is freed. -/
def rsvpPsbDelete (s : Node) (p : Ptr) : Node :=
  match s.psbs.get p with
  | none => s
  | some psb =>
    let unlinked := { s with psbs := s.psbs.unlink p }
    match psb.body.associatedRsb with
    | none => unlinked
    | some r => unlinked.modRsb r fun rsb => { rsb with associatedPsb := none }

def rsvpRsbDelete (s : Node) (p : Ptr) : Node :=
  match s.rsbs.get p with
  | none => s
  | some rsb =>
    let unlinked := { s with rsbs := s.rsbs.unlink p }
    match rsb.body.associatedPsb with
    | none => unlinked
    | some q => unlinked.modPsb q fun psb => { psb with associatedRsb := none }

def rsvpBsbDelete (s : Node) (p : Ptr) : Node := { s with bsbs := s.bsbs.unlink p }

/-- The PSB an RSB belongs to. -/
def psbOf (s : Node) (rsb : RsbState) : Option Psb := rsb.associatedPsb.bind s.psbs.get

/-- The RSB that belongs to a PSB. -/
def rsbOf (s : Node) (psb : PsbState) : Option Rsb := psb.associatedRsb.bind s.rsbs.get

/-- What a PSB pointer reads: the block, or freed memory. -/
def derefPsb (env : Env) (s : Node) (p : Ptr) : Psb := (s.psbs.get p).getD (env.freed p)

end Node

end Rsvp
