import Mathlib.Logic.Relation
import RsvpTe.Messages

/-!
# Actions

Every handler of the state machine is a sequence of a few kinds of action on the node: a packet
leaves, a block is updated, created or dropped, a label is taken, an entry is installed.  `Does`
says once what each action can do, and with which guard; `Runs` is a sequence of actions of the
allowed kinds.  An invariant of the node is then proved action by action, and
`RsvpTe.HandlerEffects` says which actions each handler takes.

The creation of an RSB with its cross pointers and the release of one with its label are single
actions: between their parts no invariant of the tables holds.
-/

namespace Rsvp

open Words

/-! ## Packets -/

/-- The packet of a PATH. -/
def pathOutput (hal : Hal) (key : PathKey) (psb : PsbState) (ipDest : InAddr)
    (ifindex : UInt32) : Output :=
  let localAddr := (hal.getLocalAddr ifindex).getD key.sender.sourceAddr
  .packet ipDest true (rsvpPacket localAddr ipDest (pathMessage key psb localAddr ifindex) true)

/-- The packet of a RESV. -/
def resvOutput (hal : Hal) (psb : Psb) (rsb : RsbState) (merged : SenderTspec) : Output :=
  let nbr := psb.body.prevHop.neighborAddr
  let outIdx := hal.getEgressIf nbr
  let localAddr := (outIdx.map hal.localAddrOrZero).getD 0
  let ifindex := outIdx.getD psb.body.ifindexIn
  .packet nbr false
    (rsvpPacket localAddr nbr (resvMessage psb.key rsb merged localAddr ifindex) false)

/-- A packet that is neither a PATH nor a RESV, or a call of the forwarding plane. -/
def Output.Minor (o : Output) : Prop :=
  o.msgType ≠ some msgPath ∧ o.msgType ≠ some msgResv

/-! ## Actions -/

/-- The incoming interface is the one its previous hop named. -/
def PsbState.Arrived (psb : PsbState) : Prop :=
  psb.ifindexIn = ntohl psb.prevHop.logicalInterface

/-- What every update of a PSB leaves alone. -/
structure PsbState.Keeps (old new : PsbState) : Prop where
  associatedRsb : new.associatedRsb = old.associatedRsb
  isBypassTunnel : new.isBypassTunnel = old.isBypassTunnel
  pending : new.isMbbPending = true → old.isMbbPending = true ∧ new.mbbOldLspId = old.mbbOldLspId
  arrived : old.Arrived → new.Arrived

theorem PsbState.Keeps.of_same {old new : PsbState}
    (associatedRsb : new.associatedRsb = old.associatedRsb)
    (isBypassTunnel : new.isBypassTunnel = old.isBypassTunnel)
    (isMbbPending : new.isMbbPending = old.isMbbPending)
    (mbbOldLspId : new.mbbOldLspId = old.mbbOldLspId) (arrived : old.Arrived → new.Arrived) :
    old.Keeps new :=
  ⟨associatedRsb, isBypassTunnel, fun waits => ⟨isMbbPending ▸ waits, mbbOldLspId⟩, arrived⟩

/-- What every update of an RSB leaves alone. -/
structure RsbState.Keeps (old new : RsbState) : Prop where
  labelIn : new.labelIn = old.labelIn
  associatedPsb : new.associatedPsb = old.associatedPsb

/-- The kinds of action, with what tells the handlers apart. -/
inductive Act : Type
  | misc
  | send
  | path
  | tunePsb
  | tuneRsb
  | hop (key : PathKey) (prevHop : HopIpv4)
  | arm
  | newPsb (key : PathKey) (isMbbPending : Bool)
  | dropPsb (p : Ptr)
  | newRsb (key : PathKey)
  | store (key : PathKey) (labelOut : UInt32)
  | advertise (key : PathKey)
  | swap (key : PathKey) (outLabel outIfindex : UInt32)
  | install (key : PathKey) (outLabel outIfindex : UInt32)
  | resv (key : PathKey)
  | dropRsb (key : PathKey) (labelIn : UInt32)

/-- Actions that every handler may take. -/
def Act.Benign : Act → Prop
  | .misc | .send | .path | .tunePsb | .tuneRsb => True
  | _ => False

/-- The release of RSB `r` of PSB `b`: its label, its entry and the block are gone. -/
structure Released (s s' : Node) (b : Psb) (r : Rsb) : Prop where
  psbs : s'.psbs = s.psbs.modify b.addr fun x => { x with associatedRsb := none }
  rsbs : s'.rsbs = s.rsbs.unlink r.addr
  labels : s'.labels =
    if r.body.labelIn = 0 then s.labels else labelMgrFree s.labels r.body.labelIn
  fwd : ∀ label ≠ 0, s'.fwd (.label label) =
    if label = r.body.labelIn then none else s.fwd (.label label)
  entries : ∀ k e, s'.fwd k = some e → s.fwd k = some e
  bsbs : s'.bsbs = s.bsbs
  out : ∃ removed, s'.out = s.out ++ removed ∧ 
    ∀ o ∈ removed, ∃ label dest, o = .mplsRemove label dest

/-- What a new PSB may hold. -/
structure PsbState.Fresh (key : PathKey) (psb : PsbState) : Prop where
  associatedRsb : psb.associatedRsb = none
  bypassPsb : psb.bypassPsb = none
  prevHop : psb.prevHop = ⟨0, 0⟩
  ifindexIn : psb.ifindexIn = 0
  pending : psb.isMbbPending = true →
    psb.isBypassTunnel = false ∧ psb.mbbOldLspId ≠ ntohs key.sender.lspId

/-- `Does hal act s s'`: the action `act` may lead from `s` to `s'`. -/
inductive Does (hal : Hal) : Act → Node → Node → Prop
  | misc {s : Node} (bsbs : Table PathKey BsbState) (nextLspId : UInt16) :
    (s.bsbs.Keyed → bsbs.Keyed) → Does hal .misc s { s with bsbs := bsbs, nextLspId := nextLspId }
  | send {s : Node} {dest : InAddr} {useRao : Bool} {bytes : Bytes} :
    (Output.packet dest useRao bytes).Minor →
    Does hal .send s (s.emit (.packet dest useRao bytes))
  | path {s : Node} {key : PathKey} {ipDest : InAddr} {ifindex : UInt32} {psb : PsbState} :
    (∃ b ∈ s.psbs, b.key = key) → hal.getEgressIf ipDest = some ifindex →
    Does hal .path s (s.emit (pathOutput hal key psb ipDest ifindex))
  | tunePsb {s : Node} {b : Psb} {f : PsbState → PsbState} : b ∈ s.psbs →
    b.body.Keeps (f b.body) → (f b.body).prevHop = b.body.prevHop →
    (f b.body).bypassPsb = b.body.bypassPsb → Does hal .tunePsb s (s.modPsb b.addr f)
  | tuneRsb {s : Node} {r : Rsb} {f : RsbState → RsbState} : r ∈ s.rsbs →
    r.body.Keeps (f r.body) → (f r.body).labelOut = r.body.labelOut →
    Does hal .tuneRsb s (s.modRsb r.addr f)
  | hop {s : Node} {b : Psb} {f : PsbState → PsbState} : b ∈ s.psbs →
    b.body.Keeps (f b.body) → (f b.body).bypassPsb = b.body.bypassPsb →
    Does hal (.hop b.key (f b.body).prevHop) s (s.modPsb b.addr f)
  | arm {s : Node} {b c : Psb} {f : PsbState → PsbState} : b ∈ s.psbs → c ∈ s.psbs →
    c.body.isBypassTunnel = true → b.body.Keeps (f b.body) →
    (f b.body).prevHop = b.body.prevHop → (f b.body).bypassPsb = some c.addr →
    Does hal .arm s (s.modPsb b.addr f)
  | newPsb {s : Node} {key : PathKey} {mem : Option Ptr} {p : Ptr}
    {psbs : Table PathKey PsbState} {f : PsbState → PsbState} : (∀ b ∈ s.psbs, b.key ≠ key) →
    s.psbs.create rsvpKeyHash mem key .zero = some (p, psbs) → (f .zero).Fresh key →
    Does hal (.newPsb key (f .zero).isMbbPending) s { s with psbs := psbs.modify p f }
  | dropPsb {s : Node} {b : Psb} : b ∈ s.psbs → b.body.associatedRsb = none →
    Does hal (.dropPsb b.addr) s { s with psbs := s.psbs.unlink b.addr }
  | newRsb {s : Node} {b : Psb} {mem : Option Ptr} {r : Ptr} {rsbs : Table PathKey RsbState}
    {f : RsbState → RsbState} : b ∈ s.psbs → (∀ x ∈ s.rsbs, x.key ≠ b.key) →
    s.rsbs.create rsvpKeyHash mem b.key .zero = some (r, rsbs) → (f .zero).labelIn = 0 →
    (f .zero).labelOut = 0 → (f .zero).associatedPsb = some b.addr →
    Does hal (.newRsb b.key) s
      { s with
        rsbs := rsbs.modify r f
        psbs := s.psbs.modify b.addr fun x => { x with associatedRsb := some r } }
  | store {s : Node} {r : Rsb} {f : RsbState → RsbState} : r ∈ s.rsbs →
    r.body.Keeps (f r.body) → Does hal (.store r.key (f r.body).labelOut) s (s.modRsb r.addr f)
  | advertise {s : Node} {r : Rsb} {label : UInt32} {labels : LabelMgr} : r ∈ s.rsbs →
    r.body.labelIn = 0 → s.labels.Allocates label labels →
    Does hal (.advertise r.key) s
      ({ s with labels := labels }.modRsb r.addr fun x => { x with labelIn := label })
  | swap {s : Node} {r : Rsb} {label : UInt32} {labels : LabelMgr}
    {outLabel outIfindex : UInt32} {nextHop : InAddr} : r ∈ s.rsbs →
    r.body.labelIn = 0 → s.labels.Allocates label labels →
    Does hal (.swap r.key outLabel outIfindex) s
      (({ s with labels := labels }.modRsb r.addr fun x => { x with labelIn := label }
        ).halMplsInstall label outLabel outIfindex nextHop r.key.session.destAddr)
  | install {s : Node} {key : PathKey} {inLabel outLabel outIfindex : UInt32}
    {nextHop : InAddr} : (inLabel ≠ 0 → ∃ r ∈ s.rsbs, r.key = key ∧ r.body.labelIn = inLabel) →
    Does hal (.install key outLabel outIfindex) s
      (s.halMplsInstall inLabel outLabel outIfindex nextHop key.session.destAddr)
  | resv {s : Node} {b : Psb} {r : Rsb} {merged : SenderTspec} : b ∈ s.psbs → r ∈ s.rsbs →
    r.body.associatedPsb = some b.addr → r.body.labelIn ≠ 0 →
    Does hal (.resv r.key) s (s.emit (resvOutput hal b r.body merged))
  | dropRsb {s s' : Node} {b : Psb} {r : Rsb} : b ∈ s.psbs → r ∈ s.rsbs →
    r.body.associatedPsb = some b.addr → Released s s' b r →
    Does hal (.dropRsb r.key r.body.labelIn) s s'

/-- A sequence of actions that `ok` allows. -/
def Runs (hal : Hal) (ok : Act → Prop) : Node → Node → Prop :=
  Relation.ReflTransGen fun s s' => ∃ act, ok act ∧ Does hal act s s'

namespace Runs

variable {hal : Hal} {ok : Act → Prop} {s s' s'' : Node}

theorem refl (s : Node) : Runs hal ok s s := Relation.ReflTransGen.refl

theorem of_eq (same : s' = s) : Runs hal ok s s' := by
  rw [same]
  exact refl s

theorem one {act : Act} (allowed : ok act) (does : Does hal act s s') : Runs hal ok s s' :=
  Relation.ReflTransGen.single ⟨act, allowed, does⟩

theorem trans (first : Runs hal ok s s') (second : Runs hal ok s' s'') : Runs hal ok s s'' :=
  Relation.ReflTransGen.trans first second

theorem snoc {act : Act} (first : Runs hal ok s s') (allowed : ok act)
    (does : Does hal act s' s'') : Runs hal ok s s'' := first.trans (one allowed does)

end Runs

/-! ## The tables -/

/-- What every handler relies on: keys are unique, the cross pointers of PSBs and RSBs agree, the
label pool is sound, a PSB that waits for its make-before-break is no bypass and not the one it
replaces, and an incoming interface is the one its previous hop named. -/
structure Node.Wf (s : Node) : Prop where
  psbKeyed : s.psbs.Keyed
  rsbKeyed : s.rsbs.Keyed
  bsbKeyed : s.bsbs.Keyed
  labels : s.labels.Wf
  owned : ∀ r ∈ s.rsbs, ∃ b ∈ s.psbs, b.key = r.key ∧ r.body.associatedPsb = some b.addr ∧
    b.body.associatedRsb = some r.addr
  linked : ∀ b ∈ s.psbs, ∀ a, b.body.associatedRsb = some a →
    ∃ r ∈ s.rsbs, r.addr = a ∧ r.body.associatedPsb = some b.addr
  pending : ∀ b ∈ s.psbs, b.body.isMbbPending = true →
    b.body.isBypassTunnel = false ∧ b.body.mbbOldLspId ≠ ntohs b.key.sender.lspId
  arrived : ∀ b ∈ s.psbs, b.body.Arrived

namespace Node.Wf

variable {s : Node}

theorem init {labels : LabelMgr} (wf : labels.Wf) : (Node.init labels).Wf where
  psbKeyed := fun b mem => absurd mem (Table.not_mem_empty b)
  rsbKeyed := fun r mem => absurd mem (Table.not_mem_empty r)
  bsbKeyed := fun b mem => absurd mem (Table.not_mem_empty b)
  labels := wf
  owned := fun r mem => absurd mem (Table.not_mem_empty r)
  linked := fun b mem => absurd mem (Table.not_mem_empty b)
  pending := fun b mem => absurd mem (Table.not_mem_empty b)
  arrived := fun b mem => absurd mem (Table.not_mem_empty b)

/-- The PSB and the RSB of one key point at each other. -/
theorem psb_of_rsb (wf : s.Wf) {b : Psb} {r : Rsb} (memb : b ∈ s.psbs) (memr : r ∈ s.rsbs)
    (tied : r.body.associatedPsb = some b.addr) :
    b.key = r.key ∧ b.body.associatedRsb = some r.addr := by
  obtain ⟨c, memc, key, tied', back⟩ := wf.owned r memr
  rw [tied] at tied'
  rw [Table.eq_of_addr_eq memb memc (Option.some.inj tied')]
  exact ⟨key, back⟩

theorem modPsb (wf : s.Wf) {b : Psb} (mem : b ∈ s.psbs) {f : PsbState → PsbState}
    (keeps : b.body.Keeps (f b.body)) : (s.modPsb b.addr f).Wf where
  psbKeyed := wf.psbKeyed.modify b.addr f
  rsbKeyed := wf.rsbKeyed
  bsbKeyed := wf.bsbKeyed
  labels := wf.labels
  owned := by
    intro r memr
    obtain ⟨c, memc, key, tied, back⟩ := wf.owned r memr
    by_cases here : c.addr = b.addr
    · have same := Table.eq_of_addr_eq memc mem here
      subst same
      exact ⟨_, Table.mem_modify.mpr (.inr ⟨c, memc, rfl, rfl⟩), key, tied,
        keeps.associatedRsb.trans back⟩
    · exact ⟨c, Table.mem_modify.mpr (.inl ⟨memc, here⟩), key, tied, back⟩
  linked := by
    intro c memc a back
    rcases Table.mem_modify.mp memc with ⟨memc, -⟩ | ⟨d, memd, here, rfl⟩
    · exact wf.linked c memc a back
    · have same := Table.eq_of_addr_eq memd mem here
      subst same
      exact wf.linked d memd a (keeps.associatedRsb.symm.trans back)
  pending := by
    intro c memc waits
    rcases Table.mem_modify.mp memc with ⟨memc, -⟩ | ⟨d, memd, here, rfl⟩
    · exact wf.pending c memc waits
    · have same := Table.eq_of_addr_eq memd mem here
      subst same
      obtain ⟨waited, old⟩ := keeps.pending waits
      obtain ⟨plain, other⟩ := wf.pending d memd waited
      exact ⟨keeps.isBypassTunnel.trans plain, fun same => other (old.symm.trans same)⟩
  arrived := by
    intro c memc
    rcases Table.mem_modify.mp memc with ⟨memc, -⟩ | ⟨d, memd, here, rfl⟩
    · exact wf.arrived c memc
    · have same := Table.eq_of_addr_eq memd mem here
      subst same
      exact keeps.arrived (wf.arrived d memd)

theorem modRsb (wf : s.Wf) {r : Rsb} (mem : r ∈ s.rsbs) {f : RsbState → RsbState}
    (keeps : (f r.body).associatedPsb = r.body.associatedPsb) : (s.modRsb r.addr f).Wf where
  psbKeyed := wf.psbKeyed
  rsbKeyed := wf.rsbKeyed.modify r.addr f
  bsbKeyed := wf.bsbKeyed
  labels := wf.labels
  owned := by
    intro x memx
    rcases Table.mem_modify.mp memx with ⟨memx, -⟩ | ⟨y, memy, here, rfl⟩
    · exact wf.owned x memx
    · have same := Table.eq_of_addr_eq memy mem here
      subst same
      obtain ⟨c, memc, key, tied, back⟩ := wf.owned y memy
      exact ⟨c, memc, key, keeps.trans tied, back⟩
  linked := by
    intro b memb a back
    obtain ⟨x, memx, addr, tied⟩ := wf.linked b memb a back
    by_cases here : x.addr = r.addr
    · have same := Table.eq_of_addr_eq memx mem here
      subst same
      exact ⟨_, Table.mem_modify.mpr (.inr ⟨x, memx, rfl, rfl⟩), addr, keeps.trans tied⟩
    · exact ⟨x, Table.mem_modify.mpr (.inl ⟨memx, here⟩), addr, tied⟩
  pending := wf.pending
  arrived := wf.arrived

/-- Only the tables and the label pool matter. -/
theorem congr {s' : Node} (wf : s.Wf) (psbs : s'.psbs = s.psbs) (rsbs : s'.rsbs = s.rsbs)
    (bsbs : s'.bsbs.Keyed) (labels : s'.labels.Wf) : s'.Wf where
  psbKeyed := psbs ▸ wf.psbKeyed
  rsbKeyed := rsbs ▸ wf.rsbKeyed
  bsbKeyed := bsbs
  labels := labels
  owned := by
    rw [psbs, rsbs]
    exact wf.owned
  linked := by
    rw [psbs, rsbs]
    exact wf.linked
  pending := by
    rw [psbs]
    exact wf.pending
  arrived := by
    rw [psbs]
    exact wf.arrived

/-- An RSB takes a label. -/
theorem takeLabel (wf : s.Wf) {r : Rsb} (mem : r ∈ s.rsbs) {label : UInt32} {labels : LabelMgr}
    (takes : s.labels.Allocates label labels) :
    ({ s with labels := labels }.modRsb r.addr fun x => { x with labelIn := label }).Wf := by
  have pool : ({ s with labels := labels } : Node).Wf := wf.congr rfl rfl wf.bsbKeyed takes.wf
  exact pool.modRsb mem rfl

theorem newPsb (wf : s.Wf) {key : PathKey} (fresh : ∀ b ∈ s.psbs, b.key ≠ key)
    {mem : Option Ptr} {p : Ptr} {psbs : Table PathKey PsbState}
    (made : s.psbs.create rsvpKeyHash mem key .zero = some (p, psbs))
    {f : PsbState → PsbState} (blank : (f .zero).Fresh key) :
    ({ s with psbs := psbs.modify p f } : Node).Wf where
  psbKeyed := wf.psbKeyed.modify_create fresh made f
  rsbKeyed := wf.rsbKeyed
  bsbKeyed := wf.bsbKeyed
  labels := wf.labels
  owned := by
    intro r memr
    obtain ⟨c, memc, tied⟩ := wf.owned r memr
    exact ⟨c, (Table.mem_modify_create made).mpr (.inr memc), tied⟩
  linked := by
    intro b memb a back
    rcases (Table.mem_modify_create made).mp memb with rfl | old
    · rw [blank.associatedRsb] at back
      cases back
    · exact wf.linked b old a back
  pending := by
    intro b memb waits
    rcases (Table.mem_modify_create made).mp memb with rfl | old
    · exact blank.pending waits
    · exact wf.pending b old waits
  arrived := by
    intro b memb
    rcases (Table.mem_modify_create made).mp memb with rfl | old
    · rw [PsbState.Arrived, blank.ifindexIn, blank.prevHop]
      decide
    · exact wf.arrived b old

theorem dropPsb (wf : s.Wf) {b : Psb} (mem : b ∈ s.psbs) (alone : b.body.associatedRsb = none) :
    ({ s with psbs := s.psbs.unlink b.addr } : Node).Wf where
  psbKeyed := wf.psbKeyed.unlink b.addr
  rsbKeyed := wf.rsbKeyed
  bsbKeyed := wf.bsbKeyed
  labels := wf.labels
  owned := by
    intro r memr
    obtain ⟨c, memc, key, tied, back⟩ := wf.owned r memr
    refine ⟨c, Table.mem_unlink.mpr ⟨memc, fun here => ?_⟩, key, tied, back⟩
    rw [Table.eq_of_addr_eq memc mem here, alone] at back
    cases back
  linked := fun c memc => wf.linked c (Table.mem_unlink.mp memc).1
  pending := fun c memc => wf.pending c (Table.mem_unlink.mp memc).1
  arrived := fun c memc => wf.arrived c (Table.mem_unlink.mp memc).1

theorem newRsb (wf : s.Wf) {b : Psb} (memb : b ∈ s.psbs) (fresh : ∀ x ∈ s.rsbs, x.key ≠ b.key)
    {mem : Option Ptr} {r : Ptr} {rsbs : Table PathKey RsbState}
    (made : s.rsbs.create rsvpKeyHash mem b.key .zero = some (r, rsbs))
    {f : RsbState → RsbState} (tied : (f .zero).associatedPsb = some b.addr) :
    ({ s with
      rsbs := rsbs.modify r f
      psbs := s.psbs.modify b.addr fun x => { x with associatedRsb := some r } } : Node).Wf where
  psbKeyed := wf.psbKeyed.modify _ _
  rsbKeyed := wf.rsbKeyed.modify_create fresh made f
  bsbKeyed := wf.bsbKeyed
  labels := wf.labels
  owned := by
    intro x memx
    rcases (Table.mem_modify_create made).mp memx with rfl | old
    · exact ⟨_, Table.mem_modify.mpr (.inr ⟨b, memb, rfl, rfl⟩), rfl, tied, rfl⟩
    · obtain ⟨c, memc, key, tied', back⟩ := wf.owned x old
      refine ⟨c, Table.mem_modify.mpr (.inl ⟨memc, fun here => ?_⟩), key, tied', back⟩
      -- The PSB of an older RSB has another key.
      rw [Table.eq_of_addr_eq memc memb here] at key
      exact fresh x old key.symm
  linked := by
    intro c memc a back
    rcases Table.mem_modify.mp memc with ⟨memc, away⟩ | ⟨d, memd, here, rfl⟩
    · obtain ⟨x, memx, addr, tied'⟩ := wf.linked c memc a back
      exact ⟨x, (Table.mem_modify_create made).mpr (.inr memx), addr, tied'⟩
    · have same := Table.eq_of_addr_eq memd memb here
      subst same
      exact ⟨_, (Table.mem_modify_create made).mpr (.inl rfl), Option.some.inj back, tied⟩
  pending := by
    intro c memc waits
    rcases Table.mem_modify.mp memc with ⟨memc, -⟩ | ⟨d, memd, -, rfl⟩
    · exact wf.pending c memc waits
    · exact wf.pending d memd waits
  arrived := by
    intro c memc
    rcases Table.mem_modify.mp memc with ⟨memc, -⟩ | ⟨d, memd, -, rfl⟩
    · exact wf.arrived c memc
    · exact wf.arrived d memd

theorem released (wf : s.Wf) {s' : Node} {b : Psb} {r : Rsb} (memb : b ∈ s.psbs)
    (memr : r ∈ s.rsbs) (tied : r.body.associatedPsb = some b.addr)
    (release : Released s s' b r) : s'.Wf where
  psbKeyed := by
    rw [release.psbs]
    exact wf.psbKeyed.modify _ _
  rsbKeyed := by
    rw [release.rsbs]
    exact wf.rsbKeyed.unlink _
  bsbKeyed := by
    rw [release.bsbs]
    exact wf.bsbKeyed
  labels := by
    rw [release.labels]
    split
    · exact wf.labels
    · exact (labelMgrFree_spec wf.labels _).1
  owned := by
    rw [release.psbs, release.rsbs]
    intro x memx
    obtain ⟨memx, away⟩ := Table.mem_unlink.mp memx
    obtain ⟨c, memc, key, tied', back⟩ := wf.owned x memx
    refine ⟨c, Table.mem_modify.mpr (.inl ⟨memc, fun here => away ?_⟩), key, tied', back⟩
    rw [Table.eq_of_addr_eq memc memb here, (wf.psb_of_rsb memb memr tied).2] at back
    exact (Option.some.inj back).symm
  linked := by
    rw [release.psbs, release.rsbs]
    intro c memc a back
    rcases Table.mem_modify.mp memc with ⟨memc, away⟩ | ⟨d, -, -, rfl⟩
    · obtain ⟨x, memx, addr, tied'⟩ := wf.linked c memc a back
      refine ⟨x, Table.mem_unlink.mpr ⟨memx, fun here => away ?_⟩, addr, tied'⟩
      rw [Table.eq_of_addr_eq memx memr here, tied] at tied'
      exact (Option.some.inj tied').symm
    · cases back
  pending := by
    rw [release.psbs]
    intro c memc waits
    rcases Table.mem_modify.mp memc with ⟨memc, -⟩ | ⟨d, memd, -, rfl⟩
    · exact wf.pending c memc waits
    · exact wf.pending d memd waits
  arrived := by
    rw [release.psbs]
    intro c memc
    rcases Table.mem_modify.mp memc with ⟨memc, -⟩ | ⟨d, memd, -, rfl⟩
    · exact wf.arrived c memc
    · exact wf.arrived d memd

end Node.Wf

/-- Every action keeps the tables in order. -/
theorem Does.wf {hal : Hal} {act : Act} {s s' : Node} (wf : s.Wf) (does : Does hal act s s') :
    s'.Wf := by
  cases does with
  | misc _ _ keyed => exact wf.congr rfl rfl (keyed wf.bsbKeyed) wf.labels
  | send => exact wf.congr rfl rfl wf.bsbKeyed wf.labels
  | path => exact wf.congr rfl rfl wf.bsbKeyed wf.labels
  | tunePsb mem keeps => exact wf.modPsb mem keeps
  | tuneRsb mem keeps => exact wf.modRsb mem keeps.associatedPsb
  | hop mem keeps => exact wf.modPsb mem keeps
  | arm mem _ _ keeps => exact wf.modPsb mem keeps
  | newPsb fresh made blank => exact wf.newPsb fresh made blank
  | dropPsb mem alone => exact wf.dropPsb mem alone
  | newRsb mem fresh made _ _ tied => exact wf.newRsb mem fresh made tied
  | store mem keeps => exact wf.modRsb mem keeps.associatedPsb
  | advertise mem _ takes => exact wf.takeLabel mem takes
  | swap mem _ takes => exact (wf.takeLabel mem takes).congr rfl rfl wf.bsbKeyed takes.wf
  | install => exact wf.congr rfl rfl wf.bsbKeyed wf.labels
  | resv => exact wf.congr rfl rfl wf.bsbKeyed wf.labels
  | dropRsb memb memr tied release => exact wf.released memb memr tied release

/-- An invariant of the actions that `ok` allows is an invariant of their sequences. -/
theorem Runs.induct {hal : Hal} {ok : Act → Prop} {s s' : Node} (runs : Runs hal ok s s')
    (wf : s.Wf) {P : Node → Prop} (start : P s)
    (step : ∀ t t' act, ok act → t.Wf → P t → Does hal act t t' → P t') : s'.Wf ∧ P s' := by
  induction runs with
  | refl => exact ⟨wf, start⟩
  | tail _ last ih =>
    obtain ⟨act, allowed, does⟩ := last
    exact ⟨does.wf ih.1, step _ _ act allowed ih.1 ih.2 does⟩

theorem Runs.wf {hal : Hal} {ok : Act → Prop} {s s' : Node} (runs : Runs hal ok s s')
    (wf : s.Wf) : s'.Wf :=
  (runs.induct wf trivial fun _ _ _ _ _ _ _ => trivial).1

/-! ## What an action logs -/

/-- `o` is a PATH for a PSB of `s`. -/
def Node.SendsPath (hal : Hal) (s : Node) (o : Output) : Prop :=
  ∃ b ∈ s.psbs, ∃ psb ipDest ifindex, hal.getEgressIf ipDest = some ifindex ∧
    o = pathOutput hal b.key psb ipDest ifindex

/-- `o` is a RESV for the RSB of `key`. -/
def Node.SendsResv (hal : Hal) (s : Node) (key : PathKey) (o : Output) : Prop :=
  ∃ b ∈ s.psbs, ∃ r ∈ s.rsbs, ∃ merged, r.key = key ∧ r.body.associatedPsb = some b.addr ∧
    r.body.labelIn ≠ 0 ∧ o = resvOutput hal b r.body merged

theorem Output.minor_of_msgType {o : Output} (none : o.msgType = none) : o.Minor := by
  rw [Output.Minor, none]
  exact ⟨(by rintro ⟨⟩), (by rintro ⟨⟩)⟩

theorem Does.log {hal : Hal} {act : Act} {s s' : Node} (does : Does hal act s s') :
    ∃ new, s'.out = s.out ++ new ∧ ∀ o ∈ new, o.Minor ∨ (act = .path ∧ s.SendsPath hal o) ∨
      ∃ key, act = .resv key ∧ s.SendsResv hal key o := by
  have silent : ∀ t : Node, t.out = s.out → ∃ new, t.out = s.out ++ new ∧
      ∀ o ∈ new, o.Minor ∨ (act = .path ∧ s.SendsPath hal o) ∨
        ∃ key, act = .resv key ∧ s.SendsResv hal key o :=
    fun t same => ⟨[], by rw [same, List.append_nil], fun _ mem => by cases mem⟩
  have single : ∀ o : Output, (o.Minor ∨ (act = .path ∧ s.SendsPath hal o) ∨
        ∃ key, act = .resv key ∧ s.SendsResv hal key o) →
      ∀ t : Node, t.out = s.out ++ [o] → ∃ new, t.out = s.out ++ new ∧
        ∀ o ∈ new, o.Minor ∨ (act = .path ∧ s.SendsPath hal o) ∨
          ∃ key, act = .resv key ∧ s.SendsResv hal key o :=
    fun o kind t out => ⟨[o], out, fun _ mem => List.mem_singleton.mp mem ▸ kind⟩
  cases does with
  | misc => exact silent _ rfl
  | send minor => exact single _ (.inl minor) _ rfl
  | path held route =>
    obtain ⟨b, mem, rfl⟩ := held
    exact single _ (.inr (.inl ⟨rfl, b, mem, _, _, _, route, rfl⟩)) _ rfl
  | tunePsb => exact silent _ rfl
  | tuneRsb => exact silent _ rfl
  | hop => exact silent _ rfl
  | arm => exact silent _ rfl
  | newPsb => exact silent _ rfl
  | dropPsb => exact silent _ rfl
  | newRsb => exact silent _ rfl
  | store => exact silent _ rfl
  | advertise => exact silent _ rfl
  | swap => exact single _ (.inl (Output.minor_of_msgType rfl)) _ rfl
  | install => exact single _ (.inl (Output.minor_of_msgType rfl)) _ rfl
  | @resv _ b r merged memb memr tied label =>
    exact single _ (.inr (.inr ⟨_, rfl, b, memb, r, memr, merged, rfl, tied, label, rfl⟩)) _ rfl
  | dropRsb _ _ _ release =>
    obtain ⟨removed, out, calls⟩ := release.out
    refine ⟨removed, out, fun o mem => .inl ?_⟩
    obtain ⟨label, dest, rfl⟩ := calls o mem
    exact Output.minor_of_msgType rfl

end Rsvp
