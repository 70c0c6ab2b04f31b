import RsvpTe.PsbRules
import RsvpTe.RouteRelay

/-!
# Requests of the head-end

`rsvp_initiate_path_with_ero` and `rsvp_initiate_bypass_tunnel` take the LSP-ID of a new LSP from a
16-bit counter, and they create its PSB only if its key is not in the table.  The table may hold the
key all the same: `rsvp_mbb_start` takes any LSP-ID from the operator, and the counter wraps.  The
request is then dropped, or a PATH is sent again for the LSP that has the key.

A `HeadRun` counts the requests and collects the LSP-IDs of the operator.
-/

namespace Rsvp

open Words

/-- A call that asks for an LSP. -/
inductive LspRequest : Type
  | path (src dest : InAddr) (tunnelId : UInt16) (lspName : Option Bytes) (ero : List EroSubobj)
    (requestFrr : Bool)
  | bypass (src dest : InAddr) (tunnelId : UInt16) (lspName : Option Bytes) (ero : List EroSubobj)
    (protectedIfindex : UInt32)

namespace LspRequest

def event : LspRequest → Event
  | path src dest tunnelId lspName ero requestFrr =>
    .initiatePath src dest tunnelId lspName ero requestFrr
  | bypass src dest tunnelId lspName ero protectedIfindex =>
    .initiateBypass src dest tunnelId lspName ero protectedIfindex

def key (r : LspRequest) (lspId : UInt16) : PathKey :=
  match r with
  | path src dest tunnelId _ _ _ | bypass src dest tunnelId _ _ _ =>
    ingressKey src dest tunnelId lspId

def lspName : LspRequest → Option Bytes
  | path _ _ _ lspName _ _ | bypass _ _ _ lspName _ _ => lspName

def ero : LspRequest → List EroSubobj
  | path _ _ _ _ ero _ | bypass _ _ _ _ ero _ => ero

/-- The protection that is asked for: the mode for the LSP itself, or the interface that a bypass
tunnel is to protect. -/
def protection : LspRequest → FrrMode × Bool × UInt32
  | path _ _ _ _ _ requestFrr => (if requestFrr then .facility else .none, false, 0)
  | bypass _ _ _ _ _ protectedIfindex => (.none, true, protectedIfindex)

/-- The PSB carries what was asked for. -/
structure Carried (r : LspRequest) (psb : PsbState) : Prop where
  ingress : psb.isIngress = true
  ero : psb.ero.hops = r.ero
  lspName : psb.lspName = r.lspName.map cString
  protection : (psb.frrMode, psb.isBypassTunnel, psb.frrProtectedIfindex) = r.protection

/-- The call adds one PSB to the table, for a key that was not there, and leaves the others. -/
def AddsLsp (env : Env) (s : Node) (r : LspRequest) : Prop :=
  ∃ new : Psb, new.key = r.key s.nextLspId ∧ (∀ b ∈ s.psbs, b.key ≠ new.key) ∧
    (s.step env r.event).psbs.blocks.Perm (new :: s.psbs.blocks) ∧ r.Carried new.body

/-- The ERO fits the array, and it does not start at what the node takes for itself. -/
def Fits (env : Env) (r : LspRequest) : Prop :=
  r.ero.length ≤ maxHops ∧ ∀ hop, r.ero.head? = some hop → hop.addr ≠ env.localAddrOrZero 0

/-! ## One call -/

/-- The PSB that a request creates, before its PATH is sent. -/
def state (env : Env) : LspRequest → PsbState
  | path _ _ _ lspName ero requestFrr => ingressState env lspName ero requestFrr
  | bypass _ _ _ lspName ero protectedIfindex => bypassState env lspName ero protectedIfindex

end LspRequest

theorem popHead_take_eq_self_iff {addr : InAddr} {hops : List EroSubobj} {n : Nat} :
    popHead addr (hops.take n) = hops ↔
      hops.length ≤ n ∧ ∀ hop, hops.head? = some hop → hop.addr ≠ addr := by
  constructor
  · intro same
    have short : hops.length ≤ n := by
      have bound := (popHead_suffix addr (hops.take n)).length_le
      rw [same, List.length_take] at bound
      omega
    rw [List.take_of_length_le short] at same
    refine ⟨short, fun hop head own => ?_⟩
    cases hops with
    | nil => cases head
    | cons first rest =>
      cases head
      rw [popHead, if_pos own] at same
      have longer := congrArg List.length same
      rw [List.length_cons] at longer
      omega
  · intro both
    obtain ⟨short, foreign⟩ := both
    rw [List.take_of_length_le short]
    cases hops with
    | nil => rfl
    | cons first rest => exact if_neg (foreign first rfl)

section Call

variable {env : Env} {s : Node} {r : LspRequest}

/-- A PSB that is created, set and announced, and the others as they were. -/
theorem originated_perm {key : PathKey} {p : Ptr} {t : Node} {f : PsbState → PsbState}
    (made : s.rsvpPsbCreate env key = some (p, t)) :
    (sendPathDownstream env (t.modPsb p f) p).psbs.blocks.Perm
      (⟨p, key, pathSent env key (f .zero)⟩ :: s.psbs.blocks) := by
  obtain ⟨psbs, created, rfl⟩ := Node.rsvpPsbCreate_eq_some made
  have mem : (⟨p, key, f .zero⟩ : Psb) ∈ (({ s with psbs } : Node).modPsb p f).psbs :=
    (Table.mem_modify_create created).mpr (.inl rfl)
  obtain ⟨sent, -, eq⟩ := @sendPathDownstream_logs env _ _ mem
  rw [eq]
  change ((psbs.modify p f).modify p (pathSent env key)).blocks.Perm _
  rw [Table.modify_modify]
  exact Table.modify_create_perm created _

/-- For a key that is in the table no PSB is added. -/
theorem LspRequest.length_step (held : s.rsvpPsbFind (r.key s.nextLspId) ≠ none) :
    (s.step env r.event).psbs.blocks.length = s.psbs.blocks.length := by
  obtain ⟨b, found⟩ := Option.ne_none_iff_exists'.mp held
  cases r with
  | path src dest tunnelId lspName ero requestFrr =>
    change (rsvpInitiatePathWithEro env s src dest tunnelId lspName ero requestFrr).psbs.blocks.length
      = _
    have found' : Node.rsvpPsbFind { s with nextLspId := s.nextLspId + 1 }
        (ingressKey src dest tunnelId s.nextLspId) = some b := found
    unfold rsvpInitiatePathWithEro
    dsimp only
    rw [found']
    obtain ⟨mem, -⟩ := Table.find_eq_some found
    obtain ⟨sent, -, eq⟩ :=
      @sendPathDownstream_logs env { s with nextLspId := s.nextLspId + 1 } b mem
    dsimp only
    rw [eq]
    exact List.length_map _
  | bypass src dest tunnelId lspName ero protectedIfindex =>
    change (rsvpInitiateBypassTunnel env s src dest tunnelId lspName ero
      protectedIfindex).psbs.blocks.length = _
    have found' : Node.rsvpPsbFind { s with nextLspId := s.nextLspId + 1 }
        (ingressKey src dest tunnelId s.nextLspId) = some b := found
    unfold rsvpInitiateBypassTunnel
    dsimp only
    rw [found']

/-- For a new key there is one PSB more, unless there is no memory for it. -/
theorem LspRequest.step_perm (absent : s.rsvpPsbFind (r.key s.nextLspId) = none)
    (memory : s.rsvpPsbCreate env (r.key s.nextLspId) ≠ none) :
    ∃ p, (s.step env r.event).psbs.blocks.Perm
      (⟨p, r.key s.nextLspId, pathSent env (r.key s.nextLspId) (r.state env)⟩ ::
        s.psbs.blocks) := by
  obtain ⟨pair, made⟩ := Option.ne_none_iff_exists'.mp memory
  obtain ⟨psbs, created, eq⟩ := @Node.rsvpPsbCreate_eq_some env s pair.2 _ pair.1 made
  have made' : Node.rsvpPsbCreate env { s with nextLspId := s.nextLspId + 1 } (r.key s.nextLspId) =
      some (pair.1, { s with psbs, nextLspId := s.nextLspId + 1 }) :=
    Option.map_eq_some_iff.mpr ⟨_, created, rfl⟩
  have absent' : Node.rsvpPsbFind { s with nextLspId := s.nextLspId + 1 } (r.key s.nextLspId) =
      none := absent
  refine ⟨pair.1, ?_⟩
  cases r with
  | path src dest tunnelId lspName ero requestFrr =>
    change (rsvpInitiatePathWithEro env s src dest tunnelId lspName ero requestFrr).psbs.blocks.Perm
      _
    unfold rsvpInitiatePathWithEro
    dsimp only [LspRequest.key] at absent' made' ⊢
    rw [absent', made']
    exact @originated_perm env { s with nextLspId := s.nextLspId + 1 } _ _ _ _ made'
  | bypass src dest tunnelId lspName ero protectedIfindex =>
    change (rsvpInitiateBypassTunnel env s src dest tunnelId lspName ero
      protectedIfindex).psbs.blocks.Perm _
    unfold rsvpInitiateBypassTunnel
    dsimp only [LspRequest.key] at absent' made' ⊢
    rw [absent', made']
    exact @originated_perm env { s with nextLspId := s.nextLspId + 1 } _ _ _ _ made'

/-- The new PSB carries what was asked for iff the ERO fits. -/
theorem LspRequest.carried_iff (memory : env.strdupOk = true) (key : PathKey) :
    r.Carried (pathSent env key (r.state env)) ↔ r.Fits env := by
  have given : ∀ ero : List EroSubobj, (Route.orElse ero .empty).hops = ero.take maxHops := by
    intro ero
    rw [Route.orElse]
    split
    · rename_i none
      rw [none]
      rfl
    · rfl
  have copied : ∀ name : Option Bytes, name.bind env.strdup = name.map cString := by
    intro name
    cases name with
    | none => rfl
    | some name => exact if_pos memory
  have hops : (pathSent env key (r.state env)).ero.hops =
      popHead (env.localAddrOrZero 0) (r.ero.take maxHops) := by
    have stored : (r.state env).ero.hops = r.ero.take maxHops := by
      cases r with
      | path => exact given _
      | bypass => exact given _
    rw [← stored]
    exact Route.popLocal_hops _ _
  rw [Fits, ← popHead_take_eq_self_iff, ← hops]
  constructor
  · exact fun carried => carried.ero
  · intro ero
    cases r with
    | path => exact ⟨rfl, ero, copied _, rfl⟩
    | bypass => exact ⟨rfl, ero, copied _, rfl⟩

/-- With the memory for it, a request adds its LSP iff the ERO fits and the key is new. -/
theorem LspRequest.addsLsp_iff (memory : env.strdupOk = true)
    (alloc : s.rsvpPsbCreate env (r.key s.nextLspId) ≠ none) :
    r.AddsLsp env s ↔ r.Fits env ∧ ∀ b ∈ s.psbs, b.key ≠ r.key s.nextLspId := by
  constructor
  · intro adds
    obtain ⟨new, key, fresh, grown, carried⟩ := adds
    rw [key] at fresh
    refine ⟨?_, fresh⟩
    obtain ⟨p, created⟩ := LspRequest.step_perm (Table.find_eq_none.mpr fresh) alloc
    rcases List.mem_cons.mp ((grown.symm.trans created).subset List.mem_cons_self) with rfl | old
    · exact (LspRequest.carried_iff memory _).mp carried
    · exact absurd key (fresh new old)
  · intro both
    obtain ⟨fits, fresh⟩ := both
    obtain ⟨p, created⟩ := LspRequest.step_perm (Table.find_eq_none.mpr fresh) alloc
    exact ⟨_, rfl, fresh, created, (LspRequest.carried_iff memory _).mpr fits⟩

end Call

/-! ## Which keys there are -/

/-- The counter stands where it did, and no key is new. -/
structure AddsNone (s s' : Node) : Prop where
  counter : s'.nextLspId = s.nextLspId
  keys : ∀ b ∈ s'.psbs, ∃ c ∈ s.psbs, c.key = b.key

namespace AddsNone

variable {env : Env} {s s' t : Node}

theorem refl (s : Node) : AddsNone s s := ⟨rfl, fun b mem => ⟨b, mem, rfl⟩⟩

theorem trans (first : AddsNone s s') (second : AddsNone s' t) : AddsNone s t where
  counter := second.counter.trans first.counter
  keys := by
    intro b mem
    obtain ⟨c, memc, same⟩ := second.keys b mem
    obtain ⟨d, memd, same'⟩ := first.keys c memc
    exact ⟨d, memd, same'.trans same⟩

theorem of_same (counter : s'.nextLspId = s.nextLspId) (psbs : s'.psbs = s.psbs) :
    AddsNone s s' :=
  ⟨counter, fun b mem => ⟨b, psbs ▸ mem, rfl⟩⟩

theorem modPsb (s : Node) (p : Ptr) (f : PsbState → PsbState) : AddsNone s (s.modPsb p f) := by
  refine ⟨rfl, fun b mem => ?_⟩
  rcases Table.mem_modify.mp mem with ⟨old, -⟩ | ⟨c, memc, -, rfl⟩
  · exact ⟨b, old, rfl⟩
  · exact ⟨c, memc, rfl⟩

theorem send (s : Node) (src dest : InAddr) (msg : Bytes) (useRao : Bool) :
    AddsNone s (rsvpSendPacket s src dest msg useRao) := by
  obtain ⟨sent, eq⟩ := rsvpSendPacket_out src dest msg useRao
  rw [eq]
  exact .of_same rfl rfl

theorem sendPathDownstream (s : Node) (p : Ptr) : AddsNone s (sendPathDownstream env s p) := by
  unfold Rsvp.sendPathDownstream
  split
  · exact .refl s
  · dsimp only
    split
    · exact .modPsb s p _
    · exact ((AddsNone.modPsb s p _).trans (.modPsb _ p _)).trans (.send _ _ _ _ _)

theorem propagatePathTear (s : Node) (p : Ptr) : AddsNone s (propagatePathTear env s p) := by
  unfold Rsvp.propagatePathTear
  split
  · exact .refl s
  · dsimp only
    split
    · exact .modPsb s p _
    · exact (AddsNone.modPsb s p _).trans (.send _ _ _ _ _)

theorem propagateResvTear (s : Node) (r : Ptr) : AddsNone s (propagateResvTear env s r) := by
  unfold Rsvp.propagateResvTear
  split
  · exact .refl s
  · split
    · exact .refl s
    · dsimp only
      split
      · exact .refl s
      · exact .send _ _ _ _ _

theorem rsbCleanupResources (s : Node) (r : Ptr) : AddsNone s (rsbCleanupResources s r) := by
  unfold Rsvp.rsbCleanupResources
  split
  · exact .refl s
  · dsimp only
    split
    · exact .of_same rfl rfl
    · split
      · exact .of_same rfl rfl
      · exact .of_same rfl rfl

theorem rsvpRsbDelete (s : Node) (r : Ptr) : AddsNone s (s.rsvpRsbDelete r) := by
  have unlinked : AddsNone s { s with rsbs := s.rsbs.unlink r } := .of_same rfl rfl
  unfold Node.rsvpRsbDelete
  split
  · exact .refl s
  · dsimp only
    split
    · exact unlinked
    · exact unlinked.trans (.modPsb _ _ _)

theorem rsvpRsbCleanup (s : Node) (r : Ptr) (propagate : Bool) :
    AddsNone s (rsvpRsbCleanup env s r propagate) := by
  unfold Rsvp.rsvpRsbCleanup
  split
  · exact .refl s
  · rename_i rsb _
    dsimp only
    refine AddsNone.trans ?_ (.rsvpRsbDelete _ _)
    have told : AddsNone s (if propagate = true ∧ (s.psbOf rsb.body).any (·.body.isIngress) = false
        then Rsvp.propagateResvTear env s r else s) := by
      split
      · exact .propagateResvTear s r
      · exact .refl s
    have released := told.trans (.rsbCleanupResources _ r)
    split
    · exact released
    · exact released.trans (.modPsb _ _ _)

theorem rsvpPsbDelete (s : Node) (p : Ptr) : AddsNone s (s.rsvpPsbDelete p) := by
  have unlinked : AddsNone s { s with psbs := s.psbs.unlink p } :=
    ⟨rfl, fun b mem => ⟨b, (Table.mem_unlink.mp mem).1, rfl⟩⟩
  unfold Node.rsvpPsbDelete
  split
  · exact .refl s
  · dsimp only
    split
    · exact unlinked
    · exact unlinked.trans (.of_same rfl rfl)

theorem rsvpPsbCleanup (s : Node) (p : Ptr) (propagate : Bool) :
    AddsNone s (rsvpPsbCleanup env s p propagate) := by
  unfold Rsvp.rsvpPsbCleanup
  split
  · exact .refl s
  · rename_i psb _
    dsimp only
    refine AddsNone.trans ?_ (.rsvpPsbDelete _ p)
    have told : AddsNone s (if propagate = true ∧ env.isLocalAddr psb.key.session.destAddr = false
        then Rsvp.propagatePathTear env s p else s) := by
      split
      · exact .propagatePathTear s p
      · exact .refl s
    split
    · exact told
    · exact told.trans (.rsvpRsbCleanup _ _ _)

theorem rsvpTeardownPath (s : Node) (tunnelId lspId : UInt16) :
    AddsNone s (rsvpTeardownPath env s tunnelId lspId) := by
  unfold Rsvp.rsvpTeardownPath
  split
  · exact .refl s
  · exact .rsvpPsbCleanup s _ true

end AddsNone

/-! ## Runs -/

/-- Runs of the four calls of the head-end, with `n` requests for LSPs so far and the LSP-IDs
`given` to `rsvp_mbb_start`. -/
inductive HeadRun (labels : LabelMgr) : Nat → List UInt16 → Node → Prop
  | init : HeadRun labels 0 [] (Node.init labels)
  | request {n : Nat} {given : List UInt16} {s : Node} (env : Env) (r : LspRequest) :
    HeadRun labels n given s → HeadRun labels (n + 1) given (s.step env r.event)
  | mbbStart {n : Nat} {given : List UInt16} {s : Node} (env : Env)
    (tunnelId oldLspId newLspId : UInt16) (newEro : List EroSubobj) :
    HeadRun labels n given s → HeadRun labels n (newLspId :: given)
      (s.step env (.mbbStart tunnelId oldLspId newLspId newEro))
  | teardown {n : Nat} {given : List UInt16} {s : Node} (env : Env) (tunnelId lspId : UInt16) :
    HeadRun labels n given s → HeadRun labels n given (s.step env (.teardown tunnelId lspId))

/-- The LSP-ID comes from one of the first `n` requests or from the operator. -/
def IssuedId (n : Nat) (given : List UInt16) (id : UInt16) : Prop :=
  (∃ i < n, id = UInt16.ofNat (i + 1)) ∨ id ∈ given

/-- After `n` requests the counter has been raised `n` times, and all LSP-IDs are issued. -/
structure Numbered (n : Nat) (given : List UInt16) (s : Node) : Prop where
  counter : s.nextLspId = UInt16.ofNat (n + 1)
  issued : ∀ b ∈ s.psbs, ∃ id, b.key.sender.lspId = htons id ∧ IssuedId n given id

section Numbered

variable {env : Env} {s : Node} {n : Nat} {given : List UInt16}

theorem Numbered.addsNone {s' : Node} (numbered : Numbered n given s) (none : AddsNone s s') :
    Numbered n given s' := by
  refine ⟨none.counter.trans numbered.counter, fun b mem => ?_⟩
  obtain ⟨c, memc, same⟩ := none.keys b mem
  rw [← same]
  exact numbered.issued c memc

/-- A PSB that is created for a key with an issued LSP-ID. -/
theorem Numbered.originated (numbered : Numbered n given s) {key : PathKey} {p : Ptr} {t : Node}
    {f : PsbState → PsbState} (made : s.rsvpPsbCreate env key = some (p, t)) {id : UInt16}
    (lspId : key.sender.lspId = htons id) (issued : IssuedId n given id) :
    Numbered n given (sendPathDownstream env (t.modPsb p f) p) := by
  obtain ⟨psbs, created, rfl⟩ := Node.rsvpPsbCreate_eq_some made
  have stored : Numbered n given (({ s with psbs } : Node).modPsb p f) := by
    refine ⟨numbered.counter, fun b mem => ?_⟩
    rcases (Table.mem_modify_create created).mp mem with rfl | old
    · exact ⟨id, lspId, issued⟩
    · exact numbered.issued b old
  exact stored.addsNone (.sendPathDownstream _ p)

theorem Numbered.request (numbered : Numbered n given s) (r : LspRequest) :
    Numbered (n + 1) given (s.step env r.event) := by
  have raised : Numbered (n + 1) given { s with nextLspId := s.nextLspId + 1 } := by
    constructor
    · change s.nextLspId + 1 = _
      rw [numbered.counter]
      exact (UInt16.ofNat_add (n + 1) 1).symm
    · intro b mem
      obtain ⟨id, lspId, issued⟩ := numbered.issued b mem
      refine ⟨id, lspId, issued.imp_left fun counted => ?_⟩
      obtain ⟨i, lt, eq⟩ := counted
      exact ⟨i, Nat.lt_succ_of_lt lt, eq⟩
  have counted : IssuedId (n + 1) given s.nextLspId := .inl ⟨n, Nat.lt_succ_self n, numbered.counter⟩
  cases r with
  | path src dest tunnelId lspName ero requestFrr =>
    change Numbered _ _ (rsvpInitiatePathWithEro env s src dest tunnelId lspName ero requestFrr)
    unfold rsvpInitiatePathWithEro
    dsimp only
    split
    · exact raised.addsNone (.sendPathDownstream _ _)
    · split
      · exact raised
      · rename_i made
        exact raised.originated made rfl counted
  | bypass src dest tunnelId lspName ero protectedIfindex =>
    change Numbered _ _ (rsvpInitiateBypassTunnel env s src dest tunnelId lspName ero
      protectedIfindex)
    unfold rsvpInitiateBypassTunnel
    dsimp only
    split
    · exact raised
    · split
      · exact raised
      · rename_i made
        exact raised.originated made rfl counted

theorem Numbered.mbbStart (numbered : Numbered n given s) (tunnelId oldLspId newLspId : UInt16)
    (newEro : List EroSubobj) :
    Numbered n (newLspId :: given) (s.step env (.mbbStart tunnelId oldLspId newLspId newEro)) := by
  have more : Numbered n (newLspId :: given) s := by
    refine ⟨numbered.counter, fun b mem => ?_⟩
    obtain ⟨id, lspId, issued⟩ := numbered.issued b mem
    exact ⟨id, lspId, issued.imp_right (List.mem_cons_of_mem newLspId)⟩
  change Numbered _ _ (s.orSelf (rsvpMbbStart env s tunnelId oldLspId newLspId newEro))
  unfold rsvpMbbStart
  split
  · exact more
  · split
    · exact more
    · dsimp only
      split
      · exact more
      · split
        · exact more
        · rename_i made
          exact more.originated made rfl (.inr List.mem_cons_self)

theorem HeadRun.numbered {labels : LabelMgr} (run : HeadRun labels n given s) :
    Numbered n given s := by
  induction run with
  | init => exact ⟨rfl, fun b mem => by cases mem⟩
  | request env r _ ih => exact ih.request r
  | mbbStart env tunnelId oldLspId newLspId newEro _ ih =>
    exact ih.mbbStart tunnelId oldLspId newLspId newEro
  | teardown env tunnelId lspId _ ih => exact ih.addsNone (.rsvpTeardownPath _ tunnelId lspId)

/-- The next key is new as long as the counter has not wrapped and the operator has not used up its
LSP-ID. -/
theorem Numbered.fresh (numbered : Numbered n given s) (few : n < 65536)
    (unused : UInt16.ofNat (n + 1) ∉ given) (r : LspRequest) :
    ∀ b ∈ s.psbs, b.key ≠ r.key s.nextLspId := by
  intro b mem key
  obtain ⟨id, lspId, issued⟩ := numbered.issued b mem
  have next : (r.key s.nextLspId).sender.lspId = htons s.nextLspId := by
    cases r with
    | path => rfl
    | bypass => rfl
  rw [key, next] at lspId
  have same : s.nextLspId = id := by
    rw [← bswap16_bswap16 s.nextLspId, ← bswap16_bswap16 id]
    exact congrArg bswap16 lspId
  rw [← same, numbered.counter] at issued
  rcases issued with ⟨i, lt, eq⟩ | operator
  · have wrapped := congrArg UInt16.toNat eq
    rw [UInt16.toNat_ofNat', UInt16.toNat_ofNat'] at wrapped
    omega
  · exact unused operator

end Numbered

/-- In every run of the head-end, a request with the memory for it gets its own LSP iff its ERO fits
and no PSB has the key with the next LSP-ID.  None has it until the 65536th request, if the operator
leaves the next LSP-ID alone. -/
theorem request_addsLsp_iff {labels : LabelMgr} {n : Nat} {given : List UInt16} {s : Node}
    {env : Env} (run : HeadRun labels n given s) (memory : env.strdupOk = true) (r : LspRequest)
    (alloc : s.rsvpPsbCreate env (r.key s.nextLspId) ≠ none) :
    (r.AddsLsp env s ↔ r.Fits env ∧ ∀ b ∈ s.psbs, b.key ≠ r.key s.nextLspId) ∧
      (n < 65536 → UInt16.ofNat (n + 1) ∉ given → ∀ b ∈ s.psbs, b.key ≠ r.key s.nextLspId) :=
  ⟨LspRequest.addsLsp_iff memory alloc, fun few unused => run.numbered.fresh few unused r⟩

/-- The LSP of tunnel 1 from 10.0.0.9 to 10.0.0.3. -/
def sampleRequest : LspRequest := .path 0x0900000A 0x0300000A 1 (some [97]) [] true

theorem request_addsLsp_iff_first :
    sampleRequest.AddsLsp (sampleEnv (fun _ => false) 100) (.init (labelMgrInit 16 31 true)) := by
  have fits : sampleRequest.Fits (sampleEnv (fun _ => false) 100) :=
    ⟨Nat.zero_le _, fun hop head => by cases head⟩
  have alloc : (Node.init (labelMgrInit 16 31 true)).rsvpPsbCreate (sampleEnv (fun _ => false) 100)
      (sampleRequest.key 1) ≠ none := Option.some_ne_none _
  obtain ⟨adds, fresh⟩ := request_addsLsp_iff (.init : HeadRun (labelMgrInit 16 31 true) 0 [] _)
    rfl sampleRequest alloc
  exact adds.mpr ⟨fits, fresh (by decide) (by decide)⟩

/-- The request, and then its LSP re-routed under the LSP-ID that comes next. -/
def sampleRequested : Node :=
  (Node.init (labelMgrInit 16 31 true)).step (sampleEnv (fun _ => false) 100) sampleRequest.event

def sampleReoptimized : Node :=
  sampleRequested.step (sampleEnv (fun _ => false) 101) (.mbbStart 1 1 2 [])

/-- The same request once more adds no PSB. -/
theorem exists_request_without_lsp : ∃ (s : Node) (env : Env) (r : LspRequest),
    HeadRun (labelMgrInit 16 31 true) 1 [2] s ∧ env.strdupOk = true ∧
    s.rsvpPsbCreate env (r.key s.nextLspId) ≠ none ∧ r.Fits env ∧
    (s.step env r.event).psbs.blocks.length = s.psbs.blocks.length ∧ ¬ r.AddsLsp env s := by
  have run : HeadRun (labelMgrInit 16 31 true) 1 [2] sampleReoptimized :=
    .mbbStart _ 1 1 2 [] (.request _ sampleRequest .init)
  have facts : sampleReoptimized.rsvpPsbCreate (sampleEnv (fun _ => false) 102)
        (sampleRequest.key sampleReoptimized.nextLspId) ≠ none ∧
      sampleReoptimized.rsvpPsbFind (sampleRequest.key sampleReoptimized.nextLspId) ≠ none := by
    decide +kernel
  obtain ⟨alloc, held⟩ := facts
  have same := @LspRequest.length_step (sampleEnv (fun _ => false) 102) _ sampleRequest held
  refine ⟨sampleReoptimized, sampleEnv (fun _ => false) 102, sampleRequest, run, rfl, alloc,
    ⟨Nat.zero_le _, fun hop head => by cases head⟩, same, fun adds => ?_⟩
  obtain ⟨new, -, -, grown, -⟩ := adds
  have longer := grown.length_eq
  rw [same, List.length_cons] at longer
  omega

end Rsvp
