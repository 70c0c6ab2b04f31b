import RsvpTe.EventEffects
import RsvpTe.Lib.Chains

/-!
# The state database in memory (`rsvp_state_db.c`)

The three hash tables as the code has them: an array of bucket heads each, blocks chained through
`next_hash`, insertion at the head and removal through a pointer to the link.  Each table does to
its chains what the tables of a `Node` do to their lists of blocks, so the state machine that is
modelled over the latter runs on the former.  In terms of keys the tables are three maps from keys
to blocks.

Equality of keys is `memcmp` over all 20 bytes of a key, the hash reads 16 of them.
-/

namespace Rsvp

/-- The bucket of a key. -/
def keyBucket (key : PathKey) : Fin hashSize :=
  ⟨rsvpKeyHash key, Nat.mod_lt _ (show 0 < hashSize by decide)⟩

/-- `psb_table`, `rsb_table` and `bsb_table`, with the memory of their blocks. -/
structure StateDb : Type where
  psbs : Chains hashSize PathKey PsbState
  rsbs : Chains hashSize PathKey RsbState
  bsbs : Chains hashSize PathKey BsbState

def rsvpStateDbInit : StateDb := ⟨.empty, .empty, .empty⟩

namespace StateDb

/-! ## Operations -/

def rsvpPsbFind (db : StateDb) (key : PathKey) : Option (Option Ptr) := db.psbs.find keyBucket key

def rsvpRsbFind (db : StateDb) (key : PathKey) : Option (Option Ptr) := db.rsbs.find keyBucket key

def rsvpBsbFind (db : StateDb) (key : PathKey) : Option (Option Ptr) := db.bsbs.find keyBucket key

/-- `mem` is what `calloc` answers. -/
def rsvpPsbCreate (db : StateDb) (mem : Option Ptr) (key : PathKey) : Option (Ptr × StateDb) :=
  (db.psbs.create keyBucket mem key .zero).map fun (p, psbs) => (p, { db with psbs })

def rsvpRsbCreate (db : StateDb) (mem : Option Ptr) (key : PathKey) : Option (Ptr × StateDb) :=
  (db.rsbs.create keyBucket mem key .zero).map fun (p, rsbs) => (p, { db with rsbs })

def rsvpBsbCreate (db : StateDb) (mem : Option Ptr) (key : PathKey) : Option (Ptr × StateDb) :=
  (db.bsbs.create keyBucket mem key .zero).map fun (p, bsbs) => (p, { db with bsbs })

/-- Unlink the PSB, break the cross pointer of its RSB, free it.  Stopping its timers touches only
the block that is freed. -/
def rsvpPsbDelete (db : StateDb) (p : Ptr) : Option StateDb := do
  match ← db.psbs.unlink keyBucket p with
  | none => return db
  | some psbs =>
    let psb ← psbs.heap p
    match psb.body.associatedRsb with
    | none => return { db with psbs := psbs.free p }
    | some r =>
      let rsbs ← db.rsbs.modify r fun rsb => { rsb with associatedPsb := none }
      return { db with psbs := psbs.free p, rsbs }

def rsvpRsbDelete (db : StateDb) (p : Ptr) : Option StateDb := do
  match ← db.rsbs.unlink keyBucket p with
  | none => return db
  | some rsbs =>
    let rsb ← rsbs.heap p
    match rsb.body.associatedPsb with
    | none => return { db with rsbs := rsbs.free p }
    | some q =>
      let psbs ← db.psbs.modify q fun psb => { psb with associatedRsb := none }
      return { db with psbs, rsbs := rsbs.free p }

def rsvpBsbDelete (db : StateDb) (p : Ptr) : Option StateDb := do
  match ← db.bsbs.unlink keyBucket p with
  | none => return db
  | some bsbs => return { db with bsbs := bsbs.free p }

/-- One turn of the `for` loop of the cleanup. -/
def cleanupBucket (db : StateDb) (i : Fin hashSize) : Option StateDb := do
  let db ← Chains.drain (fun db => db.psbs.heads i) rsvpPsbDelete db
  let db ← Chains.drain (fun db => db.rsbs.heads i) rsvpRsbDelete db
  Chains.drain (fun db => db.bsbs.heads i) rsvpBsbDelete db

def rsvpStateDbCleanup (db : StateDb) : Option StateDb :=
  (List.finRange hashSize).foldlM cleanupBucket db

/-- What callers do to blocks they have found: they write to any field but the key and the chain. -/
def write (db : StateDb) (f : Ptr → PsbState → PsbState) (g : Ptr → RsbState → RsbState)
    (h : Ptr → BsbState → BsbState) : StateDb :=
  ⟨db.psbs.rewrite f, db.rsbs.rewrite g, db.bsbs.rewrite h⟩

/-- A PSB and an RSB that point to each other are in their tables, and no cross pointer is
one-sided. -/
structure CrossTied (db : StateDb) : Prop where
  rsb_of_psb : ∀ p psb r, db.psbs.heap p = some psb → psb.body.associatedRsb = some r →
    ∃ rsb, db.rsbs.heap r = some rsb ∧ rsb.body.associatedPsb = some p
  psb_of_rsb : ∀ r rsb p, db.rsbs.heap r = some rsb → rsb.body.associatedPsb = some p →
    ∃ psb, db.psbs.heap p = some psb ∧ psb.body.associatedRsb = some r

end StateDb

/-! ## The node's tables in memory -/

/-- The chains hold the blocks of the node's tables. -/
structure StateDb.Represents (db : StateDb) (s : Node) : Prop where
  psbs : db.psbs.Represents keyBucket s.psbs
  rsbs : db.rsbs.Represents keyBucket s.rsbs
  bsbs : db.bsbs.Represents keyBucket s.bsbs

/-- The cross pointers of a node's blocks are mutual. -/
def Node.CrossTied (s : Node) : Prop :=
  s.psbs.Mutual PsbState.associatedRsb RsbState.associatedPsb s.rsbs

/-- So are those of every node the daemon gets to. -/
theorem Node.Wf.crossTied {s : Node} (wf : s.Wf) : s.CrossTied where
  forth := wf.linked
  back := by
    intro r mem a tied
    obtain ⟨b, memb, -, here, back⟩ := wf.owned r mem
    rw [here] at tied
    exact ⟨b, memb, Option.some.inj tied, back⟩

/-- A PSB leaves its table, and its RSB loses the pointer to it. -/
theorem Node.rsvpPsbDelete_cases {s : Node} {b : Psb} (mem : b ∈ s.psbs) :
    (b.body.associatedRsb = none ∧
      s.rsvpPsbDelete b.addr = { s with psbs := s.psbs.unlink b.addr }) ∨
    ∃ r, b.body.associatedRsb = some r ∧
      s.rsvpPsbDelete b.addr = { s with
        psbs := s.psbs.unlink b.addr
        rsbs := s.rsbs.modify r fun rsb => { rsb with associatedPsb := none } } := by
  cases cross : b.body.associatedRsb with
  | none => exact .inl ⟨rfl, by simp only [Node.rsvpPsbDelete, Table.get_of_mem mem, cross]⟩
  | some r =>
    exact .inr ⟨r, rfl, by simp only [Node.rsvpPsbDelete, Table.get_of_mem mem, cross, Node.modRsb]⟩

theorem Node.rsvpRsbDelete_cases {s : Node} {r : Rsb} (mem : r ∈ s.rsbs) :
    (r.body.associatedPsb = none ∧
      s.rsvpRsbDelete r.addr = { s with rsbs := s.rsbs.unlink r.addr }) ∨
    ∃ b, r.body.associatedPsb = some b ∧
      s.rsvpRsbDelete r.addr = { s with
        psbs := s.psbs.modify b fun psb => { psb with associatedRsb := none }
        rsbs := s.rsbs.unlink r.addr } := by
  cases cross : r.body.associatedPsb with
  | none => exact .inl ⟨rfl, by simp only [Node.rsvpRsbDelete, Table.get_of_mem mem, cross]⟩
  | some b =>
    exact .inr ⟨b, rfl, by simp only [Node.rsvpRsbDelete, Table.get_of_mem mem, cross, Node.modPsb]⟩

namespace StateDb.Represents

variable {db db' : StateDb} {s : Node} {p : Ptr} {key : PathKey}

theorem init (labels : LabelMgr) : rsvpStateDbInit.Represents (Node.init labels) :=
  ⟨.empty _, .empty _, .empty _⟩

theorem psbFind (rep : db.Represents s) (key : PathKey) :
    db.rsvpPsbFind key = some ((s.rsvpPsbFind key).map Block.addr) :=
  rep.psbs.find key

theorem rsbFind (rep : db.Represents s) (key : PathKey) :
    db.rsvpRsbFind key = some ((s.rsvpRsbFind key).map Block.addr) :=
  rep.rsbs.find key

theorem bsbFind (rep : db.Represents s) (key : PathKey) :
    db.rsvpBsbFind key = some ((s.rsvpBsbFind key).map Block.addr) :=
  rep.bsbs.find key

/-- A new block is linked where the node links it. -/
theorem psbCreate (rep : db.Represents s) {mem : Option Ptr}
    (made : db.rsvpPsbCreate mem key = some (p, db')) :
    ∃ psbs, s.psbs.create rsvpKeyHash mem key .zero = some (p, psbs) ∧
      db'.Represents { s with psbs } := by
  obtain ⟨⟨q, psbs⟩, linked, same⟩ := Option.map_eq_some_iff.mp made
  cases same
  obtain ⟨psbs', created, rep'⟩ := rep.psbs.create linked
  exact ⟨psbs', created, rep', rep.rsbs, rep.bsbs⟩

theorem rsbCreate (rep : db.Represents s) {mem : Option Ptr}
    (made : db.rsvpRsbCreate mem key = some (p, db')) :
    ∃ rsbs, s.rsbs.create rsvpKeyHash mem key .zero = some (p, rsbs) ∧
      db'.Represents { s with rsbs } := by
  obtain ⟨⟨q, rsbs⟩, linked, same⟩ := Option.map_eq_some_iff.mp made
  cases same
  obtain ⟨rsbs', created, rep'⟩ := rep.rsbs.create linked
  exact ⟨rsbs', created, rep.psbs, rep', rep.bsbs⟩

theorem bsbCreate (rep : db.Represents s) {mem : Option Ptr}
    (made : db.rsvpBsbCreate mem key = some (p, db')) :
    ∃ bsbs, s.bsbs.create rsvpKeyHash mem key .zero = some (p, bsbs) ∧
      db'.Represents { s with bsbs } := by
  obtain ⟨⟨q, bsbs⟩, linked, same⟩ := Option.map_eq_some_iff.mp made
  cases same
  obtain ⟨bsbs', created, rep'⟩ := rep.bsbs.create linked
  exact ⟨bsbs', created, rep.psbs, rep.rsbs, rep'⟩

/-- The removal through a pointer to the link takes out the PSB that the node drops, and reads
nothing that is not there. -/
theorem psbDelete (rep : db.Represents s) (tied : s.CrossTied) {b : Psb} (mem : b ∈ s.psbs) :
    ∃ db', db.rsvpPsbDelete b.addr = some db' ∧ db'.Represents (s.rsvpPsbDelete b.addr) := by
  obtain ⟨psbs, unlinked, ⟨cell, here, body⟩, rep'⟩ := rep.psbs.unlink mem
  simp only [rsvpPsbDelete, unlinked, here, body, Option.bind_eq_bind, Option.bind_some,
    Option.pure_def]
  rcases Node.rsvpPsbDelete_cases mem with ⟨alone, dropped⟩ | ⟨a, cross, dropped⟩
  · rw [alone, dropped]
    exact ⟨_, rfl, rep', rep.rsbs, rep.bsbs⟩
  · obtain ⟨r, memr, rfl, -⟩ := tied.forth b mem a cross
    obtain ⟨rsbs, cut, repr⟩ := rep.rsbs.modify memr fun rsb => { rsb with associatedPsb := none }
    rw [cross, dropped]
    simp only [cut, Option.bind_some]
    exact ⟨_, rfl, rep', repr, rep.bsbs⟩

theorem rsbDelete (rep : db.Represents s) (tied : s.CrossTied) {r : Rsb} (mem : r ∈ s.rsbs) :
    ∃ db', db.rsvpRsbDelete r.addr = some db' ∧ db'.Represents (s.rsvpRsbDelete r.addr) := by
  obtain ⟨rsbs, unlinked, ⟨cell, here, body⟩, rep'⟩ := rep.rsbs.unlink mem
  simp only [rsvpRsbDelete, unlinked, here, body, Option.bind_eq_bind, Option.bind_some,
    Option.pure_def]
  rcases Node.rsvpRsbDelete_cases mem with ⟨alone, dropped⟩ | ⟨a, cross, dropped⟩
  · rw [alone, dropped]
    exact ⟨_, rfl, rep.psbs, rep', rep.bsbs⟩
  · obtain ⟨b, memb, rfl, -⟩ := tied.back r mem a cross
    obtain ⟨psbs, cut, repb⟩ := rep.psbs.modify memb fun psb => { psb with associatedRsb := none }
    rw [cross, dropped]
    simp only [cut, Option.bind_some]
    exact ⟨_, rfl, repb, rep', rep.bsbs⟩

theorem bsbDelete (rep : db.Represents s) {b : Bsb} (mem : b ∈ s.bsbs) :
    ∃ db', db.rsvpBsbDelete b.addr = some db' ∧ db'.Represents (s.rsvpBsbDelete b.addr) := by
  obtain ⟨bsbs, unlinked, -, rep'⟩ := rep.bsbs.unlink mem
  simp only [rsvpBsbDelete, unlinked, Option.bind_eq_bind, Option.bind_some, Option.pure_def,
    Node.rsvpBsbDelete]
  exact ⟨_, rfl, rep.psbs, rep.rsbs, rep'⟩

theorem crossTied (rep : db.Represents s) (tied : db.CrossTied) : s.CrossTied where
  forth := by
    intro b mem a cross
    obtain ⟨next, cell⟩ := rep.psbs.cell_iff.mpr mem
    obtain ⟨⟨k, body, link⟩, there, back⟩ := tied.rsb_of_psb _ _ a cell cross
    exact ⟨⟨a, k, body⟩, rep.rsbs.cell_iff.mp ⟨link, there⟩, rfl, back⟩
  back := by
    intro r mem a cross
    obtain ⟨next, cell⟩ := rep.rsbs.cell_iff.mpr mem
    obtain ⟨⟨k, body, link⟩, there, back⟩ := tied.psb_of_rsb _ _ a cell cross
    exact ⟨⟨a, k, body⟩, rep.psbs.cell_iff.mp ⟨link, there⟩, rfl, back⟩

end StateDb.Represents

/-- Deleting a PSB leaves no RSB with a pointer to it. -/
theorem Node.CrossTied.psbDelete {s : Node} (tied : s.CrossTied) {b : Psb} (mem : b ∈ s.psbs) :
    (s.rsvpPsbDelete b.addr).CrossTied := by
  rcases Node.rsvpPsbDelete_cases mem with ⟨alone, dropped⟩ | ⟨r, cross, dropped⟩
  · rw [dropped]
    exact tied.unlink_alone mem alone
  · rw [dropped]
    exact tied.unlink_cut mem cross (fun rsb => { rsb with associatedPsb := none }) fun _ => rfl

theorem Node.CrossTied.rsbDelete {s : Node} (tied : s.CrossTied) {r : Rsb} (mem : r ∈ s.rsbs) :
    (s.rsvpRsbDelete r.addr).CrossTied := by
  apply Table.Mutual.symm
  rcases Node.rsvpRsbDelete_cases mem with ⟨alone, dropped⟩ | ⟨b, cross, dropped⟩
  · rw [dropped]
    exact tied.symm.unlink_alone mem alone
  · rw [dropped]
    exact tied.symm.unlink_cut mem cross (fun psb => { psb with associatedRsb := none })
      fun _ => rfl

/-! ## The tables as maps -/

/-- Which block each key has in each table. -/
structure StateMaps : Type where
  psbs : PathKey → Option Ptr
  rsbs : PathKey → Option Ptr
  bsbs : PathKey → Option Ptr

def StateMaps.empty : StateMaps := ⟨fun _ => none, fun _ => none, fun _ => none⟩

/-- Every key of `m'` is a key of `m`. -/
structure StateMaps.Le (m' m : StateMaps) : Prop where
  psbs : ∀ key, m.psbs key = none → m'.psbs key = none
  rsbs : ∀ key, m.rsbs key = none → m'.rsbs key = none
  bsbs : ∀ key, m.bsbs key = none → m'.bsbs key = none

/-- No key of the bucket has a block. -/
def StateMaps.ClearAt (m : StateMaps) (i : Fin hashSize) : Prop :=
  ∀ key, keyBucket key = i → m.psbs key = none ∧ m.rsbs key = none ∧ m.bsbs key = none

theorem StateMaps.ClearAt.mono {m m' : StateMaps} {i : Fin hashSize} (clear : m.ClearAt i)
    (le : m'.Le m) : m'.ClearAt i := by
  intro key own
  obtain ⟨psbs, rsbs, bsbs⟩ := clear key own
  exact ⟨le.psbs key psbs, le.rsbs key rsbs, le.bsbs key bsbs⟩

namespace StateMaps.Le

variable {m m' m'' : StateMaps}

theorem refl (m : StateMaps) : m.Le m := ⟨fun _ => id, fun _ => id, fun _ => id⟩

theorem trans (second : m''.Le m') (first : m'.Le m) : m''.Le m where
  psbs := fun key none => second.psbs key (first.psbs key none)
  rsbs := fun key none => second.rsbs key (first.rsbs key none)
  bsbs := fun key none => second.bsbs key (first.bsbs key none)

theorem update_none {map : PathKey → Option Ptr} (key key' : PathKey) (none : map key' = none) :
    Function.update map key Option.none key' = Option.none := by
  by_cases same : key' = key
  · rw [same, Function.update_self]
  · rw [Function.update_of_ne same, none]

end StateMaps.Le

/-- The chains, the maps and the tables of a node agree. -/
structure StateDb.Holds (db : StateDb) (m : StateMaps) (s : Node) : Prop where
  represents : db.Represents s
  tied : s.CrossTied
  psbs : s.psbs.Maps m.psbs
  rsbs : s.rsbs.Maps m.rsbs
  bsbs : s.bsbs.Maps m.bsbs

/-- The number of blocks in the tables. -/
def Node.blockCount (s : Node) : Nat :=
  s.psbs.blocks.length + s.rsbs.blocks.length + s.bsbs.blocks.length

namespace StateDb.Holds

variable {db db' : StateDb} {m : StateMaps} {s : Node} {p : Ptr} {key : PathKey}

theorem init (labels : LabelMgr) : rsvpStateDbInit.Holds .empty (Node.init labels) where
  represents := .init labels
  tied := .empty
  psbs := .empty
  rsbs := .empty
  bsbs := .empty

theorem psbCreate (holds : db.Holds m s) (absent : m.psbs key = none) {mem : Option Ptr}
    (made : db.rsvpPsbCreate mem key = some (p, db')) :
    ∃ s', db'.Holds { m with psbs := Function.update m.psbs key (some p) } s' := by
  obtain ⟨psbs, created, rep⟩ := holds.represents.psbCreate made
  exact ⟨_, rep, holds.tied.create created rfl, holds.psbs.create absent created, holds.rsbs,
    holds.bsbs⟩

theorem rsbCreate (holds : db.Holds m s) (absent : m.rsbs key = none) {mem : Option Ptr}
    (made : db.rsvpRsbCreate mem key = some (p, db')) :
    ∃ s', db'.Holds { m with rsbs := Function.update m.rsbs key (some p) } s' := by
  obtain ⟨rsbs, created, rep⟩ := holds.represents.rsbCreate made
  exact ⟨_, rep, (holds.tied.symm.create created rfl).symm, holds.psbs,
    holds.rsbs.create absent created, holds.bsbs⟩

theorem bsbCreate (holds : db.Holds m s) (absent : m.bsbs key = none) {mem : Option Ptr}
    (made : db.rsvpBsbCreate mem key = some (p, db')) :
    ∃ s', db'.Holds { m with bsbs := Function.update m.bsbs key (some p) } s' := by
  obtain ⟨bsbs, created, rep⟩ := holds.represents.bsbCreate made
  exact ⟨_, rep, holds.tied, holds.psbs, holds.rsbs, holds.bsbs.create absent created⟩

/-- A deletion succeeds, takes the key out of its map, and leaves fewer blocks. -/
theorem psbDelete (holds : db.Holds m s) (live : m.psbs key = some p) :
    ∃ db' s', db.rsvpPsbDelete p = some db' ∧
      db'.Holds { m with psbs := Function.update m.psbs key none } s' ∧
      s'.blockCount < s.blockCount := by
  obtain ⟨b, mem, rfl, rfl⟩ := (holds.psbs key p).mp live
  obtain ⟨db', deleted, rep⟩ := holds.represents.psbDelete holds.tied mem
  have tied := holds.tied.psbDelete mem
  have maps := holds.psbs.unlink mem
  have fewer := Table.length_unlink_lt mem
  refine ⟨db', _, deleted, ⟨rep, tied, ?_, ?_, ?_⟩, ?_⟩
  all_goals rcases Node.rsvpPsbDelete_cases mem with ⟨-, dropped⟩ | ⟨r, -, dropped⟩
  all_goals rw [dropped]
  · exact maps
  · exact maps
  · exact holds.rsbs
  · exact holds.rsbs.modify r _
  · exact holds.bsbs
  · exact holds.bsbs
  · simp only [Node.blockCount]
    omega
  · simp only [Node.blockCount, Table.length_modify]
    omega

theorem rsbDelete (holds : db.Holds m s) (live : m.rsbs key = some p) :
    ∃ db' s', db.rsvpRsbDelete p = some db' ∧
      db'.Holds { m with rsbs := Function.update m.rsbs key none } s' ∧
      s'.blockCount < s.blockCount := by
  obtain ⟨r, mem, rfl, rfl⟩ := (holds.rsbs key p).mp live
  obtain ⟨db', deleted, rep⟩ := holds.represents.rsbDelete holds.tied mem
  have tied := holds.tied.rsbDelete mem
  have maps := holds.rsbs.unlink mem
  have fewer := Table.length_unlink_lt mem
  refine ⟨db', _, deleted, ⟨rep, tied, ?_, ?_, ?_⟩, ?_⟩
  all_goals rcases Node.rsvpRsbDelete_cases mem with ⟨-, dropped⟩ | ⟨b, -, dropped⟩
  all_goals rw [dropped]
  · exact holds.psbs
  · exact holds.psbs.modify b _
  · exact maps
  · exact maps
  · exact holds.bsbs
  · exact holds.bsbs
  · simp only [Node.blockCount]
    omega
  · simp only [Node.blockCount, Table.length_modify]
    omega

theorem bsbDelete (holds : db.Holds m s) (live : m.bsbs key = some p) :
    ∃ db' s', db.rsvpBsbDelete p = some db' ∧
      db'.Holds { m with bsbs := Function.update m.bsbs key none } s' ∧
      s'.blockCount < s.blockCount := by
  obtain ⟨b, mem, rfl, rfl⟩ := (holds.bsbs key p).mp live
  obtain ⟨db', deleted, rep⟩ := holds.represents.bsbDelete mem
  refine ⟨db', _, deleted, ⟨rep, holds.tied, holds.psbs, holds.rsbs, holds.bsbs.unlink mem⟩, ?_⟩
  have fewer := Table.length_unlink_lt mem
  simp only [Node.blockCount, Node.rsvpBsbDelete]
  omega

theorem write (holds : db.Holds m s) (f : Ptr → PsbState → PsbState) (g : Ptr → RsbState → RsbState)
    (h : Ptr → BsbState → BsbState) (tied : (db.write f g h).CrossTied) :
    ∃ s', (db.write f g h).Holds m s' := by
  obtain ⟨psbs, newPsbs, repPsbs⟩ := holds.represents.psbs.rewrite f
  obtain ⟨rsbs, newRsbs, repRsbs⟩ := holds.represents.rsbs.rewrite g
  obtain ⟨bsbs, newBsbs, repBsbs⟩ := holds.represents.bsbs.rewrite h
  have rep : (db.write f g h).Represents { s with psbs, rsbs, bsbs } := ⟨repPsbs, repRsbs, repBsbs⟩
  exact ⟨_, rep, rep.crossTied tied, holds.psbs.rewrite newPsbs, holds.rsbs.rewrite newRsbs,
    holds.bsbs.rewrite newBsbs⟩

/-! ### The cleanup -/

/-- A loop that deletes the head of a bucket ends with the bucket empty. -/
theorem drain {head : StateDb → Option Ptr} {delete : StateDb → Ptr → Option StateDb}
    (step : ∀ {db m s p}, StateDb.Holds db m s → head db = some p →
      ∃ db' m' s', delete db p = some db' ∧ StateDb.Holds db' m' s' ∧ m'.Le m ∧
        s'.blockCount < s.blockCount)
    (holds : db.Holds m s) :
    ∃ db' m' s', Chains.drain head delete db = some db' ∧ db'.Holds m' s' ∧ m'.Le m ∧
      head db' = none := by
  have decreasing : ∀ size db p, (∃ m' s', StateDb.Holds db m' s' ∧ m'.Le m ∧ s'.blockCount = size) →
      head db = some p → ∃ db' size', delete db p = some db' ∧
        (∃ m' s', StateDb.Holds db' m' s' ∧ m'.Le m ∧ s'.blockCount = size') ∧ size' < size := by
    intro size db p state front
    obtain ⟨m', s', holds, le, count⟩ := state
    obtain ⟨db', m'', s'', deleted, kept, le', fewer⟩ := step holds front
    exact ⟨db', _, deleted, ⟨m'', s'', kept, le'.trans le, rfl⟩, count ▸ fewer⟩
  obtain ⟨db', drained, ⟨_, m', s', kept, le, -⟩, empty⟩ :=
    Chains.drain_of_decreasing decreasing ⟨m, s, holds, .refl m, rfl⟩
  exact ⟨db', m', s', drained, kept, le, empty⟩

theorem drainPsbs (holds : db.Holds m s) (i : Fin hashSize) :
    ∃ db' m' s', Chains.drain (fun db => db.psbs.heads i) rsvpPsbDelete db = some db' ∧
      db'.Holds m' s' ∧ m'.Le m ∧ db'.psbs.heads i = none := by
  apply holds.drain
  intro db m s p holds head
  obtain ⟨key, live⟩ := holds.psbs.of_head holds.represents.psbs head
  obtain ⟨db', s', deleted, kept, fewer⟩ := holds.psbDelete live
  refine ⟨db', _, s', deleted, kept, ⟨?_, fun _ => id, fun _ => id⟩, fewer⟩
  exact fun key' none => StateMaps.Le.update_none key key' none

theorem drainRsbs (holds : db.Holds m s) (i : Fin hashSize) :
    ∃ db' m' s', Chains.drain (fun db => db.rsbs.heads i) rsvpRsbDelete db = some db' ∧
      db'.Holds m' s' ∧ m'.Le m ∧ db'.rsbs.heads i = none := by
  apply holds.drain
  intro db m s p holds head
  obtain ⟨key, live⟩ := holds.rsbs.of_head holds.represents.rsbs head
  obtain ⟨db', s', deleted, kept, fewer⟩ := holds.rsbDelete live
  refine ⟨db', _, s', deleted, kept, ⟨fun _ => id, ?_, fun _ => id⟩, fewer⟩
  exact fun key' none => StateMaps.Le.update_none key key' none

theorem drainBsbs (holds : db.Holds m s) (i : Fin hashSize) :
    ∃ db' m' s', Chains.drain (fun db => db.bsbs.heads i) rsvpBsbDelete db = some db' ∧
      db'.Holds m' s' ∧ m'.Le m ∧ db'.bsbs.heads i = none := by
  apply holds.drain
  intro db m s p holds head
  obtain ⟨key, live⟩ := holds.bsbs.of_head holds.represents.bsbs head
  obtain ⟨db', s', deleted, kept, fewer⟩ := holds.bsbDelete live
  refine ⟨db', _, s', deleted, kept, ⟨fun _ => id, fun _ => id, ?_⟩, fewer⟩
  exact fun key' none => StateMaps.Le.update_none key key' none

/-- A turn of the loop empties its bucket of all three tables and adds nothing. -/
theorem cleanupBucket (holds : db.Holds m s) (i : Fin hashSize) :
    ∃ db' m' s', db.cleanupBucket i = some db' ∧ db'.Holds m' s' ∧ m'.Le m ∧ m'.ClearAt i := by
  obtain ⟨db₁, m₁, s₁, drained₁, holds₁, le₁, empty₁⟩ := holds.drainPsbs i
  obtain ⟨db₂, m₂, s₂, drained₂, holds₂, le₂, empty₂⟩ := holds₁.drainRsbs i
  obtain ⟨db₃, m₃, s₃, drained₃, holds₃, le₃, empty₃⟩ := holds₂.drainBsbs i
  refine ⟨db₃, m₃, s₃, ?_, holds₃, le₃.trans (le₂.trans le₁), ?_⟩
  · simp only [StateDb.cleanupBucket, drained₁, drained₂, Option.bind_eq_bind, Option.bind_some]
    exact drained₃
  · intro key own
    subst own
    have psbs := holds₁.psbs.of_empty holds₁.represents.psbs empty₁
    have rsbs := holds₂.rsbs.of_empty holds₂.represents.rsbs empty₂
    have bsbs := holds₃.bsbs.of_empty holds₃.represents.bsbs empty₃
    exact ⟨(le₃.trans le₂).psbs key psbs, le₃.rsbs key rsbs, bsbs⟩

theorem cleanupBuckets (is : List (Fin hashSize)) (holds : db.Holds m s) :
    ∃ db' m' s', is.foldlM StateDb.cleanupBucket db = some db' ∧ db'.Holds m' s' ∧ m'.Le m ∧
      ∀ i ∈ is, m'.ClearAt i := by
  induction is generalizing db m s with
  | nil => exact ⟨db, m, s, rfl, holds, .refl m, fun i mem => absurd mem List.not_mem_nil⟩
  | cons i is ih =>
    obtain ⟨db', m', s', cleaned, holds', le, clear⟩ := holds.cleanupBucket i
    obtain ⟨db'', m'', s'', rest, holds'', le', clear'⟩ := ih holds'
    refine ⟨db'', m'', s'', ?_, holds'', le'.trans le, ?_⟩
    · rw [List.foldlM_cons, cleaned]
      exact rest
    · intro j mem
      rcases List.mem_cons.mp mem with rfl | later
      · exact clear.mono le'
      · exact clear' j later

/-- The cleanup ends, and leaves what `rsvpStateDbInit` leaves. -/
theorem cleanup (holds : db.Holds m s) : db.rsvpStateDbCleanup = some rsvpStateDbInit := by
  obtain ⟨⟨psbs, rsbs, bsbs⟩, m', s', cleaned, holds', -, clear⟩ :=
    holds.cleanupBuckets (List.finRange hashSize)
  have none := fun key => clear (keyBucket key) (List.mem_finRange _) key rfl
  have psbs := holds'.represents.psbs.eq_empty (holds'.psbs.not_mem fun key => (none key).1)
  have rsbs := holds'.represents.rsbs.eq_empty (holds'.rsbs.not_mem fun key => (none key).2.1)
  have bsbs := holds'.represents.bsbs.eq_empty (holds'.bsbs.not_mem fun key => (none key).2.2)
  rw [StateDb.rsvpStateDbCleanup, cleaned, rsvpStateDbInit, ← psbs, ← rsbs, ← bsbs]

end StateDb.Holds

/-! ## Runs -/

/-- Sequences of operations on the tables after the initialisation, with the maps they amount to.
A block is created under a key only when the lookup finds none, deleted only while it is in its
table, and written to so that cross pointers stay mutual. -/
inductive DbRun : StateDb → StateMaps → Prop
  | init : DbRun rsvpStateDbInit .empty
  | createPsb {db db' : StateDb} {m : StateMaps} {mem : Option Ptr} {key : PathKey} {p : Ptr} :
    DbRun db m → db.rsvpPsbFind key = some none → db.rsvpPsbCreate mem key = some (p, db') →
    DbRun db' { m with psbs := Function.update m.psbs key (some p) }
  | createRsb {db db' : StateDb} {m : StateMaps} {mem : Option Ptr} {key : PathKey} {p : Ptr} :
    DbRun db m → db.rsvpRsbFind key = some none → db.rsvpRsbCreate mem key = some (p, db') →
    DbRun db' { m with rsbs := Function.update m.rsbs key (some p) }
  | createBsb {db db' : StateDb} {m : StateMaps} {mem : Option Ptr} {key : PathKey} {p : Ptr} :
    DbRun db m → db.rsvpBsbFind key = some none → db.rsvpBsbCreate mem key = some (p, db') →
    DbRun db' { m with bsbs := Function.update m.bsbs key (some p) }
  | deletePsb {db db' : StateDb} {m : StateMaps} {key : PathKey} {p : Ptr} :
    DbRun db m → m.psbs key = some p → db.rsvpPsbDelete p = some db' →
    DbRun db' { m with psbs := Function.update m.psbs key none }
  | deleteRsb {db db' : StateDb} {m : StateMaps} {key : PathKey} {p : Ptr} :
    DbRun db m → m.rsbs key = some p → db.rsvpRsbDelete p = some db' →
    DbRun db' { m with rsbs := Function.update m.rsbs key none }
  | deleteBsb {db db' : StateDb} {m : StateMaps} {key : PathKey} {p : Ptr} :
    DbRun db m → m.bsbs key = some p → db.rsvpBsbDelete p = some db' →
    DbRun db' { m with bsbs := Function.update m.bsbs key none }
  | write {db : StateDb} {m : StateMaps} (f : Ptr → PsbState → PsbState)
    (g : Ptr → RsbState → RsbState) (h : Ptr → BsbState → BsbState) :
    DbRun db m → (db.write f g h).CrossTied → DbRun (db.write f g h) m

theorem StateDb.Holds.psbFind {db : StateDb} {m : StateMaps} {s : Node} (holds : db.Holds m s)
    (key : PathKey) : db.rsvpPsbFind key = some (m.psbs key) := by
  rw [holds.represents.psbFind]
  exact congrArg some (holds.psbs.find key)

theorem StateDb.Holds.rsbFind {db : StateDb} {m : StateMaps} {s : Node} (holds : db.Holds m s)
    (key : PathKey) : db.rsvpRsbFind key = some (m.rsbs key) := by
  rw [holds.represents.rsbFind]
  exact congrArg some (holds.rsbs.find key)

theorem StateDb.Holds.bsbFind {db : StateDb} {m : StateMaps} {s : Node} (holds : db.Holds m s)
    (key : PathKey) : db.rsvpBsbFind key = some (m.bsbs key) := by
  rw [holds.represents.bsbFind]
  exact congrArg some (holds.bsbs.find key)

theorem DbRun.holds {db : StateDb} {m : StateMaps} (run : DbRun db m) : ∃ s, db.Holds m s := by
  induction run with
  | init => exact ⟨_, .init (labelMgrInit 16 31 true)⟩
  | createPsb _ absent made ih =>
    obtain ⟨s, holds⟩ := ih
    rw [holds.psbFind] at absent
    exact holds.psbCreate (Option.some.inj absent) made
  | createRsb _ absent made ih =>
    obtain ⟨s, holds⟩ := ih
    rw [holds.rsbFind] at absent
    exact holds.rsbCreate (Option.some.inj absent) made
  | createBsb _ absent made ih =>
    obtain ⟨s, holds⟩ := ih
    rw [holds.bsbFind] at absent
    exact holds.bsbCreate (Option.some.inj absent) made
  | deletePsb _ live deleted ih =>
    obtain ⟨s, holds⟩ := ih
    obtain ⟨db', s', succeeds, holds', -⟩ := holds.psbDelete live
    rw [deleted] at succeeds
    cases succeeds
    exact ⟨s', holds'⟩
  | deleteRsb _ live deleted ih =>
    obtain ⟨s, holds⟩ := ih
    obtain ⟨db', s', succeeds, holds', -⟩ := holds.rsbDelete live
    rw [deleted] at succeeds
    cases succeeds
    exact ⟨s', holds'⟩
  | deleteBsb _ live deleted ih =>
    obtain ⟨s, holds⟩ := ih
    obtain ⟨db', s', succeeds, holds', -⟩ := holds.bsbDelete live
    rw [deleted] at succeeds
    cases succeeds
    exact ⟨s', holds'⟩
  | write f g h _ tied ih =>
    obtain ⟨s, holds⟩ := ih
    exact holds.write f g h tied

/-! ## The state database as three finite maps -/

/-- Every lookup answers with the block that its map has, or with none. -/
structure StateDb.Finds (db : StateDb) (m : StateMaps) : Prop where
  psbs : ∀ key, db.rsvpPsbFind key = some (m.psbs key)
  rsbs : ∀ key, db.rsvpRsbFind key = some (m.rsbs key)
  bsbs : ∀ key, db.rsvpBsbFind key = some (m.bsbs key)

/-- Memory that is not in use becomes the block of a new key, and of no other. -/
structure StateDb.Creates (db : StateDb) (m : StateMaps) : Prop where
  psbs : ∀ key p, m.psbs key = none → db.psbs.heap p = none →
    ∃ db', db.rsvpPsbCreate (some p) key = some (p, db') ∧
      db'.Finds { m with psbs := Function.update m.psbs key (some p) }
  rsbs : ∀ key p, m.rsbs key = none → db.rsbs.heap p = none →
    ∃ db', db.rsvpRsbCreate (some p) key = some (p, db') ∧
      db'.Finds { m with rsbs := Function.update m.rsbs key (some p) }
  bsbs : ∀ key p, m.bsbs key = none → db.bsbs.heap p = none →
    ∃ db', db.rsvpBsbCreate (some p) key = some (p, db') ∧
      db'.Finds { m with bsbs := Function.update m.bsbs key (some p) }

/-- A deletion takes away the given block, and no other lookup changes. -/
structure StateDb.Deletes (db : StateDb) (m : StateMaps) : Prop where
  psbs : ∀ key p, m.psbs key = some p → ∃ db', db.rsvpPsbDelete p = some db' ∧
    db'.Finds { m with psbs := Function.update m.psbs key none }
  rsbs : ∀ key p, m.rsbs key = some p → ∃ db', db.rsvpRsbDelete p = some db' ∧
    db'.Finds { m with rsbs := Function.update m.rsbs key none }
  bsbs : ∀ key p, m.bsbs key = some p → ∃ db', db.rsvpBsbDelete p = some db' ∧
    db'.Finds { m with bsbs := Function.update m.bsbs key none }

/-- A list of blocks has each block of a map once, and nothing else. -/
def Visits {β : Type} (blocks : List (Block PathKey β)) (map : PathKey → Option Ptr) : Prop :=
  (blocks.map Block.addr).Nodup ∧
    ∀ key p, (∃ b ∈ blocks, b.key = key ∧ b.addr = p) ↔ map key = some p

/-- The walk over the buckets visits the blocks of the map. -/
structure StateDb.Walks (db : StateDb) (m : StateMaps) : Prop where
  psbs : ∃ blocks, db.psbs.walk = some blocks ∧ Visits blocks m.psbs
  rsbs : ∃ blocks, db.rsbs.walk = some blocks ∧ Visits blocks m.rsbs
  bsbs : ∃ blocks, db.bsbs.walk = some blocks ∧ Visits blocks m.bsbs

namespace StateDb.Holds

variable {db : StateDb} {m : StateMaps} {s : Node}

theorem finds (holds : db.Holds m s) : db.Finds m := ⟨holds.psbFind, holds.rsbFind, holds.bsbFind⟩

theorem creates (holds : db.Holds m s) : db.Creates m where
  psbs := by
    intro key p absent unused
    obtain ⟨psbs, linked⟩ := Chains.Represents.create_isSome keyBucket db.psbs unused key
      .zero
    have made : db.rsvpPsbCreate (some p) key = some (p, { db with psbs }) := by
      rw [rsvpPsbCreate, linked]
      rfl
    obtain ⟨s', holds'⟩ := holds.psbCreate absent made
    exact ⟨_, made, holds'.finds⟩
  rsbs := by
    intro key p absent unused
    obtain ⟨rsbs, linked⟩ := Chains.Represents.create_isSome keyBucket db.rsbs unused key
      .zero
    have made : db.rsvpRsbCreate (some p) key = some (p, { db with rsbs }) := by
      rw [rsvpRsbCreate, linked]
      rfl
    obtain ⟨s', holds'⟩ := holds.rsbCreate absent made
    exact ⟨_, made, holds'.finds⟩
  bsbs := by
    intro key p absent unused
    obtain ⟨bsbs, linked⟩ := Chains.Represents.create_isSome keyBucket db.bsbs unused key
      .zero
    have made : db.rsvpBsbCreate (some p) key = some (p, { db with bsbs }) := by
      rw [rsvpBsbCreate, linked]
      rfl
    obtain ⟨s', holds'⟩ := holds.bsbCreate absent made
    exact ⟨_, made, holds'.finds⟩

theorem deletes (holds : db.Holds m s) : db.Deletes m where
  psbs := by
    intro key p live
    obtain ⟨db', s', deleted, holds', -⟩ := holds.psbDelete live
    exact ⟨db', deleted, holds'.finds⟩
  rsbs := by
    intro key p live
    obtain ⟨db', s', deleted, holds', -⟩ := holds.rsbDelete live
    exact ⟨db', deleted, holds'.finds⟩
  bsbs := by
    intro key p live
    obtain ⟨db', s', deleted, holds', -⟩ := holds.bsbDelete live
    exact ⟨db', deleted, holds'.finds⟩

theorem walks (holds : db.Holds m s) : db.Walks m where
  psbs := ⟨_, holds.represents.psbs.walk, holds.psbs.visits⟩
  rsbs := ⟨_, holds.represents.rsbs.walk, holds.rsbs.visits⟩
  bsbs := ⟨_, holds.represents.bsbs.walk, holds.bsbs.visits⟩

end StateDb.Holds

/-- Whatever keys are created and deleted, in whatever order, the chained tables behave as finite
maps, and the cleanup empties them. -/
theorem stateDb_refines {db : StateDb} {m : StateMaps} (run : DbRun db m) :
    db.Finds m ∧ db.Creates m ∧ db.Deletes m ∧ db.Walks m ∧
      db.rsvpStateDbCleanup = some rsvpStateDbInit := by
  obtain ⟨s, holds⟩ := run.holds
  exact ⟨holds.finds, holds.creates, holds.deletes, holds.walks, holds.cleanup⟩

/-- Keys that differ in a reserved field share their bucket. -/
def twinKey (reserved : UInt16) : PathKey :=
  ⟨⟨0x0300000A, reserved, 0x0100, 0x0100000A⟩, ⟨0x0100000A, 0, 0x0100⟩⟩

/-- A PSB for each of them. -/
def twinMaps : StateMaps :=
  { StateMaps.empty with
    psbs := Function.update (Function.update (fun _ => none) (twinKey 0) (some 1))
      (twinKey 1) (some 2) }

theorem exists_dbRun_twins : ∃ db, DbRun db twinMaps := by
  have free : rsvpStateDbInit.rsvpPsbFind (twinKey 0) = some none :=
    (StateDb.Holds.init (labelMgrInit 16 31 true)).psbFind _
  have made : rsvpStateDbInit.rsvpPsbCreate (some 1) (twinKey 0) = some (1, _) := rfl
  have first := DbRun.createPsb .init free made
  obtain ⟨s, holds⟩ := first.holds
  have other : twinKey 1 ≠ twinKey 0 := by decide
  have unknown : Function.update StateMaps.empty.psbs (twinKey 0) (some 1) (twinKey 1) =
      none := Function.update_of_ne other _ _
  have absent := (holds.psbFind (twinKey 1)).trans (congrArg some unknown)
  obtain ⟨db', again, -⟩ := holds.creates.psbs (twinKey 1) 2 unknown rfl
  exact ⟨db', .createPsb first absent again⟩

theorem stateDb_refines_twins :
    keyBucket (twinKey 0) = keyBucket (twinKey 1) ∧ ∃ db, DbRun db twinMaps ∧
      db.rsvpPsbFind (twinKey 0) = some (some 1) ∧
      db.rsvpPsbFind (twinKey 1) = some (some 2) := by
  refine ⟨by decide, ?_⟩
  obtain ⟨db, run⟩ := exists_dbRun_twins
  obtain ⟨finds, -⟩ := stateDb_refines run
  exact ⟨db, run, finds.psbs _, finds.psbs _⟩

end Rsvp
