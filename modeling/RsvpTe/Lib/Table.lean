import Mathlib.Data.List.Nodup
import RsvpTe.Lib.Slots

/-!
# Tables of heap blocks

A table holds blocks that live at distinct addresses.  The address and the key of a block
never change while it is linked; its body is updated in place.  Blocks are kept in the order
in which a walk over the buckets of a chained hash table meets them: `create` links a new block
in front of its bucket, `unlink` takes one out, and both leave the order of the others alone.
-/

/-- A pointer to a heap block. -/
abbrev Ptr : Type := Nat

/-- A heap block: where it lives, its key, and its mutable part. -/
structure Block (κ β : Type) : Type where
  addr : Ptr
  key : κ
  body : β
  deriving Repr

/-- A block with an updated body. -/
def Block.update {κ β : Type} (b : Block κ β) (f : β → β) : Block κ β := { b with body := f b.body }

/-- Blocks at distinct addresses. -/
structure Table (κ β : Type) : Type where
  blocks : List (Block κ β)
  distinct : (blocks.map Block.addr).Nodup

namespace Table

variable {κ β : Type}

instance : Membership (Block κ β) (Table κ β) := ⟨fun t b => b ∈ t.blocks⟩

theorem mem_def {t : Table κ β} {b : Block κ β} : b ∈ t ↔ b ∈ t.blocks := Iff.rfl

def empty : Table κ β := ⟨[], List.nodup_nil⟩

@[simp] theorem not_mem_empty (b : Block κ β) : b ∉ (empty : Table κ β) := List.not_mem_nil

/-- Two blocks at one address are one block. -/
theorem eq_of_addr_eq {t : Table κ β} {b c : Block κ β} (hb : b ∈ t) (hc : c ∈ t)
    (same : b.addr = c.addr) : b = c :=
  List.inj_on_of_nodup_map t.distinct hb hc same

/-! ## Access by address and by key -/

/-- The block at address `p`. -/
def get (t : Table κ β) (p : Ptr) : Option (Block κ β) := t.blocks.find? (·.addr = p)

/-- The first block with key `k`. -/
def find [DecidableEq κ] (t : Table κ β) (k : κ) : Option (Block κ β) :=
  t.blocks.find? (·.key = k)

theorem get_eq_some {t : Table κ β} {p : Ptr} {b : Block κ β} :
    t.get p = some b ↔ b ∈ t ∧ b.addr = p := by
  constructor
  · intro found
    exact ⟨List.mem_of_find?_eq_some found, by simpa using List.find?_some found⟩
  · rintro ⟨mem, rfl⟩
    cases found : t.get b.addr with
    | none => simpa using List.find?_eq_none.mp found b mem
    | some c =>
      have addr : c.addr = b.addr := by simpa using List.find?_some found
      rw [eq_of_addr_eq (List.mem_of_find?_eq_some found) mem addr]

theorem get_of_mem {t : Table κ β} {b : Block κ β} (mem : b ∈ t) : t.get b.addr = some b :=
  get_eq_some.mpr ⟨mem, rfl⟩

theorem get_eq_none {t : Table κ β} {p : Ptr} : t.get p = none ↔ ∀ b ∈ t, b.addr ≠ p := by
  rw [get, List.find?_eq_none]
  simp only [decide_eq_true_eq]
  exact Iff.rfl

section Find

variable [DecidableEq κ]

theorem find_eq_some {t : Table κ β} {k : κ} {b : Block κ β} (found : t.find k = some b) :
    b ∈ t ∧ b.key = k :=
  ⟨List.mem_of_find?_eq_some found, by simpa using List.find?_some found⟩

theorem find_eq_none {t : Table κ β} {k : κ} : t.find k = none ↔ ∀ b ∈ t, b.key ≠ k := by
  rw [find, List.find?_eq_none]
  simp only [decide_eq_true_eq]
  exact Iff.rfl

/-- No two blocks have one key. -/
def Keyed (t : Table κ β) : Prop := ∀ b ∈ t, ∀ c ∈ t, b.key = c.key → b = c

theorem Keyed.find_of_mem {t : Table κ β} (keyed : t.Keyed) {b : Block κ β} (mem : b ∈ t) :
    t.find b.key = some b := by
  cases found : t.find b.key with
  | none => exact absurd rfl (find_eq_none.mp found b mem)
  | some c =>
    obtain ⟨memc, key⟩ := find_eq_some found
    rw [keyed c memc b mem key]

/-- Two tables with the same blocks of key `k` find the same one. -/
theorem Keyed.find_congr {t t' : Table κ β} (keyed : t'.Keyed) {k : κ}
    (same : ∀ b : Block κ β, b.key = k → (b ∈ t' ↔ b ∈ t)) : t'.find k = t.find k := by
  cases found : t.find k with
  | none =>
    rw [find_eq_none] at found ⊢
    exact fun b mem key => found b ((same b key).mp mem) key
  | some b =>
    obtain ⟨mem, rfl⟩ := find_eq_some found
    exact keyed.find_of_mem ((same b rfl).mpr mem)

end Find

/-! ## Updates in place -/

/-- An update leaves every block where it is. -/
theorem map_addr_update (blocks : List (Block κ β)) (p : Ptr) (f : β → β) :
    (blocks.map fun b => if b.addr = p then { b with body := f b.body } else b).map Block.addr =
      blocks.map Block.addr := by
  rw [List.map_map]
  apply List.map_congr_left
  intro b _
  simp only [Function.comp_apply]
  split <;> rfl

/-- Change the body of the block at address `p`. -/
def modify (t : Table κ β) (p : Ptr) (f : β → β) : Table κ β where
  blocks := t.blocks.map fun b => if b.addr = p then { b with body := f b.body } else b
  distinct := by
    rw [map_addr_update]
    exact t.distinct

theorem mem_modify {t : Table κ β} {p : Ptr} {f : β → β} {b : Block κ β} :
    b ∈ t.modify p f ↔
      (b ∈ t ∧ b.addr ≠ p) ∨ ∃ c ∈ t, c.addr = p ∧ b = { c with body := f c.body } := by
  constructor
  · intro mem
    obtain ⟨c, memc, rfl⟩ := List.mem_map.mp mem
    by_cases here : c.addr = p
    · rw [if_pos here]
      exact .inr ⟨c, memc, here, rfl⟩
    · rw [if_neg here]
      exact .inl ⟨memc, here⟩
  · rintro (⟨mem, away⟩ | ⟨c, mem, here, rfl⟩)
    · exact List.mem_map.mpr ⟨b, mem, if_neg away⟩
    · exact List.mem_map.mpr ⟨c, mem, if_pos here⟩

/-- An update does not reach a block of another key. -/
theorem mem_modify_of_key_ne {t : Table κ β} {b c : Block κ β} (mem : b ∈ t)
    (other : c.key ≠ b.key) (f : β → β) : c ∈ t.modify b.addr f ↔ c ∈ t := by
  rw [mem_modify]
  constructor
  · rintro (⟨old, -⟩ | ⟨d, memd, here, rfl⟩)
    · exact old
    · exact absurd (congrArg Block.key (eq_of_addr_eq memd mem here)) other
  · intro old
    refine .inl ⟨old, fun here => other ?_⟩
    rw [eq_of_addr_eq old mem here]

theorem get_modify (t : Table κ β) (p q : Ptr) (f : β → β) :
    (t.modify p f).get q =
      if q = p then (t.get p).map fun b => { b with body := f b.body } else t.get q := by
  have head : ∀ b : Block κ β, (decide (b.addr = q)) =
      decide ((if b.addr = p then { b with body := f b.body } else b).addr = q) := by
    intro b
    split <;> rfl
  have moved : (t.modify p f).get q =
      (t.get q).map fun b => if b.addr = p then { b with body := f b.body } else b := by
    change List.find? _ (t.blocks.map _) = Option.map _ (List.find? _ t.blocks)
    rw [List.find?_map]
    congr 2
    funext b
    exact (head b).symm
  rw [moved]
  by_cases same : q = p
  · subst same
    rw [if_pos rfl]
    cases found : t.get q with
    | none => rfl
    | some b =>
      have here := (get_eq_some.mp found).2
      simp only [Option.map_some, if_pos here]
  · rw [if_neg same]
    cases found : t.get q with
    | none => rfl
    | some b =>
      have here := (get_eq_some.mp found).2
      simp only [Option.map_some, here, if_neg same]

/-- A search by key meets the same block. -/
theorem find?_modify (t : Table κ β) (p : Ptr) (f : β → β) (q : κ → Bool) :
    (t.modify p f).blocks.find? (q ·.key) =
      (t.blocks.find? (q ·.key)).map fun b =>
        if b.addr = p then { b with body := f b.body } else b := by
  change List.find? _ (t.blocks.map _) = _
  rw [List.find?_map]
  congr 2
  funext b
  simp only [Function.comp_apply]
  split <;> rfl

theorem find_modify [DecidableEq κ] (t : Table κ β) (p : Ptr) (f : β → β) (k : κ) :
    (t.modify p f).find k =
      (t.find k).map fun b => if b.addr = p then { b with body := f b.body } else b :=
  t.find?_modify p f fun key => key = k

/-- An update of an address that holds no block changes nothing. -/
theorem modify_of_get_eq_none {t : Table κ β} {p : Ptr} (absent : t.get p = none)
    (f : β → β) : t.modify p f = t := by
  have away := get_eq_none.mp absent
  obtain ⟨blocks, distinct⟩ := t
  simp only [modify, mk.injEq]
  conv_rhs => rw [← List.map_id blocks]
  apply List.map_congr_left
  intro b mem
  exact if_neg (away b mem)

theorem modify_modify (t : Table κ β) (p : Ptr) (f g : β → β) :
    (t.modify p f).modify p g = t.modify p (g ∘ f) := by
  simp only [modify, mk.injEq, List.map_map]
  apply List.map_congr_left
  intro b _
  simp only [Function.comp_apply]
  by_cases here : b.addr = p
  · simp only [here, if_true]
  · simp only [here, if_false]

/-- Only what an update does to the body it finds matters. -/
theorem modify_congr {t : Table κ β} {b : Block κ β} (mem : b ∈ t) {f g : β → β}
    (same : f b.body = g b.body) : t.modify b.addr f = t.modify b.addr g := by
  simp only [modify, mk.injEq]
  apply List.map_congr_left
  intro c memc
  split
  · rename_i here
    cases eq_of_addr_eq (t := t) memc mem here
    rw [same]
  · rfl

theorem modify_id (t : Table κ β) (p : Ptr) : t.modify p id = t := by
  obtain ⟨blocks, distinct⟩ := t
  simp only [modify, mk.injEq]
  conv_rhs => rw [← List.map_id blocks]
  exact List.map_congr_left fun b _ => ite_self b

/-- An update changes nothing iff it gives the block the body it has. -/
theorem modify_eq_self_iff {t : Table κ β} {b : Block κ β} (mem : b ∈ t) (f : β → β) :
    t.modify b.addr f = t ↔ f b.body = b.body := by
  constructor
  · intro same
    have got := get_modify t b.addr b.addr f
    rw [same, if_pos rfl, get_of_mem mem] at got
    exact congrArg Block.body (Option.some.inj got).symm
  · intro same
    exact (modify_congr mem same).trans (modify_id t b.addr)

theorem Keyed.modify [DecidableEq κ] {t : Table κ β} (keyed : t.Keyed) (p : Ptr) (f : β → β) :
    (t.modify p f).Keyed := by
  intro b memb c memc same
  obtain ⟨b', memb', rfl⟩ := List.mem_map.mp memb
  obtain ⟨c', memc', rfl⟩ := List.mem_map.mp memc
  have key : ∀ d : Block κ β,
      (if d.addr = p then { d with body := f d.body } else d).key = d.key := by
    intro d
    split <;> rfl
  rw [key, key] at same
  rw [keyed b' memb' c' memc' same]

/-! ## Linking and unlinking -/

/-- Put a block in front of its bucket. -/
def link (rank : κ → Nat) (b : Block κ β) (blocks : List (Block κ β)) : List (Block κ β) :=
  blocks.takeWhile (rank ·.key < rank b.key) ++
    b :: blocks.dropWhile (rank ·.key < rank b.key)

theorem link_perm (rank : κ → Nat) (b : Block κ β) (blocks : List (Block κ β)) :
    (link rank b blocks).Perm (b :: blocks) := by
  rw [link]
  refine List.perm_middle.trans ?_
  rw [List.takeWhile_append_dropWhile]

theorem mem_link {rank : κ → Nat} {b c : Block κ β} {blocks : List (Block κ β)} :
    c ∈ link rank b blocks ↔ c = b ∨ c ∈ blocks := by
  rw [(link_perm rank b blocks).mem_iff, List.mem_cons]

/-- Allocate a block at `p` and link it.  Memory that runs out, or an address in use, gives no
block. -/
def create (rank : κ → Nat) (t : Table κ β) (p : Option Ptr) (k : κ) (body : β) :
    Option (Ptr × Table κ β) :=
  match p with
  | none => none
  | some p =>
    if fresh : p ∈ t.blocks.map Block.addr then none
    else some (p, {
      blocks := link rank ⟨p, k, body⟩ t.blocks
      distinct := by
        rw [((link_perm rank ⟨p, k, body⟩ t.blocks).map Block.addr).nodup_iff, List.map_cons,
          List.nodup_cons]
        exact ⟨fresh, t.distinct⟩ })

theorem create_eq_some {rank : κ → Nat} {t t' : Table κ β} {p : Option Ptr} {k : κ} {body : β}
    {a : Ptr} (made : t.create rank p k body = some (a, t')) :
    p = some a ∧ (∀ b ∈ t, b.addr ≠ a) ∧ t'.blocks = link rank ⟨a, k, body⟩ t.blocks := by
  cases p with
  | none => cases made
  | some p =>
    simp only [create] at made
    split at made
    · cases made
    · rename_i fresh
      cases made
      refine ⟨rfl, ?_, rfl⟩
      intro b mem same
      exact fresh (same ▸ List.mem_map_of_mem mem)

theorem mem_create {rank : κ → Nat} {t t' : Table κ β} {p : Option Ptr} {k : κ} {body : β}
    {a : Ptr} (made : t.create rank p k body = some (a, t')) {b : Block κ β} :
    b ∈ t' ↔ b = ⟨a, k, body⟩ ∨ b ∈ t := by
  obtain ⟨-, -, blocks⟩ := create_eq_some made
  rw [mem_def, blocks, mem_link]
  exact Iff.rfl

/-- A block that was just created, after a first update of its body. -/
theorem mem_modify_create {rank : κ → Nat} {t t' : Table κ β} {p : Option Ptr} {k : κ} {body : β}
    {a : Ptr} (made : t.create rank p k body = some (a, t')) {f : β → β} {b : Block κ β} :
    b ∈ t'.modify a f ↔ b = ⟨a, k, f body⟩ ∨ b ∈ t := by
  obtain ⟨-, fresh, -⟩ := create_eq_some made
  rw [mem_modify]
  constructor
  · rintro (⟨mem, away⟩ | ⟨c, mem, here, rfl⟩)
    · rcases (mem_create made).mp mem with rfl | old
      · exact absurd rfl away
      · exact .inr old
    · rcases (mem_create made).mp mem with rfl | old
      · exact .inl rfl
      · exact absurd here (fresh c old)
  · rintro (rfl | old)
    · exact .inr ⟨_, (mem_create made).mpr (.inl rfl), rfl, rfl⟩
    · exact .inl ⟨(mem_create made).mpr (.inr old), fresh b old⟩

theorem Keyed.modify_create [DecidableEq κ] {rank : κ → Nat} {t t' : Table κ β} {p : Option Ptr}
    {k : κ} {body : β} {a : Ptr} (keyed : t.Keyed) (fresh : ∀ b ∈ t, b.key ≠ k)
    (made : t.create rank p k body = some (a, t')) (f : β → β) : (t'.modify a f).Keyed := by
  intro b memb c memc same
  rcases (mem_modify_create made).mp memb with rfl | oldb
  · rcases (mem_modify_create made).mp memc with rfl | oldc
    · rfl
    · exact absurd same.symm (fresh c oldc)
  · rcases (mem_modify_create made).mp memc with rfl | oldc
    · exact absurd same (fresh b oldb)
    · exact keyed b oldb c oldc same

/-- Take the block at address `p` out of its chain. -/
def unlink (t : Table κ β) (p : Ptr) : Table κ β where
  blocks := t.blocks.eraseP (·.addr = p)
  distinct := t.distinct.sublist (List.eraseP_sublist.map Block.addr)

theorem mem_unlink {t : Table κ β} {p : Ptr} {b : Block κ β} :
    b ∈ t.unlink p ↔ b ∈ t ∧ b.addr ≠ p := by
  constructor
  · intro mem
    have was : b ∈ t := List.mem_of_mem_eraseP mem
    refine ⟨was, ?_⟩
    exact Slots.key_ne_of_mem_eraseP Block.addr p t.distinct mem
  · rintro ⟨was, away⟩
    exact (List.mem_eraseP_of_neg (by simpa using away)).mpr was

/-- Unlinking a block leaves those before and after it. -/
theorem unlink_split {t : Table κ β} {b : Block κ β} (mem : b ∈ t) :
    ∃ front back, t.blocks = front ++ b :: back ∧ (t.unlink b.addr).blocks = front ++ back := by
  obtain ⟨c, front, back, -, here, blocks, erased⟩ :=
    List.exists_of_eraseP (p := fun c : Block κ β => decide (c.addr = b.addr)) mem
      (decide_eq_true rfl)
  have memc : c ∈ t := by
    rw [mem_def, blocks]
    exact List.mem_append_right front List.mem_cons_self
  rw [eq_of_addr_eq memc mem (of_decide_eq_true here)] at blocks
  exact ⟨front, back, blocks, erased⟩

theorem mem_unlink_of_key_ne {t : Table κ β} {b c : Block κ β} (mem : b ∈ t)
    (other : c.key ≠ b.key) : c ∈ t.unlink b.addr ↔ c ∈ t := by
  rw [mem_unlink]
  refine ⟨And.left, fun old => ⟨old, fun here => other ?_⟩⟩
  rw [eq_of_addr_eq old mem here]

/-- What was stored in a block does not outlive it. -/
theorem unlink_modify (t : Table κ β) (p : Ptr) (f : β → β) :
    (t.modify p f).unlink p = t.unlink p := by
  obtain ⟨blocks, distinct⟩ := t
  simp only [unlink, modify, mk.injEq]
  induction blocks with
  | nil => rfl
  | cons b rest ih =>
    rw [List.map_cons, List.nodup_cons] at distinct
    simp only [List.map_cons]
    by_cases here : b.addr = p
    · have away : ∀ c ∈ rest, c.addr ≠ p := fun c mem same =>
        distinct.1 (List.mem_map.mpr ⟨c, mem, same.trans here.symm⟩)
      rw [if_pos here, List.eraseP_cons_of_pos (by simpa using here),
        List.eraseP_cons_of_pos (by simpa using here)]
      conv_rhs => rw [← List.map_id rest]
      exact List.map_congr_left fun c mem => if_neg (away c mem)
    · rw [if_neg here, List.eraseP_cons_of_neg (by simpa using here),
        List.eraseP_cons_of_neg (by simpa using here), ih distinct.2]

theorem Keyed.unlink [DecidableEq κ] {t : Table κ β} (keyed : t.Keyed) (p : Ptr) :
    (t.unlink p).Keyed := fun b memb c memc =>
  keyed b (mem_unlink.mp memb).1 c (mem_unlink.mp memc).1

/-- After a block is unlinked its key, and no other, is gone. -/
theorem Keyed.find_unlink_eq_none [DecidableEq κ] {t : Table κ β} (keyed : t.Keyed)
    {b c : Block κ β} (memb : b ∈ t) (memc : c ∈ t) :
    (t.unlink b.addr).find c.key = none ↔ c.key = b.key := by
  rw [find_eq_none]
  constructor
  · intro gone
    by_contra other
    exact gone c ((mem_unlink_of_key_ne memb other).mpr memc) rfl
  · intro same d memd key
    obtain ⟨old, away⟩ := mem_unlink.mp memd
    exact away (congrArg Block.addr (keyed d old b memb (key.trans same)))

/-- An update in place keeps the keys. -/
theorem find_modify_eq_none [DecidableEq κ] {t : Table κ β} {p : Ptr} {f : β → β} {k : κ} :
    (t.modify p f).find k = none ↔ t.find k = none := by
  rw [find_modify, Option.map_eq_none_iff]

/-- Creating a block and updating it adds one block to the table. -/
theorem modify_create_perm {rank : κ → Nat} {t t' : Table κ β} {p : Option Ptr} {k : κ} {body : β}
    {a : Ptr} (made : t.create rank p k body = some (a, t')) (f : β → β) :
    (t'.modify a f).blocks.Perm (⟨a, k, f body⟩ :: t.blocks) := by
  obtain ⟨-, fresh, blocks⟩ := create_eq_some made
  have old : t.blocks.map (fun b => if b.addr = a then { b with body := f b.body } else b) =
      t.blocks := by
    conv_rhs => rw [← List.map_id t.blocks]
    exact List.map_congr_left fun b mem => if_neg (fresh b mem)
  have linked := (link_perm rank ⟨a, k, body⟩ t.blocks).map fun b =>
    if b.addr = a then { b with body := f b.body } else b
  rw [List.map_cons, if_pos rfl, old, ← blocks] at linked
  exact linked

/-- A block that was just created is the one that is found. -/
theorem find_modify_create [DecidableEq κ] {rank : κ → Nat}
    {t t' : Table κ β} {p : Option Ptr} {k : κ} {body : β} {a : Ptr} (absent : t.find k = none)
    (made : t.create rank p k body = some (a, t')) (f : β → β) :
    (t'.modify a f).find k = some ⟨a, k, f body⟩ := by
  have new : (⟨a, k, f body⟩ : Block κ β) ∈ t'.modify a f := (mem_modify_create made).mpr (.inl rfl)
  cases found : (t'.modify a f).find k with
  | none => exact absurd rfl (find_eq_none.mp found _ new)
  | some b =>
    obtain ⟨mem, key⟩ := find_eq_some found
    rcases (mem_modify_create made).mp mem with rfl | old
    · rfl
    · exact absurd key (find_eq_none.mp absent b old)

/-- Unlinking a block that was just created restores the table, whatever was stored in it. -/
theorem unlink_modify_create {rank : κ → Nat} {t t' : Table κ β} {p : Option Ptr} {k : κ}
    {body : β} {a : Ptr} (made : t.create rank p k body = some (a, t')) (f : β → β) :
    (t'.modify a f).unlink a = t := by
  obtain ⟨-, fresh, blocks⟩ := create_eq_some made
  obtain ⟨old, distinct⟩ := t
  have untouched : ∀ l : List (Block κ β), (∀ b ∈ l, b.addr ≠ a) →
      l.map (fun b => if b.addr = a then { b with body := f b.body } else b) = l := by
    intro l away
    conv_rhs => rw [← List.map_id l]
    exact List.map_congr_left fun b mem => if_neg (away b mem)
  have front : ∀ b ∈ old.takeWhile (rank ·.key < rank k), b.addr ≠ a :=
    fun b mem => fresh b ((List.takeWhile_prefix _).subset mem)
  have back : ∀ b ∈ old.dropWhile (rank ·.key < rank k), b.addr ≠ a :=
    fun b mem => fresh b ((List.dropWhile_suffix _).subset mem)
  simp only [unlink, modify, mk.injEq, blocks, link, List.map_append, List.map_cons]
  rw [untouched _ front, untouched _ back, List.eraseP_append_right _ (by simpa using front)]
  simp only [if_true]
  rw [List.eraseP_cons_of_pos (by simp), List.takeWhile_append_dropWhile]

end Table
