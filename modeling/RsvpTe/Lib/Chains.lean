import Mathlib.Data.List.FinRange
import Mathlib.Data.List.TakeWhile
import RsvpTe.Lib.Table

/-!
# Chained hash tables in memory

An array of buckets, each the head of a singly linked chain of cells.  Lookups follow the links,
a new cell is put in front of its bucket, and a cell is taken out through the pointer to the
pointer that holds it.  Memory is a partial function from addresses to cells: the result `none`
of an operation is an access to an address without a cell, or a loop that does not end.

`Represents` ties such chains to the `Table` of the blocks in them, and every operation on the
chains does what the operation of the same name does to the table.
-/

/-! ## Loops -/

/-- A turn of a loop leads to the next one, or is the last. -/
inductive Turn (σ α : Type) : Type
  | again (s : σ)
  | done (a : α)

/-- The result of the last turn, from a given one on. -/
def Turn.follow {σ α : Type} (body : σ → Option (Turn σ α)) (turn : Turn σ α) : Option α :=
  match turn with
  | .done a => some a
  | .again s => do
    let next ← body s
    next |>.follow body
partial_fixpoint

/-- Turns from `s` until the last one. -/
def loop {σ α : Type} (body : σ → Option (Turn σ α)) (s : σ) : Option α := do
  let turn ← body s
  turn.follow body

section Loops

variable {σ α : Type} {body : σ → Option (Turn σ α)} {s s' : σ}

theorem loop_again (turn : body s = some (.again s')) : loop body s = loop body s' := by
  rw [loop, turn, Option.bind_eq_bind, Option.bind_some, Turn.follow]
  rfl

theorem loop_done {a : α} (turn : body s = some (.done a)) : loop body s = some a := by
  rw [loop, turn, Option.bind_eq_bind, Option.bind_some, Turn.follow]

/-- A loop ends if every turn succeeds and leaves less to do. -/
theorem loop_of_decreasing {inv : Nat → σ → Prop} {post : α → Prop}
    (turn : ∀ size s, inv size s → (∃ a, body s = some (.done a) ∧ post a) ∨
      ∃ s' size', body s = some (.again s') ∧ inv size' s' ∧ size' < size)
    {size : Nat} (holds : inv size s) : ∃ a, loop body s = some a ∧ post a := by
  induction size using Nat.strong_induction_on generalizing s with
  | _ size ih =>
    rcases turn size s holds with ⟨a, last, reached⟩ | ⟨s', size', next, kept, less⟩
    · exact ⟨a, loop_done last, reached⟩
    · rw [loop_again next]
      exact ih size' less kept

end Loops

/-! ## Chained cells -/

/-- What stands at the address of a block: its key, its body and its link. -/
structure Cell (κ β : Type) : Type where
  key : κ
  body : β
  next : Option Ptr

/-- An array of `n` chains, and the memory their cells live in. -/
structure Chains (n : Nat) (κ β : Type) : Type where
  heads : Fin n → Option Ptr
  heap : Ptr → Option (Cell κ β)

namespace Chains

variable {n : Nat} {κ β : Type}

def empty : Chains n κ β := ⟨fun _ => none, fun _ => none⟩

/-! ## Operations -/

/-- The cell with key `k` on the chain from `curr`. -/
def findFrom [DecidableEq κ] (t : Chains n κ β) (k : κ) (curr : Option Ptr) :
    Option (Option Ptr) :=
  curr |> loop fun curr =>
    match curr with
    | none => some (.done none)
    | some p => do
      let c ← t.heap p
      return if c.key = k then .done (some p) else .again c.next

def find [DecidableEq κ] (bucket : κ → Fin n) (t : Chains n κ β) (k : κ) : Option (Option Ptr) :=
  t.findFrom k (t.heads (bucket k))

/-- Allocate a cell at `p` and put it in front of its chain.  Memory that runs out, or an address
in use, gives no cell. -/
def create (bucket : κ → Fin n) (t : Chains n κ β) (p : Option Ptr) (k : κ) (body : β) :
    Option (Ptr × Chains n κ β) :=
  match p with
  | none => none
  | some p =>
    if (t.heap p).isSome then none
    else some (p, {
      heads := Function.update t.heads (bucket k) (some p)
      heap := Function.update t.heap p (some ⟨k, body, t.heads (bucket k)⟩) })

/-- What a pointer to a link points to: the head of a chain, or the link of a cell. -/
inductive Link (n : Nat) : Type
  | head (i : Fin n)
  | next (p : Ptr)

/-- `*prev = link`. -/
def store (t : Chains n κ β) (prev : Link n) (link : Option Ptr) : Option (Chains n κ β) :=
  match prev with
  | .head i => some { t with heads := Function.update t.heads i link }
  | .next p => do
    let c ← t.heap p
    return { t with heap := Function.update t.heap p (some { c with next := link }) }

/-- Take the cell at `p` out of the chain from `curr`, which `prev` points to.  A chain without it
gives no new chains. -/
def unlinkFrom (t : Chains n κ β) (p : Ptr) (prev : Link n) (curr : Option Ptr) :
    Option (Option (Chains n κ β)) :=
  (prev, curr) |> loop fun (prev, curr) =>
    match curr with
    | none => some (.done none)
    | some q => do
      let c ← t.heap q
      if q = p then
        let t ← t.store prev c.next
        return .done (some t)
      else return .again (.next q, c.next)

def unlink (bucket : κ → Fin n) (t : Chains n κ β) (p : Ptr) : Option (Option (Chains n κ β)) := do
  let c ← t.heap p
  t.unlinkFrom p (.head (bucket c.key)) (t.heads (bucket c.key))

def free (t : Chains n κ β) (p : Ptr) : Chains n κ β :=
  { t with heap := Function.update t.heap p none }

/-- Write to the body of the cell at `p`. -/
def modify (t : Chains n κ β) (p : Ptr) (f : β → β) : Option (Chains n κ β) := do
  let c ← t.heap p
  return { t with heap := Function.update t.heap p (some { c with body := f c.body }) }

/-- Write to the bodies of all cells. -/
def rewrite (t : Chains n κ β) (f : Ptr → β → β) : Chains n κ β :=
  { t with heap := fun p => (t.heap p).map fun c => { c with body := f p c.body } }

/-- The blocks seen so far and those of the chain from `curr`. -/
def walkFrom (t : Chains n κ β) (seen : List (Block κ β)) (curr : Option Ptr) :
    Option (List (Block κ β)) :=
  (seen, curr) |> loop fun (seen, curr) =>
    match curr with
    | none => some (.done seen)
    | some p => do
      let c ← t.heap p
      return .again (seen ++ [⟨p, c.key, c.body⟩], c.next)

/-- The blocks of all chains, from the first bucket to the last. -/
def walk (t : Chains n κ β) : Option (List (Block κ β)) :=
  (List.finRange n).foldlM (fun seen i => t.walkFrom seen (t.heads i)) []

/-- `while (head) delete(head)`. -/
def drain {σ : Type} (head : σ → Option Ptr) (delete : σ → Ptr → Option σ) (s : σ) : Option σ :=
  s |> loop fun s =>
    match head s with
    | none => some (.done s)
    | some p => do
      let s ← delete s p
      return .again s

/-- A loop that deletes the head ends, if each deletion succeeds and leaves less to do. -/
theorem drain_of_decreasing {σ : Type} {head : σ → Option Ptr} {delete : σ → Ptr → Option σ}
    {inv : Nat → σ → Prop}
    (step : ∀ size s p, inv size s → head s = some p →
      ∃ s' size', delete s p = some s' ∧ inv size' s' ∧ size' < size)
    {size : Nat} {s : σ} (holds : inv size s) :
    ∃ s', drain head delete s = some s' ∧ (∃ size', inv size' s') ∧ head s' = none := by
  apply loop_of_decreasing _ holds
  intro size s holds
  cases front : head s with
  | none => exact .inl ⟨s, rfl, ⟨size, holds⟩, front⟩
  | some p =>
    obtain ⟨s', size', deleted, kept, less⟩ := step size s p holds front
    refine .inr ⟨s', size', ?_, kept, less⟩
    simp only [deleted, Option.bind_eq_bind, Option.bind_some, Option.pure_def]

/-! ## Linked cells -/

/-- The chain from `head` consists of the given blocks. -/
inductive Linked (heap : Ptr → Option (Cell κ β)) : Option Ptr → List (Block κ β) → Prop
  | nil : Linked heap none []
  | cons {b : Block κ β} {next : Option Ptr} {rest : List (Block κ β)} :
    heap b.addr = some ⟨b.key, b.body, next⟩ → Linked heap next rest →
    Linked heap (some b.addr) (b :: rest)

namespace Linked

variable {t : Chains n κ β} {heap heap' : Ptr → Option (Cell κ β)} {head : Option Ptr}
  {blocks front back : List (Block κ β)} {b c : Block κ β}

theorem eq_nil_iff (linked : Linked heap head blocks) : head = none ↔ blocks = [] := by
  cases linked with
  | nil => simp
  | cons cell rest => simp

theorem head_mem {p : Ptr} (linked : Linked heap (some p) blocks) : ∃ b ∈ blocks, b.addr = p := by
  cases linked with
  | cons cell rest => exact ⟨_, List.mem_cons_self, rfl⟩

theorem cell (linked : Linked heap head blocks) (mem : b ∈ blocks) :
    ∃ next, heap b.addr = some ⟨b.key, b.body, next⟩ := by
  induction linked with
  | nil => cases mem
  | cons here rest ih =>
    cases mem with
    | head => exact ⟨_, here⟩
    | tail _ later => exact ih later

/-- A chain is unharmed by what happens at other addresses. -/
theorem frame (linked : Linked heap head blocks)
    (same : ∀ b ∈ blocks, heap' b.addr = heap b.addr) : Linked heap' head blocks := by
  induction linked with
  | nil => exact .nil
  | cons cell rest ih =>
    apply Linked.cons
    · rw [same _ List.mem_cons_self]
      exact cell
    · exact ih fun b mem => same b (List.mem_cons_of_mem _ mem)

theorem update (linked : Linked heap head blocks) {p : Ptr} (away : ∀ b ∈ blocks, b.addr ≠ p)
    (cell : Option (Cell κ β)) : Linked (Function.update heap p cell) head blocks := by
  apply linked.frame
  intro b mem
  exact Function.update_of_ne (away b mem) _ _

theorem findFrom [DecidableEq κ] (linked : Linked t.heap head blocks) (k : κ) :
    t.findFrom k head = some ((blocks.find? (·.key = k)).map Block.addr) := by
  induction linked with
  | nil => exact loop_done rfl
  | @cons b next rest cell linked ih =>
    rw [List.find?_cons]
    by_cases here : b.key = k
    · rw [decide_eq_true here]
      apply loop_done
      simp only [cell, Option.bind_eq_bind, Option.bind_some, Option.pure_def, if_pos here,
        Option.map_some]
    · rw [decide_eq_false here, ← ih]
      apply loop_again
      simp only [cell, Option.bind_eq_bind, Option.bind_some, Option.pure_def, if_neg here]

theorem walkFrom (linked : Linked t.heap head blocks) (seen : List (Block κ β)) :
    t.walkFrom seen head = some (seen ++ blocks) := by
  induction linked generalizing seen with
  | nil =>
    rw [List.append_nil]
    exact loop_done rfl
  | @cons b next rest cell linked ih =>
    rw [List.append_cons, ← ih]
    apply loop_again
    simp only [cell, Option.bind_eq_bind, Option.bind_some, Option.pure_def]

theorem rewrite (linked : Linked t.heap head blocks) (f : Ptr → β → β) :
    Linked (t.rewrite f).heap head (blocks.map fun b => { b with body := f b.addr b.body }) := by
  induction linked with
  | nil => exact .nil
  | @cons b next rest cell linked ih =>
    refine .cons (b := { b with body := f b.addr b.body }) ?_ ih
    simp only [Chains.rewrite, cell, Option.map_some]

/-- Past a cell a chain goes on to the cells behind it. -/
theorem behind (linked : Linked heap head (front ++ b :: back)) :
    ∃ next, heap b.addr = some ⟨b.key, b.body, next⟩ ∧ Linked heap next back := by
  induction front generalizing head with
  | nil =>
    cases linked with
    | cons cell rest => exact ⟨_, cell, rest⟩
  | cons c front ih =>
    cases linked with
    | cons cell rest => exact ih rest

/-- The link of the last of the cells walked past, or the one the walk came from. -/
def lastLink (prev : Link n) (front : List (Block κ β)) : Link n :=
  front.foldl (fun _ c => .next c.addr) prev

/-- The loop stops at the cell and redirects the link it came through. -/
theorem unlinkFrom {next : Option Ptr} (linked : Linked t.heap head (front ++ b :: back))
    (cell : t.heap b.addr = some ⟨b.key, b.body, next⟩) (away : ∀ c ∈ front, c.addr ≠ b.addr)
    (prev : Link n) :
    t.unlinkFrom b.addr prev head = (t.store (lastLink prev front) next).map some := by
  induction front generalizing head prev with
  | nil =>
    cases linked with
    | cons here rest =>
      rw [Chains.unlinkFrom, lastLink, List.foldl_nil]
      cases stored : t.store prev next with
      | none =>
        rw [loop]
        simp only [cell, stored, Option.bind_eq_bind, Option.bind_some, Option.bind_none, if_true,
          Option.map_none]
      | some t' =>
        apply loop_done
        simp only [cell, stored, Option.bind_eq_bind, Option.bind_some, Option.pure_def, if_true]
  | cons c front ih =>
    cases linked with
    | cons here rest =>
      rw [lastLink, List.foldl_cons, ← lastLink,
        ← ih rest fun d mem => away d (List.mem_cons_of_mem c mem)]
      apply loop_again
      simp only [here, Option.bind_eq_bind, Option.bind_some, Option.pure_def,
        if_neg (away c List.mem_cons_self)]

/-- A redirected link skips the cell behind it. -/
theorem skip {next : Option Ptr} (linked : Linked heap head (front ++ c :: b :: back))
    (rest : Linked heap next back)
    (apart : ((front ++ c :: back).map Block.addr).Nodup) :
    Linked (Function.update heap c.addr (some ⟨c.key, c.body, next⟩)) head
      (front ++ c :: back) := by
  induction front generalizing head with
  | nil =>
    rw [List.nil_append, List.map_cons, List.nodup_cons] at apart
    cases linked with
    | cons cell behind =>
      apply Linked.cons
      · exact Function.update_self ..
      · apply rest.update
        intro d mem same
        exact apart.1 (List.mem_map.mpr ⟨d, mem, same⟩)
  | cons d front ih =>
    rw [List.cons_append, List.map_cons, List.nodup_cons] at apart
    cases linked with
    | cons cell behind =>
      apply Linked.cons
      · rw [Function.update_of_ne]
        · exact cell
        · intro same
          apply apart.1
          rw [same]
          exact List.mem_map_of_mem (List.mem_append_right front List.mem_cons_self)
      · exact ih behind apart.2

end Linked

/-! ## Chains and tables -/

/-- The cells are the blocks of the table, and each chain is a bucket of it. -/
structure Represents (bucket : κ → Fin n) (t : Chains n κ β) (T : Table κ β) : Prop where
  chain : ∀ i, Linked t.heap (t.heads i) (T.blocks.filter fun b => bucket b.key = i)
  absent : ∀ p, (∀ b ∈ T, b.addr ≠ p) → t.heap p = none
  sorted : T.blocks.Pairwise fun b c => bucket b.key ≤ bucket c.key

/-- The place of a key among the buckets. -/
def rank (bucket : κ → Fin n) (k : κ) : Nat := bucket k

section Buckets

variable {bucket : κ → Fin n} {blocks : List (Block κ β)}

theorem le_of_mem_dropWhile (sorted : blocks.Pairwise fun b c => bucket b.key ≤ bucket c.key)
    {i : Fin n} {b : Block κ β}
    (mem : b ∈ blocks.dropWhile fun c => rank bucket c.key < i) : i ≤ bucket b.key := by
  induction blocks with
  | nil => cases mem
  | cons c rest ih =>
    rw [List.pairwise_cons] at sorted
    rw [List.dropWhile_cons] at mem
    by_cases before : rank bucket c.key < i
    · rw [if_pos (decide_eq_true before)] at mem
      exact ih sorted.2 mem
    · rw [if_neg (by simpa using before)] at mem
      have past : i ≤ bucket c.key := Nat.le_of_not_lt before
      rcases List.mem_cons.mp mem with rfl | later
      · exact past
      · exact past.trans (sorted.1 b later)

theorem lt_of_mem_takeWhile {i : Fin n} {b : Block κ β}
    (mem : b ∈ blocks.takeWhile fun c => rank bucket c.key < i) : bucket b.key < i := by
  have before := List.mem_takeWhile_imp mem
  exact of_decide_eq_true before

theorem link_sorted (sorted : blocks.Pairwise fun b c => bucket b.key ≤ bucket c.key)
    (b : Block κ β) :
    (Table.link (rank bucket) b blocks).Pairwise fun b c => bucket b.key ≤ bucket c.key := by
  rw [Table.link, List.pairwise_append, List.pairwise_cons]
  refine ⟨sorted.sublist (List.takeWhile_sublist _), ⟨?_, ?_⟩, ?_⟩
  · intro c mem
    exact le_of_mem_dropWhile sorted mem
  · exact sorted.sublist (List.dropWhile_sublist _)
  · intro c front d back
    have before : bucket c.key ≤ bucket b.key := (lt_of_mem_takeWhile front).le
    rcases List.mem_cons.mp back with rfl | back
    · exact before
    · exact before.trans (le_of_mem_dropWhile sorted back)

/-- A linked block is the first of its bucket, and no other bucket changes. -/
theorem filter_link (b : Block κ β) (i : Fin n) :
    (Table.link (rank bucket) b blocks).filter (fun c => bucket c.key = i) =
      if bucket b.key = i then b :: blocks.filter fun c => bucket c.key = i
      else blocks.filter fun c => bucket c.key = i := by
  have parts := congrArg (List.filter fun c => decide (bucket c.key = i))
    (List.takeWhile_append_dropWhile (p := fun c => decide (rank bucket c.key < rank bucket b.key))
      (l := blocks))
  rw [List.filter_append] at parts
  rw [Table.link, List.filter_append, List.filter_cons]
  by_cases own : bucket b.key = i
  · have none : (blocks.takeWhile fun c => rank bucket c.key < rank bucket b.key).filter
        (fun c => bucket c.key = i) = [] := by
      rw [List.filter_eq_nil_iff]
      intro c mem
      have before : bucket c.key < bucket b.key := lt_of_mem_takeWhile mem
      rw [own] at before
      simpa using before.ne
    rw [none, List.nil_append] at parts ⊢
    rw [if_pos (decide_eq_true own), if_pos own, parts]
  · rw [if_neg (by simpa using own), if_neg own, parts]

theorem filter_of_le {i : Fin n} (sorted : blocks.Pairwise fun b c => bucket b.key ≤ bucket c.key)
    (least : ∀ b ∈ blocks, i ≤ bucket b.key) :
    blocks.filter (fun b => bucket b.key = i) ++ blocks.filter (fun b => bucket b.key ≠ i) =
      blocks := by
  induction blocks with
  | nil => rfl
  | cons b rest ih =>
    rw [List.pairwise_cons] at sorted
    by_cases own : bucket b.key = i
    · have split := ih sorted.2 fun c mem => least c (List.mem_cons_of_mem b mem)
      simp only [List.filter_cons, own, decide_true, if_true, ne_eq, not_true_eq_false,
        decide_false, Bool.false_eq_true, if_false, List.cons_append]
      exact congrArg (b :: ·) split
    · have after : ∀ c ∈ b :: rest, bucket c.key ≠ i := by
        intro c mem same
        rcases List.mem_cons.mp mem with rfl | later
        · exact own same
        · have below := sorted.1 c later
          rw [same] at below
          exact own (le_antisymm below (least b List.mem_cons_self))
      rw [List.filter_eq_nil_iff.mpr (by simpa using after),
        List.filter_eq_self.mpr (by simpa using after), List.nil_append]

/-- Sorted blocks are their buckets, one after the other. -/
theorem flatMap_filter {is : List (Fin n)} (ordered : is.Pairwise (· < ·))
    (sorted : blocks.Pairwise fun b c => bucket b.key ≤ bucket c.key)
    (covered : ∀ b ∈ blocks, bucket b.key ∈ is) :
    is.flatMap (fun i => blocks.filter fun b => bucket b.key = i) = blocks := by
  induction is generalizing blocks with
  | nil =>
    rw [List.flatMap_nil]
    exact (List.eq_nil_iff_forall_not_mem.mpr fun b mem => List.not_mem_nil (covered b mem)).symm
  | cons i is ih =>
    rw [List.pairwise_cons] at ordered
    have least : ∀ b ∈ blocks, i ≤ bucket b.key := by
      intro b mem
      rcases List.mem_cons.mp (covered b mem) with own | later
      · exact own.ge
      · exact (ordered.1 _ later).le
    have covered' : ∀ b ∈ blocks.filter (fun b => bucket b.key ≠ i), bucket b.key ∈ is := by
      intro b mem
      obtain ⟨mem, other⟩ := List.mem_filter.mp mem
      exact (List.mem_cons.mp (covered b mem)).resolve_left (of_decide_eq_true other)
    have others := ih ordered.2 (sorted.sublist List.filter_sublist) covered'
    have same : is.flatMap (fun j => blocks.filter fun b => bucket b.key = j) =
        is.flatMap fun j => (blocks.filter fun b => bucket b.key ≠ i).filter
          fun b => bucket b.key = j := by
      apply List.flatMap_congr
      intro j mem
      rw [List.filter_filter]
      apply List.filter_congr
      intro b _
      by_cases here : bucket b.key = j
      · have other : j ≠ i := (ordered.1 j mem).ne'
        simp [here, other]
      · simp [here]
    rw [List.flatMap_cons, same, others]
    exact filter_of_le sorted least

/-- Unlinking a block leaves the other buckets alone. -/
theorem filter_unlink {T : Table κ β} {b : Block κ β} (mem : b ∈ T) {i : Fin n}
    (other : bucket b.key ≠ i) :
    (T.unlink b.addr).blocks.filter (fun c => bucket c.key = i) =
      T.blocks.filter fun c => bucket c.key = i := by
  obtain ⟨front, back, whole, rest⟩ := Table.unlink_split mem
  rw [whole, rest, List.filter_append, List.filter_append, List.filter_cons_of_neg]
  simpa using other

/-- Unlinking a block leaves those before and after it in its bucket. -/
theorem bucket_unlink {T : Table κ β} {b : Block κ β} (mem : b ∈ T) :
    ∃ front back,
      (T.blocks.filter fun c => bucket c.key = bucket b.key) = front ++ b :: back ∧
        ((T.unlink b.addr).blocks.filter fun c => bucket c.key = bucket b.key) = front ++ back := by
  obtain ⟨front, back, whole, rest⟩ := Table.unlink_split mem
  refine ⟨front.filter fun c => bucket c.key = bucket b.key,
    back.filter fun c => bucket c.key = bucket b.key, ?_, ?_⟩
  · rw [whole, List.filter_append, List.filter_cons_of_pos (by simp)]
  · rw [rest, List.filter_append]

end Buckets

namespace Represents

variable {bucket : κ → Fin n} {t : Chains n κ β} {T : Table κ β} {b : Block κ β}

theorem empty (bucket : κ → Fin n) : Represents bucket (Chains.empty : Chains n κ β) .empty where
  chain := fun _ => .nil
  absent := fun _ _ => rfl
  sorted := .nil

theorem mem_chain (mem : b ∈ T) {i : Fin n} (own : bucket b.key = i) :
    b ∈ T.blocks.filter fun c => bucket c.key = i :=
  List.mem_filter.mpr ⟨mem, decide_eq_true own⟩

theorem mem_of_chain {i : Fin n} (mem : b ∈ T.blocks.filter fun c => bucket c.key = i) :
    b ∈ T ∧ bucket b.key = i :=
  ⟨(List.mem_filter.mp mem).1, of_decide_eq_true (List.mem_filter.mp mem).2⟩

/-- Every block has its cell, and there are no others. -/
theorem cell_iff (rep : Represents bucket t T) {p : Ptr} {k : κ} {body : β} :
    (∃ next, t.heap p = some ⟨k, body, next⟩) ↔ ⟨p, k, body⟩ ∈ T := by
  constructor
  · intro there
    obtain ⟨next, cell⟩ := there
    cases found : T.get p with
    | none =>
      rw [rep.absent p (Table.get_eq_none.mp found)] at cell
      cases cell
    | some b =>
      obtain ⟨mem, rfl⟩ := Table.get_eq_some.mp found
      obtain ⟨link, here⟩ := (rep.chain _).cell (mem_chain mem rfl)
      rw [here] at cell
      cases cell
      exact mem
  · intro mem
    exact (rep.chain _).cell (mem_chain mem rfl)

theorem heap_eq_none_iff (rep : Represents bucket t T) {p : Ptr} :
    t.heap p = none ↔ ∀ b ∈ T, b.addr ≠ p := by
  constructor
  · intro none b mem here
    obtain ⟨link, cell⟩ := rep.cell_iff.mpr mem
    rw [here, none] at cell
    cases cell
  · exact rep.absent p

/-- The head of a bucket is a block of it. -/
theorem head_mem (rep : Represents bucket t T) {i : Fin n} {p : Ptr} (head : t.heads i = some p) :
    ∃ b ∈ T, b.addr = p ∧ bucket b.key = i := by
  have linked := rep.chain i
  rw [head] at linked
  obtain ⟨b, mem, here⟩ := linked.head_mem
  obtain ⟨mem, own⟩ := mem_of_chain mem
  exact ⟨b, mem, here, own⟩

theorem head_eq_none_iff (rep : Represents bucket t T) {i : Fin n} :
    t.heads i = none ↔ ∀ b ∈ T, bucket b.key ≠ i := by
  rw [(rep.chain i).eq_nil_iff, List.filter_eq_nil_iff]
  simp only [decide_eq_true_eq]
  exact Iff.rfl

theorem find [DecidableEq κ] (rep : Represents bucket t T) (k : κ) :
    t.find bucket k = some ((T.find k).map Block.addr) := by
  rw [Chains.find, (rep.chain (bucket k)).findFrom, List.find?_filter, Table.find]
  congr 3
  funext b
  by_cases here : b.key = k
  · simp [here]
  · simp [here]

theorem create (rep : Represents bucket t T) {mem : Option Ptr} {p : Ptr} {k : κ} {body : β}
    {t' : Chains n κ β} (made : t.create bucket mem k body = some (p, t')) :
    ∃ T', T.create (rank bucket) mem k body = some (p, T') ∧ Represents bucket t' T' := by
  cases mem with
  | none => cases made
  | some q =>
    simp only [Chains.create] at made
    split at made
    · cases made
    · rename_i unused
      cases made
      have fresh := rep.heap_eq_none_iff.mp (Option.not_isSome_iff_eq_none.mp unused)
      have unlisted : p ∉ T.blocks.map Block.addr := by
        intro listed
        obtain ⟨b, mem, here⟩ := List.mem_map.mp listed
        exact fresh b mem here
      refine ⟨_, dif_neg unlisted, ?_, ?_, ?_⟩
      · intro i
        have old := (rep.chain i).update (p := p) (fun b mem => fresh b (mem_of_chain mem).1)
          (some ⟨k, body, t.heads (bucket k)⟩)
        dsimp only
        rw [filter_link]
        by_cases own : bucket k = i
        · subst own
          rw [if_pos rfl, Function.update_self]
          exact .cons (b := ⟨p, k, body⟩) (Function.update_self ..) old
        · rw [if_neg own, Function.update_of_ne (Ne.symm own)]
          exact old
      · intro q away
        have other : q ≠ p := fun same => away ⟨p, k, body⟩ (Table.mem_link.mpr (.inl rfl)) same.symm
        dsimp only
        rw [Function.update_of_ne other]
        exact rep.absent q fun b mem => away b (Table.mem_link.mpr (.inr mem))
      · exact link_sorted rep.sorted _

/-- An address not in use is enough to create a block. -/
theorem create_isSome (bucket : κ → Fin n) (t : Chains n κ β) {p : Ptr} (unused : t.heap p = none) (k : κ) (body : β) :
    ∃ t', t.create bucket (some p) k body = some (p, t') := by
  refine ⟨_, if_neg ?_⟩
  rw [unused]
  exact Bool.false_ne_true

theorem rewrite (rep : Represents bucket t T) (f : Ptr → β → β) :
    ∃ T', T'.blocks = (T.blocks.map fun b => { b with body := f b.addr b.body }) ∧
      Represents bucket (t.rewrite f) T' := by
  have addrs : (T.blocks.map fun b => { b with body := f b.addr b.body }).map Block.addr =
      T.blocks.map Block.addr := by
    rw [List.map_map]
    rfl
  refine ⟨⟨T.blocks.map fun b => { b with body := f b.addr b.body }, ?_⟩, rfl, ?_, ?_, ?_⟩
  · rw [addrs]
    exact T.distinct
  · intro i
    rw [List.filter_map]
    exact (rep.chain i).rewrite f
  · intro p away
    have none : t.heap p = none := by
      apply rep.absent p
      intro b mem
      exact away { b with body := f b.addr b.body } (Table.mem_def.mpr (List.mem_map.mpr ⟨b, mem, rfl⟩))
    simp only [Chains.rewrite, none, Option.map_none]
  · rw [List.pairwise_map]
    exact rep.sorted

/-- A write to one body is a write to all that leaves the others as they are. -/
theorem modify_eq_rewrite {p : Ptr} {c : Cell κ β} (cell : t.heap p = some c) (f : β → β) :
    t.modify p f = some (t.rewrite fun q body => if q = p then f body else body) := by
  simp only [Chains.modify, Chains.rewrite, cell, Option.bind_eq_bind, Option.bind_some,
    Option.pure_def]
  congr 2
  funext q
  by_cases here : q = p
  · subst here
    simp [cell]
  · rw [Function.update_of_ne here]
    simp only [if_neg here]
    exact Option.map_id'.symm

theorem modify (rep : Represents bucket t T) (mem : b ∈ T) (f : β → β) :
    ∃ t', t.modify b.addr f = some t' ∧ Represents bucket t' (T.modify b.addr f) := by
  obtain ⟨next, cell⟩ := rep.cell_iff.mpr mem
  obtain ⟨T', blocks, rep'⟩ := rep.rewrite fun q body => if q = b.addr then f body else body
  have same : T' = T.modify b.addr f := by
    obtain ⟨written, distinct⟩ := T'
    simp only [Table.modify, Table.mk.injEq]
    rw [show written = _ from blocks]
    apply List.map_congr_left
    intro c _
    by_cases here : c.addr = b.addr
    · simp only [if_pos here]
    · simp only [if_neg here]
  exact ⟨_, modify_eq_rewrite cell f, same ▸ rep'⟩

/-- A cell behind `front` leaves its chain through the link of the last cell before it; nothing
else in memory, and no other chain, changes. -/
theorem store_lastLink {i : Fin n} {front back : List (Block κ β)} {next : Option Ptr}
    (chain : Linked t.heap (t.heads i) (front ++ b :: back)) (rest : Linked t.heap next back)
    (apart : ((front ++ back).map Block.addr).Nodup) :
    ∃ t', t.store (Linked.lastLink (.head i) front) next = some t' ∧
      Linked t'.heap (t'.heads i) (front ++ back) ∧ (∀ j, j ≠ i → t'.heads j = t.heads j) ∧
      ∀ p, (∀ c ∈ front, c.addr ≠ p) → t'.heap p = t.heap p := by
  rcases List.eq_nil_or_concat front with rfl | ⟨front, c, rfl⟩
  · refine ⟨_, rfl, ?_, ?_, ?_⟩
    · dsimp only
      rw [Function.update_self]
      exact rest
    · intro j other
      exact Function.update_of_ne other _ _
    · intro p _
      rfl
  · rw [List.concat_eq_append, List.append_assoc] at chain apart
    obtain ⟨link, cell⟩ := chain.cell (b := c) (by simp)
    rw [List.concat_eq_append, Linked.lastLink, List.foldl_append]
    simp only [List.foldl_cons, List.foldl_nil, store, cell, Option.bind_eq_bind, Option.bind_some,
      Option.pure_def]
    refine ⟨_, rfl, ?_, ?_, ?_⟩
    · rw [List.append_assoc]
      exact chain.skip rest apart
    · intro j _
      rfl
    · intro p away
      exact Function.update_of_ne (away c (by simp)).symm _ _

/-- Unlinking and freeing a block takes it, and nothing else, out of the table. -/
theorem unlink (rep : Represents bucket t T) (mem : b ∈ T) :
    ∃ t', t.unlink bucket b.addr = some (some t') ∧ (∃ c, t'.heap b.addr = some c ∧ c.body = b.body) ∧
      Represents bucket (t'.free b.addr) (T.unlink b.addr) := by
  obtain ⟨front, back, whole, rest⟩ := @bucket_unlink n κ β bucket T b mem
  have gone : ∀ c ∈ T.unlink b.addr, c.addr ≠ b.addr := fun c mem => (Table.mem_unlink.mp mem).2
  have before : ∀ c ∈ front, c ∈ T.unlink b.addr ∧ bucket c.key = bucket b.key := by
    intro c memc
    apply mem_of_chain
    rw [rest]
    exact List.mem_append_left back memc
  obtain ⟨link, cell⟩ := rep.cell_iff.mpr mem
  have chain := rep.chain (bucket b.key)
  rw [whole] at chain
  obtain ⟨next, here, behind⟩ := chain.behind
  rw [cell] at here
  cases here
  have apart : ((front ++ back).map Block.addr).Nodup := by
    rw [← rest]
    exact (T.unlink b.addr).distinct.sublist (List.filter_sublist.map Block.addr)
  obtain ⟨t', stored, linked, heads, frame⟩ := store_lastLink chain behind apart
  have unlinked := chain.unlinkFrom cell (fun c memc => gone c (before c memc).1)
    (.head (bucket b.key))
  rw [stored] at unlinked
  refine ⟨t', ?_, ⟨_, (frame b.addr ?_).trans cell, rfl⟩, ?_, ?_, ?_⟩
  · simp only [Chains.unlink, cell, Option.bind_eq_bind, Option.bind_some]
    exact unlinked
  · intro c memc
    exact gone c (before c memc).1
  · intro i
    apply Linked.update
    · by_cases own : bucket b.key = i
      · subst own
        rw [rest]
        exact linked
      · rw [filter_unlink mem own]
        change Linked t'.heap (t'.heads i) _
        rw [heads i (Ne.symm own)]
        apply (rep.chain i).frame
        intro c memc
        obtain ⟨memc, bucketed⟩ := mem_of_chain memc
        apply frame
        intro d memd same
        obtain ⟨memd, sibling⟩ := before d memd
        rw [Table.eq_of_addr_eq (Table.mem_unlink.mp memd).1 memc same, bucketed] at sibling
        exact own sibling.symm
    · intro c memc
      exact gone c (mem_of_chain memc).1
  · intro p away
    by_cases here : p = b.addr
    · rw [here]
      exact Function.update_self ..
    · have unused : t'.heap p = none := by
        rw [frame p fun c memc => away c (before c memc).1]
        apply rep.absent p
        intro c memc same
        exact away c (Table.mem_unlink.mpr ⟨memc, fun own => here (same.symm.trans own)⟩) same
      exact (Function.update_of_ne here _ _).trans unused
  · exact rep.sorted.sublist List.eraseP_sublist

theorem walkBuckets (rep : Represents bucket t T) (is : List (Fin n)) (seen : List (Block κ β)) :
    is.foldlM (fun seen i => t.walkFrom seen (t.heads i)) seen =
      some (seen ++ is.flatMap fun i => T.blocks.filter fun b => bucket b.key = i) := by
  induction is generalizing seen with
  | nil =>
    rw [List.flatMap_nil, List.append_nil]
    rfl
  | cons i is ih =>
    rw [List.foldlM_cons, (rep.chain i).walkFrom, Option.bind_eq_bind, Option.bind_some, ih,
      List.flatMap_cons, List.append_assoc]

/-- Chains without blocks are empty, and so is their memory. -/
theorem eq_empty (rep : Represents bucket t T) (none : ∀ b, b ∉ T) : t = Chains.empty := by
  obtain ⟨heads, heap⟩ := t
  simp only [Chains.empty, Chains.mk.injEq]
  constructor
  · funext i
    exact rep.head_eq_none_iff.mpr fun b mem => absurd mem (none b)
  · funext p
    exact rep.absent p fun b mem => absurd mem (none b)

/-- The bucket walk meets the blocks of the table in its order. -/
theorem walk (rep : Represents bucket t T) : t.walk = some T.blocks := by
  rw [Chains.walk, rep.walkBuckets, List.nil_append,
    flatMap_filter (List.pairwise_lt_finRange n) rep.sorted]
  intro b _
  exact List.mem_finRange _

end Represents

end Chains

/-! ## Tables and maps -/

/-- The table maps the key of each of its blocks to the address of the block. -/
def Table.Maps {κ β : Type} (T : Table κ β) (map : κ → Option Ptr) : Prop :=
  ∀ k p, map k = some p ↔ ∃ b ∈ T, b.key = k ∧ b.addr = p

namespace Table.Maps

variable {κ β : Type} {T T' : Table κ β} {map : κ → Option Ptr} {b : Block κ β} {k : κ} {p : Ptr}

theorem empty : (Table.empty : Table κ β).Maps fun _ => none := by
  intro k p
  constructor
  · intro some
    cases some
  · intro there
    obtain ⟨b, mem, _⟩ := there
    exact absurd mem (Table.not_mem_empty b)

theorem of_mem (maps : T.Maps map) (mem : b ∈ T) : map b.key = some b.addr :=
  (maps b.key b.addr).mpr ⟨b, mem, rfl, rfl⟩

theorem eq_none_iff (maps : T.Maps map) : map k = none ↔ ∀ b ∈ T, b.key ≠ k := by
  constructor
  · intro none b mem key
    rw [← key, maps.of_mem mem] at none
    cases none
  · intro absent
    cases here : map k with
    | none => rfl
    | some p =>
      obtain ⟨b, mem, key, _⟩ := (maps k p).mp here
      exact absurd key (absent b mem)

/-- One key maps to one block. -/
theorem keyed (maps : T.Maps map) : T.Keyed := by
  intro b memb c memc same
  have one := maps.of_mem memb
  rw [same, maps.of_mem memc] at one
  exact Table.eq_of_addr_eq memb memc (Option.some.inj one).symm

theorem find [DecidableEq κ] (maps : T.Maps map) (k : κ) : (T.find k).map Block.addr = map k := by
  cases found : T.find k with
  | none => exact (maps.eq_none_iff.mpr (Table.find_eq_none.mp found)).symm
  | some b =>
    obtain ⟨mem, rfl⟩ := Table.find_eq_some found
    exact (maps.of_mem mem).symm

theorem create [DecidableEq κ] (maps : T.Maps map) (absent : map k = none) {rank : κ → Nat}
    {mem : Option Ptr} {body : β} (made : T.create rank mem k body = some (p, T')) :
    T'.Maps (Function.update map k (some p)) := by
  intro l q
  by_cases here : l = k
  · subst here
    rw [Function.update_self]
    constructor
    · intro same
      exact ⟨⟨p, l, body⟩, (Table.mem_create made).mpr (.inl rfl), rfl, Option.some.inj same⟩
    · intro there
      obtain ⟨b, memb, key, addr⟩ := there
      rcases (Table.mem_create made).mp memb with rfl | old
      · exact congrArg some addr
      · exact absurd key (maps.eq_none_iff.mp absent b old)
  · rw [Function.update_of_ne here, maps l q]
    constructor
    · intro there
      obtain ⟨b, memb, same⟩ := there
      exact ⟨b, (Table.mem_create made).mpr (.inr memb), same⟩
    · intro there
      obtain ⟨b, memb, key, addr⟩ := there
      rcases (Table.mem_create made).mp memb with rfl | old
      · exact absurd key.symm here
      · exact ⟨b, old, key, addr⟩

theorem unlink [DecidableEq κ] (maps : T.Maps map) (mem : b ∈ T) :
    (T.unlink b.addr).Maps (Function.update map b.key none) := by
  intro l q
  by_cases here : l = b.key
  · rw [here, Function.update_self]
    constructor
    · intro some
      cases some
    · intro there
      obtain ⟨c, memc, key, _⟩ := there
      obtain ⟨old, away⟩ := Table.mem_unlink.mp memc
      exact absurd (congrArg Block.addr (maps.keyed c old b mem key)) away
  · rw [Function.update_of_ne here, maps l q]
    constructor
    · intro there
      obtain ⟨c, memc, key, addr⟩ := there
      exact ⟨c, (Table.mem_unlink_of_key_ne mem (key ▸ here)).mpr memc, key, addr⟩
    · intro there
      obtain ⟨c, memc, same⟩ := there
      exact ⟨c, (Table.mem_unlink.mp memc).1, same⟩

/-- What is written to the bodies does not matter. -/
theorem rewrite (maps : T.Maps map) {f : Block κ β → β}
    (written : T'.blocks = T.blocks.map fun b => { b with body := f b }) : T'.Maps map := by
  intro k p
  rw [maps k p]
  constructor
  · intro there
    obtain ⟨b, mem, same⟩ := there
    refine ⟨{ b with body := f b }, ?_, same⟩
    rw [Table.mem_def, written]
    exact List.mem_map.mpr ⟨b, mem, rfl⟩
  · intro there
    obtain ⟨c, mem, same⟩ := there
    rw [Table.mem_def, written] at mem
    obtain ⟨b, memb, rfl⟩ := List.mem_map.mp mem
    exact ⟨b, memb, same⟩

theorem modify (maps : T.Maps map) (p : Ptr) (f : β → β) : (T.modify p f).Maps map := by
  apply maps.rewrite (f := fun b => if b.addr = p then f b.body else b.body)
  apply List.map_congr_left
  intro b _
  by_cases here : b.addr = p
  · simp only [if_pos here]
  · simp only [if_neg here]

theorem not_mem (maps : T.Maps map) (none : ∀ k, map k = none) (b : Block κ β) : b ∉ T := by
  intro mem
  have here := maps.of_mem mem
  rw [none] at here
  cases here

/-- A walk over the blocks meets each of them once. -/
theorem visits (maps : T.Maps map) :
    (T.blocks.map Block.addr).Nodup ∧
      ∀ k p, (∃ b ∈ T.blocks, b.key = k ∧ b.addr = p) ↔ map k = some p :=
  ⟨T.distinct, fun k p => (maps k p).symm⟩

end Table.Maps

section Heads

variable {n : Nat} {κ β : Type} {bucket : κ → Fin n} {t : Chains n κ β} {T : Table κ β}
  {map : κ → Option Ptr}

/-- The head of a bucket is the block of some key. -/
theorem Table.Maps.of_head (maps : T.Maps map) (rep : t.Represents bucket T) {i : Fin n} {p : Ptr}
    (head : t.heads i = some p) : ∃ key, map key = some p := by
  obtain ⟨b, mem, rfl, -⟩ := rep.head_mem head
  exact ⟨b.key, maps.of_mem mem⟩

/-- No key of an empty bucket has a block. -/
theorem Table.Maps.of_empty (maps : T.Maps map) (rep : t.Represents bucket T) {key : κ}
    (head : t.heads (bucket key) = none) : map key = none := by
  apply maps.eq_none_iff.mpr
  intro b mem same
  exact rep.head_eq_none_iff.mp head b mem (congrArg bucket same)

end Heads

theorem Table.length_modify {κ β : Type} (T : Table κ β) (p : Ptr) (f : β → β) :
    (T.modify p f).blocks.length = T.blocks.length :=
  List.length_map _

theorem Table.length_unlink_lt {κ β : Type} {T : Table κ β} {b : Block κ β} (mem : b ∈ T) :
    (T.unlink b.addr).blocks.length < T.blocks.length := by
  obtain ⟨front, back, whole, rest⟩ := Table.unlink_split mem
  rw [whole, rest, List.length_append, List.length_append, List.length_cons]
  omega

/-! ## Mutual pointers -/

/-- Blocks of two tables hold pointers to each other, and none is one-sided. -/
structure Table.Mutual {κ β γ : Type} (f : β → Option Ptr) (g : γ → Option Ptr) (T : Table κ β)
    (U : Table κ γ) : Prop where
  forth : ∀ b ∈ T, ∀ a, f b.body = some a → ∃ c ∈ U, c.addr = a ∧ g c.body = some b.addr
  back : ∀ c ∈ U, ∀ a, g c.body = some a → ∃ b ∈ T, b.addr = a ∧ f b.body = some c.addr

namespace Table.Mutual

variable {κ β γ : Type} {f : β → Option Ptr} {g : γ → Option Ptr} {T T' : Table κ β}
  {U : Table κ γ} {b : Block κ β}

theorem symm (tied : T.Mutual f g U) : U.Mutual g f T := ⟨tied.back, tied.forth⟩

theorem empty : (Table.empty : Table κ β).Mutual f g (Table.empty : Table κ γ) where
  forth := fun b mem => absurd mem (Table.not_mem_empty b)
  back := fun c mem => absurd mem (Table.not_mem_empty c)

/-- A new block that points nowhere has no partner. -/
theorem create (tied : T.Mutual f g U) {rank : κ → Nat} {mem : Option Ptr} {k : κ} {body : β}
    {p : Ptr} (made : T.create rank mem k body = some (p, T')) (blank : f body = none) :
    T'.Mutual f g U where
  forth := by
    intro b memb a points
    rcases (Table.mem_create made).mp memb with rfl | old
    · rw [blank] at points
      cases points
    · exact tied.forth b old a points
  back := by
    intro c memc a points
    obtain ⟨b, memb, same⟩ := tied.back c memc a points
    exact ⟨b, (Table.mem_create made).mpr (.inr memb), same⟩

theorem unlink_alone (tied : T.Mutual f g U) (mem : b ∈ T) (alone : f b.body = none) :
    (T.unlink b.addr).Mutual f g U where
  forth := by
    intro c memc a points
    exact tied.forth c (Table.mem_unlink.mp memc).1 a points
  back := by
    intro c memc a points
    obtain ⟨d, memd, here, forth⟩ := tied.back c memc a points
    refine ⟨d, Table.mem_unlink.mpr ⟨memd, ?_⟩, here, forth⟩
    intro gone
    rw [Table.eq_of_addr_eq memd mem gone, alone] at forth
    cases forth

/-- A block may go once the pointer of its partner is cut. -/
theorem unlink_cut (tied : T.Mutual f g U) (mem : b ∈ T) {x : Ptr} (partner : f b.body = some x)
    (cut : γ → γ) (none : ∀ body, g (cut body) = none) :
    (T.unlink b.addr).Mutual f g (U.modify x cut) where
  forth := by
    intro c memc a points
    obtain ⟨old, away⟩ := Table.mem_unlink.mp memc
    obtain ⟨d, memd, here, back⟩ := tied.forth c old a points
    refine ⟨d, Table.mem_modify.mpr (.inl ⟨memd, ?_⟩), here, back⟩
    intro same
    obtain ⟨e, meme, here', back'⟩ := tied.forth b mem x partner
    rw [Table.eq_of_addr_eq meme memd (here'.trans same.symm), back] at back'
    exact away (Option.some.inj back')
  back := by
    intro c memc a points
    rcases Table.mem_modify.mp memc with ⟨old, away⟩ | ⟨d, memd, here, rfl⟩
    · obtain ⟨d, memd, here, forth⟩ := tied.back c old a points
      refine ⟨d, Table.mem_unlink.mpr ⟨memd, ?_⟩, here, forth⟩
      intro gone
      rw [Table.eq_of_addr_eq memd mem gone, partner] at forth
      exact away (Option.some.inj forth).symm
    · rw [none] at points
      cases points

end Table.Mutual
