import RsvpTe.Lib.Rings

/-!
# Linked lists (`list.h`)

The operations of `list.h` on a memory of links, write by write.  The result `none` of an
operation is a null pointer that is followed; that of a loop is one that does not end as well.
-/

namespace Rsvp

section ListHead

variable {α : Type} [DecidableEq α]

/-- `list->next = next`. -/
def setNext (mem : LinkMem α) (list next : α) : LinkMem α :=
  { mem with next := Function.update mem.next list (some next) }

/-- `list->prev = prev`. -/
def setPrev (mem : LinkMem α) (list prev : α) : LinkMem α :=
  { mem with prev := Function.update mem.prev list (some prev) }

/-- `INIT_LIST_HEAD`. -/
def initListHead (mem : LinkMem α) (list : α) : LinkMem α :=
  setPrev (setNext mem list list) list list

/-- `__list_add`. -/
def listAddBetween (mem : LinkMem α) (newNode prev next : α) : LinkMem α :=
  let mem := setPrev mem next newNode
  let mem := setNext mem newNode next
  let mem := setPrev mem newNode prev
  setNext mem prev newNode

def listAddTail (mem : LinkMem α) (newNode head : α) : Option (LinkMem α) := do
  let prev ← mem.prev head
  return listAddBetween mem newNode prev head

/-- `__list_del`. -/
def listDelBetween (mem : LinkMem α) (prev next : α) : LinkMem α :=
  setNext (setPrev mem next prev) prev next

def listDel (mem : LinkMem α) (entry : α) : Option (LinkMem α) := do
  let prev ← mem.prev entry
  let next ← mem.next entry
  let mem := listDelBetween mem prev next
  return {
    next := Function.update mem.next entry none
    prev := Function.update mem.prev entry none }

def listEmpty (mem : LinkMem α) (head : α) : Bool := mem.next head = some head

def listMoveTail (mem : LinkMem α) (list head : α) : Option (LinkMem α) := do
  let prev ← mem.prev list
  let next ← mem.next list
  listAddTail (listDelBetween mem prev next) list head

def listSpliceInit (mem : LinkMem α) (list head : α) : Option (LinkMem α) :=
  if listEmpty mem list then some mem
  else do
    let first ← mem.next list
    let last ← mem.prev list
    let at_ ← mem.next head
    let mem := setPrev mem first head
    let mem := setNext mem head first
    let mem := setNext mem last at_
    let mem := setPrev mem at_ last
    return initListHead mem list

/-- The next position is saved before the body treats the current one. -/
def listForEachSafe {σ : Type} (links : σ → LinkMem α) (head : α) (body : σ → α → Option σ)
    (s : σ) : Option σ := do
  let pos ← (links s).next head
  let n ← (links s).next pos
  loop (fun (s, pos, n) =>
    if pos = head then some (.done s)
    else do
      let s ← body s pos
      let next ← (links s).next n
      return .again (s, n, next)) (s, pos, n)

/-! ## What the operations do to the lists of a memory -/

variable {mem : LinkMem α} {shape : α → Option LinkMem.Shape} {lists : α → List α}
  {head list entry : α}

theorem listEmpty_iff (holds : mem.Holds shape lists) (isRing : shape head = some .ring) :
    listEmpty mem head = true ↔ lists head = [] := by
  have ring : mem.Ring head (lists head) := holds.fits isRing
  rw [listEmpty, decide_eq_true_iff, ring.next_head, Option.some.injEq]
  cases here : lists head with
  | nil => exact iff_of_true rfl rfl
  | cons a rest =>
    refine iff_of_false (fun same => ?_) (List.cons_ne_nil a rest)
    exact ring.head_not_mem (here ▸ same ▸ List.mem_cons_self)

theorem initListHead_holds (holds : mem.Holds shape lists)
    (loose : LinkMem.Loose shape lists head) :
    (initListHead mem head).Holds (Function.update shape head (some .ring)) lists :=
  holds.init loose

theorem listAddTail_holds (holds : mem.Holds shape lists) (isRing : shape head = some .ring)
    (loose : LinkMem.Loose shape lists entry) :
    ∃ mem', listAddTail mem entry head = some mem' ∧
      mem'.Holds shape (Function.update lists head (lists head ++ [entry])) := by
  have ring : mem.Ring head (lists head) := holds.fits isRing
  refine ⟨_, ?_, holds.addTail isRing loose⟩
  rw [listAddTail, ring.prev_head]
  rfl

/-- `__list_del` on the neighbours of an entry. -/
theorem listDelBetween_holds (holds : mem.Holds shape lists) (isRing : shape head = some .ring)
    (member : entry ∈ lists head) :
    ∃ prev next, mem.prev entry = some prev ∧ mem.next entry = some next ∧
      (listDelBetween mem prev next).Holds shape
        (Function.update lists head ((lists head).erase entry)) ∧
      LinkMem.Loose shape (Function.update lists head ((lists head).erase entry)) entry := by
  have ring : mem.Ring head (lists head) := holds.fits isRing
  obtain ⟨front, rest, -, at_, erased⟩ := List.exists_erase_eq member
  rw [at_] at ring
  obtain ⟨before, after⟩ := ring.links
  rw [erased]
  exact ⟨_, _, before, after, holds.remove isRing at_⟩

theorem listDel_holds (holds : mem.Holds shape lists) (isRing : shape head = some .ring)
    (member : entry ∈ lists head) :
    ∃ mem', listDel mem entry = some mem' ∧
      mem'.Holds shape (Function.update lists head ((lists head).erase entry)) ∧
      LinkMem.Loose shape (Function.update lists head ((lists head).erase entry)) entry := by
  obtain ⟨prev, next, before, after, removed, loose⟩ := listDelBetween_holds holds isRing member
  refine ⟨_, ?_, removed.clear loose, loose⟩
  rw [listDel, before, after]
  rfl

/-- An entry moves from one ring to the end of another. -/
theorem listMoveTail_holds {from_ : α} (holds : mem.Holds shape lists)
    (isRing : shape head = some .ring) (isSource : shape from_ = some .ring)
    (differs : from_ ≠ head) (member : entry ∈ lists from_) :
    ∃ mem', listMoveTail mem entry head = some mem' ∧
      mem'.Holds shape (Function.update (Function.update lists from_ ((lists from_).erase entry))
        head (lists head ++ [entry])) := by
  obtain ⟨prev, next, before, after, removed, loose⟩ := listDelBetween_holds holds isSource member
  obtain ⟨mem', added, result⟩ := listAddTail_holds removed isRing loose
  rw [Function.update_of_ne (Ne.symm differs)] at result
  refine ⟨mem', ?_, result⟩
  rw [listMoveTail, before, after]
  exact added

/-- The entries of one list come in front of those of another. -/
theorem listSpliceInit_holds (holds : mem.Holds shape lists) (isRing : shape head = some .ring)
    (isSource : shape list = some .ring) (differs : list ≠ head) :
    ∃ mem', listSpliceInit mem list head = some mem' ∧
      mem'.Holds shape
        (Function.update (Function.update lists head (lists list ++ lists head)) list []) := by
  have ring : mem.Ring head (lists head) := holds.fits isRing
  have source : mem.Ring list (lists list) := holds.fits isSource
  cases at_ : lists list with
  | nil =>
    refine ⟨mem, if_pos ((listEmpty_iff holds isSource).mpr at_), ?_⟩
    rw [List.nil_append, Function.update_eq_self, ← at_, Function.update_eq_self]
    exact holds
  | cons first rest =>
    refine ⟨_, ?_, at_ ▸ holds.splice isRing isSource differs at_⟩
    have full : ¬ listEmpty mem list = true := by
      rw [listEmpty_iff holds isSource, at_]
      exact List.cons_ne_nil _ _
    rw [listSpliceInit, if_neg full, source.next_head, source.prev_head, ring.next_head, at_,
      LinkMem.lastOf_cons]
    rfl

/-- A loop over the positions of a trail, where the body keeps the part ahead of it. -/
theorem listForEachSafe_of_trail {σ : Type} {links : σ → LinkMem α} {body : σ → α → Option σ}
    (inv : List α → σ → Prop) {positions : List α} {s : σ}
    (trail : ∀ {rest s}, inv rest s → (links s).Trail rest head ∧ ((links s).next head).isSome)
    (turn : ∀ {a rest s}, inv (a :: rest) s → ∃ s', body s a = some s' ∧ inv rest s')
    (start : inv positions s) (first : (links s).next head = some (positions.headD head))
    (outside : head ∉ positions) :
    ∃ s', listForEachSafe links head body s = some s' ∧ inv [] s' := by
  -- the position after one that is saved already
  have follow : ∀ {rest s}, inv rest s → ∃ next, (links s).next (rest.headD head) = some next ∧
      ∀ a more, rest = a :: more → next = more.headD head := by
    intro rest s holds
    obtain ⟨path, linked⟩ := trail holds
    cases rest with
    | nil =>
      obtain ⟨next, eq⟩ := Option.isSome_iff_exists.mp linked
      exact ⟨next, eq, by simp⟩
    | cons a more =>
      refine ⟨_, path.1, fun b others same => ?_⟩
      rw [(List.cons.inj same).2]
  obtain ⟨n, saved, ahead⟩ := follow start
  rw [listForEachSafe, first, Option.bind_eq_bind, Option.bind_some, saved, Option.bind_some]
  clear first saved
  induction positions generalizing s n with
  | nil => exact ⟨s, loop_done (if_pos rfl), start⟩
  | cons a rest ih =>
    obtain ⟨differs, outside⟩ := not_or.mp fun cases => outside (List.mem_cons.mpr cases)
    obtain ⟨s', moved, holds⟩ := turn start
    obtain ⟨next, after, further⟩ := follow holds
    have n_eq := ahead a rest rfl
    refine (ih holds outside next further).imp fun final result => ⟨?_, result.2⟩
    refine (loop_again ?_).trans result.1
    simp only [List.headD_cons, if_neg (Ne.symm differs), moved, n_eq, after, Option.bind_eq_bind,
      Option.bind_some]
    rfl

end ListHead

end Rsvp
