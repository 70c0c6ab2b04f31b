import Mathlib.Data.List.Nodup
import Mathlib.Logic.Function.Basic
import Mathlib.Logic.Relation
import RsvpTe.Lib.Chains

/-!
# Circular doubly linked lists in memory

Every address carries two links, either of which may be null.  A list is a ring through its head:
`Ring mem head list` says that the links lead from `head` through the addresses of `list` back to
`head`, and the other links lead the same way back.  All that is ever done to a ring is to join
two addresses, so what `join` does to a path is all that the operations need.

A loop that saves the next position before it treats the current one follows only the forward
links, and only those of the positions ahead of it: that is a `Trail`.
-/

/-- The links of a memory; `none` is the null pointer. -/
@[ext] structure LinkMem (α : Type) : Type where
  next : α → Option α
  prev : α → Option α

namespace LinkMem

variable {α : Type} {mem mem' : LinkMem α} {a b c : α} {list front rest : List α}

/-! ## Paths -/

/-- The links lead from `a` through the list to `b`, and back. -/
def Path (mem : LinkMem α) (a : α) (list : List α) (b : α) : Prop :=
  match list with
  | [] => mem.next a = some b ∧ mem.prev b = some a
  | c :: rest => (mem.next a = some c ∧ mem.prev c = some a) ∧ mem.Path c rest b

theorem path_append : mem.Path a (front ++ c :: rest) b ↔ mem.Path a front c ∧ mem.Path c rest b := by
  induction front generalizing a with
  | nil => exact Iff.rfl
  | cons d front ih =>
    rw [List.cons_append, Path, ih, ← and_assoc]
    exact Iff.rfl

/-- A path is read through the forward links of all but its end and the backward links of all but
its start. -/
theorem Path.frame (path : mem.Path a list b) (next : ∀ c ∈ a :: list, mem'.next c = mem.next c)
    (prev : ∀ c ∈ list ++ [b], mem'.prev c = mem.prev c) : mem'.Path a list b := by
  induction list generalizing a with
  | nil =>
    rw [Path, next a List.mem_cons_self, prev b (List.mem_append_right _ (List.mem_singleton_self b))]
    exact path
  | cons c list ih =>
    obtain ⟨link, rest⟩ := path
    refine ⟨?_, ih rest (fun d member => next d (List.mem_cons_of_mem _ member)) fun d member =>
      prev d (List.mem_cons_of_mem _ member)⟩
    rw [next a List.mem_cons_self, prev c List.mem_cons_self]
    exact link

/-- The address from which a path enters its end. -/
def lastOf (a : α) (list : List α) : α := list.getLastD a

theorem lastOf_cons (a c : α) (list : List α) : lastOf a (c :: list) = lastOf c list :=
  List.getLastD_cons ..

theorem lastOf_mem (a : α) (list : List α) : lastOf a list ∈ a :: list := by
  induction list generalizing a with
  | nil => exact List.mem_cons_self
  | cons c list ih =>
    rw [lastOf_cons]
    exact List.mem_cons_of_mem _ (ih c)

theorem Path.prev_end (path : mem.Path a list b) : mem.prev b = some (lastOf a list) := by
  induction list generalizing a with
  | nil => exact path.2
  | cons c list ih => rw [ih path.2, lastOf_cons]

theorem headD_mem (list : List α) (a : α) : list.headD a ∈ a :: list := by
  cases list with
  | nil => exact List.mem_cons_self
  | cons c list => exact List.mem_cons_of_mem _ List.mem_cons_self

theorem Path.next_start (path : mem.Path a list b) : mem.next a = some (list.headD b) := by
  cases list with
  | nil => exact path.1
  | cons c list => exact path.1.1

/-- The forward links lead from one address to another, in one step or more. -/
def Reaches (mem : LinkMem α) : α → α → Prop := Relation.TransGen fun a b => mem.next a = some b

theorem Path.reaches (path : mem.Path a list b) (member : c ∈ list ++ [b]) : mem.Reaches a c := by
  induction list generalizing a with
  | nil =>
    rw [List.nil_append, List.mem_singleton] at member
    exact .single (member ▸ path.1)
  | cons d list ih =>
    obtain ⟨link, path⟩ := path
    rcases List.mem_cons.mp member with rfl | later
    · exact .single link.1
    · exact .head link.1 (ih path later)

/-- Only the end of a path leads out of it. -/
theorem Path.next_mem (path : mem.Path a list b) {x y : α} (member : x ∈ a :: list)
    (link : mem.next x = some y) : y ∈ b :: list := by
  induction list generalizing a with
  | nil =>
    rw [List.mem_singleton] at member
    have same := path.1
    rw [← member, link] at same
    exact Option.some.inj same ▸ List.mem_cons_self
  | cons d list ih =>
    obtain ⟨first, path⟩ := path
    rcases List.mem_cons.mp member with rfl | later
    · have same := Option.some.inj (link.symm.trans first.1)
      exact same ▸ List.mem_cons_of_mem _ List.mem_cons_self
    · exact (List.mem_cons.mp (ih path later)).elim (fun same => same ▸ List.mem_cons_self)
        fun inside => List.mem_cons_of_mem _ (List.mem_cons_of_mem _ inside)

/-! ## Joining two addresses -/

section Join

variable [DecidableEq α] {x y : α}

/-- Make `b` follow `a`. -/
def join (mem : LinkMem α) (a b : α) : LinkMem α where
  next := Function.update mem.next a (some b)
  prev := Function.update mem.prev b (some a)

@[simp] theorem next_join_self (mem : LinkMem α) (a b : α) : (mem.join a b).next a = some b :=
  Function.update_self ..

@[simp] theorem prev_join_self (mem : LinkMem α) (a b : α) : (mem.join a b).prev b = some a :=
  Function.update_self ..

theorem next_join_of_ne (mem : LinkMem α) (b : α) (other : c ≠ a) :
    (mem.join a b).next c = mem.next c :=
  Function.update_of_ne other ..

theorem prev_join_of_ne (mem : LinkMem α) (a : α) (other : c ≠ b) :
    (mem.join a b).prev c = mem.prev c :=
  Function.update_of_ne other ..

theorem join_comm (mem : LinkMem α) {a b c d : α} (starts : a ≠ c) (ends : b ≠ d) :
    (mem.join a b).join c d = (mem.join c d).join a b :=
  LinkMem.ext (Function.update_comm starts ..) (Function.update_comm ends ..)

theorem path_join (mem : LinkMem α) (a b : α) : (mem.join a b).Path a [] b :=
  ⟨next_join_self .., prev_join_self ..⟩

theorem Path.join_of_not_mem (path : mem.Path a list b) (start : x ∉ a :: list)
    (last : y ∉ list ++ [b]) : (mem.join x y).Path a list b :=
  path.frame (fun _ member => next_join_of_ne _ _ (ne_of_mem_of_not_mem member start))
    fun _ member => prev_join_of_ne _ _ (ne_of_mem_of_not_mem member last)

/-- The last link of a path is turned to another end. -/
theorem Path.retarget (path : mem.Path a list b) (distinct : (a :: list).Nodup) (free : c ∉ list) :
    (mem.join (lastOf a list) c).Path a list c := by
  induction list generalizing a with
  | nil => exact path_join mem a c
  | cons d list ih =>
    obtain ⟨link, path⟩ := path
    obtain ⟨outside, distinct⟩ := List.nodup_cons.mp distinct
    obtain ⟨other, free⟩ := not_or.mp fun cases => free (List.mem_cons.mpr cases)
    have apart : a ≠ lastOf d list := (ne_of_mem_of_not_mem (lastOf_mem d list) outside).symm
    rw [lastOf_cons]
    refine ⟨?_, ih path distinct free⟩
    rw [next_join_of_ne _ _ apart, prev_join_of_ne _ _ (Ne.symm other)]
    exact link

/-- An address in the middle of a path is passed by. -/
theorem Path.bypass (path : mem.Path a (front ++ x :: rest) b)
    (distinct : (a :: front ++ x :: rest).Nodup) (outside : b ∉ front ++ x :: rest) :
    (mem.join (lastOf a front) (rest.headD b)).Path a (front ++ rest) b := by
  obtain ⟨before, after⟩ := path_append.mp path
  obtain ⟨left, right, apart⟩ := List.nodup_append.mp distinct
  cases rest with
  | nil =>
    rw [List.append_nil]
    exact before.retarget left fun member => outside (List.mem_append_left _ member)
  | cons y rest =>
    obtain ⟨-, right⟩ := List.nodup_cons.mp right
    have later : ∀ z ∈ y :: rest, z ∉ a :: front := fun z here there =>
      apart z there z (List.mem_cons_of_mem _ here) rfl
    refine path_append.mpr ⟨before.retarget left fun member => ?_, after.2.join_of_not_mem ?_ ?_⟩
    · exact later y List.mem_cons_self (List.mem_cons_of_mem _ member)
    · exact fun member => later _ member (lastOf_mem a front)
    · intro member
      rcases List.mem_append.mp member with inside | ending
      · exact (List.nodup_cons.mp right).1 inside
      · rw [List.mem_singleton] at ending
        refine outside (List.mem_append_right _ (List.mem_cons_of_mem _ ?_))
        exact ending ▸ List.mem_cons_self

end Join

/-! ## Rings -/

/-- The list of the given head. -/
structure Ring (mem : LinkMem α) (head : α) (list : List α) : Prop where
  path : mem.Path head list head
  distinct : (head :: list).Nodup

namespace Ring

variable {head other new : α} {ring others : List α}

theorem head_not_mem (holds : mem.Ring head ring) : head ∉ ring :=
  (List.nodup_cons.mp holds.distinct).1

theorem next_head (holds : mem.Ring head ring) : mem.next head = some (ring.headD head) :=
  holds.path.next_start

theorem prev_head (holds : mem.Ring head ring) : mem.prev head = some (lastOf head ring) :=
  holds.path.prev_end

/-- Both links of an address in a ring. -/
theorem links {x : α} (holds : mem.Ring head (front ++ x :: rest)) :
    mem.prev x = some (lastOf head front) ∧ mem.next x = some (rest.headD head) := by
  obtain ⟨before, after⟩ := path_append.mp holds.path
  exact ⟨before.prev_end, after.next_start⟩

/-- Memory changes outside of a ring. -/
theorem frame (holds : mem.Ring head ring) (next : ∀ a ∈ head :: ring, mem'.next a = mem.next a)
    (prev : ∀ a ∈ head :: ring, mem'.prev a = mem.prev a) : mem'.Ring head ring := by
  refine ⟨holds.path.frame next fun a member => prev a ?_, holds.distinct⟩
  rcases List.mem_append.mp member with inside | ending
  · exact List.mem_cons_of_mem _ inside
  · rw [List.mem_singleton.mp ending]
    exact List.mem_cons_self

/-- Forward links lead from the head to the addresses of its ring and back to it, and nowhere else. -/
theorem reaches_iff (holds : mem.Ring head ring) : mem.Reaches head a ↔ a ∈ head :: ring := by
  constructor
  · intro reaches
    induction reaches with
    | single link => exact holds.path.next_mem List.mem_cons_self link
    | tail _ link ih => exact holds.path.next_mem ih link
  · intro member
    rcases List.mem_cons.mp member with rfl | inside
    · exact holds.path.reaches (List.mem_append_right _ (List.mem_singleton_self a))
    · exact holds.path.reaches (List.mem_append_left _ inside)

section Join

variable [DecidableEq α]

theorem join_of_not_mem {x y : α} (holds : mem.Ring head ring) (start : x ∉ head :: ring)
    (last : y ∉ head :: ring) : (mem.join x y).Ring head ring :=
  holds.frame (fun _ member => next_join_of_ne _ _ (ne_of_mem_of_not_mem member start))
    fun _ member => prev_join_of_ne _ _ (ne_of_mem_of_not_mem member last)

/-- A head joined to itself. -/
theorem join_self (mem : LinkMem α) (head : α) : (mem.join head head).Ring head [] :=
  ⟨path_join mem head head, List.nodup_singleton head⟩

/-- A new address comes between the last one and the head. -/
theorem addTail (holds : mem.Ring head ring) (free : new ∉ head :: ring) :
    ((mem.join new head).join (lastOf head ring) new).Ring head (ring ++ [new]) := by
  have last : new ≠ lastOf head ring := (ne_of_mem_of_not_mem (lastOf_mem head ring) free).symm
  obtain ⟨apart, outside⟩ := not_or.mp fun cases => free (List.mem_cons.mpr cases)
  have turned := holds.path.retarget holds.distinct outside
  rw [join_comm _ last (Ne.symm apart)]
  constructor
  · refine path_append.mpr ⟨turned.join_of_not_mem free fun member => ?_, path_join ..⟩
    rcases List.mem_append.mp member with inside | ending
    · exact holds.head_not_mem inside
    · exact apart (List.mem_singleton.mp ending).symm
  · rw [← List.cons_append]
    refine holds.distinct.append (List.nodup_singleton new) fun a inside ending => ?_
    exact free (List.mem_singleton.mp ending ▸ inside)

/-- An address is passed by. -/
theorem remove {x : α} (holds : mem.Ring head (front ++ x :: rest)) :
    (mem.join (lastOf head front) (rest.headD head)).Ring head (front ++ rest) := by
  refine ⟨holds.path.bypass holds.distinct holds.head_not_mem, ?_⟩
  refine holds.distinct.sublist (List.Sublist.cons_cons head ?_)
  exact (List.sublist_cons_self x rest).append_left front

/-- The addresses of a path come between a head and its first address. -/
theorem insert {first : α} (target : mem.Ring head ring) (path : mem.Path first others b)
    (distinct : (first :: others).Nodup) (apart : List.Disjoint (first :: others) (head :: ring)) :
    ((mem.join head first).join (lastOf first others) (ring.headD head)).Ring head
      (first :: others ++ ring) := by
  obtain ⟨once, -⟩ := List.nodup_cons.mp distinct
  have last : lastOf first others ∈ first :: others := lastOf_mem first others
  have entry : ring.headD head ∈ head :: ring := headD_mem ring head
  have ends : ∀ {x y : α} {list}, x ∉ list → x ≠ y → x ∉ list ++ [y] := fun absent differs member =>
    (List.mem_append.mp member).elim absent fun ending => differs (List.mem_singleton.mp ending)
  have starts : head ≠ lastOf first others := fun same =>
    apart last (same ▸ List.mem_cons_self)
  have differs : first ≠ ring.headD head := fun same =>
    apart List.mem_cons_self (by rw [same]; exact entry)
  have moved := path.retarget distinct fun member => apart (List.mem_cons_of_mem _ member) entry
  rw [join_comm _ starts differs]
  constructor
  · have inserted := moved.join_of_not_mem (x := head)
      (fun member => apart member List.mem_cons_self) (ends once differs)
    cases ring with
    | nil =>
      rw [List.append_nil]
      exact ⟨path_join _ head first, inserted⟩
    | cons c ring =>
      obtain ⟨outside, within⟩ := List.nodup_cons.mp target.distinct
      obtain ⟨once, -⟩ := List.nodup_cons.mp within
      have kept := target.path.2.join_of_not_mem (x := lastOf first others) (y := c)
        (fun member => apart last (List.mem_cons_of_mem _ member))
        (ends once fun same => outside (same ▸ List.mem_cons_self))
      refine path_append.mpr ⟨⟨path_join _ head first, inserted⟩, ?_⟩
      refine kept.join_of_not_mem outside (ends (fun member => ?_) fun same => ?_)
      · exact apart List.mem_cons_self (List.mem_cons_of_mem _ (List.mem_cons_of_mem _ member))
      · exact apart List.mem_cons_self (same ▸ List.mem_cons_self)
  · refine List.nodup_cons.mpr ⟨fun member => ?_, distinct.append
      (List.nodup_cons.mp target.distinct).2 fun _ inside there =>
        apart inside (List.mem_cons_of_mem _ there)⟩
    rcases List.mem_append.mp member with inside | there
    · exact apart inside List.mem_cons_self
    · exact target.head_not_mem there

/-- The addresses of a ring come in front of those of another, and the ring is left empty. -/
theorem splice {first : α} (holds : mem.Ring other (first :: others)) (target : mem.Ring head ring)
    (apart : List.Disjoint (other :: first :: others) (head :: ring)) :
    (((mem.join head first).join (lastOf first others) (ring.headD head)).join other other).Ring
      head (first :: others ++ ring) := by
  obtain ⟨outside, distinct⟩ := List.nodup_cons.mp holds.distinct
  have absent : other ∉ head :: (first :: others ++ ring) := by
    intro member
    rcases List.mem_cons.mp member with same | member
    · exact apart List.mem_cons_self (same ▸ List.mem_cons_self)
    · rcases List.mem_append.mp member with inside | there
      · exact outside inside
      · exact apart List.mem_cons_self (List.mem_cons_of_mem _ there)
  exact (target.insert holds.path.2 distinct fun _ inside =>
    apart (List.mem_cons_of_mem _ inside)).join_of_not_mem absent absent

end Join

end Ring

/-! ## Trails -/

/-- The forward links of the list lead to `stop`. -/
def Trail (mem : LinkMem α) (list : List α) (stop : α) : Prop :=
  match list with
  | [] => True
  | a :: rest => mem.next a = some (rest.headD stop) ∧ mem.Trail rest stop

variable {stop : α}

theorem Path.trail (path : mem.Path a list b) : mem.Trail list b := by
  induction list generalizing a with
  | nil => exact trivial
  | cons c list ih => exact ⟨path.2.next_start, ih path.2⟩

/-- Only the forward links of the list matter. -/
theorem Trail.frame (trail : mem.Trail list stop) (next : ∀ a ∈ list, mem'.next a = mem.next a) :
    mem'.Trail list stop := by
  induction list with
  | nil => exact trivial
  | cons a list ih =>
    refine ⟨?_, ih trail.2 fun b member => next b (List.mem_cons_of_mem _ member)⟩
    rw [next a List.mem_cons_self]
    exact trail.1

/-! ## Several lists in one memory -/

/-- What of a list is kept: all of it, or the part that a loop has still to follow. -/
inductive Shape : Type
  | ring
  | trail
  deriving DecidableEq

/-- The memory has a list in the given shape. -/
def Fits (mem : LinkMem α) (form : Shape) (head : α) (list : List α) : Prop :=
  match form with
  | .ring => mem.Ring head list
  | .trail => mem.Trail list head ∧ (mem.next head).isSome

variable {form : Shape} {head other x y : α} {shape : α → Option Shape} {lists : α → List α}

theorem Fits.frame (fits : mem.Fits form head list)
    (next : ∀ a ∈ head :: list, mem'.next a = mem.next a)
    (prev : ∀ a ∈ head :: list, mem'.prev a = mem.prev a) : mem'.Fits form head list := by
  cases form with
  | ring => exact Ring.frame fits next prev
  | trail =>
    refine ⟨fits.1.frame fun a member => next a (List.mem_cons_of_mem _ member), ?_⟩
    rw [next head List.mem_cons_self]
    exact fits.2

/-- The memory has the list of every head, and no address is in two of them. -/
structure Holds (mem : LinkMem α) (shape : α → Option Shape) (lists : α → List α) : Prop where
  fits {head : α} {form : Shape} : shape head = some form → mem.Fits form head (lists head)
  once {a h k : α} : a ∈ lists h → a ∈ lists k → h = k
  nodup (head : α) : (lists head).Nodup
  inner {a head : α} : a ∈ lists head → shape a = none
  outer {a : α} : shape a = none → lists a = []

/-- An address that is neither a head nor in a list. -/
structure Loose (shape : α → Option Shape) (lists : α → List α) (a : α) : Prop where
  shapeless : shape a = none
  absent (head : α) : a ∉ lists head

theorem Loose.not_mem (loose : Loose shape lists x) (isHead : shape head ≠ none) :
    x ∉ head :: lists head := by
  intro member
  rcases List.mem_cons.mp member with rfl | member
  · exact isHead loose.shapeless
  · exact loose.absent _ member

/-- Memory changes at loose addresses. -/
theorem Holds.frame (holds : mem.Holds shape lists)
    (next : ∀ a, ¬ Loose shape lists a → mem'.next a = mem.next a)
    (prev : ∀ a, ¬ Loose shape lists a → mem'.prev a = mem.prev a) : mem'.Holds shape lists := by
  refine ⟨fun {head form} isHead => ?_, holds.once, holds.nodup, holds.inner, holds.outer⟩
  have taken : ∀ a ∈ head :: lists head, ¬ Loose shape lists a := fun a member loose =>
    loose.not_mem (by rw [isHead]; exact Option.some_ne_none form) member
  exact (holds.fits isHead).frame (fun a member => next a (taken a member))
    fun a member => prev a (taken a member)

section Update

variable [DecidableEq α]

/-- Links between loose addresses are nobody's. -/
theorem Holds.join (holds : mem.Holds shape lists) (start : Loose shape lists x)
    (last : Loose shape lists y) : (mem.join x y).Holds shape lists := by
  refine holds.frame (fun a taken => next_join_of_ne _ _ ?_) fun a taken => prev_join_of_ne _ _ ?_
  · rintro rfl
    exact taken start
  · rintro rfl
    exact taken last

/-- Make both links of an address null. -/
def clear (mem : LinkMem α) (a : α) : LinkMem α where
  next := Function.update mem.next a none
  prev := Function.update mem.prev a none

theorem Holds.clear (holds : mem.Holds shape lists) (loose : Loose shape lists x) :
    (mem.clear x).Holds shape lists := by
  refine holds.frame (fun a taken => Function.update_of_ne ?_ ..) fun a taken =>
    Function.update_of_ne ?_ ..
  · rintro rfl
    exact taken loose
  · rintro rfl
    exact taken loose

/-- The list of a head is given up. -/
theorem Holds.take (holds : mem.Holds shape lists) (head : α) :
    mem.Holds (Function.update shape head none) (Function.update lists head []) := by
  have sub : ∀ {a h}, a ∈ Function.update lists head [] h → h ≠ head ∧ a ∈ lists h := by
    intro a h member
    rw [Function.update_apply] at member
    split at member
    · cases member
    · rename_i other
      exact ⟨other, member⟩
  constructor
  · intro h form isHead
    by_cases same : h = head
    · rw [same, Function.update_self] at isHead
      cases isHead
    · rw [Function.update_of_ne same] at isHead ⊢
      exact holds.fits isHead
  · exact fun first second => holds.once (sub first).2 (sub second).2
  · intro h
    rw [Function.update_apply]
    split
    · exact List.nodup_nil
    · exact holds.nodup h
  · intro a h member
    rw [Function.update_apply]
    split
    · rfl
    · exact holds.inner (sub member).2
  · intro a free
    rw [Function.update_apply] at free ⊢
    split at free
    · rename_i same
      rw [if_pos same]
    · rename_i other
      rw [if_neg other]
      exact holds.outer free

theorem Loose.take (loose : Loose shape lists x) (head : α) :
    Loose (Function.update shape head none) (Function.update lists head []) x := by
  constructor
  · rw [Function.update_apply]
    split
    · rfl
    · exact loose.shapeless
  · intro h
    rw [Function.update_apply]
    split
    · exact List.not_mem_nil
    · exact loose.absent h

/-- The addresses of the list that is given up are loose. -/
theorem Holds.loose_take (holds : mem.Holds shape lists) (isHead : shape head ≠ none)
    (member : x ∈ head :: lists head) :
    Loose (Function.update shape head none) (Function.update lists head []) x := by
  rcases List.mem_cons.mp member with rfl | member
  · refine ⟨Function.update_self .., fun h => ?_⟩
    rw [Function.update_apply]
    split
    · exact List.not_mem_nil
    · exact fun inside => isHead (holds.inner inside)
  · constructor
    · rw [Function.update_apply]
      split
      · rfl
      · exact holds.inner member
    · intro h
      rw [Function.update_apply]
      split
      · exact List.not_mem_nil
      · rename_i other
        exact fun inside => other (holds.once inside member)

/-- A list of loose addresses is given to a loose head. -/
theorem Holds.put (holds : mem.Holds shape lists) (fits : mem.Fits form head list)
    (loose : ∀ a ∈ head :: list, Loose shape lists a) (nodup : (head :: list).Nodup) :
    mem.Holds (Function.update shape head (some form)) (Function.update lists head list) := by
  obtain ⟨outside, distinct⟩ := List.nodup_cons.mp nodup
  have free := loose head List.mem_cons_self
  have cases : ∀ {a h}, a ∈ Function.update lists head list h →
      h = head ∧ a ∈ list ∨ h ≠ head ∧ a ∈ lists h := by
    intro a h member
    rw [Function.update_apply] at member
    split at member
    · rename_i same
      exact .inl ⟨same, member⟩
    · rename_i other
      exact .inr ⟨other, member⟩
  constructor
  · intro h kind isHead
    by_cases same : h = head
    · rw [same, Function.update_self] at isHead ⊢
      cases isHead
      exact fits
    · rw [Function.update_of_ne same] at isHead ⊢
      exact holds.fits isHead
  · intro a h k first second
    rcases cases first with ⟨rfl, inside⟩ | ⟨-, there⟩
    · rcases cases second with ⟨rfl, -⟩ | ⟨-, there⟩
      · rfl
      · exact absurd there ((loose a (List.mem_cons_of_mem _ inside)).absent k)
    · rcases cases second with ⟨rfl, inside⟩ | ⟨-, also⟩
      · exact absurd there ((loose a (List.mem_cons_of_mem _ inside)).absent h)
      · exact holds.once there also
  · intro h
    rw [Function.update_apply]
    split
    · exact distinct
    · exact holds.nodup h
  · intro a h member
    rcases cases member with ⟨rfl, inside⟩ | ⟨-, there⟩
    · rw [Function.update_of_ne (ne_of_mem_of_not_mem inside outside)]
      exact (loose a (List.mem_cons_of_mem _ inside)).shapeless
    · rw [Function.update_of_ne]
      · exact holds.inner there
      · rintro rfl
        exact free.absent h there
  · intro a shapeless
    by_cases same : a = head
    · rw [same, Function.update_self] at shapeless
      cases shapeless
    · rw [Function.update_of_ne same] at shapeless ⊢
      exact holds.outer shapeless

/-- The list of a head is replaced, after changes at addresses that are then loose. -/
theorem Holds.put_back
    (holds : mem.Holds (Function.update shape head none) (Function.update lists head []))
    (isHead : shape head = some form) (fits : mem.Fits form head list)
    (loose : ∀ a ∈ head :: list, Loose (Function.update shape head none)
      (Function.update lists head []) a)
    (nodup : (head :: list).Nodup) : mem.Holds shape (Function.update lists head list) := by
  have put := holds.put fits loose nodup
  rw [Function.update_idem, Function.update_idem] at put
  rwa [← isHead, Function.update_eq_self] at put

section Operations

variable {first : α}

theorem fits_join_self (mem : LinkMem α) (head : α) : (mem.join head head).Fits .ring head [] :=
  Ring.join_self mem head

/-- A loose address becomes an empty ring. -/
theorem Holds.init (holds : mem.Holds shape lists) (loose : Loose shape lists head) :
    (mem.join head head).Holds (Function.update shape head (some .ring)) lists := by
  have put := (holds.join loose loose).put (fits_join_self mem head)
    (fun a member => List.mem_singleton.mp member ▸ loose) (List.nodup_singleton head)
  rwa [← holds.outer loose.shapeless, Function.update_eq_self] at put

/-- A loose address is put at the end of a ring. -/
theorem Holds.addTail (holds : mem.Holds shape lists) (isRing : shape head = some .ring)
    (loose : Loose shape lists x) :
    ((mem.join x head).join (lastOf head (lists head)) x).Holds shape
      (Function.update lists head (lists head ++ [x])) := by
  have isHead : shape head ≠ none := by
    rw [isRing]
    exact Option.some_ne_none _
  have ring : mem.Ring head (lists head) := holds.fits isRing
  have taken : ∀ a ∈ head :: lists head, _ := fun a => holds.loose_take isHead
  have added := ring.addTail (loose.not_mem isHead)
  refine (((holds.take head).join (loose.take head) (taken _ List.mem_cons_self)).join
    (taken _ (lastOf_mem ..)) (loose.take head)).put_back isRing added ?_ added.distinct
  intro a member
  rw [← List.cons_append] at member
  rcases List.mem_append.mp member with inside | new
  · exact taken a inside
  · exact List.mem_singleton.mp new ▸ loose.take head

/-- An address is taken out of a ring. -/
theorem Holds.remove (holds : mem.Holds shape lists) (isRing : shape head = some .ring)
    (at_ : lists head = front ++ x :: rest) :
    (mem.join (lastOf head front) (rest.headD head)).Holds shape
        (Function.update lists head (front ++ rest)) ∧
      Loose shape (Function.update lists head (front ++ rest)) x := by
  have isHead : shape head ≠ none := by
    rw [isRing]
    exact Option.some_ne_none _
  have ring : mem.Ring head (lists head) := holds.fits isRing
  rw [at_] at ring
  have taken : ∀ a ∈ head :: (front ++ x :: rest), _ := fun a member =>
    holds.loose_take isHead (at_ ▸ member)
  have before : ∀ a ∈ head :: front, a ∈ head :: (front ++ x :: rest) := fun a member =>
    List.mem_append_left (x :: rest) member
  have after : ∀ a ∈ head :: rest, a ∈ head :: (front ++ x :: rest) := by
    intro a member
    rcases List.mem_cons.mp member with rfl | inside
    · exact List.mem_cons_self
    · exact List.mem_cons_of_mem _ (List.mem_append_right _ (List.mem_cons_of_mem _ inside))
  have removed := ring.remove
  constructor
  · refine ((holds.take head).join (taken _ (before _ (lastOf_mem ..)))
      (taken _ (after _ (headD_mem ..)))).put_back isRing removed ?_ removed.distinct
    intro a member
    rw [← List.cons_append] at member
    rcases List.mem_append.mp member with inside | inside
    · exact taken a (before a inside)
    · exact taken a (after a (List.mem_cons_of_mem _ inside))
  · have inside : x ∈ lists head := by
      rw [at_]
      exact List.mem_append_right _ List.mem_cons_self
    refine ⟨holds.inner inside, fun h => ?_⟩
    rw [Function.update_apply]
    split
    · have once := (List.nodup_cons.mp ring.distinct).2
      exact (List.nodup_cons.mp (List.nodup_middle.mp once)).1
    · rename_i other
      exact fun there => other (holds.once there inside)

/-- A ring that is not empty is emptied into the front of another one. -/
theorem Holds.splice (holds : mem.Holds shape lists) (isRing : shape head = some .ring)
    (isOther : shape other = some .ring) (differs : other ≠ head)
    (at_ : lists other = first :: rest) :
    (((mem.join head first).join (lastOf first rest) ((lists head).headD head)).join other
      other).Holds shape
        (Function.update (Function.update lists head (lists other ++ lists head)) other []) := by
  have ring : mem.Ring head (lists head) := holds.fits isRing
  have source : mem.Ring other (lists other) := holds.fits isOther
  have isHead : shape head ≠ none := by
    rw [isRing]
    exact Option.some_ne_none _
  rw [at_] at source ⊢
  have apart : List.Disjoint (other :: first :: rest) (head :: lists head) := by
    intro a left right
    rcases List.mem_cons.mp right with rfl | inside
    · rcases List.mem_cons.mp left with same | there
      · exact differs same.symm
      · exact isHead (holds.inner (at_ ▸ there))
    · rcases List.mem_cons.mp left with rfl | there
      · rw [holds.inner inside] at isOther
        cases isOther
      · exact differs (holds.once (at_ ▸ there) inside)
  have isOther' : shape other ≠ none := by
    rw [isOther]
    exact Option.some_ne_none _
  -- the memory without the list of `other`, the addresses of which are loose
  have without := holds.take other
  have away : Function.update lists other [] head = lists head :=
    Function.update_of_ne (Ne.symm differs) ..
  have isRing' : Function.update shape other none head = some .ring := by
    rw [Function.update_of_ne (Ne.symm differs)]
    exact isRing
  have moved : ∀ a ∈ other :: first :: rest, Loose (Function.update shape other none)
      (Function.update lists other []) a := fun a member => holds.loose_take isOther' (at_ ▸ member)
  have kept : ∀ a ∈ head :: lists head, _ := fun a member =>
    without.loose_take (by rw [isRing']; exact Option.some_ne_none _) (away.symm ▸ member)
  have joined := source.splice ring apart
  have put := (((((without.take head).join (kept _ List.mem_cons_self)
    ((moved first (List.mem_cons_of_mem _ List.mem_cons_self)).take head)).join
    ((moved _ (List.mem_cons_of_mem _ (lastOf_mem first rest))).take head)
    (kept _ (headD_mem ..))).join ((moved other List.mem_cons_self).take head)
    ((moved other List.mem_cons_self).take head))).put_back isRing' joined (fun a member => by
      rcases List.mem_cons.mp member with rfl | member
      · exact kept _ List.mem_cons_self
      · rcases List.mem_append.mp member with inside | inside
        · exact (moved a (List.mem_cons_of_mem _ inside)).take head
        · exact kept a (List.mem_cons_of_mem _ inside)) joined.distinct
  have emptied := put.put (fits_join_self _ other) (fun a member => ?_) (List.nodup_singleton other)
  · rwa [Function.update_idem, ← isOther, Function.update_eq_self,
      Function.update_comm differs, Function.update_idem] at emptied
  · rw [List.mem_singleton.mp member]
    refine ⟨Function.update_self .., fun h => ?_⟩
    rw [Function.update_apply]
    split
    · intro inside
      rcases List.mem_append.mp inside with there | there
      · exact (List.nodup_cons.mp source.distinct).1 there
      · exact apart List.mem_cons_self (List.mem_cons_of_mem _ there)
    · exact (moved other List.mem_cons_self).absent h

/-- A loop has saved the first position of a ring and will follow the forward links only. -/
theorem Holds.loosen (holds : mem.Holds shape lists) (isRing : shape head = some .ring) :
    mem.Holds (Function.update shape head (some .trail)) lists := by
  have ring : mem.Ring head (lists head) := holds.fits isRing
  have trail : mem.Fits .trail head (lists head) :=
    ⟨ring.path.trail, by rw [ring.next_head]; rfl⟩
  have put := (holds.take head).put trail (fun a => holds.loose_take (by rw [isRing]; exact Option.some_ne_none _)) ring.distinct
  rwa [Function.update_idem, Function.update_idem, Function.update_eq_self] at put

/-- The loop has come to the last position it saved. -/
theorem Holds.advance (holds : mem.Holds shape lists) (isTrail : shape head = some .trail)
    (at_ : lists head = first :: rest) :
    mem.Holds shape (Function.update lists head rest) ∧
      Loose shape (Function.update lists head rest) first := by
  have isHead : shape head ≠ none := by
    rw [isTrail]
    exact Option.some_ne_none _
  have fits := holds.fits isTrail
  have taken : ∀ a ∈ head :: first :: rest, _ := fun a member =>
    holds.loose_take isHead (at_ ▸ member)
  have nodup := holds.nodup head
  rw [at_] at fits nodup
  have inside : first ∈ lists head := at_ ▸ List.mem_cons_self
  have absent : head ∉ rest := fun member =>
    isHead (holds.inner (show head ∈ lists head from at_ ▸ List.mem_cons_of_mem _ member))
  constructor
  · refine (holds.take head).put_back isTrail ⟨fits.1.2, fits.2⟩ (fun a member => taken a ?_)
      (List.nodup_cons.mpr ⟨absent, (List.nodup_cons.mp nodup).2⟩)
    rcases List.mem_cons.mp member with rfl | member
    · exact List.mem_cons_self
    · exact List.mem_cons_of_mem _ (List.mem_cons_of_mem _ member)
  · refine ⟨holds.inner inside, fun h => ?_⟩
    rw [Function.update_apply]
    split
    · exact (List.nodup_cons.mp nodup).1
    · rename_i other
      exact fun there => other (holds.once there inside)

end Operations

end Update

end LinkMem
