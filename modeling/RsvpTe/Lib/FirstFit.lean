import Mathlib.Data.List.Nodup

/-!
# Tables filled first-fit

A table is a list of slots; `key` is the key of an occupied slot.  `place` overwrites the first slot
that is free or has the key, `clear` frees every slot of a key, and `lookup` reads the first.

One scan that looks for a free slot and for the key at the same time stops at whatever comes first.
So a table without duplicates keeps that property exactly when no free slot stands before the one
of the key: `nodup_place_iff`.
-/

namespace FirstFit

variable {σ κ : Type*} (key : σ → Option κ)

/-- The keys of the occupied slots. -/
def keys (slots : List σ) : List κ := slots.filterMap key

/-- A free slot has the key behind it. -/
def Gap (k : κ) : List σ → Prop
  | [] => False
  | s :: slots => (key s = none ∧ k ∈ keys key slots) ∨ Gap k slots

section Keys

variable {key} {k : κ} {slots : List σ}

theorem mem_keys : k ∈ keys key slots ↔ ∃ s ∈ slots, key s = some k := List.mem_filterMap

theorem keys_cons_some {s : σ} (taken : key s = some k) :
    keys key (s :: slots) = k :: keys key slots :=
  List.filterMap_cons_some taken

theorem keys_cons_none {s : σ} (empty : key s = none) :
    keys key (s :: slots) = keys key slots :=
  List.filterMap_cons_none empty

/-- Without a free slot every slot has a key. -/
theorem length_keys (full : ∀ s ∈ slots, key s ≠ none) :
    (keys key slots).length = slots.length := by
  induction slots with
  | nil => rfl
  | cons s slots ih =>
    obtain ⟨k, taken⟩ := Option.ne_none_iff_exists'.mp (full s List.mem_cons_self)
    rw [keys_cons_some taken, List.length_cons, List.length_cons,
      ih fun t mem => full t (List.mem_cons_of_mem s mem)]

theorem Gap.mem_keys (gap : Gap key k slots) : k ∈ keys key slots := by
  induction slots with
  | nil => exact gap.elim
  | cons s slots ih =>
    have behind : k ∈ keys key slots := by
      rcases gap with ⟨-, here⟩ | later
      · exact here
      · exact ih later
    cases slot : key s with
    | none => rwa [keys_cons_none slot]
    | some k' =>
      rw [keys_cons_some slot]
      exact List.mem_cons_of_mem k' behind

end Keys

variable [DecidableEq κ]

def place (k : κ) (write : σ → σ) : List σ → List σ
  | [] => []
  | s :: slots =>
    if key s = none ∨ key s = some k then write s :: slots else s :: place k write slots

def clear (k : κ) (free : σ → σ) (slots : List σ) : List σ :=
  slots.map fun s => if key s = some k then free s else s

def lookup (k : κ) (slots : List σ) : Option σ := slots.find? (key · = some k)

/-- There is a slot to place the key in. -/
def Room (k : κ) (slots : List σ) : Prop := ∃ s ∈ slots, key s = none ∨ key s = some k

/-- The slot that the key is placed in. -/
def slot (k : κ) (slots : List σ) : Option σ :=
  slots.find? fun s => key s = none ∨ key s = some k

variable {key} {k k' : κ} {write free : σ → σ} {slots : List σ}

theorem lookup_cons (s : σ) (slots : List σ) :
    lookup key k (s :: slots) = if key s = some k then some s else lookup key k slots := by
  by_cases here : key s = some k
  · rw [lookup, List.find?_cons_of_pos (by simpa using here), if_pos here]
  · rw [lookup, List.find?_cons_of_neg (by simpa using here), if_neg here]
    rfl

theorem lookup_isSome_iff : (lookup key k slots).isSome = true ↔ k ∈ keys key slots := by
  rw [lookup, List.find?_isSome, mem_keys]
  simp only [decide_eq_true_eq]

/-! ## Placing -/

variable (writes : ∀ s, key (write s) = some k)
include writes

theorem mem_keys_place (mem : k' ∈ keys key (place key k write slots)) :
    k' = k ∨ k' ∈ keys key slots := by
  induction slots with
  | nil => exact .inr mem
  | cons s slots ih =>
    rw [place] at mem
    split at mem
    · rw [keys_cons_some (writes s)] at mem
      refine (List.mem_cons.mp mem).imp_right fun behind => ?_
      obtain ⟨t, memt, taken⟩ := FirstFit.mem_keys.mp behind
      exact FirstFit.mem_keys.mpr ⟨t, List.mem_cons_of_mem s memt, taken⟩
    · rename_i other
      obtain ⟨j, taken⟩ := Option.ne_none_iff_exists'.mp fun empty => other (.inl empty)
      rw [keys_cons_some taken] at mem ⊢
      rcases List.mem_cons.mp mem with rfl | later
      · exact .inr List.mem_cons_self
      · exact (ih later).imp_right (List.mem_cons_of_mem j)

/-- Placing a key keeps a table free of duplicates exactly when no free slot stands before it. -/
theorem nodup_place_iff (unique : (keys key slots).Nodup) :
    (keys key (place key k write slots)).Nodup ↔ ¬ Gap key k slots := by
  induction slots with
  | nil => exact ⟨fun _ => id, fun _ => unique⟩
  | cons s slots ih =>
    cases slot : key s with
    | none =>
      rw [keys_cons_none slot] at unique
      rw [place, if_pos (.inl slot), keys_cons_some (writes s), List.nodup_cons]
      constructor
      · rintro ⟨absent, -⟩ (⟨-, here⟩ | later)
        · exact absent here
        · exact absent later.mem_keys
      · intro clean
        exact ⟨fun here => clean (.inl ⟨slot, here⟩), unique⟩
    | some j =>
      rw [keys_cons_some slot, List.nodup_cons] at unique
      have gap : Gap key k (s :: slots) ↔ Gap key k slots :=
        ⟨fun either => either.resolve_left fun both => (by cases slot.symm.trans both.1), .inr⟩
      rw [gap]
      by_cases same : j = k
      · subst same
        rw [place, if_pos (.inr slot), keys_cons_some (writes s), List.nodup_cons]
        exact ⟨fun _ later => unique.1 later.mem_keys, fun _ => unique⟩
      · have other : ¬ (key s = none ∨ key s = some k) := by
          rw [slot]
          rintro (empty | here)
          · cases empty
          · exact same (Option.some.inj here)
        rw [place, if_neg other, keys_cons_some slot, List.nodup_cons, ih unique.2]
        refine ⟨And.right, fun clean => ⟨fun mem => ?_, clean⟩⟩
        exact (mem_keys_place writes mem).elim same unique.1

/-- The key is found where it was placed. -/
theorem lookup_place_self (room : Room key k slots) :
    ∃ s, slot key k slots = some s ∧ lookup key k (place key k write slots) = some (write s) := by
  induction slots with
  | nil =>
    obtain ⟨s, mem, -⟩ := room
    cases mem
  | cons s slots ih =>
    rw [place]
    split
    · rename_i fits
      rw [lookup_cons, if_pos (writes s)]
      exact ⟨s, List.find?_cons_of_pos (decide_eq_true fits), rfl⟩
    · rename_i other
      obtain ⟨t, mem, fits⟩ := room
      have later : t ∈ slots := by
        rcases List.mem_cons.mp mem with rfl | later
        · exact absurd fits other
        · exact later
      obtain ⟨u, first, found⟩ := ih ⟨t, later, fits⟩
      rw [lookup_cons, if_neg fun here => other (.inr here)]
      have onward : slot key k (s :: slots) = slot key k slots :=
        List.find?_cons_of_neg fun fits => other (of_decide_eq_true fits)
      exact ⟨u, onward.trans first, found⟩

/-- Every other key is found as before. -/
theorem lookup_place_of_ne (other : k' ≠ k) :
    lookup key k' (place key k write slots) = lookup key k' slots := by
  induction slots with
  | nil => rfl
  | cons s slots ih =>
    rw [place]
    split
    · rename_i fits
      have before : key s ≠ some k' := by
        rintro here
        rcases fits with empty | same
        · cases empty.symm.trans here
        · exact other (Option.some.inj (here.symm.trans same))
      have after : key (write s) ≠ some k' := by
        rw [writes]
        exact fun same => other (Option.some.inj same).symm
      rw [lookup_cons, lookup_cons, if_neg before, if_neg after]
    · rw [lookup_cons, lookup_cons, ih]

omit writes

theorem length_place (slots : List σ) : (place key k write slots).length = slots.length := by
  induction slots with
  | nil => rfl
  | cons s slots ih =>
    rw [place]
    split
    · rfl
    · rw [List.length_cons, List.length_cons, ih]

/-! ## Clearing -/

theorem length_clear (slots : List σ) : (clear key k free slots).length = slots.length :=
  List.length_map _

variable (frees : ∀ s, key (free s) = none)
include frees

theorem keys_clear (slots : List σ) :
    keys key (clear key k free slots) = (keys key slots).filter (· ≠ k) := by
  induction slots with
  | nil => rfl
  | cons s slots ih =>
    change keys key ((if key s = some k then free s else s) :: clear key k free slots) = _
    cases slot : key s with
    | none =>
      rw [if_neg (fun here => by cases here), keys_cons_none slot, keys_cons_none slot, ih]
    | some j =>
      by_cases same : j = k
      · subst same
        rw [if_pos rfl, keys_cons_none (frees s), keys_cons_some slot, ih,
          List.filter_cons_of_neg (by simp)]
      · rw [if_neg (fun here => same (Option.some.inj here)), keys_cons_some slot,
          keys_cons_some slot, ih, List.filter_cons_of_pos (by simpa using same)]

theorem nodup_clear (unique : (keys key slots).Nodup) :
    (keys key (clear key k free slots)).Nodup := by
  rw [keys_clear frees]
  exact unique.filter _

theorem lookup_clear_self (slots : List σ) : lookup key k (clear key k free slots) = none := by
  rw [← Option.not_isSome_iff_eq_none, lookup_isSome_iff, keys_clear frees]
  simp

theorem lookup_clear_of_ne (other : k' ≠ k) (slots : List σ) :
    lookup key k' (clear key k free slots) = lookup key k' slots := by
  induction slots with
  | nil => rfl
  | cons s slots ih =>
    change lookup key k' ((if key s = some k then free s else s) :: clear key k free slots) = _
    split
    · rename_i here
      have before : key s ≠ some k' := fun here' =>
        other (Option.some.inj (here'.symm.trans here))
      have after : key (free s) ≠ some k' := by
        rw [frees]
        exact fun none => by cases none
      rw [lookup_cons, lookup_cons, if_neg before, if_neg after, ih]
    · rw [lookup_cons, lookup_cons, ih]

end FirstFit
