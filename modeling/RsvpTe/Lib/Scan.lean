import Mathlib.Logic.Function.Basic
import Mathlib.Data.List.Basic

/-!
# Scans

A scan is a loop that visits the members of a list once, in order.  `foldl_along` is its invariant
rule: the invariant names the members visited so far.  A table that a scan writes entry by entry
ends with the last value written under each key, which is all that `Writes.apply` says.
-/

namespace Scan

variable {α β κ : Type}

/-- An invariant of a scan, indexed by what has been visited. -/
theorem foldl_along {f : β → α → β} {I : List α → β → Prop} {visited rest : List α} {b : β}
    (held : I visited b)
    (step : ∀ pre a post c, visited ++ rest = pre ++ a :: post → I pre c → I (pre ++ [a]) (f c a)) :
    I (visited ++ rest) (rest.foldl f b) := by
  induction rest generalizing visited b with
  | nil =>
    rw [List.append_nil]
    exact held
  | cons a rest ih =>
    have shift : visited ++ a :: rest = visited ++ [a] ++ rest := by
      rw [List.append_assoc, List.singleton_append]
    rw [shift] at step ⊢
    exact ih (step visited a rest b shift.symm held) step

/-- The first of two members in the order of a list. -/
def Before (l : List α) (a b : α) : Prop := ∃ pre post, l = pre ++ b :: post ∧ a ∈ pre

theorem before_iff {l : List α} {a b : α} :
    Before l a b ↔ ∃ pre post, l = pre ++ a :: post ∧ b ∈ post := by
  constructor
  · rintro ⟨pre, post, rfl, mem⟩
    obtain ⟨early, late, rfl⟩ := List.append_of_mem mem
    refine ⟨early, late ++ b :: post, ?_, List.mem_append_right _ List.mem_cons_self⟩
    rw [List.append_assoc, List.cons_append]
  · rintro ⟨pre, post, rfl, mem⟩
    obtain ⟨early, late, rfl⟩ := List.append_of_mem mem
    refine ⟨pre ++ a :: early, late, ?_, List.mem_append_right _ List.mem_cons_self⟩
    rw [List.append_assoc, List.cons_append]

/-- The only occurrence of a member splits a list in one way. -/
theorem split_unique {l pre post pre' post' : List α} {b : α} (once : l.Nodup)
    (split : l = pre ++ b :: post) (split' : l = pre' ++ b :: post') :
    pre = pre' ∧ post = post' := by
  rw [split] at once split'
  obtain ⟨-, here, apart⟩ := List.nodup_append.mp once
  have inFront : b ∉ pre := fun old => apart b old b List.mem_cons_self rfl
  have behind : b ∉ post := (List.nodup_cons.mp here).1
  obtain ⟨front, -, back⟩ := (List.append_cons_inj_of_notMem inFront behind).mp split'
  exact ⟨front, back⟩

theorem Before.mem_front {l pre post : List α} {a b : α} (before : Before l a b) (once : l.Nodup)
    (split : l = pre ++ b :: post) : a ∈ pre := by
  obtain ⟨pre', post', split', mem⟩ := before
  rw [(split_unique once split split').1]
  exact mem

theorem Before.mem_back {l pre post : List α} {a b : α} (before : Before l a b) (once : l.Nodup)
    (split : l = pre ++ a :: post) : b ∈ post := by
  obtain ⟨pre', post', split', mem⟩ := before_iff.mp before
  rw [(split_unique once split split').2]
  exact mem

theorem filterMap_concat (f : α → Option β) (l : List α) (a : α) :
    (l ++ [a]).filterMap f = l.filterMap f ++ (f a).toList := by
  rw [List.filterMap_append]
  cases found : f a with
  | none => rw [List.filterMap_cons_none found]; rfl
  | some b => rw [List.filterMap_cons_some found]; rfl

/-- Two lists that are one under their names, and two functions that agree where the names do. -/
theorem filterMap_congr_of_map_eq {α' γ : Type} {l : List α} {l' : List α'} {name : α → γ}
    {name' : α' → γ} {f : α → Option β} {f' : α' → Option β} (same : l'.map name' = l.map name)
    (agree : ∀ a ∈ l, ∀ a' ∈ l', name' a' = name a → f' a' = f a) :
    l'.filterMap f' = l.filterMap f := by
  induction l generalizing l' with
  | nil =>
    rw [List.map_eq_nil_iff.mp same]
    rfl
  | cons a rest ih =>
    obtain ⟨a', rest', rfl, here, later⟩ := List.map_eq_cons_iff.mp same
    have one := agree a List.mem_cons_self a' List.mem_cons_self here
    have others := ih later fun c mem c' mem' =>
      agree c (List.mem_cons_of_mem _ mem) c' (List.mem_cons_of_mem _ mem')
    rw [List.filterMap_cons, List.filterMap_cons, one, others]

/-! ## Writes -/

variable [DecidableEq κ]

/-- The table after `writes`, the latest last. -/
def applyWrites (writes : List (κ × β)) (table : κ → Option β) : κ → Option β :=
  writes.foldl (fun table w => Function.update table w.1 (some w.2)) table

theorem applyWrites_append (first second : List (κ × β)) (table : κ → Option β) :
    applyWrites (first ++ second) table = applyWrites second (applyWrites first table) :=
  List.foldl_append

theorem applyWrites_of_forall_ne {writes : List (κ × β)} {k : κ} (other : ∀ w ∈ writes, w.1 ≠ k)
    (table : κ → Option β) : applyWrites writes table k = table k := by
  induction writes generalizing table with
  | nil => rfl
  | cons w rest ih =>
    have away : k ≠ w.1 := fun same => other w List.mem_cons_self same.symm
    exact (ih (fun w' mem => other w' (List.mem_cons_of_mem _ mem)) _).trans
      (Function.update_of_ne away _ _)

/-- The last write under a key stays. -/
theorem applyWrites_last {pre post : List (κ × β)} {w : κ × β} (last : ∀ w' ∈ post, w'.1 ≠ w.1)
    (table : κ → Option β) : applyWrites (pre ++ w :: post) table w.1 = some w.2 := by
  rw [applyWrites_append]
  exact (applyWrites_of_forall_ne last _).trans (Function.update_self _ _ _)

/-- A key that is written has a last write. -/
theorem exists_last {writes : List (κ × β)} {k : κ} (written : ∃ w ∈ writes, w.1 = k) :
    ∃ pre w post, writes = pre ++ w :: post ∧ w.1 = k ∧ ∀ w' ∈ post, w'.1 ≠ k := by
  induction writes with
  | nil =>
    obtain ⟨w, mem, -⟩ := written
    exact absurd mem List.not_mem_nil
  | cons v rest ih =>
    by_cases again : ∃ w ∈ rest, w.1 = k
    · obtain ⟨pre, w, post, rfl, here, last⟩ := ih again
      exact ⟨v :: pre, w, post, rfl, here, last⟩
    · obtain ⟨w, mem, here⟩ := written
      rcases List.mem_cons.mp mem with rfl | old
      · exact ⟨[], w, rest, rfl, here, fun w' mem' same => again ⟨w', mem', same⟩⟩
      · exact absurd ⟨w, old, here⟩ again

/-- All writes under a key agree. -/
theorem applyWrites_eq_of_forall {writes : List (κ × β)} {k : κ} {v : β}
    (written : ∃ w ∈ writes, w.1 = k) (agree : ∀ w ∈ writes, w.1 = k → w.2 = v)
    (table : κ → Option β) : applyWrites writes table k = some v := by
  obtain ⟨pre, w, post, rfl, rfl, last⟩ := exists_last written
  rw [applyWrites_last last, agree w (List.mem_append_right _ List.mem_cons_self) rfl]

/-- Writes lead to `goal` exactly if each of them agrees with it or is overwritten. -/
theorem applyWrites_eq_iff {writes : List (κ × β)} {table goal : κ → Option β}
    (outside : ∀ k, (∀ w ∈ writes, w.1 ≠ k) → table k = goal k) :
    applyWrites writes table = goal ↔ ∀ pre w post, writes = pre ++ w :: post →
      goal w.1 = some w.2 ∨ ∃ w' ∈ post, w'.1 = w.1 := by
  constructor
  · rintro rfl pre w post rfl
    by_cases again : ∃ w' ∈ post, w'.1 = w.1
    · exact .inr again
    · exact .inl (applyWrites_last (fun w' mem same => again ⟨w', mem, same⟩) table)
  · intro agrees
    funext k
    by_cases written : ∃ w ∈ writes, w.1 = k
    · obtain ⟨pre, w, post, rfl, rfl, last⟩ := exists_last written
      rw [applyWrites_last last]
      rcases agrees pre w post rfl with same | ⟨w', mem, again⟩
      · exact same.symm
      · exact absurd again (last w' mem)
    · have away : ∀ w ∈ writes, w.1 ≠ k := fun w mem same => written ⟨w, mem, same⟩
      rw [applyWrites_of_forall_ne away]
      exact outside k away

/-- The same for a scan in which each member makes at most one write. -/
theorem applyWrites_filterMap_eq_iff {l : List α} (once : l.Nodup) {f : α → Option (κ × β)}
    {table goal : κ → Option β}
    (outside : ∀ k, (∀ a ∈ l, ∀ w, f a = some w → w.1 ≠ k) → table k = goal k) :
    applyWrites (l.filterMap f) table = goal ↔ ∀ a ∈ l, ∀ w, f a = some w →
      goal w.1 = some w.2 ∨ ∃ a', Before l a a' ∧ ∃ w', f a' = some w' ∧ w'.1 = w.1 := by
  rw [applyWrites_eq_iff fun k away => outside k fun a mem w made =>
    away w (List.mem_filterMap.mpr ⟨a, mem, made⟩)]
  constructor
  · intro agrees a mem w made
    obtain ⟨pre, post, rfl⟩ := List.append_of_mem mem
    have split : (pre ++ a :: post).filterMap f = pre.filterMap f ++ w :: post.filterMap f := by
      rw [List.filterMap_append, List.filterMap_cons_some made]
    rcases agrees _ w _ split with same | ⟨w', later, again⟩
    · exact .inl same
    · obtain ⟨a', mem', made'⟩ := List.mem_filterMap.mp later
      exact .inr ⟨a', before_iff.mpr ⟨pre, post, rfl, mem'⟩, w', made', again⟩
  · intro agrees pre w post split
    obtain ⟨front, back, parts, -, rest⟩ := List.filterMap_eq_append_iff.mp split
    obtain ⟨skipped, a, behind, eq, silent, made, rfl⟩ := List.filterMap_eq_cons_iff.mp rest
    have whole : l = front ++ skipped ++ a :: behind := by
      rw [parts, eq, List.append_assoc]
    have mem : a ∈ l := by
      rw [whole]
      exact List.mem_append_right _ List.mem_cons_self
    rcases agrees a mem w made with same | ⟨a', before, w', made', again⟩
    · exact .inl same
    · exact .inr ⟨w', List.mem_filterMap.mpr
        ⟨a', before.mem_back once whole, made'⟩, again⟩

end Scan
