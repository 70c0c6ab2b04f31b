import Mathlib.Data.Set.Lattice
import Mathlib.Logic.Function.Basic
import Mathlib.Logic.Relation

/-!
# Networks of components

Components act one at a time and know of each other only through the facts they have published:
messages they sent, state that others may rely on.  A fact is never withdrawn, so a message can be
acted on late, twice or never.

`Contract` is the rely-guarantee rule for such a network.  Each component has an invariant relative
to the published facts; it may rely on every published fact being good, and it guarantees that for
its own.
-/

variable {ι σ α : Type*}

/-- Components indexed by `ι` with states in `σ` that publish facts in `α`.  `step i A s s'` says
that component `i` may move from `s` to `s'` when the facts `A` are published. -/
structure Network (ι σ α : Type*) where
  init : ι → σ
  step : ι → Set α → σ → σ → Prop
  gives : ι → σ → Set α

namespace Network

/-- What the components have published together. -/
def facts (N : Network ι σ α) (c : ι → σ) : Set α := ⋃ i, N.gives i (c i)

/-- The configurations of every run, with any interleaving of the components. -/
inductive Reach [DecidableEq ι] (N : Network ι σ α) : (ι → σ) → Prop
  | init : Reach N N.init
  | step {c : ι → σ} {i : ι} {s' : σ} : Reach N c → N.step i (N.facts c) (c i) s' →
    Reach N (Function.update c i s')

/-- One component moves. -/
def Moves [DecidableEq ι] (N : Network ι σ α) (c c' : ι → σ) : Prop :=
  ∃ i s', N.step i (N.facts c) (c i) s' ∧ c' = Function.update c i s'

theorem Reach.moves [DecidableEq ι] {N : Network ι σ α} {c c' : ι → σ} (reach : N.Reach c)
    (moves : Relation.ReflTransGen N.Moves c c') : N.Reach c' := by
  induction moves with
  | refl => exact reach
  | tail _ last ih =>
    obtain ⟨i, s', moved, rfl⟩ := last
    exact .step ih moved

/-- What each component keeps, relying on the facts of the others. -/
structure Contract (N : Network ι σ α) where
  Inv : ι → Set α → σ → Prop
  Good : Set α → α → Prop
  mono : ∀ {i A B s}, A ⊆ B → Inv i A s → Inv i B s
  init : ∀ i A, Inv i A (N.init i)
  publishes : ∀ {i A s}, N.gives i s ⊆ A → Inv i A s → ∀ a ∈ N.gives i s, Good A a
  grows : ∀ {i A s s'}, (∀ a ∈ A, Good A a) → Inv i A s → N.step i A s s' →
    N.gives i s ⊆ N.gives i s'
  keeps : ∀ {i A s s'}, (∀ a ∈ A, Good A a) → Inv i A s → N.step i A s s' → Inv i A s'

variable {N : Network ι σ α}

theorem gives_subset_facts (c : ι → σ) (i : ι) : N.gives i (c i) ⊆ N.facts c :=
  Set.subset_iUnion (fun i => N.gives i (c i)) i

/-- Published facts stay published when a component publishes more. -/
theorem facts_subset_update [DecidableEq ι] {c : ι → σ} {i : ι} {s' : σ}
    (grows : N.gives i (c i) ⊆ N.gives i s') : N.facts c ⊆ N.facts (Function.update c i s') := by
  intro a published
  obtain ⟨j, given⟩ := Set.mem_iUnion.mp published
  refine Set.mem_iUnion.mpr ⟨j, ?_⟩
  by_cases acted : j = i
  · subst acted
    rw [Function.update_self]
    exact grows given
  · rw [Function.update_of_ne acted]
    exact given

namespace Contract

variable (K : N.Contract)

/-- Where every component keeps its invariant, every fact is good. -/
theorem good {c : ι → σ} (inv : ∀ i, K.Inv i (N.facts c) (c i)) :
    ∀ a ∈ N.facts c, K.Good (N.facts c) a := by
  intro a published
  obtain ⟨i, given⟩ := Set.mem_iUnion.mp published
  exact K.publishes (gives_subset_facts c i) (inv i) a given

/-- Every component keeps its invariant in every run. -/
theorem inv_of_reach [DecidableEq ι] {c : ι → σ} (reach : N.Reach c) (i : ι) :
    K.Inv i (N.facts c) (c i) := by
  induction reach generalizing i with
  | init => exact K.init i _
  | @step c j s' _ moves ih =>
    have good := K.good ih
    have grown := facts_subset_update (K.grows good (ih j) moves)
    by_cases acted : i = j
    · subst acted
      rw [Function.update_self]
      exact K.mono grown (K.keeps good (ih i) moves)
    · rw [Function.update_of_ne acted]
      exact K.mono grown (ih i)

end Contract

end Network
