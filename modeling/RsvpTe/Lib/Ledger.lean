/-!
# Ledgers of exclusively held resources

A pool hands out resources, holders keep them, and a third party may carry a resource that
somebody holds (`carried`).  A ledger is `Sound` when every resource has at most one holder, the
pool counts exactly the held ones as taken, and nothing is carried that nobody holds.  It is
`Covered` when, conversely, everything held is carried.  The three kinds of change below are what
such a system does.
-/

/-- Who holds what, what the pool counts as taken, and what is carried. -/
structure Ledger (ρ α : Type) : Type where
  holds : ρ → α → Prop
  taken : ρ → Prop
  carried : ρ → Prop

namespace Ledger

variable {ρ α : Type} {x y : Ledger ρ α}

structure Sound (x : Ledger ρ α) : Prop where
  exclusive : ∀ l a b, x.holds l a → x.holds l b → a = b
  taken_iff : ∀ l, x.taken l ↔ ∃ a, x.holds l a
  backed : ∀ l, x.carried l → ∃ a, x.holds l a

def Covered (x : Ledger ρ α) : Prop := ∀ l a, x.holds l a → x.carried l

/-- Nobody takes or returns anything; what is newly carried was held. -/
structure Same (x y : Ledger ρ α) : Prop where
  holds : ∀ l a, y.holds l a ↔ x.holds l a
  taken : ∀ l, y.taken l ↔ x.taken l
  carried : ∀ l, y.carried l → x.carried l ∨ ∃ a, x.holds l a
  kept : ∀ l, x.carried l → y.carried l

/-- `a` takes the free resource `l`. -/
structure Takes (x y : Ledger ρ α) (l : ρ) (a : α) : Prop where
  free : ¬ x.taken l
  holds : ∀ m b, y.holds m b ↔ (m = l ∧ b = a) ∨ x.holds m b
  taken : ∀ m, y.taken m ↔ m = l ∨ x.taken m
  carried : ∀ m, y.carried m → m = l ∨ x.carried m
  kept : ∀ m, x.carried m → y.carried m

/-- `a` returns whatever it holds. -/
structure Returns (x y : Ledger ρ α) (a : α) : Prop where
  holds : ∀ l b, y.holds l b ↔ x.holds l b ∧ b ≠ a
  taken : ∀ l, y.taken l ↔ x.taken l ∧ ¬ x.holds l a
  carried : ∀ l, y.carried l ↔ x.carried l ∧ ¬ x.holds l a

theorem Sound.same (sound : x.Sound) (same : x.Same y) : y.Sound where
  exclusive := fun l a b ha hb =>
    sound.exclusive l a b ((same.holds l a).mp ha) ((same.holds l b).mp hb)
  taken_iff := by
    intro l
    rw [same.taken, sound.taken_iff]
    exact exists_congr fun a => (same.holds l a).symm
  backed := by
    intro l carried
    rcases same.carried l carried with old | ⟨a, held⟩
    · obtain ⟨a, held⟩ := sound.backed l old
      exact ⟨a, (same.holds l a).mpr held⟩
    · exact ⟨a, (same.holds l a).mpr held⟩

theorem Sound.takes (sound : x.Sound) {l : ρ} {a : α} (takes : x.Takes y l a) : y.Sound := by
  have unheld : ∀ b, ¬ x.holds l b := fun b held =>
    takes.free ((sound.taken_iff l).mpr ⟨b, held⟩)
  refine ⟨?_, ?_, ?_⟩
  · intro m b c hb hc
    rcases (takes.holds m b).mp hb with ⟨rfl, rfl⟩ | oldB
    · rcases (takes.holds m c).mp hc with ⟨-, rfl⟩ | oldC
      · rfl
      · exact absurd oldC (unheld c)
    · rcases (takes.holds m c).mp hc with ⟨rfl, rfl⟩ | oldC
      · exact absurd oldB (unheld b)
      · exact sound.exclusive m b c oldB oldC
  · intro m
    rw [takes.taken, sound.taken_iff]
    constructor
    · rintro (rfl | ⟨b, held⟩)
      · exact ⟨a, (takes.holds m a).mpr (.inl ⟨rfl, rfl⟩)⟩
      · exact ⟨b, (takes.holds m b).mpr (.inr held)⟩
    · rintro ⟨b, held⟩
      rcases (takes.holds m b).mp held with ⟨rfl, -⟩ | old
      · exact .inl rfl
      · exact .inr ⟨b, old⟩
  · intro m carried
    rcases takes.carried m carried with rfl | old
    · exact ⟨a, (takes.holds m a).mpr (.inl ⟨rfl, rfl⟩)⟩
    · obtain ⟨b, held⟩ := sound.backed m old
      exact ⟨b, (takes.holds m b).mpr (.inr held)⟩

theorem Sound.returns (sound : x.Sound) {a : α} (returns : x.Returns y a) : y.Sound := by
  -- What is left belongs to somebody else.
  have other : ∀ l b, x.holds l b → ¬ x.holds l a → y.holds l b := by
    intro l b held unheld
    refine (returns.holds l b).mpr ⟨held, ?_⟩
    rintro rfl
    exact unheld held
  refine ⟨?_, ?_, ?_⟩
  · intro l b c hb hc
    exact sound.exclusive l b c ((returns.holds l b).mp hb).1 ((returns.holds l c).mp hc).1
  · intro l
    rw [returns.taken, sound.taken_iff]
    constructor
    · rintro ⟨⟨b, held⟩, unheld⟩
      exact ⟨b, other l b held unheld⟩
    · rintro ⟨b, held⟩
      obtain ⟨old, ne⟩ := (returns.holds l b).mp held
      exact ⟨⟨b, old⟩, fun heldA => ne (sound.exclusive l b a old heldA)⟩
  · intro l carried
    obtain ⟨old, unheld⟩ := (returns.carried l).mp carried
    obtain ⟨b, held⟩ := sound.backed l old
    exact ⟨b, other l b held unheld⟩

theorem Covered.same (covered : x.Covered) (same : x.Same y) : y.Covered := fun l a held =>
  same.kept l (covered l a ((same.holds l a).mp held))

/-- A resource that is carried as soon as it is taken. -/
theorem Covered.takes (covered : x.Covered) {l : ρ} {a : α} (takes : x.Takes y l a)
    (carried : y.carried l) : y.Covered := by
  intro m b held
  rcases (takes.holds m b).mp held with ⟨rfl, -⟩ | old
  · exact carried
  · exact takes.kept m (covered m b old)

theorem Covered.returns (covered : x.Covered) (sound : x.Sound) {a : α}
    (returns : x.Returns y a) : y.Covered := by
  intro l b held
  obtain ⟨old, ne⟩ := (returns.holds l b).mp held
  exact (returns.carried l).mpr
    ⟨covered l b old, fun heldA => ne (sound.exclusive l b a old heldA)⟩

end Ledger
