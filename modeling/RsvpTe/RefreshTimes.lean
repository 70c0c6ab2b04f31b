import RsvpTe.HandlerEffects
import RsvpTe.Messages

/-!
# Refresh and cleanup times

The timeouts that the handlers of PATH and RESV arm from the refresh period of the message.  The
scale factors are taken as the rationals they are written as, and a conversion to `uint32_t` as
truncation modulo `2 ^ 32`.

`RSVP_CLEANUP_MS` wraps from a period of 1227133514 ms on, and unlike `get_jittered_refresh` it does
not replace a period of zero by the default.
-/

namespace Rsvp

open Words

/-- `RSVP_CLEANUP_MS`: 3.5 times the period. -/
def rsvpCleanupMs (refreshMs : UInt32) : UInt32 := .ofNat (refreshMs.toNat * 7 / 2)

/-- `RAND_MAX`. -/
def randMax : Nat := 2 ^ 31 - 1

/-- The two ends between which `get_jittered_refresh` draws: 1.1 and 1.3, or 0.8 and 1.2, times the
period. -/
def jitterBounds (baseMs : UInt32) (isBackup : Bool) : UInt32 × UInt32 :=
  if isBackup then (.ofNat (baseMs.toNat * 11 / 10), .ofNat (baseMs.toNat * 13 / 10))
  else (.ofNat (baseMs.toNat * 8 / 10), .ofNat (baseMs.toNat * 12 / 10))

/-- `rand` is what `rand()` returns. -/
def getJitteredRefresh (baseMs : UInt32) (isBackup : Bool) (rand : Nat) : UInt32 :=
  let baseMs := if baseMs = 0 then rsvpRefreshMs else baseMs
  let (lo, hi) := jitterBounds baseMs isBackup
  let range := if hi > lo then hi - lo else 1
  lo + .ofNat rand % range

/-- The cleanup and the refresh timeout that `handle_path_message` computes from the PSB it has
updated. -/
def pathTimeouts (psb : PsbState) (rand : Nat) : UInt32 × UInt32 :=
  (rsvpCleanupMs psb.refreshMs, getJitteredRefresh psb.refreshMs (!psb.isIngress) rand)

/-- The same for the RSB in `handle_resv_message`. -/
def resvTimeouts (rsb : RsbState) (rand : Nat) : UInt32 × UInt32 :=
  (rsvpCleanupMs rsb.refreshMs, getJitteredRefresh rsb.refreshMs true rand)

/-- The period that the TIME_VALUES object of a message carries. -/
def MessageInfo.refreshMs (info : MessageInfo) : Option UInt32 :=
  (info.objs .timeValues).map fun o => ntohl (u32At o.data 0)

theorem pathUpdate_refreshMs {env : Env} {info : MessageInfo} {refreshMs : UInt32}
    (carried : info.refreshMs = some refreshMs) (psb : PsbState) :
    (pathUpdate env info psb).refreshMs = refreshMs := by
  obtain ⟨o, time, rfl⟩ := Option.map_eq_some_iff.mp carried
  rw [pathUpdate_eq]
  dsimp only
  rw [time, Option.elim_some]

theorem resvUpdate_refreshMs {info : MessageInfo} {refreshMs : UInt32}
    (carried : info.refreshMs = some refreshMs) (rsb : RsbState) :
    (resvUpdate info rsb).refreshMs = refreshMs := by
  obtain ⟨o, time, rfl⟩ := Option.map_eq_some_iff.mp carried
  unfold resvUpdate
  rw [time]
  cases info.objs .flowspec <;> cases info.objs .style <;> rfl

/-! ## The intervals -/

/-- The period that `get_jittered_refresh` works with. -/
def basePeriod (refreshMs : UInt32) : UInt32 := if refreshMs = 0 then rsvpRefreshMs else refreshMs

/-- An interval is the lower end, or lies between the two ends. -/
theorem getJitteredRefresh_cases (refreshMs : UInt32) (isBackup : Bool) (rand : Nat)
    {lo hi : UInt32} (ends : jitterBounds (basePeriod refreshMs) isBackup = (lo, hi)) :
    (hi ≤ lo ∧ getJitteredRefresh refreshMs isBackup rand = lo) ∨
      (lo < hi ∧ (getJitteredRefresh refreshMs isBackup rand).toNat =
        lo.toNat + rand % 2 ^ 32 % (hi.toNat - lo.toNat)) := by
  have spread : getJitteredRefresh refreshMs isBackup rand =
      lo + .ofNat rand % (if hi > lo then hi - lo else 1) := by
    unfold getJitteredRefresh
    dsimp only
    rw [basePeriod] at ends
    rw [ends]
  rw [spread]
  by_cases wide : lo < hi
  · refine .inr ⟨wide, ?_⟩
    have above : lo.toNat < hi.toNat := wide
    have small : rand % 2 ^ 32 % (hi.toNat - lo.toNat) < hi.toNat - lo.toNat :=
      Nat.mod_lt _ (by omega)
    have top := hi.toNat_lt
    rw [if_pos wide, UInt32.toNat_add, UInt32.toNat_mod, UInt32.toNat_ofNat',
      UInt32.toNat_sub_of_le _ _ (UInt32.le_of_lt wide)]
    exact Nat.mod_eq_of_lt (by omega)
  · refine .inl ⟨UInt32.not_lt.mp wide, ?_⟩
    rw [if_neg wide, UInt32.mod_one, UInt32.add_zero]

/-- The cleanup timeout is longer than every interval drawn for the period. -/
def Outlives (cleanupMs refreshMs : UInt32) : Prop :=
  ∀ isBackup rand, rand ≤ randMax → getJitteredRefresh refreshMs isBackup rand < cleanupMs

/-- The periods up to where the cleanup timeout first wraps, and after each wrap those from which on
it is ahead again. -/
def PeriodSafe (refreshMs : UInt32) : Prop :=
  0 < refreshMs ∧ refreshMs ≤ 1227133513 ∨
    1952257862 ≤ refreshMs ∧ refreshMs ≤ 2454267026 ∨
    3579139414 ≤ refreshMs ∧ refreshMs ≤ 3681400539

theorem toNat_rsvpCleanupMs (refreshMs : UInt32) :
    (rsvpCleanupMs refreshMs).toNat = refreshMs.toNat * 7 / 2 % 2 ^ 32 := UInt32.toNat_ofNat'

theorem basePeriod_of_pos {refreshMs : UInt32} (pos : 0 < refreshMs) :
    basePeriod refreshMs = refreshMs :=
  if_neg (UInt32.pos_iff_ne_zero.mp pos)

/-- An interval lies below a bound on the lower end, if the upper end is below it too or wraps to
below the lower end. -/
theorem getJitteredRefresh_lt {refreshMs : UInt32} {isBackup : Bool} {rand bound low high : Nat}
    (ends : jitterBounds (basePeriod refreshMs) isBackup = (.ofNat low, .ofNat high))
    (below : low < bound)
    (upper : high ≤ bound ∨ low < 2 ^ 32 ∧ 2 ^ 32 ≤ high ∧ high ≤ low + 2 ^ 32) :
    (getJitteredRefresh refreshMs isBackup rand).toNat < bound := by
  have low_le := Nat.mod_le low (2 ^ 32)
  rcases getJitteredRefresh_cases refreshMs isBackup rand ends with ⟨-, at_lo⟩ | ⟨wide, drawn⟩
  · rw [at_lo, UInt32.toNat_ofNat']
    exact low_le.trans_lt below
  · rw [UInt32.lt_iff_toNat_lt, UInt32.toNat_ofNat', UInt32.toNat_ofNat'] at wide
    rw [drawn, UInt32.toNat_ofNat', UInt32.toNat_ofNat']
    have small : rand % 2 ^ 32 % (high % 2 ^ 32 - low % 2 ^ 32) < high % 2 ^ 32 - low % 2 ^ 32 :=
      Nat.mod_lt _ (Nat.sub_pos_of_lt wide)
    rcases upper with within | ⟨narrow, wraps, high_le⟩
    · have high_mod := Nat.mod_le high (2 ^ 32)
      omega
    · have low_mod : low % 2 ^ 32 = low := Nat.mod_eq_of_lt narrow
      have high_mod : high % 2 ^ 32 ≤ high - 2 ^ 32 := by
        rw [Nat.mod_eq_sub_mod wraps]
        exact Nat.mod_le _ _
      omega

theorem jitterBounds_basePeriod {refreshMs : UInt32} (pos : 0 < refreshMs) :
    jitterBounds (basePeriod refreshMs) true =
      (.ofNat (refreshMs.toNat * 11 / 10), .ofNat (refreshMs.toNat * 13 / 10)) ∧
    jitterBounds (basePeriod refreshMs) false =
      (.ofNat (refreshMs.toNat * 8 / 10), .ofNat (refreshMs.toNat * 12 / 10)) := by
  rw [basePeriod_of_pos pos]
  exact ⟨rfl, rfl⟩

/-- A value that wraps `k` times. -/
theorem mod_of_wraps {n k : Nat} (low : k * 2 ^ 32 ≤ n) (high : n < (k + 1) * 2 ^ 32) :
    n % 2 ^ 32 = n - k * 2 ^ 32 := by
  omega

theorem PeriodSafe.outlives {refreshMs : UInt32} (safe : PeriodSafe refreshMs) :
    Outlives (rsvpCleanupMs refreshMs) refreshMs := by
  intro isBackup rand _
  have pos : 0 < refreshMs := by
    rcases safe with ⟨pos, -⟩ | ⟨low, -⟩ | ⟨low, -⟩
    · exact pos
    · exact UInt32.lt_of_lt_of_le (by decide) low
    · exact UInt32.lt_of_lt_of_le (by decide) low
  obtain ⟨backup, normal⟩ := jitterBounds_basePeriod pos
  rw [UInt32.lt_iff_toNat_lt, toNat_rsvpCleanupMs]
  simp only [PeriodSafe, UInt32.lt_iff_toNat_lt, UInt32.le_iff_toNat_le, UInt32.reduceToNat] at safe
  generalize refreshMs.toNat = r at safe backup normal ⊢
  -- How often the cleanup timeout has wrapped.
  rcases safe with early | middle | late
  · rw [Nat.mod_eq_of_lt (by omega : r * 7 / 2 < 2 ^ 32)]
    cases isBackup with
    | true => exact getJitteredRefresh_lt backup (by omega) (.inl (by omega))
    | false => exact getJitteredRefresh_lt normal (by omega) (.inl (by omega))
  · rw [mod_of_wraps (k := 1) (by omega) (by omega)]
    cases isBackup with
    | true => exact getJitteredRefresh_lt backup (by omega) (.inl (by omega))
    | false => exact getJitteredRefresh_lt normal (by omega) (.inl (by omega))
  · rw [mod_of_wraps (k := 2) (by omega) (by omega)]
    cases isBackup with
    | true => exact getJitteredRefresh_lt backup (by omega) (.inr (by omega))
    | false => exact getJitteredRefresh_lt normal (by omega) (.inr (by omega))

/-- The interval at the upper end, or at the lower end if the upper end is not above it. -/
theorem exists_getJitteredRefresh {refreshMs : UInt32} {isBackup : Bool} {low high : Nat}
    (ends : jitterBounds (basePeriod refreshMs) isBackup = (.ofNat low, .ofNat high))
    (small : low < 2 ^ 32) (span : high ≤ low + randMax) :
    ∃ rand ≤ randMax, low ≤ (getJitteredRefresh refreshMs isBackup rand).toNat ∧
      (high < 2 ^ 32 → high ≤ (getJitteredRefresh refreshMs isBackup rand).toNat + 1) := by
  have low_mod : (UInt32.ofNat low).toNat = low := by
    rw [UInt32.toNat_ofNat', Nat.mod_eq_of_lt small]
  rcases getJitteredRefresh_cases refreshMs isBackup (high - low - 1) ends with
    ⟨narrow, at_lo⟩ | ⟨wide, drawn⟩
  · refine ⟨high - low - 1, by omega, ?_⟩
    rw [at_lo, low_mod]
    refine ⟨Nat.le_refl low, fun fits => ?_⟩
    rw [UInt32.le_iff_toNat_le, low_mod, UInt32.toNat_ofNat', Nat.mod_eq_of_lt fits] at narrow
    omega
  · refine ⟨high - low - 1, by omega, ?_⟩
    rw [drawn, low_mod]
    refine ⟨Nat.le_add_right _ _, fun fits => ?_⟩
    have high_mod : (UInt32.ofNat high).toNat = high := by
      rw [UInt32.toNat_ofNat', Nat.mod_eq_of_lt fits]
    rw [UInt32.lt_iff_toNat_lt, low_mod, high_mod] at wide
    rw [high_mod, Nat.mod_eq_of_lt (by omega), Nat.mod_eq_of_lt (by omega)]
    omega

/-- Between the safe periods some interval is as long as the cleanup timeout. -/
theorem Outlives.safe {refreshMs : UInt32}
    (outlives : Outlives (rsvpCleanupMs refreshMs) refreshMs) : PeriodSafe refreshMs := by
  have pos : 0 < refreshMs := by
    refine UInt32.pos_iff_ne_zero.mpr fun zero => ?_
    subst zero
    exact absurd (outlives false 0 (Nat.zero_le _)) (by decide)
  obtain ⟨backup, normal⟩ := jitterBounds_basePeriod pos
  have size := refreshMs.toNat_lt
  have below : ∀ isBackup rand, rand ≤ randMax →
      (getJitteredRefresh refreshMs isBackup rand).toNat < refreshMs.toNat * 7 / 2 % 2 ^ 32 := by
    intro isBackup rand drawn
    rw [← toNat_rsvpCleanupMs]
    exact UInt32.lt_iff_toNat_lt.mp (outlives isBackup rand drawn)
  simp only [PeriodSafe, UInt32.lt_iff_toNat_lt, UInt32.le_iff_toNat_le, UInt32.reduceToNat] at pos ⊢
  generalize refreshMs.toNat = r at pos size backup normal below ⊢
  by_contra gap
  rcases lt_or_ge r 3681400540 with before | after
  · obtain ⟨rand, drawn, above_low, above_high⟩ :=
      exists_getJitteredRefresh backup (by omega) (by unfold randMax; omega)
    have short := below true rand drawn
    rcases lt_or_ge r 2454267027 with first | second
    · rw [mod_of_wraps (k := 1) (by omega) (by omega)] at short
      have := above_high (by omega)
      omega
    · rw [mod_of_wraps (k := 2) (by omega) (by omega)] at short
      omega
  · obtain ⟨rand, drawn, above_low, -⟩ :=
      exists_getJitteredRefresh normal (by omega) (by unfold randMax; omega)
    have short := below false rand drawn
    rw [mod_of_wraps (k := 3) (by omega) (by omega)] at short
    omega

/-- The cleanup timeouts that the handlers arm after storing a period are longer than every interval
drawn for it exactly for the safe periods. -/
theorem armedCleanup_outlives_iff {env : Env} {info : MessageInfo} {refreshMs : UInt32}
    (carried : info.refreshMs = some refreshMs) (psb : PsbState) (rsb : RsbState) (rand : Nat) :
    (Outlives (pathTimeouts (pathUpdate env info psb) rand).1 refreshMs ↔ PeriodSafe refreshMs) ∧
    (Outlives (resvTimeouts (resvUpdate info rsb) rand).1 refreshMs ↔ PeriodSafe refreshMs) := by
  unfold pathTimeouts resvTimeouts
  rw [pathUpdate_refreshMs carried, resvUpdate_refreshMs carried]
  exact ⟨⟨Outlives.safe, PeriodSafe.outlives⟩, ⟨Outlives.safe, PeriodSafe.outlives⟩⟩

section Sample

/-- A message whose TIME_VALUES object has the given payload. -/
def timedInfo (period : Bytes) : MessageInfo :=
  (MessageInfo.ofHeaders [] (CommonHdr.ofBytes [])).store .timeValues
    ⟨classTimeValues, 1, 8, period⟩

/-- The default period of 30 seconds. -/
theorem armedCleanup_outlives_default :
    Outlives (pathTimeouts (pathUpdate (sampleEnv (fun _ => false) 0) (timedInfo [0, 0, 117, 48])
      .zero) 0).1 30000 ∧
    Outlives (resvTimeouts (resvUpdate (timedInfo [0, 0, 117, 48]) .zero) 0).1 30000 := by
  have safe : PeriodSafe 30000 := .inl ⟨by decide, by decide⟩
  have both := @armedCleanup_outlives_iff (sampleEnv (fun _ => false) 0)
    (timedInfo [0, 0, 117, 48]) 30000 rfl .zero .zero 0
  exact ⟨both.1.mpr safe, both.2.mpr safe⟩

/-- For a period of zero the state is to go at once, and the first refresh comes after 24 seconds. -/
theorem zeroPeriod_not_outlived :
    (timedInfo [0, 0, 0, 0]).refreshMs = some 0 ∧
    pathTimeouts (pathUpdate (sampleEnv (fun _ => false) 0) (timedInfo [0, 0, 0, 0])
      { PsbState.zero with isIngress := true }) 0 = (0, 24000) ∧
    ¬ Outlives (pathTimeouts (pathUpdate (sampleEnv (fun _ => false) 0) (timedInfo [0, 0, 0, 0])
      .zero) 0).1 0 := by
  refine ⟨rfl, rfl, fun outlives => ?_⟩
  exact absurd (outlives false 0 (Nat.zero_le _)) (by decide)

end Sample

end Rsvp
