import QuikSyncAdapters.Library.PyValue

/-! Rounding to the binary64 grid, seen from the rationals: which of them round to a double that is
not negative, and which to one that is at most one. -/

namespace Py

theorem roundEven_near (q : ℚ) : |q - roundEven q| ≤ 1 / 2 := by
  have hlow : (⌊q⌋ : ℚ) ≤ q := Int.floor_le q
  have hhigh : q < ⌊q⌋ + 1 := Int.lt_floor_add_one q
  unfold roundEven
  dsimp only
  split_ifs <;> push_cast <;> apply abs_le.mpr <;> constructor <;> linarith

theorem roundEven_tie {q : ℚ} (htie : |q - roundEven q| = 1 / 2) : roundEven q % 2 = 0 := by
  have hhigh : q < ⌊q⌋ + 1 := Int.lt_floor_add_one q
  have hlow : (⌊q⌋ : ℚ) ≤ q := Int.floor_le q
  revert htie
  unfold roundEven
  dsimp only
  split_ifs with hless hmore heven
  · rw [abs_of_nonneg (by linarith)]
    intro htie
    linarith
  · push_cast
    rw [abs_of_nonpos (by linarith)]
    intro htie
    linarith
  · intro _
    exact heven
  · intro _
    omega

theorem roundEven_le_iff {n : ℤ} (hn : n % 2 = 0) (q : ℚ) :
    roundEven q ≤ n ↔ q ≤ n + 1 / 2 := by
  have hnear := abs_le.mp (roundEven_near q)
  constructor
  · intro h
    have hcast : (roundEven q : ℚ) ≤ n := by exact_mod_cast h
    linarith [hnear.2]
  · intro h
    by_contra hgt
    have hnext : (n : ℚ) + 1 ≤ roundEven q := by exact_mod_cast not_le.mp hgt
    have htie : |q - roundEven q| = 1 / 2 := by
      rw [abs_of_nonpos (by linarith)]
      linarith [hnear.1]
    have hodd : roundEven q = n + 1 := by
      have hle : (roundEven q : ℚ) ≤ n + 1 := by linarith [hnear.1]
      exact le_antisymm (by exact_mod_cast hle) (not_le.mp hgt)
    have heven := roundEven_tie htie
    omega

theorem le_roundEven_iff {n : ℤ} (hn : n % 2 = 0) (q : ℚ) :
    n ≤ roundEven q ↔ n - 1 / 2 ≤ q := by
  have hnear := abs_le.mp (roundEven_near q)
  constructor
  · intro h
    have hcast : (n : ℚ) ≤ roundEven q := by exact_mod_cast h
    linarith [hnear.1]
  · intro h
    by_contra hlt
    have hprev : (roundEven q : ℚ) + 1 ≤ n := by exact_mod_cast not_le.mp hlt
    have htie : |q - roundEven q| = 1 / 2 := by
      rw [abs_of_nonneg (by linarith)]
      linarith [hnear.2]
    have hodd : roundEven q + 1 = n := by
      have hge : (n : ℚ) ≤ roundEven q + 1 := by linarith [hnear.2]
      exact le_antisymm (not_le.mp hlt) (by exact_mod_cast hge)
    have heven := roundEven_tie htie
    omega

def lastPlace (q : ℚ) : ℤ := max (Int.log 2 |q| - 52) (-1074)

theorem le_lastPlace (q : ℚ) : -1074 ≤ lastPlace q := le_max_right _ _

def onGrid (q : ℚ) : ℚ := roundEven (q / 2 ^ lastPlace q) * 2 ^ lastPlace q

theorem Double.round_eq {q : ℚ} (hq : q ≠ 0) :
    Double.round q =
      if 2 ^ 1024 ≤ |onGrid q| then .inf (decide (q < 0)) else .finite (onGrid q) := by
  unfold Double.round
  rw [if_neg hq]
  rfl

theorem onGrid_le_iff {n : ℤ} (hn : n % 2 = 0) (q : ℚ) :
    onGrid q ≤ n * 2 ^ lastPlace q ↔ q ≤ (n + 1 / 2) * 2 ^ lastPlace q := by
  have hpos : (0 : ℚ) < 2 ^ lastPlace q := zpow_pos two_pos _
  calc onGrid q ≤ n * 2 ^ lastPlace q
      ↔ (roundEven (q / 2 ^ lastPlace q) : ℚ) ≤ n := mul_le_mul_iff_left₀ hpos
    _ ↔ roundEven (q / 2 ^ lastPlace q) ≤ n := Int.cast_le
    _ ↔ q / 2 ^ lastPlace q ≤ n + 1 / 2 := roundEven_le_iff hn _
    _ ↔ q ≤ (n + 1 / 2) * 2 ^ lastPlace q := div_le_iff₀ hpos

theorem le_onGrid_iff {n : ℤ} (hn : n % 2 = 0) (q : ℚ) :
    n * 2 ^ lastPlace q ≤ onGrid q ↔ (n - 1 / 2) * 2 ^ lastPlace q ≤ q := by
  have hpos : (0 : ℚ) < 2 ^ lastPlace q := zpow_pos two_pos _
  calc n * 2 ^ lastPlace q ≤ onGrid q
      ↔ (n : ℚ) ≤ roundEven (q / 2 ^ lastPlace q) := mul_le_mul_iff_left₀ hpos
    _ ↔ n ≤ roundEven (q / 2 ^ lastPlace q) := Int.cast_le
    _ ↔ n - 1 / 2 ≤ q / 2 ^ lastPlace q := le_roundEven_iff hn _
    _ ↔ (n - 1 / 2) * 2 ^ lastPlace q ≤ q := le_div_iff₀ hpos

theorem two_pow_lastPlace_le {q : ℚ} (hq : q ≠ 0) (hnormal : -1074 < lastPlace q) :
    2 ^ 52 * 2 ^ lastPlace q ≤ |q| := by
  have hplace : lastPlace q = Int.log 2 |q| - 52 := by
    unfold lastPlace at hnormal ⊢
    omega
  calc (2 : ℚ) ^ 52 * 2 ^ lastPlace q = 2 ^ Int.log 2 |q| := by
        rw [hplace, ← zpow_natCast, ← zpow_add₀ two_ne_zero]
        congr 1
        omega
    _ ≤ |q| := by exact_mod_cast Int.zpow_log_le_self one_lt_two (abs_pos.mpr hq)

theorem abs_lt_one_of_lastPlace {q : ℚ} (hplace : lastPlace q < -52) : |q| < 1 := by
  have hlog : Int.log 2 |q| + 1 ≤ 0 := by
    unfold lastPlace at hplace
    omega
  calc |q| < (2 : ℕ) ^ (Int.log 2 |q| + 1) := Int.lt_zpow_succ_log_self one_lt_two |q|
    _ ≤ ((2 : ℕ) : ℚ) ^ (0 : ℤ) := zpow_le_zpow_right₀ (by norm_num) hlog
    _ = 1 := zpow_zero _

theorem onGrid_nonneg_iff {q : ℚ} (hq : q ≠ 0) : 0 ≤ onGrid q ↔ -(2 ^ (-1075 : ℤ)) ≤ q := by
  have hiff := le_onGrid_iff (n := 0) rfl q
  rw [Int.cast_zero, zero_mul] at hiff
  rw [hiff]
  have hpos : (0 : ℚ) < 2 ^ lastPlace q := zpow_pos two_pos _
  have hleast : (0 : ℚ) < 2 ^ (-1075 : ℤ) := zpow_pos two_pos _
  have hhalf : (2 : ℚ) ^ (-1074 : ℤ) = 2 * 2 ^ (-1075 : ℤ) := by
    rw [← zpow_one_add₀ two_ne_zero]
    rfl
  rcases (le_lastPlace q).eq_or_lt with hsub | hnormal
  · rw [← hsub, hhalf]
    constructor <;> intro h <;> linarith
  · have hle := two_pow_lastPlace_le hq hnormal
    have hlt : (2 : ℚ) ^ (-1074 : ℤ) < 2 ^ lastPlace q := zpow_lt_zpow_right₀ one_lt_two hnormal
    rcases le_abs.mp hle with hpositive | hnegative
    · constructor <;> intro _ <;> linarith
    · constructor <;> intro _ <;> linarith

theorem onGrid_le_one_iff {q : ℚ} (hq : q ≠ 0) : onGrid q ≤ 1 ↔ q ≤ 1 + 2 ^ (-53 : ℤ) := by
  have hpos : (0 : ℚ) < 2 ^ lastPlace q := zpow_pos two_pos _
  have hslack : (0 : ℚ) < 2 ^ (-53 : ℤ) := zpow_pos two_pos _
  rcases le_or_gt (lastPlace q) (-52) with hsmall | hlarge
  · -- one is on the grid, with an even multiple of the last place
    obtain ⟨k, hk⟩ : ∃ k : ℕ, lastPlace q = -(k : ℤ) := ⟨(-lastPlace q).toNat, by omega⟩
    have heven : (2 ^ k : ℤ) % 2 = 0 := by
      rw [← Int.even_iff, Int.even_pow]
      exact ⟨even_two, by omega⟩
    have hone : ((2 ^ k : ℤ) : ℚ) * 2 ^ lastPlace q = 1 := by
      rw [hk, zpow_neg, zpow_natCast]
      push_cast
      exact mul_inv_cancel₀ (pow_ne_zero k two_ne_zero)
    have hiff := onGrid_le_iff heven q
    rw [add_mul, hone] at hiff
    rw [hiff]
    rcases hsmall.lt_or_eq with hless | hequal
    · have hlt : q < 1 := (le_abs_self q).trans_lt (abs_lt_one_of_lastPlace hless)
      constructor <;> intro _ <;> linarith
    · have hhalf : (1 / 2 : ℚ) * 2 ^ lastPlace q = 2 ^ (-53 : ℤ) := by
        rw [hequal]
        norm_num
      rw [hhalf]
  · have htwo : (2 : ℚ) ≤ 2 ^ 52 * 2 ^ lastPlace q := by
      have hle : (2 : ℚ) ^ (-51 : ℤ) ≤ 2 ^ lastPlace q :=
        zpow_le_zpow_right₀ one_le_two (by omega)
      calc (2 : ℚ) = 2 ^ 52 * 2 ^ (-51 : ℤ) := by norm_num
        _ ≤ 2 ^ 52 * 2 ^ lastPlace q := by gcongr
    have hsize := two_pow_lastPlace_le hq (by omega)
    rcases le_abs.mp hsize with hpositive | hnegative
    · have hbelow := (le_onGrid_iff (n := 2 ^ 52) rfl q).mpr (by push_cast; linarith)
      push_cast at hbelow
      constructor
      · intro h
        linarith
      · intro h
        have hslack' : (2 : ℚ) ^ (-53 : ℤ) < 1 := by norm_num
        linarith
    · have habove := (onGrid_le_iff (n := 0) rfl q).mpr (by push_cast; linarith)
      push_cast at habove
      constructor <;> intro _ <;> linarith

/-- The rationals that round into the unit interval: half a place beyond it on either side, where
the ties go to the ends. -/
theorem Double.round_unit_iff (q : ℚ) :
    (∃ r, Double.round q = .finite r ∧ 0 ≤ r ∧ r ≤ 1) ↔
      -(2 ^ (-1075 : ℤ)) ≤ q ∧ q ≤ 1 + 2 ^ (-53 : ℤ) := by
  by_cases hq : q = 0
  · subst hq
    have hlow : (0 : ℚ) < 2 ^ (-1075 : ℤ) := zpow_pos two_pos _
    have hhigh : (0 : ℚ) < 2 ^ (-53 : ℤ) := zpow_pos two_pos _
    constructor
    · intro _
      constructor <;> linarith
    · intro _
      exact ⟨0, Double.round_zero, le_rfl, zero_le_one⟩
  rw [Double.round_eq hq, ← onGrid_nonneg_iff hq, ← onGrid_le_one_iff hq]
  constructor
  · rintro ⟨r, hround, hlow, hhigh⟩
    split_ifs at hround
    cases hround
    exact ⟨hlow, hhigh⟩
  · rintro ⟨hlow, hhigh⟩
    have hrange : ¬ (2 : ℚ) ^ 1024 ≤ |onGrid q| := by
      rw [abs_of_nonneg hlow, not_le]
      exact hhigh.trans_lt (one_lt_pow₀ one_lt_two (by omega))
    exact ⟨onGrid q, if_neg hrange, hlow, hhigh⟩

end Py
