import QuikSyncAdapters.Client.Auth
import Mathlib.Tactic.Linarith
import Mathlib.Tactic.FieldSimp
import Mathlib.Tactic.NormNum

/-! When `get_token` refreshes a token ahead of its expiry. The estimate of the total
lifetime is made from the remaining one, so the remaining lifetime stands on both sides of
the comparison and the refresh happens far later than the documented share of the lifetime. -/

namespace QuikSync.Client.Auth0M2MClient

/-- The remaining lifetime below which a token of lifetime `T` is documented to be refreshed. -/
def documentedMargin (config : AuthConfig) (T : ℚ) (jitter : config.Jitter) : ℚ :=
  (1 - config.refreshThresholdPct) * T + jitter.val

/-- The remaining lifetime below which the comparison of the code succeeds. -/
def solvedMargin (config : AuthConfig) (jitter : config.Jitter) : ℚ :=
  (60 * (1 - config.refreshThresholdPct) + jitter.val) / config.refreshThresholdPct

theorem shouldRefresh_iff {config : AuthConfig} (hp : 0 < config.refreshThresholdPct)
    (cached : CachedToken) (now : ℚ) (jitter : config.Jitter) :
    shouldRefresh config cached now now jitter = true ↔
      cached.expiresAtUnix ≤ now ∨ cached.expiresAtUnix - now < solvedMargin config jitter := by
  unfold shouldRefresh estimateTotalTtl solvedMargin
  dsimp only
  by_cases hexpired : cached.expiresAtUnix - now ≤ 0
  · rw [if_pos hexpired]
    have hle : cached.expiresAtUnix ≤ now := by linarith
    simp [hle]
  · have hpos : 0 < cached.expiresAtUnix - now := not_le.mp hexpired
    have hlt : ¬ cached.expiresAtUnix ≤ now := by linarith
    rw [if_neg hexpired, max_eq_left hpos.le, decide_eq_true_iff, lt_div_iff₀ hp]
    -- the remaining lifetime is brought to one side
    have hmove : cached.expiresAtUnix - now < (cached.expiresAtUnix - now + 60) *
          (1 - config.refreshThresholdPct) + jitter.val ↔
        (cached.expiresAtUnix - now) * config.refreshThresholdPct <
          60 * (1 - config.refreshThresholdPct) + jitter.val := by
      constructor <;> intro h <;> linarith
    rw [hmove]
    exact ⟨Or.inr, fun h => h.resolve_left hlt⟩

theorem getToken_mints_iff {c : Auth0M2MClient} {cached : CachedToken} (h : c.cached = some cached)
    (w : World c.config) :
    (c.getToken false w).2.1.isSome = true ↔
      shouldRefresh c.config cached w.now w.now' w.jitter = true := by
  unfold getToken
  rw [h]
  dsimp only
  cases shouldRefresh c.config cached w.now w.now' w.jitter <;> simp

/-- A token of age `a` and lifetime `T` is refreshed as documented exactly when it has
expired or its remaining lifetime does not lie between the solved and documented margins. -/
theorem refreshes_as_documented_iff (c : Auth0M2MClient) (token : Py.Json) (mintTime T a : ℚ)
    (jitter : c.config.Jitter) (answer : MintResponse) (later : ℚ)
    (hcached : c.cached = some ⟨token, mintTime + T⟩) (hp : 0 < c.config.refreshThresholdPct) :
    ((c.getToken false ⟨mintTime + a, mintTime + a, jitter, answer, later⟩).2.1.isSome = true ↔
        T ≤ a ∨ T - a < documentedMargin c.config T jitter) ↔
      T ≤ a ∨ T - a < min (documentedMargin c.config T jitter) (solvedMargin c.config jitter) ∨
        max (documentedMargin c.config T jitter) (solvedMargin c.config jitter) ≤ T - a := by
  have hmints : (c.getToken false
      ⟨mintTime + a, mintTime + a, jitter, answer, later⟩).2.1.isSome = true ↔
        T ≤ a ∨ T - a < solvedMargin c.config jitter := by
    rw [getToken_mints_iff hcached, shouldRefresh_iff hp]
    dsimp only
    rw [add_le_add_iff_left, add_sub_add_left_eq_sub]
  rw [hmints, lt_min_iff, max_le_iff]
  by_cases hexpired : T ≤ a
  · simp [hexpired]
  · simp only [hexpired, false_or]
    rcases lt_or_ge (T - a) (documentedMargin c.config T jitter) with hdoc | hdoc <;>
      rcases lt_or_ge (T - a) (solvedMargin c.config jitter) with hsol | hsol <;>
      simp [hdoc, hsol, not_lt.mpr, not_le.mpr]

def oneDayClient : Auth0M2MClient where
  config := { tenant := "t", audience := "a", clientId := "i", clientSecret := "s",
              organization := "o" }
  cached := some ⟨.str "token", 86400⟩
  consecutiveFailures := 0

theorem refreshes_as_documented_iff_witness :
    ((oneDayClient.getToken false
        ⟨0 + 86399, 0 + 86399, ⟨600, by decide⟩, .httpError "down", 86399⟩).2.1.isSome = true ↔
        (86400 : ℚ) ≤ 86399 ∨
          86400 - 86399 < documentedMargin oneDayClient.config 86400 ⟨600, by decide⟩) ↔
      (86400 : ℚ) ≤ 86399 ∨
        86400 - 86399 < min (documentedMargin oneDayClient.config 86400 ⟨600, by decide⟩)
          (solvedMargin oneDayClient.config ⟨600, by decide⟩) ∨
        max (documentedMargin oneDayClient.config 86400 ⟨600, by decide⟩)
          (solvedMargin oneDayClient.config ⟨600, by decide⟩) ≤ 86400 - 86399 :=
  refreshes_as_documented_iff oneDayClient (.str "token") 0 86400 86399 ⟨600, by decide⟩
    (.httpError "down") 86399 (by simp [oneDayClient]) (by norm_num [oneDayClient])

/-- With 6400 seconds of a day left, far below the documented 17280, nothing is minted. -/
theorem late_refresh :
    ¬ ∀ (c : Auth0M2MClient) (token : Py.Json) (mintTime T a : ℚ) (jitter : c.config.Jitter)
        (answer : MintResponse) (later : ℚ),
      c.cached = some ⟨token, mintTime + T⟩ → 0 < T → 0 ≤ a →
      0 < c.config.refreshThresholdPct ∧ c.config.refreshThresholdPct < 1 →
      ((c.getToken false ⟨mintTime + a, mintTime + a, jitter, answer, later⟩).2.1.isSome = true ↔
        T ≤ a ∨ T - a < documentedMargin c.config T jitter) := by
  intro h
  have hclaim := h oneDayClient (.str "token") 0 86400 80000 ⟨0, by decide⟩ (.httpError "down")
    80000 (by simp [oneDayClient]) (by norm_num) (by norm_num) (by norm_num [oneDayClient])
  have hdocumented :
      (86400 : ℚ) - 80000 < documentedMargin oneDayClient.config 86400 ⟨0, by decide⟩ := by
    norm_num [documentedMargin, oneDayClient]
  have hminted := hclaim.mpr (Or.inr hdocumented)
  rw [getToken_mints_iff rfl, shouldRefresh_iff (by norm_num [oneDayClient])] at hminted
  norm_num [solvedMargin, oneDayClient] at hminted

end QuikSync.Client.Auth0M2MClient
