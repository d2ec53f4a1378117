import QuikSyncAdapters.Client.Ws
import QuikSyncAdapters.Library.SlidingWindow
import Mathlib.Data.List.DropRight

/-! The 401 circuit breaker over whole runs. The list it counts is the client's, so what trips
it is the number of recent 401s of all subscriptions together. -/

namespace QuikSync.Client

open Py

abbrev SharedLog := List (SharedInput × List WsEffect)

def WsEffect.attempt : WsEffect → Option Attempt
  | attempted a => some a
  | _ => none

def Attempt.rejectedAt : Attempt → Option ℚ
  | refused 401 now => some now
  | _ => none

def attemptsOf : SharedInput × List WsEffect → List (ℕ × Attempt)
  | (.subscription k _, effects) => (effects.filterMap WsEffect.attempt).map fun a => (k, a)
  | (.close, _) => []

def attempts (log : SharedLog) : List (ℕ × Attempt) := log.flatMap attemptsOf

def ownAttempts (k : ℕ) (log : SharedLog) : List Attempt :=
  ((attempts log).filter fun a => a.1 == k).map Prod.snd

def rejections (log : SharedLog) : List ℚ := (attempts log).filterMap fun a => a.2.rejectedAt

theorem attempts_append (past : SharedLog) (e : SharedInput × List WsEffect) :
    attempts (past ++ [e]) = attempts past ++ attemptsOf e := by
  unfold attempts
  rw [List.flatMap_append, List.flatMap_singleton]

theorem rejections_append (past : SharedLog) (e : SharedInput × List WsEffect) :
    rejections (past ++ [e]) =
      rejections past ++ (attemptsOf e).filterMap fun a => a.2.rejectedAt := by
  unfold rejections
  rw [attempts_append, List.filterMap_append]

theorem mem_rejections_of_own {k : ℕ} {log : SharedLog} {a : Attempt} {t : ℚ}
    (ha : a ∈ ownAttempts k log) (ht : a.rejectedAt = some t) : t ∈ rejections log := by
  obtain ⟨⟨j, a⟩, hmem, rfl⟩ := List.mem_map.mp ha
  exact List.mem_filterMap.mpr ⟨(j, a), List.mem_of_mem_filter hmem, ht⟩

theorem eq_refused_of_rejectedAt {a : Attempt} {t : ℚ} (h : a.rejectedAt = some t) :
    a = .refused 401 t := by
  unfold Attempt.rejectedAt at h
  split at h
  · rw [Option.some.inj h]
  · exact nomatch h

/-! ### One step -/

section Step

variable (c : QuikSyncWsClient) (s : Subscription)

def Rejects (phase : Phase) (i : WsInput) (now : ℚ) : Prop :=
  phase.isConnecting = true ∧ ∃ refresh random, i = .refused 401 now refresh random

theorem backOff_effects (random : Draw) (effects : List WsEffect) :
    ∃ slept : List ℚ, (s.backOff c random effects).effects = effects ++ slept.map .sleep := by
  unfold Subscription.backOff
  split
  · exact ⟨[], (List.append_nil _).symm⟩
  · exact ⟨[QuikSyncWsClient.jitteredBackoff s.backoff random], rfl⟩

theorem backOff_rejected (random : Draw) (now : ℚ) {more : List WsEffect}
    (hattempts : more.filterMap WsEffect.attempt = []) (htrip : .raise .wsCircuitOpen ∉ more) :
    (s.backOff c random (.attempted (.refused 401 now) :: more)).effects.filterMap
        WsEffect.attempt = [.refused 401 now] ∧
      .raise .wsCircuitOpen ∉
        (s.backOff c random (.attempted (.refused 401 now) :: more)).effects := by
  obtain ⟨slept, hslept⟩ := backOff_effects c s random (.attempted (.refused 401 now) :: more)
  rw [hslept]
  refine ⟨?_, ?_⟩
  · simp [WsEffect.attempt, hattempts]
  · simp [htrip]

theorem step_of_rejects {i : WsInput} {now : ℚ} (h : Rejects s.phase i now) :
    (s.step c i).client = c.record401 now ∧
      (s.step c i).effects.filterMap WsEffect.attempt = [.refused 401 now] ∧
      (.raise .wsCircuitOpen ∈ (s.step c i).effects ↔ (c.record401 now).isCircuitOpen = true) := by
  obtain ⟨hphase, refresh, random, rfl⟩ := h
  have hstep : s.step c (.refused 401 now refresh random) =
      s.invalidStatus c 401 now refresh random := by
    unfold Subscription.step
    cases hs : s.phase <;> first | rfl | simp [hs, Phase.isConnecting] at hphase
  have hclient : (s.invalidStatus c 401 now refresh random).client = c.record401 now :=
    (s.invalidStatus_client c 401 now refresh random).trans (if_pos rfl)
  rw [hstep]
  refine ⟨hclient, ?_⟩
  unfold Subscription.invalidStatus
  dsimp only
  rw [if_pos rfl]
  by_cases hopen : (c.record401 now).isCircuitOpen = true
  · rw [if_pos hopen]
    simp [WsEffect.attempt, hopen]
  · rw [if_neg hopen]
    cases refresh with
    | ok _ =>
      have hquiet : .raise .wsCircuitOpen ∉ [WsEffect.getToken true] := by simp
      obtain ⟨hattempts, htrip⟩ := backOff_rejected (c.record401 now) s random now rfl hquiet
      exact ⟨hattempts, iff_of_false htrip hopen⟩
    | error e =>
      have hquiet : .raise .wsCircuitOpen ∉ [WsEffect.getToken true, .refreshFailed e] := by simp
      obtain ⟨hattempts, htrip⟩ := backOff_rejected (c.record401 now) s random now rfl hquiet
      exact ⟨hattempts, iff_of_false htrip hopen⟩

structure Unrejected (r : WsStep) : Prop where
  client : r.client = c
  attempts : ∀ a, .attempted a ∈ r.effects → a.rejectedAt = none
  trip : .raise .wsCircuitOpen ∉ r.effects

theorem unrejected_backOff (random : Draw) (effects : List WsEffect)
    (hattempts : ∀ a, .attempted a ∈ effects → a.rejectedAt = none)
    (htrip : .raise .wsCircuitOpen ∉ effects) :
    Unrejected c (s.backOff c random effects) := by
  obtain ⟨slept, hslept⟩ := backOff_effects c s random effects
  refine ⟨s.backOff_client c random effects, ?_, ?_⟩
  · intro a ha
    rw [hslept, List.mem_append] at ha
    exact hattempts a (ha.resolve_right (by simp))
  · rw [hslept, List.mem_append]
    exact not_or.mpr ⟨htrip, by simp⟩

theorem unrejected_connect (token : Except Exc String) : Unrejected c (s.connect c token) := by
  unfold Subscription.connect
  split
  · exact ⟨rfl, by simp, by simp⟩
  · cases token with
    | error e => exact ⟨rfl, by simp, by simp⟩
    | ok token => exact ⟨rfl, by simp, by simp⟩

theorem unrejected_receive (decoded : Decoded) : Unrejected c (s.receive c decoded) := by
  unfold Subscription.receive
  split
  · exact ⟨rfl, by simp, by simp⟩
  · split <;> exact ⟨rfl, by simp, by simp⟩

theorem step_of_not_rejects {i : WsInput} (h : ∀ now, ¬ Rejects s.phase i now) :
    Unrejected c (s.step c i) := by
  have hquiet : ∀ s', Unrejected c ⟨c, s', []⟩ := fun _ => ⟨rfl, by simp, by simp⟩
  unfold Subscription.step
  split
  · exact unrejected_connect c s _
  · exact unrejected_connect c _ _
  · exact ⟨rfl, by simp [Attempt.rejectedAt], by simp⟩
  · rename_i status now refresh random url hphase
    have hstatus : status ≠ 401 := by
      intro h401
      subst h401
      exact h now ⟨by rw [hphase]; rfl, refresh, random, rfl⟩
    unfold Subscription.invalidStatus
    dsimp only
    rw [if_neg hstatus]
    apply unrejected_backOff
    · intro a ha
      obtain rfl := WsEffect.attempted.inj (List.mem_singleton.mp ha)
      unfold Attempt.rejectedAt
      split
      · rename_i heq
        exact absurd (Attempt.refused.inj heq).1 hstatus
      · rfl
    · simp
  · exact unrejected_backOff c s _ _ (by simp [Attempt.rejectedAt]) (by simp)
  · exact unrejected_backOff c s _ _ (by simp) (by simp)
  · exact unrejected_receive c s _
  · exact unrejected_backOff c s _ _ (by simp) (by simp)
  · split
    · exact hquiet s
    · exact ⟨rfl, by simp, by simp⟩
  · exact hquiet s

end Step

/-! ### The list of failures and the history -/

theorem record401_failureTimes (c : QuikSyncWsClient) (now : ℚ) :
    (c.record401 now).failureTimes =
      SlidingWindow.record c.config.circuitBreakerWindowSeconds c.failureTimes now := rfl

theorem foldl_record401 (config : WsConfig) (ts : List ℚ) :
    ts.foldl QuikSyncWsClient.record401 (.new config) =
      ⟨config, false, SlidingWindow.recorded config.circuitBreakerWindowSeconds ts⟩ := by
  induction ts using List.reverseRecOn with
  | nil => rfl
  | append_singleton ts t ih =>
    rw [List.foldl_append, List.foldl_cons, List.foldl_nil, ih, SlidingWindow.recorded_append]
    rfl

/-- Pruned at every record, the list still is the window that ends at the last record, and the
breaker counts what lies in it. -/
theorem failure_times_eq_window (config : WsConfig)
    (hwindow : 0 < config.circuitBreakerWindowSeconds) (ts : List ℚ) (now : ℚ)
    (hclock : (ts ++ [now]).Pairwise (· ≤ ·)) :
    let c := (ts ++ [now]).foldl QuikSyncWsClient.record401 (.new config)
    let recent := fun t => decide (now - t < config.circuitBreakerWindowSeconds)
    c.failureTimes = (ts ++ [now]).filter recent ∧
      (c.isCircuitOpen = true ↔ config.circuitBreaker401Count ≤ (ts ++ [now]).countP recent) := by
  intro c recent
  have hnow : recent now = true := by
    apply decide_eq_true
    rwa [sub_self]
  have hlist : c.failureTimes = (ts ++ [now]).filter recent := by
    show ((ts ++ [now]).foldl QuikSyncWsClient.record401 (.new config)).failureTimes = _
    rw [foldl_record401, List.filter_append, List.filter_singleton, hnow]
    exact SlidingWindow.recorded_eq_record _ hclock
  have hconfig : c.config = config := congrArg QuikSyncWsClient.config (foldl_record401 config _)
  refine ⟨hlist, ?_⟩
  rw [QuikSyncWsClient.isCircuitOpen, decide_eq_true_eq, hlist, hconfig, List.countP_eq_length_filter]

/-- Two records a window apart: the first is forgotten. -/
theorem failure_times_eq_window_witness :
    ([0, 60].foldl QuikSyncWsClient.record401 (.new ⟨"wss://host", 1, 30, 3, 60⟩)).failureTimes =
      [0, 60].filter fun t => decide (60 - t < (60 : ℚ)) :=
  (failure_times_eq_window ⟨"wss://host", 1, 30, 3, 60⟩ (by norm_num) [0] 60 (by simp)).1

structure BreakerAccounts (config : WsConfig) (q : WsShared) (past : SharedLog) : Prop where
  configured : q.client.config = config
  failureTimes : q.client.failureTimes =
    SlidingWindow.recorded config.circuitBreakerWindowSeconds (rejections past)

theorem attemptsOf_rejected (k : ℕ) (i : WsInput) {effects : List WsEffect} {now : ℚ}
    (h : effects.filterMap WsEffect.attempt = [.refused 401 now]) :
    attemptsOf (.subscription k i, effects) = [(k, .refused 401 now)] := by
  show (effects.filterMap WsEffect.attempt).map _ = _
  rw [h, List.map_singleton]

theorem attemptsOf_unrejected {c : QuikSyncWsClient} {r : WsStep} (h : Unrejected c r) (k : ℕ)
    (i : WsInput) :
    (attemptsOf (.subscription k i, r.effects)).filterMap (fun a => a.2.rejectedAt) = [] := by
  rw [List.filterMap_eq_nil_iff]
  intro a ha
  obtain ⟨attempt, hattempt, rfl⟩ := List.mem_map.mp ha
  obtain ⟨effect, heffect, hsome⟩ := List.mem_filterMap.mp hattempt
  cases effect with
  | attempted b =>
    obtain rfl := Option.some.inj hsome
    exact h.attempts b heffect
  | _ => exact nomatch hsome

theorem breaker_accounts_step {config : WsConfig} {q : WsShared} {past : SharedLog}
    (hacc : BreakerAccounts config q past) (i : SharedInput) :
    BreakerAccounts config (sharedMachine.step q i).1
      (past ++ [(i, (sharedMachine.step q i).2)]) := by
  cases i with
  | close =>
    refine ⟨hacc.configured, ?_⟩
    rw [rejections_append]
    exact hacc.failureTimes.trans (congrArg _ (List.append_nil _).symm)
  | subscription k i =>
    by_cases hrejects : ∃ now, Rejects (q.subscriptions k).phase i now
    · obtain ⟨now, hnow⟩ := hrejects
      obtain ⟨hclient, hattempt, -⟩ := step_of_rejects q.client _ hnow
      have hnew : attemptsOf (.subscription k i, (sharedMachine.step q (.subscription k i)).2) =
          [(k, .refused 401 now)] := attemptsOf_rejected k i hattempt
      refine ⟨(congrArg _ hclient).trans hacc.configured, ?_⟩
      rw [rejections_append, hnew]
      show ((q.subscriptions k).step q.client i).client.failureTimes = _
      rw [hclient, record401_failureTimes, hacc.configured, hacc.failureTimes]
      exact (SlidingWindow.recorded_append _ (rejections past) now).symm
    · have hquiet := step_of_not_rejects q.client _ fun now h => hrejects ⟨now, h⟩
      refine ⟨(congrArg _ hquiet.client).trans hacc.configured, ?_⟩
      rw [rejections_append]
      have hnone := attemptsOf_unrejected hquiet k i
      show ((q.subscriptions k).step q.client i).client.failureTimes = _
      rw [hquiet.client, hacc.failureTimes]
      exact congrArg _ ((List.append_nil _).symm.trans (congrArg _ hnone.symm))

theorem breaker_accounts (config : WsConfig) (endpoints : ℕ → String × Option String)
    (is : List SharedInput) :
    BreakerAccounts config (sharedMachine.after (.new config endpoints) is)
      (sharedMachine.log (.new config endpoints) is) :=
  Machine.run_invariant (P := BreakerAccounts config) (A := fun _ => True)
    (fun _ _ i _ hacc => breaker_accounts_step hacc i) ⟨rfl, rfl⟩ fun _ _ => trivial

/-! ### Streaks -/

theorem le_length_rtakeWhile_iff {α : Type} (p : α → Bool) (l : List α) (n : ℕ) :
    n ≤ (l.rtakeWhile p).length ↔ ∃ r, r <:+ l ∧ r.length = n ∧ ∀ a ∈ r, p a = true := by
  constructor
  · intro h
    have hlast : (l.rtakeWhile p).drop ((l.rtakeWhile p).length - n) <:+ l.rtakeWhile p :=
      List.drop_suffix ..
    refine ⟨_, hlast.trans (List.rtakeWhile_suffix p l), ?_, ?_⟩
    · rw [List.length_drop]
      exact Nat.sub_sub_self h
    · exact fun a ha => List.mem_rtakeWhile_imp (hlast.subset ha)
  · rintro ⟨r, ⟨s, rfl⟩, rfl, hr⟩
    have hreverse : ∀ a ∈ r.reverse, p a = true := fun a ha => hr a (List.mem_reverse.mp ha)
    unfold List.rtakeWhile
    rw [List.reverse_append, List.takeWhile_append_of_pos hreverse, List.length_reverse,
      List.length_append, List.length_reverse]
    exact Nat.le_add_right ..

def rejectedWithin (w now : ℚ) (a : Attempt) : Bool :=
  match a.rejectedAt with
  | some t => decide (now - t < w)
  | none => false

theorem rejectedWithin_iff {w now : ℚ} {a : Attempt} :
    rejectedWithin w now a = true ↔ ∃ t, a = .refused 401 t ∧ now - t < w := by
  unfold rejectedWithin
  constructor
  · intro h
    cases hat : a.rejectedAt with
    | none => simp [hat] at h
    | some t =>
      rw [hat] at h
      exact ⟨t, eq_refused_of_rejectedAt hat, of_decide_eq_true h⟩
  · rintro ⟨t, rfl, ht⟩
    exact decide_eq_true ht

def LastRejected (n : ℕ) (w : ℚ) (as : List Attempt) : Prop :=
  ∃ times : List ℚ, times.map (Attempt.refused 401) <:+ as ∧ times.length = n ∧
    ∀ t ∈ times, ∀ t' ∈ times, t' - t < w

theorem exists_times {w now : ℚ} {as : List Attempt}
    (h : ∀ a ∈ as, rejectedWithin w now a = true) :
    ∃ times : List ℚ, as = times.map (Attempt.refused 401) ∧ ∀ t ∈ times, now - t < w := by
  induction as with
  | nil => exact ⟨[], rfl, by simp⟩
  | cons a as ih =>
    obtain ⟨t, ha, ht⟩ := rejectedWithin_iff.mp (h a List.mem_cons_self)
    obtain ⟨times, has, htimes⟩ := ih fun b hb => h b (List.mem_cons_of_mem _ hb)
    refine ⟨t :: times, by rw [ha, has, List.map_cons], ?_⟩
    intro t' ht'
    rcases List.mem_cons.mp ht' with rfl | ht'
    · exact ht
    · exact htimes t' ht'

theorem lastRejected_iff {n : ℕ} {w now : ℚ} {as : List Attempt}
    (hlatest : ∀ a ∈ as, ∀ t, a.rejectedAt = some t → t ≤ now) :
    LastRejected n w (as ++ [.refused 401 now]) ↔
      n ≤ ((as ++ [Attempt.refused 401 now]).rtakeWhile (rejectedWithin w now)).length := by
  have hle : ∀ t, Attempt.refused 401 t ∈ as ++ [.refused 401 now] → t ≤ now := by
    intro t ht
    rcases List.mem_append.mp ht with ht | ht
    · exact hlatest _ ht t rfl
    · exact (Attempt.refused.inj (List.mem_singleton.mp ht)).2.le
  rw [le_length_rtakeWhile_iff]
  constructor
  · rintro ⟨times, hsuffix, hlength, hwithin⟩
    refine ⟨times.map (Attempt.refused 401), hsuffix, by rw [List.length_map, hlength], ?_⟩
    intro a ha
    obtain ⟨t, ht, rfl⟩ := List.mem_map.mp ha
    have hnow : now ∈ times := by
      obtain ⟨s, hs⟩ := hsuffix
      have hne : times.map (Attempt.refused 401) ≠ [] := List.ne_nil_of_mem ha
      have hlast : (times.map (Attempt.refused 401)).getLast hne = .refused 401 now := by
        have hgetLast := List.getLast?_append_of_ne_nil s hne
        rw [hs, List.getLast?_concat, List.getLast?_eq_getLast_of_ne_nil hne] at hgetLast
        exact (Option.some.inj hgetLast).symm
      obtain ⟨t', ht', heq⟩ := List.mem_map.mp (hlast ▸ List.getLast_mem hne)
      exact (Attempt.refused.inj heq).2 ▸ ht'
    exact rejectedWithin_iff.mpr ⟨t, rfl, hwithin t ht now hnow⟩
  · rintro ⟨r, hsuffix, hlength, hr⟩
    obtain ⟨times, rfl, htimes⟩ := exists_times hr
    refine ⟨times, hsuffix, by rw [← hlength, List.length_map], ?_⟩
    intro t ht t' ht'
    have hlate : t' ≤ now := hle t' (hsuffix.subset (List.mem_map_of_mem ht'))
    exact (sub_le_sub_right hlate t).trans_lt (htimes t ht)

/-! ### The contract -/

/-- Each trip of the breaker is owed to the subscription that it stops. -/
def TripsOnOwnFailures (config : WsConfig) (log : SharedLog) : Prop :=
  ∀ pre k i effects post, log = pre ++ (.subscription k i, effects) :: post →
    .raise .wsCircuitOpen ∈ effects →
    LastRejected config.circuitBreaker401Count.toNat config.circuitBreakerWindowSeconds
      (ownAttempts k (pre ++ [(.subscription k i, effects)]))

def ownStreak (config : WsConfig) (past : SharedLog) (k : ℕ) (now : ℚ) : ℕ :=
  ((ownAttempts k past ++ [Attempt.refused 401 now]).rtakeWhile
    (rejectedWithin config.circuitBreakerWindowSeconds now)).length

def sharedRejections (config : WsConfig) (past : SharedLog) (now : ℚ) : ℕ :=
  (SlidingWindow.record config.circuitBreakerWindowSeconds (rejections past) now).length

/-- The threshold is out of reach of the streak of `k`, but not of all 401s together. -/
def FilledByOthers (config : WsConfig) (past : SharedLog) (k : ℕ) (now : ℚ) : Prop :=
  ownStreak config past k now < config.circuitBreaker401Count ∧
    config.circuitBreaker401Count ≤ sharedRejections config past now

theorem ownAttempts_rejected (past : SharedLog) (k : ℕ) (i : WsInput) {effects : List WsEffect}
    {now : ℚ} (h : effects.filterMap WsEffect.attempt = [.refused 401 now]) :
    ownAttempts k (past ++ [(.subscription k i, effects)]) =
      ownAttempts k past ++ [.refused 401 now] := by
  unfold ownAttempts
  rw [attempts_append, attemptsOf_rejected k i h, List.filter_append, List.map_append]
  simp

section Moment

variable {config : WsConfig} {q : WsShared} {past : SharedLog} {k : ℕ} {i : WsInput} {now : ℚ}

theorem trips_iff (hacc : BreakerAccounts config q past)
    (hrejects : Rejects (q.subscriptions k).phase i now)
    (hclock : (rejections past ++ [now]).Pairwise (· ≤ ·)) :
    .raise .wsCircuitOpen ∈ (sharedMachine.step q (.subscription k i)).2 ↔
      config.circuitBreaker401Count ≤ sharedRejections config past now := by
  have hfailures : (q.client.record401 now).failureTimes =
      SlidingWindow.record config.circuitBreakerWindowSeconds (rejections past) now := by
    rw [record401_failureTimes, hacc.configured, hacc.failureTimes,
      ← SlidingWindow.recorded_append, SlidingWindow.recorded_eq_record _ hclock]
  have hopen : (q.client.record401 now).isCircuitOpen = true ↔
      config.circuitBreaker401Count ≤ sharedRejections config past now := by
    unfold QuikSyncWsClient.isCircuitOpen sharedRejections
    rw [hfailures, decide_eq_true_iff, ← hacc.configured]
    rfl
  exact (step_of_rejects q.client _ hrejects).2.2.trans hopen

theorem last_rejected_iff_streak (hrejects : Rejects (q.subscriptions k).phase i now)
    (hclock : (rejections past ++ [now]).Pairwise (· ≤ ·)) :
    LastRejected config.circuitBreaker401Count.toNat config.circuitBreakerWindowSeconds
        (ownAttempts k (past ++
          [(.subscription k i, (sharedMachine.step q (.subscription k i)).2)])) ↔
      config.circuitBreaker401Count ≤ ownStreak config past k now := by
  have hattempt := (step_of_rejects q.client _ hrejects).2.1
  have hlatest : ∀ a ∈ ownAttempts k past, ∀ t, a.rejectedAt = some t → t ≤ now := fun a ha t ht =>
    (List.pairwise_append.mp hclock).2.2 t (mem_rejections_of_own ha ht) now List.mem_cons_self
  have hcast : config.circuitBreaker401Count.toNat ≤ ownStreak config past k now ↔
      config.circuitBreaker401Count ≤ ownStreak config past k now := Int.toNat_le
  have hown := ownAttempts_rejected past k i hattempt
  exact (iff_of_eq (congrArg _ hown)).trans ((lastRejected_iff hlatest).trans hcast)

theorem clock_at_moment (hrejects : Rejects (q.subscriptions k).phase i now) {post : SharedLog}
    (hclock : (rejections (past ++
      (.subscription k i, (sharedMachine.step q (.subscription k i)).2) :: post)).Pairwise
        (· ≤ ·)) :
    (rejections past ++ [now]).Pairwise (· ≤ ·) := by
  have hattempt := (step_of_rejects q.client _ hrejects).2.1
  have hnew := attemptsOf_rejected k i hattempt
  have hsplit : rejections (past ++
      (.subscription k i, (sharedMachine.step q (.subscription k i)).2) :: post) =
        rejections past ++ [now] ++ rejections post := by
    unfold rejections attempts
    rw [List.flatMap_append, List.flatMap_cons, List.filterMap_append, List.filterMap_append,
      ← List.append_assoc]
    exact congrArg (fun new => _ ++ List.filterMap _ new ++ _) hnew
  rw [hsplit] at hclock
  exact (List.pairwise_append.mp hclock).1

end Moment

theorem trips_on_own_failures_iff (config : WsConfig) (endpoints : ℕ → String × Option String)
    (is : List SharedInput)
    (hclock : (rejections (sharedMachine.log (.new config endpoints) is)).Pairwise (· ≤ ·)) :
    TripsOnOwnFailures config (sharedMachine.log (.new config endpoints) is) ↔
      ∀ pre k i now post, is = pre ++ .subscription k i :: post →
        Rejects ((sharedMachine.after (.new config endpoints) pre).subscriptions k).phase i now →
        ¬ FilledByOthers config (sharedMachine.log (.new config endpoints) pre) k now := by
  constructor
  · rintro htrips pre k i now post rfl hrejects ⟨hshort, hfull⟩
    rw [Machine.log_append, Machine.log_cons] at htrips hclock
    have hsorted := clock_at_moment hrejects hclock
    have hraise := (trips_iff (breaker_accounts config endpoints pre) hrejects hsorted).mpr hfull
    have hlast := htrips _ k i _ _ rfl hraise
    have hstreak := (last_rejected_iff_streak hrejects hsorted).mp hlast
    exact absurd hstreak (not_le.mpr hshort)
  · intro hcond pre k i effects post hlog hraise
    have hinputs := Machine.inputs_eq_of_log_eq hlog
    obtain ⟨hpre, heffects, -⟩ := Machine.log_eq_append hlog
    have hacc := breaker_accounts config endpoints (pre.map Prod.fst)
    rw [← hpre] at hacc
    rw [hlog] at hclock
    generalize hq : sharedMachine.after (.new config endpoints) (pre.map Prod.fst) = q
      at hacc heffects
    subst heffects
    by_cases hrejects : ∃ now, Rejects (q.subscriptions k).phase i now
    · obtain ⟨now, hnow⟩ := hrejects
      have hsorted := clock_at_moment hnow hclock
      have hfull := (trips_iff hacc hnow hsorted).mp hraise
      have hmoment := hcond _ k i now _ hinputs (by rw [hq]; exact hnow)
      rw [← hpre] at hmoment
      apply (last_rejected_iff_streak hnow hsorted).mpr
      by_contra hstreak
      exact hmoment ⟨not_le.mp hstreak, hfull⟩
    · have hquiet := step_of_not_rejects q.client (q.subscriptions k)
        fun now h => hrejects ⟨now, h⟩
      exact absurd hraise hquiet.trip

def twoDoors : WsShared := .new ⟨"wss://host", 1, 30, 3, 60⟩ fun _ => ("/door", none)

def refusedInTurn : List SharedInput :=
  [.subscription 0 (.resume (.ok "a")), .subscription 0 (.refused 401 0 (.ok "b") default),
    .subscription 1 (.resume (.ok "b")), .subscription 1 (.refused 401 1 (.ok "c") default),
    .subscription 0 (.resume (.ok "c")), .subscription 0 (.refused 401 2 (.ok "d") default)]

theorem clock_refusedInTurn :
    (rejections (sharedMachine.log twoDoors refusedInTurn)).Pairwise (· ≤ ·) := by
  decide +kernel

theorem trips_on_own_failures_iff_witness :
    TripsOnOwnFailures ⟨"wss://host", 1, 30, 3, 60⟩ (sharedMachine.log twoDoors refusedInTurn) ↔
      ∀ pre k i now post, refusedInTurn = pre ++ .subscription k i :: post →
        Rejects ((sharedMachine.after twoDoors pre).subscriptions k).phase i now →
        ¬ FilledByOthers ⟨"wss://host", 1, 30, 3, 60⟩ (sharedMachine.log twoDoors pre) k now :=
  trips_on_own_failures_iff ⟨"wss://host", 1, 30, 3, 60⟩ (fun _ => ("/door", none)) refusedInTurn
    clock_refusedInTurn

/-- Two 401s of its own and one of its neighbour's stop a subscription. -/
theorem neighbour_trips_breaker :
    ¬ ∀ (config : WsConfig) (endpoints : ℕ → String × Option String) (is : List SharedInput),
      (rejections (sharedMachine.log (.new config endpoints) is)).Pairwise (· ≤ ·) →
      TripsOnOwnFailures config (sharedMachine.log (.new config endpoints) is) := by
  intro h
  have htrips := h ⟨"wss://host", 1, 30, 3, 60⟩ (fun _ => ("/door", none)) refusedInTurn
    clock_refusedInTurn
  have hacc := breaker_accounts ⟨"wss://host", 1, 30, 3, 60⟩ (fun _ => ("/door", none))
    (refusedInTurn.take 5)
  have hrejects : Rejects
      ((sharedMachine.after twoDoors (refusedInTurn.take 5)).subscriptions 0).phase
      (.refused 401 2 (.ok "d") default) 2 := ⟨by decide +kernel, _, _, rfl⟩
  have hsorted : (rejections (sharedMachine.log twoDoors (refusedInTurn.take 5)) ++ [2]).Pairwise
      (· ≤ ·) := by decide +kernel
  have hraise := (trips_iff hacc hrejects hsorted).mpr (by decide +kernel)
  have hlast := htrips (sharedMachine.log twoDoors (refusedInTurn.take 5)) 0 _ _ [] rfl hraise
  have hstreak : (3 : ℤ) ≤ _ := (last_rejected_iff_streak hrejects hsorted).mp hlast
  exact absurd hstreak (by decide +kernel)

end QuikSync.Client
