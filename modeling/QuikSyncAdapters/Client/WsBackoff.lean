import QuikSyncAdapters.Client.WsReconnects

/-! The backoff of a subscription in closed form: it starts at the base after a handshake,
doubles with each sleep up to the configured maximum, and is slept with a jitter of a quarter. -/

namespace QuikSync.Client

open Py

def WsConfig.delay (config : WsConfig) (n : ℕ) : ℚ :=
  min (config.backoffBaseSeconds * 2 ^ n) config.backoffMaxSeconds

theorem WsConfig.delay_succ (config : WsConfig) (hmax : 0 ≤ config.backoffMaxSeconds) (n : ℕ) :
    min (config.delay n * 2) config.backoffMaxSeconds = config.delay (n + 1) := by
  have hcapped : config.backoffMaxSeconds ≤ config.backoffMaxSeconds * 2 := by linarith
  unfold delay
  rw [min_mul_of_nonneg _ _ zero_le_two, min_assoc, min_eq_right hcapped, pow_succ, mul_assoc]

theorem WsConfig.delay_zero {config : WsConfig}
    (hbase : config.backoffBaseSeconds ≤ config.backoffMaxSeconds) :
    config.delay 0 = config.backoffBaseSeconds := by
  unfold delay
  rw [pow_zero, mul_one, min_eq_left hbase]

/-- Within a quarter of `b`, and no less than a tenth of a second. -/
def WithinJitter (b d : ℚ) : Prop := max (3 / 4 * b) (1 / 10) ≤ d ∧ d ≤ max (5 / 4 * b) (1 / 10)

theorem jitteredBackoff_within {b : ℚ} (hb : 0 ≤ b) (random : Draw) :
    WithinJitter b (QuikSyncWsClient.jitteredBackoff b random) := by
  obtain ⟨u, hzero, hone⟩ := random
  have hlow : 3 / 4 * b ≤ b + b * (1 / 4) * (u * 2 - 1) := by
    linarith [mul_nonneg hb hzero]
  have hhigh : b + b * (1 / 4) * (u * 2 - 1) ≤ 5 / 4 * b := by
    linarith [mul_le_mul_of_nonneg_left hone.le hb]
  exact ⟨max_le_max_right _ hlow, max_le_max_right _ hhigh⟩

/-- Each sleep lasts the delay that the sleeps before it lead to, up to jitter. -/
def SleepsRamp (config : WsConfig) (n : ℕ) : List WsEffect → Prop
  | [] => True
  | .sleep d :: effects =>
    (∃ random, d = QuikSyncWsClient.jitteredBackoff (config.delay n) random) ∧
      SleepsRamp config (n + 1) effects
  | .attempted .connected :: effects => SleepsRamp config 0 effects
  | _ :: effects => SleepsRamp config n effects

theorem sleepsRamp_append (config : WsConfig) (n : ℕ) (as bs : List WsEffect) :
    SleepsRamp config n (as ++ bs) ↔
      SleepsRamp config n as ∧ SleepsRamp config (sleepsFrom n as) bs := by
  induction n, as using sleepsFrom.induct with
  | case1 n => simp only [List.nil_append, SleepsRamp, sleepsFrom, true_and]
  | case2 n d as ih => simp only [List.cons_append, SleepsRamp, sleepsFrom, ih, and_assoc]
  | case3 n as ih => simpa only [List.cons_append, SleepsRamp, sleepsFrom] using ih
  | case4 n a as hsleep hconnected ih =>
    simpa only [List.cons_append, SleepsRamp, sleepsFrom] using ih

theorem sleepsRamp_of_quiet {more : List WsEffect} (h : ∀ a ∈ more, a.Quiet) (config : WsConfig)
    (n : ℕ) : SleepsRamp config n more := by
  induction n, more using sleepsFrom.induct with
  | case1 n => trivial
  | case2 n d more ih => exact (h _ List.mem_cons_self).elim
  | case3 n more ih => exact (h _ List.mem_cons_self).elim
  | case4 n a more hsleep hconnected ih =>
    simpa only [SleepsRamp] using ih fun b hb => h b (List.mem_cons_of_mem _ hb)

/-! ### The backoff of a subscription -/

def Subscription.OnRamp (config : WsConfig) (s : Subscription) (n : ℕ) : Prop :=
  match s.phase with
  -- doubled when the sleep is over
  | .sleeping _ => ∃ m, n = m + 1 ∧ s.backoff = config.delay m
  | .returned => True
  | .raised _ => True
  | _ => s.backoff = config.delay n

structure Ramped (config : WsConfig) (s : Subscription) (effects : List WsEffect) : Prop where
  backoff : s.OnRamp config (sleepsSince effects)
  slept : SleepsRamp config 0 effects

section Step

variable {config : WsConfig} {c : QuikSyncWsClient} {s s' : Subscription}
  {effects more : List WsEffect}

theorem Subscription.OnRamp.of_endsIteration {n : ℕ} (h : s.OnRamp config n) {i : WsInput}
    (hends : EndsIteration s.phase i) : s.backoff = config.delay n := by
  unfold OnRamp at h
  obtain ⟨url, hphase⟩ | hphase := hends.connected
  · rw [hphase] at h
    exact h
  · rw [hphase] at h
    exact h

theorem ramped_quiet (hslept : SleepsRamp config 0 effects) (hquiet : ∀ a ∈ more, a.Quiet)
    (hs : s'.OnRamp config (sleepsSince effects)) : Ramped config s' (effects ++ more) := by
  refine ⟨?_, (sleepsRamp_append ..).mpr ⟨hslept, sleepsRamp_of_quiet hquiet config _⟩⟩
  rwa [(quiet_append effects hquiet).1]

theorem ramped_connect (hslept : SleepsRamp config 0 effects) {url : String}
    (hphase : s'.phase = .connecting url)
    (hbackoff : s'.backoff = config.delay (sleepsSince effects)) :
    Ramped config s' (effects ++ [.getToken false, .connect url]) := by
  refine ⟨?_, (sleepsRamp_append ..).mpr ⟨hslept, trivial⟩⟩
  unfold Subscription.OnRamp
  rw [hphase, sleepsSince, sleepsFrom_append]
  exact hbackoff

theorem ramped_step (hconfig : c.config = config) (hzero : 0 ≤ config.backoffBaseSeconds)
    (hbase : config.backoffBaseSeconds ≤ config.backoffMaxSeconds)
    (h : Ramped config s effects) (i : WsInput) :
    Ramped config (s.step c i).subscription (effects ++ (s.step c i).effects) := by
  obtain ⟨hbackoff, hslept⟩ := h
  cases step_cases c s i with
  | stays hs heffects =>
    rw [hs, heffects, List.append_nil]
    exact ⟨hbackoff, hslept⟩
  | receives hphase hs hquiet =>
    rw [hs]
    exact ramped_quiet hslept hquiet hbackoff
  | ends hfinished hquiet =>
    apply ramped_quiet hslept hquiet
    unfold Subscription.OnRamp
    cases hphase : (s.step c i).subscription.phase <;>
      first | trivial | (rw [hphase] at hfinished; cases hfinished)
  | starts url hphase hs heffects =>
    unfold Subscription.OnRamp at hbackoff
    rw [hphase] at hbackoff
    rw [hs, heffects]
    exact ramped_connect hslept rfl hbackoff
  | wakes url seconds hphase hs heffects =>
    unfold Subscription.OnRamp at hbackoff
    rw [hphase] at hbackoff
    obtain ⟨m, hm, hslow⟩ := hbackoff
    rw [hs, heffects]
    refine ramped_connect hslept rfl ?_
    show min (s.backoff * 2) c.config.backoffMaxSeconds = config.delay (sleepsSince effects)
    rw [hconfig, hslow, config.delay_succ (hzero.trans hbase), hm]
  | opens hs heffects =>
    rw [hs, heffects]
    refine ⟨?_, (sleepsRamp_append ..).mpr ⟨hslept, trivial⟩⟩
    show c.config.backoffBaseSeconds = config.delay (sleepsFrom 0 (effects ++ _))
    rw [sleepsFrom_append, hconfig]
    exact (WsConfig.delay_zero hbase).symm
  | sleeps random more hends hdraw hs hquiet heffects =>
    have hdelay := hbackoff.of_endsIteration hends
    rw [hs, heffects, ← List.append_assoc]
    have hsince : sleepsSince (effects ++ more) = sleepsSince effects :=
      (quiet_append effects hquiet).1
    refine ⟨⟨sleepsSince effects, ?_, hdelay⟩, ?_⟩
    · rw [sleepsSince, sleepsFrom_append, ← hsince]
      rfl
    · rw [sleepsRamp_append, sleepsRamp_append]
      refine ⟨⟨hslept, sleepsRamp_of_quiet hquiet config _⟩, ⟨random, ?_⟩, trivial⟩
      show _ =
        QuikSyncWsClient.jitteredBackoff (config.delay (sleepsSince (effects ++ more))) random
      rw [hsince, hdelay]

end Step

section Shared

variable {config : WsConfig} (hzero : 0 ≤ config.backoffBaseSeconds)
  (hbase : config.backoffBaseSeconds ≤ config.backoffMaxSeconds)

include hzero hbase

theorem ramped (endpoints : ℕ → String × Option String) (is : List SharedInput) (k : ℕ) :
    Ramped config ((sharedMachine.after (.new config endpoints) is).subscriptions k)
      (ownEffects k (sharedMachine.log (.new config endpoints) is)) := by
  have hnew : ∀ k, Ramped config ((WsShared.new config endpoints).subscriptions k) [] :=
    fun _ => ⟨(WsConfig.delay_zero hbase).symm, trivial⟩
  exact own_invariant (P := Ramped config)
    (fun _ _ _ i hconfig h => ramped_step hconfig hzero hbase h i) rfl hnew is k

theorem sleep_eq_delay {endpoints : ℕ → String × Option String} {is : List SharedInput} {k : ℕ}
    {pre post : List WsEffect} {d : ℚ}
    (hown : ownEffects k (sharedMachine.log (.new config endpoints) is) = pre ++ .sleep d :: post) :
    ∃ random, d = QuikSyncWsClient.jitteredBackoff (config.delay (sleepsSince pre)) random := by
  have hslept := (ramped hzero hbase endpoints is k).slept
  rw [hown, sleepsRamp_append] at hslept
  exact hslept.2.1

end Shared

/-! ### The delays before the reconnects -/

theorem sleep_step {c : QuikSyncWsClient} {s : Subscription} {i : WsInput} {d : ℚ}
    (h : .sleep d ∈ (s.step c i).effects) :
    EndsIteration s.phase i ∧
      ∃ random, i.draw = some random ∧ d = QuikSyncWsClient.jitteredBackoff s.backoff random := by
  cases step_cases c s i with
  | stays hs heffects =>
    rw [heffects] at h
    cases h
  | receives hphase hs hquiet => exact (hquiet _ h).elim
  | ends hfinished hquiet => exact (hquiet _ h).elim
  | starts url hphase hs heffects =>
    rw [heffects] at h
    simp at h
  | wakes url seconds hphase hs heffects =>
    rw [heffects] at h
    simp at h
  | opens hs heffects =>
    rw [heffects] at h
    simp at h
  | sleeps random more hends hdraw hs hquiet heffects =>
    rw [heffects] at h
    obtain hmore | hlast := List.mem_append.mp h
    · exact (hquiet _ hmore).elim
    · cases List.mem_singleton.mp hlast
      exact ⟨hends, random, hdraw, rfl⟩

theorem WsConfig.delay_mono (config : WsConfig) (hzero : 0 ≤ config.backoffBaseSeconds) {m n : ℕ}
    (h : m ≤ n) : config.delay m ≤ config.delay n := by
  have hpow : (2 : ℚ) ^ m ≤ 2 ^ n := pow_le_pow_right₀ one_le_two h
  exact min_le_min_right _ (mul_le_mul_of_nonneg_left hpow hzero)

theorem le_sleepsFrom (n : ℕ) {effects : List WsEffect} (h : .attempted .connected ∉ effects) :
    n ≤ sleepsFrom n effects := by
  induction n, effects using sleepsFrom.induct with
  | case1 n => exact le_rfl
  | case2 n d effects ih =>
    exact (Nat.le_succ n).trans (ih fun hmem => h (List.mem_cons_of_mem _ hmem))
  | case3 n effects ih => exact absurd List.mem_cons_self h
  | case4 n a effects hsleep hconnected ih =>
    simpa only [sleepsFrom] using ih fun hmem => h (List.mem_cons_of_mem _ hmem)

/-- The delay that subscription `k` would sleep after the inputs `pre`, before the jitter. -/
def backoffAt (start : WsShared) (pre : List SharedInput) (k : ℕ) : ℚ :=
  ((sharedMachine.after start pre).subscriptions k).backoff

/-- After the inputs `pre`, subscription `k` sleeps `d` seconds for the outcome `i`. -/
def SleepsAt (start : WsShared) (pre : List SharedInput) (k : ℕ) (i : WsInput) (d : ℚ) : Prop :=
  .sleep d ∈ (sharedMachine.step (sharedMachine.after start pre) (.subscription k i)).2

/-- Each iteration that ends on an open client with the breaker closed sleeps once, and each
reconnect but the first connection has its sleep right before it. The sleep ahead of the reconnect
number `n + 1` since the last handshake lasts `base * 2 ^ n`, at most the maximum, up to a jitter
of a quarter, and until a handshake no sleep is shorter than the one before it. -/
structure BacksOffInClosedForm (config : WsConfig) (start : WsShared) (is : List SharedInput)
    (k : ℕ) : Prop where
  sleepsOnce : ∀ pre i, pre ++ [.subscription k i] <+: is →
    (sharedMachine.after start pre).client.closed = false →
    EndsIteration ((sharedMachine.after start pre).subscriptions k).phase i →
    ((sharedMachine.after start (pre ++ [.subscription k i])).subscriptions k).phase ≠
      .raised .wsCircuitOpen →
    SleepsOnce (sharedMachine.step (sharedMachine.after start pre) (.subscription k i)).2
  paced : PacedBySleeps (ownEffects k (sharedMachine.log start is))
  delay : ∀ pre i d, pre ++ [.subscription k i] <+: is → SleepsAt start pre k i d →
    ∃ n, reconnectsSince (ownEffects k (sharedMachine.log start pre)) = some n ∧
      backoffAt start pre k = min (config.backoffBaseSeconds * 2 ^ n) config.backoffMaxSeconds
  jitter : ∀ pre i d, pre ++ [.subscription k i] <+: is → SleepsAt start pre k i d →
    (∃ random, i.draw = some random ∧
      d = QuikSyncWsClient.jitteredBackoff (backoffAt start pre k) random) ∧
    WithinJitter (backoffAt start pre k) d
  rises : ∀ pre i later j d d',
    pre ++ (.subscription k i :: later) ++ [.subscription k j] <+: is →
    SleepsAt start pre k i d → SleepsAt start (pre ++ (.subscription k i :: later)) k j d' →
    .attempted .connected ∉ ownEffects k (sharedMachine.log (sharedMachine.after start pre)
      (.subscription k i :: later)) →
    backoffAt start pre k ≤ backoffAt start (pre ++ (.subscription k i :: later)) k

theorem backoffAt_eq_delay {config : WsConfig} (hzero : 0 ≤ config.backoffBaseSeconds)
    (hbase : config.backoffBaseSeconds ≤ config.backoffMaxSeconds)
    (endpoints : ℕ → String × Option String) {pre : List SharedInput} {k : ℕ} {i : WsInput} {d : ℚ}
    (h : SleepsAt (.new config endpoints) pre k i d) :
    backoffAt (.new config endpoints) pre k =
      config.delay (sleepsSince (ownEffects k (sharedMachine.log (.new config endpoints) pre))) :=
  (ramped hzero hbase endpoints pre k).backoff.of_endsIteration (sleep_step h).1

/-- In every run of every number of subscriptions, whatever the handshakes, refusals, failures and
closes in it, each of them backs off in closed form. -/
theorem backs_off_in_closed_form (config : WsConfig) (hzero : 0 < config.backoffBaseSeconds)
    (hbase : config.backoffBaseSeconds ≤ config.backoffMaxSeconds)
    (endpoints : ℕ → String × Option String) (is : List SharedInput) (k : ℕ) :
    BacksOffInClosedForm config (.new config endpoints) is k where
  sleepsOnce := by
    intro pre i _ hopen hends htrip
    rw [after_subscription] at htrip
    exact sleepsOnce_of_endsIteration hopen hends htrip
  paced := pacedBySleeps (fun _ => rfl) is k
  delay := by
    intro pre i d _ hsleep
    have hrow := (paced (q := .new config endpoints) (fun _ => rfl) pre k).row
    refine ⟨_, hrow.of_endsIteration (sleep_step hsleep).1, ?_⟩
    exact backoffAt_eq_delay hzero.le hbase endpoints hsleep
  jitter := by
    intro pre i d _ hsleep
    obtain ⟨random, hdraw, hd⟩ := (sleep_step hsleep).2
    have hnonneg : 0 ≤ backoffAt (.new config endpoints) pre k := by
      rw [backoffAt_eq_delay hzero.le hbase endpoints hsleep]
      exact le_min (mul_nonneg hzero.le (by positivity)) (hzero.le.trans hbase)
    refine ⟨⟨random, hdraw, hd⟩, ?_⟩
    rw [hd]
    exact jitteredBackoff_within hnonneg random
  rises := by
    intro pre i later j d d' _ hsleep hsleep' hconnected
    have hmore : ownEffects k (sharedMachine.log (.new config endpoints)
        (pre ++ (.subscription k i :: later))) =
        ownEffects k (sharedMachine.log (.new config endpoints) pre) ++
          ownEffects k (sharedMachine.log (sharedMachine.after (.new config endpoints) pre)
            (.subscription k i :: later)) := by
      rw [Machine.log_append]
      exact List.flatMap_append
    rw [backoffAt_eq_delay hzero.le hbase endpoints hsleep,
      backoffAt_eq_delay hzero.le hbase endpoints hsleep', hmore]
    apply config.delay_mono hzero.le
    unfold sleepsSince
    rw [sleepsFrom_append]
    exact le_sleepsFrom _ hconnected

def failuresAroundHandshake : List SharedInput :=
  [.subscription 0 (.resume (.ok "a")), .subscription 0 (.failed default),
    .subscription 0 (.resume (.ok "b")), .subscription 0 (.refused 403 0 (.ok "b") default),
    .subscription 0 (.resume (.ok "c")), .subscription 0 .handshake,
    .subscription 0 (.failed default), .subscription 0 (.resume (.ok "d")),
    .subscription 0 (.failed default), .subscription 0 (.resume (.ok "e"))]

theorem backs_off_in_closed_form_witness :
    BacksOffInClosedForm ⟨"wss://host", 1, 30, 3, 60⟩
        (.new ⟨"wss://host", 1, 30, 3, 60⟩ fun _ => ("/door", none)) failuresAroundHandshake 0 ∧
      reconnectsSince (ownEffects 0 (sharedMachine.log
        (.new ⟨"wss://host", 1, 30, 3, 60⟩ fun _ => ("/door", none)) failuresAroundHandshake)) =
        some 2 :=
  ⟨backs_off_in_closed_form ⟨"wss://host", 1, 30, 3, 60⟩ (by norm_num) (by norm_num)
    (fun _ => ("/door", none)) _ 0, rfl⟩

end QuikSync.Client
