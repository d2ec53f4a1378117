import QuikSyncAdapters.Client.TokenRuns
import QuikSyncAdapters.Client.WsBreaker
import QuikSyncAdapters.Client.WsSurvival
import QuikSyncAdapters.Library.Amortised
import Mathlib.Data.Finset.Card

/-! The token client, the subscriptions that take their tokens from it, and a server that may stop
taking tokens at any time. A 401 makes the subscription renew the token for all of them; how many
401s that leaves for the breaker to count. -/

namespace QuikSync.Client

open Py Auth0M2MClient

/-! ### Subscriptions over one token client -/

/-- What the awaited operation of a subscription comes to, with what a call of `get_token` that
follows it finds. -/
inductive Awaited (config : AuthConfig) where
  | resume (w : World config)
  | handshake
  | refused (status : ℕ) (now : ℚ) (w : World config) (random : Draw)
  | failed (random : Draw)
  | message (decoded : Decoded)
  | cleanClose (random : Draw)
  | cancel

inductive TrafficEvent (config : AuthConfig) where
  | subscription (k : ℕ) (a : Awaited config)
  | close
  -- a call of another user of the token client
  | getToken (call : TokenCall config)
  -- from now on the server takes these tokens no longer
  | revoke (tokens : List Json)

structure Traffic (config : AuthConfig) where
  memory : Memory
  shared : WsShared
  carried : ℕ → Json
  revoked : List Json

variable {config : AuthConfig}

def Awaited.call : Awaited config → Option (TokenCall config)
  | resume w => some ⟨false, w⟩
  | refused _ _ w _ => some ⟨true, w⟩
  | _ => none

def ask (memory : Memory) (call : TokenCall config) : Memory × Except Exc Json :=
  (((tokenMachine config).step memory call).1, ((tokenMachine config).step memory call).2.2)

/-- `text` renders a token as the f-string of the URL does. -/
def Awaited.input (text : Json → String) (memory : Memory) : Awaited config → WsInput
  | resume w => .resume ((ask memory ⟨false, w⟩).2.map text)
  | handshake => .handshake
  | refused status now w random => .refused status now ((ask memory ⟨true, w⟩).2.map text) random
  | failed random => .failed random
  | message decoded => .message decoded
  | cleanClose random => .cleanClose random
  | cancel => .cancel

def WsEffect.asks : WsEffect → Bool
  | .getToken _ => true
  | _ => false

def WsEffect.connects : WsEffect → Bool
  | .connect _ => true
  | _ => false

def WsEffect.rejectedAt (effect : WsEffect) : Option ℚ := effect.attempt.bind Attempt.rejectedAt

def WsEffect.failedRefresh : WsEffect → Bool
  | .refreshFailed _ => true
  | _ => false

namespace Traffic

def new (config : AuthConfig) (ws : WsConfig) (endpoints : ℕ → String × Option String) :
    Traffic config :=
  ⟨fresh config, .new ws endpoints, fun _ => .null, []⟩

variable (text : Json → String)

def remembered (q : Traffic config) (a : Awaited config) (effects : List WsEffect) : Memory :=
  match a.call with
  | some call => if effects.any WsEffect.asks then (ask q.memory call).1 else q.memory
  | none => q.memory

def taken (q : Traffic config) (k : ℕ) (a : Awaited config) (effects : List WsEffect) :
    ℕ → Json :=
  match a.call with
  | some call =>
    match (ask q.memory call).2 with
    | .ok token =>
      if effects.any WsEffect.connects then Function.update q.carried k token else q.carried
    | .error _ => q.carried
  | none => q.carried

def moveOn (q : Traffic config) (k : ℕ) (a : Awaited config) (r : WsStep) : Traffic config where
  memory := q.remembered a r.effects
  shared := ⟨r.client, Function.update q.shared.subscriptions k r.subscription⟩
  carried := q.taken k a r.effects
  revoked := q.revoked

def machine : Machine (Traffic config) (TrafficEvent config) (List (ℕ × WsEffect)) where
  step q
    | .subscription k a =>
      let r := (q.shared.subscriptions k).step q.shared.client (a.input text q.memory)
      (q.moveOn k a r, r.effects.map fun effect => (k, effect))
    | .close => ({ q with shared := ⟨q.shared.client.close, q.shared.subscriptions⟩ }, [])
    | .getToken call => ({ q with memory := (ask q.memory call).1 }, [])
    | .revoke tokens => ({ q with revoked := q.revoked ++ tokens }, [])

/-- Auth0 grants tokens that the server takes. -/
def GrantsFresh (q : Traffic config) (call : TokenCall config) : Prop :=
  ∀ token ttl, Grants call.world.answer token ttl → token ∉ q.revoked

/-- The first `n` subscriptions are in use, and the server refuses with a 401 only the tokens that
it takes no longer. -/
def Honest (n : ℕ) (q : Traffic config) : TrafficEvent config → Prop
  | .subscription k a => k < n ∧ (∀ call, a.call = some call → q.GrantsFresh call) ∧
      ∀ now, Rejects (q.shared.subscriptions k).phase (a.input text q.memory) now →
        q.carried k ∈ q.revoked
  | .getToken call => q.GrantsFresh call
  | _ => True

abbrev Entry (config : AuthConfig) := TrafficEvent config × List (ℕ × WsEffect)

def rejectedAt (e : Entry config) : List ℚ :=
  e.2.filterMap fun effect => effect.2.rejectedAt

def failures (e : Entry config) : ℕ := e.2.countP fun effect => effect.2.failedRefresh

def revocations : Entry config → ℕ
  | (.revoke _, _) => 1
  | _ => 0

end Traffic

/-! ### What a subscription does -/

def WsEffect.Plain (effect : WsEffect) : Prop :=
  effect.asks = false ∧ effect.connects = false ∧ effect.failedRefresh = false ∧
    effect.rejectedAt = none

theorem plain_sleep (slept : List ℚ) : ∀ effect ∈ slept.map WsEffect.sleep, effect.Plain := by
  intro effect heffect
  obtain ⟨seconds, -, rfl⟩ := List.mem_map.mp heffect
  exact ⟨rfl, rfl, rfl, rfl⟩

/-- One step of a subscription, by what it has to do with tokens. -/
inductive Moved (memory : Memory) (s : Subscription) : Awaited config → WsStep → Prop where
  | quiet {a : Awaited config} {r : WsStep} (hplain : ∀ effect ∈ r.effects, effect.Plain)
      (hends : s.phase.finished = true → r.subscription.phase.finished = true)
      (hwaits : r.subscription.phase.isConnecting = true → s.phase.isConnecting = true) :
      Moved memory s a r
  | connected {r : WsStep} (w : World config) (token : Json) (url : String)
      (hask : (ask memory ⟨false, w⟩).2 = .ok token) (halive : s.phase.finished = false)
      (heffects : r.effects = [.getToken false, .connect url]) : Moved memory s (.resume w) r
  | stopped {r : WsStep} (w : World config) (e : Exc)
      (hask : (ask memory ⟨false, w⟩).2 = .error e) (hends : r.subscription.phase.finished = true)
      (heffects : r.effects = [.getToken false, .raise (.client e)]) :
      Moved memory s (.resume w) r
  | tripped {r : WsStep} (now : ℚ) (w : World config) (random : Draw)
      (hwaits : s.phase.isConnecting = true) (hends : r.subscription.phase.finished = true)
      (heffects : r.effects = [.attempted (.refused 401 now), .raise .wsCircuitOpen]) :
      Moved memory s (.refused 401 now w random) r
  | renewed {r : WsStep} (now : ℚ) (w : World config) (random : Draw) (token : Json)
      (slept : List ℚ) (hwaits : s.phase.isConnecting = true)
      (hask : (ask memory ⟨true, w⟩).2 = .ok token)
      (hleft : r.subscription.phase.isConnecting = false)
      (heffects : r.effects = [.attempted (.refused 401 now), .getToken true] ++
        slept.map .sleep) : Moved memory s (.refused 401 now w random) r
  | unrenewed {r : WsStep} (now : ℚ) (w : World config) (random : Draw) (e : Exc)
      (slept : List ℚ) (hwaits : s.phase.isConnecting = true)
      (hask : (ask memory ⟨true, w⟩).2 = .error e)
      (hleft : r.subscription.phase.isConnecting = false)
      (heffects : r.effects = [.attempted (.refused 401 now), .getToken true,
        .refreshFailed e] ++ slept.map .sleep) : Moved memory s (.refused 401 now w random) r

section Moved

variable {memory : Memory} {s : Subscription} {c : QuikSyncWsClient} {a : Awaited config}

theorem moved_same : Moved memory s a ⟨c, s, []⟩ :=
  .quiet (List.forall_mem_nil _) id id

theorem backOff_not_connecting (random : Draw) (effects : List WsEffect) :
    (s.backOff c random effects).subscription.phase.isConnecting = false := by
  unfold Subscription.backOff
  split <;> rfl

theorem moved_backOff (halive : s.phase.finished = false) (random : Draw) {effects : List WsEffect}
    (hplain : ∀ effect ∈ effects, effect.Plain) :
    Moved memory s a (s.backOff c random effects) := by
  obtain ⟨slept, hslept⟩ := backOff_effects c s random effects
  apply Moved.quiet
  · rw [hslept]
    intro effect heffect
    exact (List.mem_append.mp heffect).elim (hplain effect) (plain_sleep slept effect)
  · intro h
    exact absurd (halive.symm.trans h) Bool.false_ne_true
  · intro h
    exact absurd ((backOff_not_connecting random effects).symm.trans h) Bool.false_ne_true

theorem moved_receive (hphase : s.phase = .streaming) (decoded : Decoded) :
    Moved memory s a (s.receive c decoded) := by
  have halive : s.phase.finished = true → ∀ p : Prop, p := by
    rw [hphase]
    exact fun h => absurd h Bool.false_ne_true
  unfold Subscription.receive
  split
  · exact .quiet (List.forall_mem_nil _) (fun h => halive h _) fun h => absurd h Bool.false_ne_true
  split
  · exact .quiet (by simp [WsEffect.Plain, WsEffect.asks, WsEffect.connects,
      WsEffect.failedRefresh, WsEffect.rejectedAt, WsEffect.attempt]) id id
  · exact moved_same
  · exact moved_same
  · exact .quiet (by simp [WsEffect.Plain, WsEffect.asks, WsEffect.connects,
      WsEffect.failedRefresh, WsEffect.rejectedAt, WsEffect.attempt]) (fun h => halive h _)
      fun h => absurd h Bool.false_ne_true

theorem moved_resume (w : World config) (text : Json → String) :
    Moved memory s (.resume w)
      (s.step c (.resume ((ask memory ⟨false, w⟩).2.map text))) := by
  by_cases hhead : s.phase.atHead = true
  · have halive : s.phase.finished = false := by
      revert hhead
      cases s.phase <;> simp [Phase.atHead, Phase.finished]
    obtain ⟨s', hstep⟩ := step_resume (c := c) hhead ((ask memory ⟨false, w⟩).2.map text)
    rw [hstep]
    unfold Subscription.connect
    split
    · exact .quiet (List.forall_mem_nil _) (fun h => rfl) fun h => absurd h Bool.false_ne_true
    cases hask : (ask memory ⟨false, w⟩).2 with
    | error e => exact .stopped w e hask rfl rfl
    | ok token => exact .connected w token _ hask halive rfl
  · have hsame : s.step c (.resume ((ask memory ⟨false, w⟩).2.map text)) = ⟨c, s, []⟩ := by
      unfold Subscription.step
      cases hphase : s.phase <;> simp_all [Phase.atHead]
    rw [hsame]
    exact moved_same

theorem moved_refused (status : ℕ) (now : ℚ) (w : World config) (random : Draw)
    (text : Json → String) :
    Moved memory s (.refused status now w random)
      (s.step c (.refused status now ((ask memory ⟨true, w⟩).2.map text) random)) := by
  unfold Subscription.step
  cases hphase : s.phase with
  | connecting url =>
    have hwaits : s.phase.isConnecting = true := by rw [hphase]; rfl
    have halive : s.phase.finished = false := by rw [hphase]; rfl
    dsimp only [Subscription.invalidStatus]
    split
    · rename_i hstatus
      subst hstatus
      split
      · exact .tripped now w random hwaits rfl rfl
      cases hask : (ask memory ⟨true, w⟩).2 with
      | ok token =>
        obtain ⟨slept, hslept⟩ := backOff_effects (c.record401 now) s random
          [.attempted (.refused 401 now), .getToken true]
        exact .renewed now w random token slept hwaits hask (backOff_not_connecting ..) hslept
      | error e =>
        obtain ⟨slept, hslept⟩ := backOff_effects (c.record401 now) s random
          [.attempted (.refused 401 now), .getToken true, .refreshFailed e]
        exact .unrenewed now w random e slept hwaits hask (backOff_not_connecting ..) hslept
    · rename_i hstatus
      apply moved_backOff halive
      intro effect heffect
      obtain rfl := List.mem_singleton.mp heffect
      refine ⟨rfl, rfl, rfl, ?_⟩
      show Attempt.rejectedAt (.refused status now) = none
      unfold Attempt.rejectedAt
      split
      · rename_i heq
        exact absurd (Attempt.refused.inj heq).1 hstatus
      · rfl
  | _ => exact moved_same

theorem moved (c : QuikSyncWsClient) (text : Json → String) (a : Awaited config) :
    Moved memory s a (s.step c (a.input text memory)) := by
  have hfailed : WsEffect.Plain (.attempted .failed) := ⟨rfl, rfl, rfl, rfl⟩
  cases a with
  | resume w => exact moved_resume w text
  | refused status now w random => exact moved_refused status now w random text
  | handshake =>
    dsimp only [Awaited.input]
    unfold Subscription.step
    cases hphase : s.phase with
    | connecting url =>
      refine .quiet (List.forall_mem_singleton.mpr ⟨rfl, rfl, rfl, rfl⟩) ?_ ?_
      · rw [hphase]
        exact fun h => absurd h Bool.false_ne_true
      · exact fun h => absurd h Bool.false_ne_true
    | _ => exact moved_same
  | failed random =>
    dsimp only [Awaited.input]
    unfold Subscription.step
    cases hphase : s.phase with
    | connecting url =>
      exact moved_backOff (by rw [hphase]; rfl) random (List.forall_mem_singleton.mpr hfailed)
    | streaming => exact moved_backOff (by rw [hphase]; rfl) random (List.forall_mem_nil _)
    | _ => exact moved_same
  | message decoded =>
    dsimp only [Awaited.input]
    unfold Subscription.step
    cases hphase : s.phase with
    | streaming => exact moved_receive hphase decoded
    | _ => exact moved_same
  | cleanClose random =>
    dsimp only [Awaited.input]
    unfold Subscription.step
    cases hphase : s.phase with
    | streaming => exact moved_backOff (by rw [hphase]; rfl) random (List.forall_mem_nil _)
    | _ => exact moved_same
  | cancel =>
    have hstep : s.step c .cancel = if s.phase.finished then ⟨c, s, []⟩
        else ⟨c, { s with phase := .raised .cancelledError }, [.raise .cancelledError]⟩ := by
      unfold Subscription.step
      cases s.phase <;> rfl
    dsimp only [Awaited.input]
    rw [hstep]
    split_ifs
    · exact moved_same
    · exact .quiet (List.forall_mem_singleton.mpr ⟨rfl, rfl, rfl, rfl⟩) (fun _ => rfl)
        fun h => absurd h Bool.false_ne_true

end Moved

/-! ### What a call leaves in the cache -/

inductive Asked (memory : Memory) (call : TokenCall config) : Memory × Except Exc Json → Prop where
  | hit (cached : CachedToken) (hcached : memory.1 = some cached)
      (hforce : call.forceRefresh = false) :
      Asked memory call (memory, .ok cached.accessToken)
  | granted (token : Json) (ttl : ℤ) (expires : ℚ) (n : ℕ)
      (hgrants : Grants call.world.answer token ttl) :
      Asked memory call ((some ⟨token, expires⟩, n), .ok token)
  | failed (n : ℕ) (e : Exc) : Asked memory call ((memory.1, n), .error e)

theorem ask_cases (memory : Memory) (call : TokenCall config) :
    Asked memory call (ask memory call) := by
  have hstep := token_step memory call
  have hforced := sends_of_forced memory (i := call)
  unfold ask
  generalize (tokenMachine config).step memory call = r at hstep hforced ⊢
  cases hstep with
  | cached cached hcached hvalid =>
    exact .hit cached hcached (Bool.eq_false_iff.mpr fun h => Bool.false_ne_true (hforced h))
  | granted request token ttl hgrants haccount => exact .granted token ttl _ 0 hgrants
  | counted request e hfailure haccount => exact .failed _ e
  | uncounted request e n haccount => exact .failed n _

namespace Traffic

def Stale (q : Traffic config) (memory : Memory) : Prop :=
  ∃ cached, memory.1 = some cached ∧ cached.accessToken ∈ q.revoked

variable {q : Traffic config} {call : TokenCall config}

theorem stale_of_asked (hfresh : q.GrantsFresh call) (h : q.Stale (ask q.memory call).1) :
    q.Stale q.memory := by
  have hasked := ask_cases q.memory call
  generalize ask q.memory call = r at hasked h
  cases hasked with
  | hit cached hcached hforce => exact h
  | granted token ttl expires n hgrants =>
    obtain ⟨cached, hcached, hrevoked⟩ := h
    obtain rfl := Option.some.inj hcached
    exact absurd hrevoked (hfresh token ttl hgrants)
  | failed n e => exact h

theorem not_stale_of_forced (hfresh : q.GrantsFresh call) (hforce : call.forceRefresh = true)
    {token : Json} (hok : (ask q.memory call).2 = .ok token) :
    ¬ q.Stale (ask q.memory call).1 := by
  have hasked := ask_cases q.memory call
  generalize ask q.memory call = r at hasked hok
  cases hasked with
  | hit cached hcached hunforced => exact absurd (hunforced.symm.trans hforce) Bool.false_ne_true
  | granted token ttl expires n hgrants =>
    rintro ⟨cached, hcached, hrevoked⟩
    obtain rfl := Option.some.inj hcached
    exact hfresh token ttl hgrants hrevoked
  | failed n e => cases hok

theorem stale_of_returned (hfresh : q.GrantsFresh call) {token : Json}
    (hok : (ask q.memory call).2 = .ok token) (hrevoked : token ∈ q.revoked) :
    q.Stale q.memory := by
  have hasked := ask_cases q.memory call
  generalize ask q.memory call = r at hasked hok
  cases hasked with
  | hit cached hcached hforce =>
    obtain rfl := Except.ok.inj hok
    exact ⟨cached, hcached, hrevoked⟩
  | granted token' ttl expires n hgrants =>
    obtain rfl := Except.ok.inj hok
    exact absurd hrevoked (hfresh _ ttl hgrants)
  | failed n e => cases hok

/-- The subscription goes on, and its attempt or the cache has a token that is no longer taken. -/
def Exposed (q : Traffic config) (k : ℕ) : Prop :=
  (q.shared.subscriptions k).phase.finished = false ∧
    (q.Stale q.memory ∨
      (q.shared.subscriptions k).phase.isConnecting = true ∧ q.carried k ∈ q.revoked)

open Classical in
noncomputable def exposed (n : ℕ) (q : Traffic config) : ℕ :=
  ((Finset.range n).filter q.Exposed).card

theorem exposed_le (n : ℕ) (q : Traffic config) : exposed n q ≤ n := by
  classical
  unfold exposed
  exact (Finset.card_filter_le _ _).trans_eq (Finset.card_range n)

variable {q' : Traffic config} {n k : ℕ}

theorem exposed_mono (h : ∀ j, q'.Exposed j → q.Exposed j) : exposed n q' ≤ exposed n q := by
  classical
  unfold exposed
  apply Finset.card_le_card
  exact Finset.monotone_filter_right _ fun j _ hj => h j hj

theorem exposed_lt (h : ∀ j, q'.Exposed j → q.Exposed j) (hk : k < n) (hold : q.Exposed k)
    (hnew : ¬ q'.Exposed k) : exposed n q' + 1 ≤ exposed n q := by
  classical
  unfold exposed
  apply Finset.card_lt_card
  refine (Finset.ssubset_iff_of_subset ?_).mpr ⟨k, ?_, ?_⟩
  · exact Finset.monotone_filter_right _ fun j _ hj => h j hj
  · exact Finset.mem_filter.mpr ⟨Finset.mem_range.mpr hk, hold⟩
  · exact fun hmem => hnew (Finset.mem_filter.mp hmem).2

theorem exposed_kept (hrevoked : q'.revoked = q.revoked)
    (hstale : q.Stale q'.memory → q.Stale q.memory) {j : ℕ}
    (hends : (q.shared.subscriptions j).phase.finished = true →
      (q'.shared.subscriptions j).phase.finished = true)
    (hwaits : (q'.shared.subscriptions j).phase.isConnecting = true → q'.carried j ∈ q.revoked →
      q.Stale q.memory ∨
        (q.shared.subscriptions j).phase.isConnecting = true ∧ q.carried j ∈ q.revoked)
    (h : q'.Exposed j) : q.Exposed j := by
  obtain ⟨halive, hexposed⟩ := h
  refine ⟨?_, ?_⟩
  · apply Bool.eq_false_iff.mpr
    intro hended
    exact absurd (halive.symm.trans (hends hended)) Bool.false_ne_true
  · unfold Stale at hexposed
    rw [hrevoked] at hexposed
    obtain hold | ⟨hconnecting, hcarried⟩ := hexposed
    · exact Or.inl (hstale hold)
    · exact hwaits hconnecting hcarried

/-! ### What a step costs -/

theorem rejectedAt_effects (e : TrafficEvent config) (k : ℕ) (effects : List WsEffect) :
    rejectedAt (e, effects.map fun effect => (k, effect)) =
      effects.filterMap WsEffect.rejectedAt := by
  unfold rejectedAt
  rw [List.filterMap_map]
  rfl

theorem failures_effects (e : TrafficEvent config) (k : ℕ) (effects : List WsEffect) :
    failures (e, effects.map fun effect => (k, effect)) =
      effects.countP WsEffect.failedRefresh := by
  unfold failures
  rw [List.countP_map]
  rfl

theorem counts_sleep (effects : List WsEffect) (slept : List ℚ) :
    (effects ++ slept.map WsEffect.sleep).filterMap WsEffect.rejectedAt =
        effects.filterMap WsEffect.rejectedAt ∧
      (effects ++ slept.map WsEffect.sleep).countP WsEffect.failedRefresh =
        effects.countP WsEffect.failedRefresh := by
  have hplain := plain_sleep slept
  have hnone : (slept.map WsEffect.sleep).filterMap WsEffect.rejectedAt = [] :=
    List.filterMap_eq_nil_iff.mpr fun effect he => (hplain effect he).2.2.2
  have hzero : (slept.map WsEffect.sleep).countP WsEffect.failedRefresh = 0 :=
    List.countP_eq_zero.mpr fun effect he => by simp [(hplain effect he).2.2.1]
  rw [List.filterMap_append, hnone, List.append_nil, List.countP_append, hzero]
  exact ⟨rfl, rfl⟩

section Subscription

variable {a : Awaited config} {r : WsStep}

@[simp] theorem moveOn_self :
    (q.moveOn k a r).shared.subscriptions k = r.subscription := Function.update_self ..

theorem exposed_moveOn (hstale : q.Stale (q.remembered a r.effects) → q.Stale q.memory)
    (hends : (q.shared.subscriptions k).phase.finished = true →
      r.subscription.phase.finished = true)
    (hwaits : r.subscription.phase.isConnecting = true →
      q.taken k a r.effects k ∈ q.revoked →
      q.Stale q.memory ∨
        (q.shared.subscriptions k).phase.isConnecting = true ∧ q.carried k ∈ q.revoked) :
    ∀ j, (q.moveOn k a r).Exposed j → q.Exposed j := by
  intro j
  have hother : j ≠ k → (q.moveOn k a r).shared.subscriptions j = q.shared.subscriptions j :=
    fun hj => Function.update_of_ne hj ..
  have hcarried : j ≠ k → (q.moveOn k a r).carried j = q.carried j := by
    intro hj
    show q.taken k a r.effects j = _
    unfold taken
    cases a.call with
    | none => rfl
    | some call =>
      dsimp only
      cases (ask q.memory call).2 with
      | error e => rfl
      | ok token =>
        dsimp only
        split_ifs
        · exact Function.update_of_ne hj ..
        · rfl
  have hrevoked : (q.moveOn k a r).revoked = q.revoked := rfl
  apply exposed_kept hrevoked hstale
  · by_cases hj : j = k
    · subst hj
      rw [moveOn_self]
      exact hends
    · rw [hother hj]
      exact id
  · by_cases hj : j = k
    · subst hj
      rw [moveOn_self]
      exact hwaits
    · rw [hother hj, hcarried hj]
      exact fun hconnecting hrevoked => Or.inr ⟨hconnecting, hrevoked⟩

theorem remembered_of_quiet (h : r.effects.any WsEffect.asks = false) :
    q.remembered a r.effects = q.memory := by
  unfold remembered
  cases a.call with
  | none => rfl
  | some call => rw [h]; rfl

theorem remembered_of_call (hcall : a.call = some call) (h : r.effects.any WsEffect.asks = true) :
    q.remembered a r.effects = (ask q.memory call).1 := by
  unfold remembered
  rw [hcall, h]
  rfl

theorem taken_of_quiet (h : r.effects.any WsEffect.connects = false) :
    q.taken k a r.effects = q.carried := by
  unfold taken
  cases a.call with
  | none => rfl
  | some call =>
    dsimp only
    cases (ask q.memory call).2 with
    | error e => rfl
    | ok token => rw [h]; rfl

theorem finished_of_connecting {phase : Phase} (h : phase.isConnecting = true) :
    phase.finished = false := by
  cases phase <;> first | rfl | cases h

theorem exposed_of_ends (hstale : q.Stale (q.remembered a r.effects) → q.Stale q.memory)
    (hends : r.subscription.phase.finished = true) :
    ∀ j, (q.moveOn k a r).Exposed j → q.Exposed j := by
  refine exposed_moveOn hstale (fun _ => hends) fun hconnecting => ?_
  have halive := finished_of_connecting hconnecting
  exact absurd (halive.symm.trans hends) Bool.false_ne_true

theorem exposed_of_leaves (hstale : q.Stale (q.remembered a r.effects) → q.Stale q.memory)
    (hwaits : (q.shared.subscriptions k).phase.isConnecting = true)
    (hleft : r.subscription.phase.isConnecting = false) :
    ∀ j, (q.moveOn k a r).Exposed j → q.Exposed j := by
  have halive := finished_of_connecting hwaits
  apply exposed_moveOn hstale
  · exact fun hended => absurd (halive.symm.trans hended) Bool.false_ne_true
  · exact fun hconnecting => absurd (hleft.symm.trans hconnecting) Bool.false_ne_true

theorem moved_mono (hfresh : ∀ call, a.call = some call → q.GrantsFresh call)
    (h : Moved q.memory (q.shared.subscriptions k) a r) :
    ∀ j, (q.moveOn k a r).Exposed j → q.Exposed j := by
  have hsilent : r.effects.any WsEffect.asks = false →
      q.Stale (q.remembered a r.effects) → q.Stale q.memory := by
    intro hasks
    rw [remembered_of_quiet hasks]
    exact id
  have hcalled : ∀ {call}, a.call = some call → r.effects.any WsEffect.asks = true →
      q.Stale (q.remembered a r.effects) → q.Stale q.memory := by
    intro call hcall hasks
    rw [remembered_of_call hcall hasks]
    exact stale_of_asked (hfresh call hcall)
  cases h with
  | quiet hplain hends hwaits =>
    have hasks : r.effects.any WsEffect.asks = false :=
      List.any_eq_false.mpr fun effect he => by simp [(hplain effect he).1]
    have hconnects : r.effects.any WsEffect.connects = false :=
      List.any_eq_false.mpr fun effect he => by simp [(hplain effect he).2.1]
    refine exposed_moveOn (hsilent hasks) hends ?_
    rw [taken_of_quiet hconnects]
    exact fun hconnecting hrevoked => Or.inr ⟨hwaits hconnecting, hrevoked⟩
  | connected w token url hask hgoes heffects =>
    have htaken : q.taken k (.resume w) r.effects k = token := by
      unfold taken
      dsimp only [Awaited.call]
      rw [hask, heffects]
      exact Function.update_self ..
    refine exposed_moveOn (hcalled rfl (by rw [heffects]; rfl)) ?_ ?_
    · exact fun hended => absurd (hgoes.symm.trans hended) Bool.false_ne_true
    · rw [htaken]
      exact fun _ hrevoked => Or.inl (stale_of_returned (hfresh _ rfl) hask hrevoked)
  | stopped w e hask hends heffects =>
    exact exposed_of_ends (hcalled rfl (by rw [heffects]; rfl)) hends
  | tripped now w random hwaits hends heffects =>
    exact exposed_of_ends (hsilent (by rw [heffects]; rfl)) hends
  | renewed now w random token slept hwaits hask hleft heffects =>
    exact exposed_of_leaves (hcalled rfl (by rw [heffects]; rfl)) hwaits hleft
  | unrenewed now w random e slept hwaits hask hleft heffects =>
    exact exposed_of_leaves (hcalled rfl (by rw [heffects]; rfl)) hwaits hleft

theorem moved_counts (hfresh : ∀ call, a.call = some call → q.GrantsFresh call)
    (h : Moved q.memory (q.shared.subscriptions k) a r) :
    r.effects.filterMap WsEffect.rejectedAt = [] ∨
      ∃ now, r.effects.filterMap WsEffect.rejectedAt = [now] ∧
        (q.shared.subscriptions k).phase.isConnecting = true ∧
        (∃ w random, a = .refused 401 now w random) ∧
        (r.effects.countP WsEffect.failedRefresh = 1 ∨ ¬ (q.moveOn k a r).Exposed k) := by
  cases h with
  | quiet hplain hends hwaits =>
    exact Or.inl (List.filterMap_eq_nil_iff.mpr fun effect he => (hplain effect he).2.2.2)
  | connected w token url hask hgoes heffects =>
    rw [heffects]
    exact Or.inl rfl
  | stopped w e hask hends heffects =>
    rw [heffects]
    exact Or.inl rfl
  | tripped now w random hwaits hends heffects =>
    refine Or.inr ⟨now, by rw [heffects]; rfl, hwaits, ⟨w, random, rfl⟩, Or.inr ?_⟩
    rintro ⟨hgoes, -⟩
    rw [moveOn_self] at hgoes
    exact absurd (hgoes.symm.trans hends) Bool.false_ne_true
  | renewed now w random token slept hwaits hask hleft heffects =>
    refine Or.inr ⟨now, ?_, hwaits, ⟨w, random, rfl⟩, Or.inr ?_⟩
    · rw [heffects, (counts_sleep _ slept).1]
      rfl
    · have hremembered : q.remembered (.refused 401 now w random) r.effects =
          (ask q.memory ⟨true, w⟩).1 := remembered_of_call rfl (by rw [heffects]; rfl)
      rintro ⟨-, hstale | ⟨hconnecting, -⟩⟩
      · refine not_stale_of_forced (hfresh ⟨true, w⟩ rfl) rfl hask ?_
        rw [← hremembered]
        exact hstale
      · rw [moveOn_self] at hconnecting
        exact absurd (hleft.symm.trans hconnecting) Bool.false_ne_true
  | unrenewed now w random e slept hwaits hask hleft heffects =>
    obtain ⟨hrejected, hfailed⟩ := counts_sleep [.attempted (.refused 401 now), .getToken true,
      .refreshFailed e] slept
    refine Or.inr ⟨now, ?_, hwaits, ⟨w, random, rfl⟩, Or.inl ?_⟩
    · rw [heffects, hrejected]
      rfl
    · rw [heffects, hfailed]
      rfl

/-- A 401 leaves one exposed subscription fewer, unless the renewal after it fails. -/
theorem moveOn_paid (hk : k < n) (hfresh : ∀ call, a.call = some call → q.GrantsFresh call)
    (hserver : (q.shared.subscriptions k).phase.isConnecting = true →
      (∃ now w random, a = .refused 401 now w random) → q.carried k ∈ q.revoked)
    (h : Moved q.memory (q.shared.subscriptions k) a r) :
    (r.effects.filterMap WsEffect.rejectedAt).length + exposed n (q.moveOn k a r) ≤
      exposed n q + r.effects.countP WsEffect.failedRefresh := by
  have hmono := moved_mono hfresh h
  obtain hnone | ⟨now, hone, hwaits, ⟨w, random, ha⟩, hpaid⟩ := moved_counts hfresh h
  · rw [hnone, List.length_nil, Nat.zero_add]
    exact (exposed_mono hmono).trans (Nat.le_add_right _ _)
  · rw [hone, List.length_singleton, Nat.add_comm]
    -- Either the failure pays, or the subscription was exposed and is so no more.
    obtain hfailed | hsafe := hpaid
    · rw [hfailed]
      exact Nat.add_le_add_right (exposed_mono hmono) 1
    · have hexposed : q.Exposed k := ⟨finished_of_connecting hwaits,
        Or.inr ⟨hwaits, hserver hwaits ⟨now, w, random, ha⟩⟩⟩
      exact (exposed_lt hmono hk hexposed hsafe).trans (Nat.le_add_right _ _)

end Subscription

variable {text : Json → String}

theorem step_paid {e : TrafficEvent config} (h : q.Honest text n e) :
    (rejectedAt (e, ((machine text).step q e).2)).length + exposed n ((machine text).step q e).1 ≤
      exposed n q + (n * revocations (e, ((machine text).step q e).2) +
        failures (e, ((machine text).step q e).2)) := by
  cases e with
  | subscription k a =>
    obtain ⟨hk, hfresh, hserver⟩ := h
    have hpaid := moveOn_paid hk hfresh ?_ (moved q.shared.client text a)
    · dsimp only [machine]
      rw [rejectedAt_effects, failures_effects]
      exact hpaid.trans (by simp [revocations])
    · rintro hconnecting ⟨now, w, random, rfl⟩
      exact hserver now ⟨hconnecting, _, _, rfl⟩
  | close =>
    show 0 + exposed n _ ≤ _
    rw [Nat.zero_add]
    exact (exposed_mono fun j hj => hj).trans (Nat.le_add_right _ _)
  | getToken call =>
    show 0 + exposed n _ ≤ _
    rw [Nat.zero_add]
    refine (exposed_mono fun j => ?_).trans (Nat.le_add_right _ _)
    apply exposed_kept
    · rfl
    · exact stale_of_asked h
    · exact id
    · exact fun hconnecting hrevoked => Or.inr ⟨hconnecting, hrevoked⟩
  | revoke tokens =>
    -- A revocation may expose them all.
    show 0 + exposed n _ ≤ _ + (n * 1 + 0)
    have hle := exposed_le n ((machine text).step q (.revoke tokens)).1
    omega

/-! ### What the breaker counts -/

structure Accounts (ws : WsConfig) (q : Traffic config) (past : List (Entry config)) : Prop where
  configured : q.shared.client.config = ws
  failureTimes : q.shared.client.failureTimes =
    SlidingWindow.recorded ws.circuitBreakerWindowSeconds (past.flatMap rejectedAt)

theorem rejectedAt_of_rejects {s : Subscription} {c : QuikSyncWsClient} {i : WsInput} {now : ℚ}
    (h : Rejects s.phase i now) : (s.step c i).effects.filterMap WsEffect.rejectedAt = [now] := by
  have hattempts := (step_of_rejects c s h).2.1
  have hbind : (s.step c i).effects.filterMap WsEffect.rejectedAt =
      ((s.step c i).effects.filterMap WsEffect.attempt).filterMap Attempt.rejectedAt := by
    rw [List.filterMap_filterMap]
    rfl
  rw [hbind, hattempts]
  rfl

theorem rejectedAt_of_not_rejects {s : Subscription} {c : QuikSyncWsClient} {i : WsInput}
    (h : ∀ now, ¬ Rejects s.phase i now) :
    (s.step c i).effects.filterMap WsEffect.rejectedAt = [] := by
  apply List.filterMap_eq_nil_iff.mpr
  intro effect he
  cases effect with
  | attempted a => exact (step_of_not_rejects c s h).attempts a he
  | _ => rfl

theorem accounts_step {ws : WsConfig} {past : List (Entry config)} (h : Accounts ws q past)
    (e : TrafficEvent config) :
    Accounts ws ((machine text).step q e).1 (past ++ [(e, ((machine text).step q e).2)]) := by
  have hquiet : rejectedAt (e, ((machine text).step q e).2) = [] →
      ((machine text).step q e).1.shared.client.config = q.shared.client.config →
      ((machine text).step q e).1.shared.client.failureTimes = q.shared.client.failureTimes →
      Accounts ws ((machine text).step q e).1 (past ++ [(e, ((machine text).step q e).2)]) := by
    intro hnone hconfig htimes
    refine ⟨hconfig.trans h.configured, ?_⟩
    rw [List.flatMap_append, List.flatMap_singleton, hnone, List.append_nil]
    exact htimes.trans h.failureTimes
  cases e with
  | subscription k a =>
    by_cases hrejects : ∃ now, Rejects (q.shared.subscriptions k).phase (a.input text q.memory) now
    · obtain ⟨now, hnow⟩ := hrejects
      have hclient := (step_of_rejects q.shared.client _ hnow).1
      refine ⟨(congrArg QuikSyncWsClient.config hclient).trans h.configured, ?_⟩
      have hrejected : rejectedAt (.subscription k a,
          ((machine text).step q (.subscription k a)).2) = [now] := by
        dsimp only [machine]
        rw [rejectedAt_effects, rejectedAt_of_rejects hnow]
      rw [List.flatMap_append, List.flatMap_singleton, hrejected, SlidingWindow.recorded_append,
        ← h.failureTimes, ← h.configured, ← record401_failureTimes]
      exact congrArg QuikSyncWsClient.failureTimes hclient
    · have hnot : ∀ now, ¬ Rejects (q.shared.subscriptions k).phase (a.input text q.memory) now :=
        fun now h => hrejects ⟨now, h⟩
      have hclient := (step_of_not_rejects q.shared.client _ hnot).client
      apply hquiet
      · dsimp only [machine]
        rw [rejectedAt_effects, rejectedAt_of_not_rejects hnot]
      · exact congrArg QuikSyncWsClient.config hclient
      · exact congrArg QuikSyncWsClient.failureTimes hclient
  | close => exact hquiet rfl rfl rfl
  | getToken call => exact hquiet rfl rfl rfl
  | revoke tokens => exact hquiet rfl rfl rfl

theorem accounts_run (ws : WsConfig) (endpoints : ℕ → String × Option String)
    (events : List (TrafficEvent config)) :
    Accounts ws ((machine text).after (.new config ws endpoints) events)
      ((machine text).log (.new config ws endpoints) events) :=
  Machine.run_invariant (P := Accounts ws) (A := fun _ => True)
    (fun _ _ e _ hacc => accounts_step hacc e) ⟨rfl, rfl⟩ fun _ _ => trivial

theorem full_of_tripped {ws : WsConfig} {past : List (Entry config)} (h : Accounts ws q past)
    {e : TrafficEvent config} {k : ℕ} (htrip : (k, .raise .wsCircuitOpen) ∈
      ((machine text).step q e).2) :
    ∃ now, rejectedAt (e, ((machine text).step q e).2) = [now] ∧
      ws.circuitBreaker401Count ≤ (SlidingWindow.recorded ws.circuitBreakerWindowSeconds
        (past.flatMap rejectedAt ++ [now])).length := by
  cases e with
  | subscription j a =>
    have hraise : .raise .wsCircuitOpen ∈ ((q.shared.subscriptions j).step q.shared.client
        (a.input text q.memory)).effects := by
      obtain ⟨effect, heffect, heq⟩ := List.mem_map.mp htrip
      obtain ⟨rfl, rfl⟩ := Prod.mk.inj heq
      exact heffect
    by_cases hrejects : ∃ now, Rejects (q.shared.subscriptions j).phase (a.input text q.memory) now
    · obtain ⟨now, hnow⟩ := hrejects
      refine ⟨now, ?_, ?_⟩
      · dsimp only [machine]
        rw [rejectedAt_effects, rejectedAt_of_rejects hnow]
      · have hopen := (step_of_rejects q.shared.client _ hnow).2.2.mp hraise
        have hcount : q.shared.client.config.circuitBreaker401Count ≤
            (q.shared.client.record401 now).failureTimes.length := of_decide_eq_true hopen
        rwa [record401_failureTimes, h.failureTimes, h.configured,
          ← SlidingWindow.recorded_append] at hcount
    · have hquiet := step_of_not_rejects q.shared.client (q.shared.subscriptions j)
        fun now hnow => hrejects ⟨now, hnow⟩
      exact absurd hraise hquiet.trip
  | close => exact absurd htrip List.not_mem_nil
  | getToken call => exact absurd htrip List.not_mem_nil
  | revoke tokens => exact absurd htrip List.not_mem_nil

/-! ### Storms -/

theorem rejections_paid {events : List (TrafficEvent config)}
    (h : (machine text).Guarded (Honest text n) q events) :
    (((machine text).log q events).flatMap rejectedAt).length ≤
      exposed n q + (n * Machine.total revocations ((machine text).log q events) +
        Machine.total failures ((machine text).log q events)) := by
  have hpaid : Machine.total (fun e => (rejectedAt e).length) ((machine text).log q events) +
      exposed n ((machine text).after q events) ≤ exposed n q +
        Machine.total (fun e => n * revocations e + failures e) ((machine text).log q events) :=
    Machine.total_le (fun _ _ => step_paid) h
  rw [Machine.total_add, Machine.total_mul] at hpaid
  rw [Machine.length_flatMap_eq_total]
  exact (Nat.le_add_right _ _).trans hpaid

theorem exposed_new (n : ℕ) (ws : WsConfig) (endpoints : ℕ → String × Option String) :
    exposed n (.new config ws endpoints) = 0 := by
  classical
  unfold exposed
  rw [Finset.card_eq_zero, Finset.filter_eq_empty_iff]
  rintro k - ⟨-, ⟨cached, -, hrevoked⟩ | ⟨-, hrevoked⟩⟩
  · exact List.not_mem_nil hrevoked
  · exact List.not_mem_nil hrevoked

structure Contained (n : ℕ) (ws : WsConfig) (log : List (Entry config)) : Prop where
  -- each subscription meets one for each time that the server stops taking tokens, and one for each
  -- renewal that fails
  bounded : (log.flatMap rejectedAt).length ≤
    n * Machine.total revocations log + Machine.total failures log
  -- the breaker trips only at the end of a stretch, of less than its window, in which enough of
  -- these fall
  bursts : ∀ before e after k, log = before ++ e :: after → (k, .raise .wsCircuitOpen) ∈ e.2 →
    ∃ older first rest oldest now, before ++ [e] = older ++ first :: rest ∧
      oldest ∈ rejectedAt first ∧ rejectedAt e = [now] ∧
      (oldest = now ∨ now - oldest < ws.circuitBreakerWindowSeconds) ∧
      ws.circuitBreaker401Count ≤ (n * (1 + Machine.total revocations (first :: rest)) +
        Machine.total failures (first :: rest) : ℕ)

/-- A server that refuses only the tokens that it takes no longer, and Auth0 grants only others:
whatever the subscriptions and the other users of the token client do in between. -/
theorem storm_contained (text : Json → String) (n : ℕ) (ws : WsConfig)
    (endpoints : ℕ → String × Option String) {events : List (TrafficEvent config)}
    (h : (machine text).Guarded (Honest text n) (.new config ws endpoints) events) :
    Contained n ws ((machine text).log (.new config ws endpoints) events) := by
  refine ⟨?_, ?_⟩
  · have hpaid := rejections_paid h
    rwa [exposed_new, Nat.zero_add] at hpaid
  · intro before e after k hlog htrip
    obtain ⟨i, effects⟩ := e
    obtain ⟨hbefore, rfl, -⟩ := Machine.log_eq_append hlog
    have hacc := @accounts_run config text ws endpoints (before.map Prod.fst)
    rw [← hbefore] at hacc
    obtain ⟨now, hnow, hfull⟩ := full_of_tripped hacc htrip
    set e : Entry config := (i, ((machine text).step _ i).2)
    have hburst : (before ++ [e]).flatMap rejectedAt = before.flatMap rejectedAt ++ [now] := by
      rw [List.flatMap_append, List.flatMap_singleton, hnow]
    -- The stretch begins where the oldest 401 of the window was met.
    obtain ⟨oldest, newer, hwindow, hage⟩ := SlidingWindow.exists_oldest
      ws.circuitBreakerWindowSeconds (before.flatMap rejectedAt) now
    have hsublist := SlidingWindow.recorded_sublist ws.circuitBreakerWindowSeconds
      (before.flatMap rejectedAt ++ [now])
    rw [hwindow, ← hburst] at hsublist
    rw [hwindow] at hfull
    obtain ⟨older, first, rest, hsplit, hfirst, hlength⟩ := Machine.exists_stretch hsublist
    -- It is itself the log of a run.
    have hlog' : (machine text).log (.new config ws endpoints) events =
        (before ++ [e]) ++ after := by
      rw [hlog, List.append_assoc, List.singleton_append]
    obtain ⟨start, hstart, hguarded⟩ := h.initial hlog'
    obtain ⟨r, stretch, hstretch, hhonest⟩ := hguarded.suffix (hstart ▸ hsplit)
    have hpaid := rejections_paid hhonest
    rw [← hstretch] at hpaid
    have hexposed := exposed_le n r
    refine ⟨older, first, rest, oldest, now, hsplit, hfirst, hnow, hage, ?_⟩
    refine hfull.trans (Int.ofNat_le.mpr ?_)
    rw [Nat.mul_add, Nat.mul_one]
    omega

/-! ### One revocation, and a breaker that trips at the second 401 -/

def hourOf (token : String) : MintResponse :=
  .response 200 "" (.ok (.obj [("access_token", .str token), ("expires_in", .int 3600)]))

theorem token_of_hourOf {token : String} {granted : Json} {ttl : ℤ}
    (h : Grants (hourOf token) granted ttl) : granted = .str token := by
  obtain ⟨text, json, hanswer, hread, -⟩ := h
  injection hanswer with _ _ hjson
  rw [← hjson] at hread
  exact (Prod.mk.inj (Except.ok.inj hread)).1.symm

def isToken (token : String) : Json → Bool
  | .str s => s == token
  | _ => false

theorem eq_of_isToken {token : String} {json : Json} (h : isToken token json = true) :
    json = .str token := by
  cases json with
  | str s => exact congrArg Json.str (beq_iff_eq.mp h)
  | _ => exact absurd h Bool.false_ne_true

def plainText : Json → String
  | .str s => s
  | _ => ""

def granting (now : ℚ) (token : String) : World sampleConfig :=
  (sampleCall now (hourOf token)).world

def twoDoorStates : Traffic sampleConfig :=
  .new sampleConfig ⟨"wss://host", 1, 30, 2, 60⟩ fun _ => ("/door", none)

/-- The second subscription connects with the token of the first. Both are refused, and the second
401 trips the breaker, though the renewal after the first has succeeded. -/
def revokedOnce : List (TrafficEvent sampleConfig) :=
  [.subscription 0 (.resume (granting 0 "old")), .subscription 1 (.resume (granting 1 "unused")),
    .revoke [.str "old"], .subscription 0 (.refused 401 2 (granting 2 "new") default),
    .subscription 1 (.refused 401 3 (granting 3 "unused") default)]

theorem honest_revokedOnce :
    (machine plainText).Guarded (Honest plainText 2) twoDoorStates revokedOnce := by
  have hfirst : ((machine plainText).after twoDoorStates (revokedOnce.take 3)).carried 0 =
      .str "old" := eq_of_isToken (by decide +kernel)
  have hsecond : ((machine plainText).after twoDoorStates (revokedOnce.take 4)).carried 1 =
      .str "old" := eq_of_isToken (by decide +kernel)
  refine ⟨⟨by decide, ?_, ?_⟩, ⟨by decide, ?_, ?_⟩, trivial, ⟨by decide, ?_, ?_⟩,
    ⟨by decide, ?_, ?_⟩, trivial⟩
  · exact fun call _ granted ttl _ => List.not_mem_nil
  · rintro now ⟨-, refresh, random, hinput⟩
    cases hinput
  · exact fun call _ granted ttl _ => List.not_mem_nil
  · rintro now ⟨-, refresh, random, hinput⟩
    cases hinput
  · intro call hcall granted ttl hgrants
    obtain rfl := Option.some.inj hcall
    have hgranted : granted = .str "new" := token_of_hourOf hgrants
    rw [hgranted]
    exact List.not_mem_cons_of_ne_of_not_mem (by simp) List.not_mem_nil
  · exact fun now _ => List.mem_singleton.mpr hfirst
  · intro call hcall granted ttl hgrants
    obtain rfl := Option.some.inj hcall
    have hgranted : granted = .str "unused" := token_of_hourOf hgrants
    rw [hgranted]
    exact List.not_mem_cons_of_ne_of_not_mem (by simp) List.not_mem_nil
  · exact fun now _ => List.mem_singleton.mpr hsecond

theorem storm_contained_two :
    Contained 2 ⟨"wss://host", 1, 30, 2, 60⟩
        ((machine plainText).log twoDoorStates revokedOnce) ∧
      ((machine plainText).log twoDoorStates revokedOnce).flatMap rejectedAt = [2, 3] :=
  ⟨storm_contained plainText 2 ⟨"wss://host", 1, 30, 2, 60⟩ (fun _ => ("/door", none))
    honest_revokedOnce, by decide +kernel⟩

end Traffic

end QuikSync.Client
