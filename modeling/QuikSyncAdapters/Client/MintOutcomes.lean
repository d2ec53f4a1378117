import QuikSyncAdapters.Client.HttpRetry
import QuikSyncAdapters.Client.MintStep

/-! The request loop over the real token client: which answers of Auth0 make `get_token`
return, raise the transport error that the loop retries, or raise something else. -/

namespace QuikSync.Client

open Py

namespace Auth0M2MClient

def Mints (c : Auth0M2MClient) (forceRefresh : Bool) (w : World c.config) : Prop :=
  forceRefresh = true ∨
    ∀ cached, c.cached = some cached → shouldRefresh c.config cached w.now w.now' w.jitter = true

theorem mintLocked_cases (c : Auth0M2MClient) (answer : MintResponse) (now : ℚ) :
    (Serves answer ∧ ∃ token, (c.mintLocked answer now).2 = .ok token) ∨
    (Unreachable c answer ∧ ¬ Serves answer ∧
      ∃ m, (c.mintLocked answer now).2 = .error (.httpError m)) ∨
    (¬ Serves answer ∧ ¬ Unreachable c answer ∧ ∃ e, (c.mintLocked answer now).2 = .error e ∧
      e.isQuikSync = false ∧ e.isHttpError = false) := by
  have hstep := mintLocked_step c answer now
  generalize c.mintLocked answer now = r at hstep
  cases hstep with
  | granted token ttl hgrants _ =>
    exact Or.inl ⟨serves_iff_grants.mpr ⟨token, ttl, hgrants⟩, token, rfl⟩
  | counted e hfailure hkind hserves _ =>
    cases e with
    | httpError m => exact Or.inr (Or.inl ⟨hkind.mp rfl, hserves, m, rfl⟩)
    | authError m =>
      exact Or.inr (Or.inr ⟨hserves, fun h => Bool.false_ne_true (hkind.mpr h), _, rfl, rfl, rfl⟩)
    | _ => cases hfailure
  | uncounted e n hserves haccount =>
    refine Or.inr (Or.inr ⟨hserves, fun h => haccount ?_, .builtin e, rfl, rfl, rfl⟩)
    obtain ⟨⟨m, rfl⟩, -⟩ := h
    exact accountable_httpError m

theorem getToken_result (c : Auth0M2MClient) (forceRefresh : Bool) (w : World c.config) :
    (Mints c forceRefresh w ∧ c.getToken forceRefresh w =
        ((c.mintLocked w.answer w.mintedAt).1, some c.mintRequest,
          (c.mintLocked w.answer w.mintedAt).2)) ∨
      (¬ Mints c forceRefresh w ∧ ∃ cached, c.cached = some cached ∧
        shouldRefresh c.config cached w.now w.now' w.jitter = false ∧
        c.getToken forceRefresh w = (c, none, .ok cached.accessToken)) := by
  unfold getToken Mints
  rcases hcached : c.cached with _ | cached
  · exact Or.inl ⟨Or.inr fun _ h => (Option.some_ne_none _ h.symm).elim, rfl⟩
  · cases forceRefresh with
    | true => exact Or.inl ⟨Or.inl rfl, by simp⟩
    | false =>
      cases hrefresh : shouldRefresh c.config cached w.now w.now' w.jitter with
      | true =>
        refine Or.inl ⟨Or.inr fun other h => ?_, by simp [hrefresh]⟩
        obtain rfl := Option.some.inj h
        exact hrefresh
      | false =>
        refine Or.inr ⟨?_, cached, rfl, hrefresh, by simp [hrefresh]⟩
        rintro (h | h)
        · exact Bool.false_ne_true h
        · rw [h cached rfl] at hrefresh
          exact Bool.false_ne_true hrefresh.symm

theorem getToken_cases (c : Auth0M2MClient) (forceRefresh : Bool) (w : World c.config) :
    ((Mints c forceRefresh w → Serves w.answer) ∧
        ∃ token, (c.getToken forceRefresh w).2.2 = .ok token) ∨
    (Mints c forceRefresh w ∧ ¬ Serves w.answer ∧ Unreachable c w.answer ∧
        ∃ m, (c.getToken forceRefresh w).2.2 = .error (.httpError m)) ∨
    (Mints c forceRefresh w ∧ ¬ Serves w.answer ∧ ¬ Unreachable c w.answer ∧
        ∃ e, (c.getToken forceRefresh w).2.2 = .error e ∧ e.isQuikSync = false ∧
          e.isHttpError = false) := by
  rcases getToken_result c forceRefresh w with ⟨hmints, hresult⟩ | ⟨hcache, cached, -, -, htoken⟩
  · rw [hresult]
    rcases mintLocked_cases c w.answer w.mintedAt with
      ⟨hserves, htoken⟩ | ⟨hreach, hserves, hm⟩ | ⟨hserves, hreach, he⟩
    · exact Or.inl ⟨fun _ => hserves, htoken⟩
    · exact Or.inr (Or.inl ⟨hmints, hserves, hreach, hm⟩)
    · exact Or.inr (Or.inr ⟨hmints, hserves, hreach, he⟩)
  · exact Or.inl ⟨fun h => absurd h hcache, cached.accessToken, by rw [htoken]⟩

theorem raises_iff (c : Auth0M2MClient) (forceRefresh : Bool) (w : World c.config) :
    (∃ e, ((c.getToken forceRefresh w).2.2 = .error e ∧ e.isHttpError = false) ∧
        e.isQuikSync = false) ↔
      Mints c forceRefresh w ∧ ¬ Serves w.answer ∧ ¬ Unreachable c w.answer := by
  rcases getToken_cases c forceRefresh w with
    ⟨hserves, token, htoken⟩ | ⟨-, -, hreach, m, hm⟩ | ⟨hmints, hserves, hreach, e, he, hother, hkind⟩
  · refine iff_of_false ?_ fun h => h.2.1 (hserves h.1)
    rintro ⟨e, ⟨he, -⟩, -⟩
    rw [htoken] at he
    cases he
  · refine iff_of_false ?_ fun h => h.2.2 hreach
    rintro ⟨e, ⟨he, hkind⟩, -⟩
    rw [hm] at he
    obtain rfl := Except.error.inj he
    exact Bool.false_ne_true hkind.symm
  · exact iff_of_true ⟨e, ⟨he, hkind⟩, hother⟩ ⟨hmints, hserves, hreach⟩

theorem forced_fails_iff (c : Auth0M2MClient) (w : World c.config) :
    (∃ e, (c.getToken true w).2.2 = .error e ∧ e.isQuikSync = false) ↔ ¬ Serves w.answer := by
  rcases getToken_cases c true w with
    ⟨hserves, token, htoken⟩ | ⟨-, hserves, -, m, hm⟩ | ⟨-, hserves, -, e, he, hother, -⟩
  · refine iff_of_false ?_ (not_not_intro (hserves (Or.inl rfl)))
    rintro ⟨e, he, -⟩
    rw [htoken] at he
    cases he
  · exact iff_of_true ⟨.httpError m, hm, rfl⟩ hserves
  · exact iff_of_true ⟨e, he, hother⟩ hserves

end Auth0M2MClient

variable (config : HttpConfig) {authConfig : AuthConfig}
  (world : ℕ → AttemptWorld (.auth0 authConfig)) (auth : Option CachedToken × ℕ)

def clientAt (a : ℕ) : Auth0M2MClient :=
  ⟨authConfig, (authAt (T := .auth0 authConfig) world auth a).1,
    (authAt (T := .auth0 authConfig) world auth a).2⟩

/-- The token of an attempt is cached, minted or, for the first or second time in a row, not to
be had; a refresh after a 401 at the first attempt is served; there is no 1025th retry. -/
structure MintContained (a : ℕ) : Prop where
  token : (clientAt world auth a).Mints false (world a).token →
    Auth0M2MClient.Serves (world a).token.answer ∨
      (clientAt world auth a).Unreachable (world a).token.answer
  refresh : a = 0 → (outcomeAt (T := .auth0 authConfig) world auth a).status = some 401 →
    Auth0M2MClient.Serves (world a).refresh.answer
  power : (outcomeAt (T := .auth0 authConfig) world auth a).isTransient = true →
    (a : ℤ) < config.maxRetries → a < 1024

def RequestContained : Prop :=
  ∀ a : ℕ, (a : ℤ) ≤ config.maxRetries →
    (∀ b < a, Passes config b (outcomeAt (T := .auth0 authConfig) world auth b)
      (refreshAt (T := .auth0 authConfig) world auth b)) →
    MintContained config world auth a

theorem outcome_eq_raised {token : Except Exc Json} {exchange : Except String Response} {e : Exc} :
    outcome token exchange = .raised e ↔ token = .error e ∧ e.isHttpError = false := by
  cases token with
  | ok token => cases exchange <;> simp [outcome]
  | error e' =>
    cases hkind : e'.isHttpError with
    | true =>
      have hother : outcome (.error e') exchange ≠ .raised e := by
        cases e' <;> simp [Exc.isHttpError] at hkind
        simp [outcome]
      refine iff_of_false hother ?_
      rintro ⟨h, hno⟩
      rw [← Except.error.inj h, hkind] at hno
      exact Bool.false_ne_true hno.symm
    | false =>
      have hraised : outcome (.error e') exchange = .raised e' := by
        cases e' <;> simp [Exc.isHttpError] at hkind <;> rfl
      rw [hraised]
      constructor
      · intro h
        obtain rfl := Outcome.raised.inj h
        exact ⟨rfl, hkind⟩
      · rintro ⟨h, -⟩
        exact congrArg Outcome.raised (Except.error.inj h)

theorem mintContained_iff (a : ℕ) :
    MintContained config world auth a ↔
      ¬ Escapes config a (outcomeAt (T := .auth0 authConfig) world auth a)
        (refreshAt (T := .auth0 authConfig) world auth a) := by
  have htoken : (∃ e, outcomeAt (T := .auth0 authConfig) world auth a = .raised e ∧
      e.isQuikSync = false) ↔ (clientAt world auth a).Mints false (world a).token ∧
        ¬ Auth0M2MClient.Serves (world a).token.answer ∧
        ¬ (clientAt world auth a).Unreachable (world a).token.answer := by
    unfold outcomeAt
    simp only [outcome_eq_raised]
    exact Auth0M2MClient.raises_iff (clientAt world auth a) false (world a).token
  have hrefresh : (∃ e, refreshAt (T := .auth0 authConfig) world auth a = .error e ∧
      e.isQuikSync = false) ↔ ¬ Auth0M2MClient.Serves (world a).refresh.answer :=
    Auth0M2MClient.forced_fails_iff
      ⟨authConfig, ((clientAt world auth a).getToken false (world a).token).1.cached,
        ((clientAt world auth a).getToken false (world a).token).1.consecutiveFailures⟩
      (world a).refresh
  unfold Escapes
  rw [htoken, hrefresh]
  constructor
  · rintro ⟨h1, h2, h3⟩ (⟨hmints, hserves, hreach⟩ | ⟨⟨ha, hstatus⟩, hserves⟩ | ⟨⟨ht, hmore⟩, hpow⟩)
    · exact (h1 hmints).elim hserves hreach
    · exact hserves (h2 ha hstatus)
    · exact absurd (h3 ht hmore) (not_lt.mpr hpow)
  · intro h
    refine ⟨fun hmints => ?_, fun ha hstatus => ?_, fun ht hmore => ?_⟩
    · by_contra hno
      exact h (Or.inl ⟨hmints, fun hs => hno (Or.inl hs), fun hr => hno (Or.inr hr)⟩)
    · by_contra hno
      exact h (Or.inr (Or.inl ⟨⟨ha, hstatus⟩, hno⟩))
    · by_contra hno
      exact h (Or.inr (Or.inr ⟨⟨ht, hmore⟩, not_lt.mp hno⟩))

theorem requestContained_iff (call : ApiCall) :
    (∀ e, (requestJson (T := .auth0 authConfig) config call world auth).result = .error e →
        e.isQuikSync = true) ↔ RequestContained config world auth := by
  unfold RequestContained
  simp only [mintContained_iff]
  exact requestJson_closed_iff (T := .auth0 authConfig) config call world auth

end QuikSync.Client
