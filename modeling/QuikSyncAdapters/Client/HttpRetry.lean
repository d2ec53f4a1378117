import QuikSyncAdapters.Client.Http
import Mathlib.Tactic.Linarith

/-! The request loop as a whole: which attempts it goes on from, what the attempts sent and
slept, and how a request ends. Attempts are numbered from zero, as in the source. -/

namespace QuikSync.Client

open Py

variable {T : TokenClient} (config : HttpConfig) (call : ApiCall) (world : ℕ → AttemptWorld T)
  (auth : T.State)

section Found

variable {call}

/-- The token client before each attempt: the loop forces a refresh only at attempt 0. -/
def authAt : ℕ → T.State
  | 0 => auth
  | a + 1 =>
    let asked := T.getToken (authAt a) false (world a).token
    if a = 0 ∧ (outcome asked.2 (world a).exchange).status = some 401 then
      (T.getToken asked.1 true (world a).refresh).1
    else asked.1

def tokenAt (a : ℕ) : Except Exc Json := (T.getToken (authAt world auth a) false (world a).token).2

def outcomeAt (a : ℕ) : Outcome := outcome (tokenAt world auth a) (world a).exchange

def refreshAt (a : ℕ) : Except Exc Json :=
  (T.getToken (T.getToken (authAt world auth a) false (world a).token).1 true (world a).refresh).2

end Found

def delay (a : ℕ) : ℚ := min (config.backoffBaseSeconds * 2 ^ a) config.backoffMaxSeconds

def IsBackoff (a : ℕ) (seconds : ℚ) : Prop :=
  ∃ jitter, |jitter| ≤ |delay config a| / 4 ∧ seconds = max (delay config a + jitter) (1 / 20)

theorem sleepBackoff_eq (a : ℕ) (random : Draw) :
    sleepBackoff config a random =
      if a < 1024 then
        .ok (max (delay config a + delay config a * (1 / 4) * (random.val * 2 - 1)) (1 / 20))
      else .error .overflowError := by
  unfold sleepBackoff delay
  rw [floatOfInt_two_pow]
  by_cases ha : a < 1024
  · simp only [if_pos ha]
    rfl
  · simp only [if_neg ha]
    rfl

theorem isBackoff_of_draw (a : ℕ) (random : Draw) :
    IsBackoff config a
      (max (delay config a + delay config a * (1 / 4) * (random.val * 2 - 1)) (1 / 20)) := by
  refine ⟨_, ?_, rfl⟩
  have hdraw : |random.val * 2 - 1| ≤ 1 := by
    obtain ⟨r, h0, h1⟩ := random
    rw [abs_le]
    constructor <;> dsimp only <;> linarith
  have hquarter : |delay config a * (1 / 4)| = |delay config a| / 4 := by
    rw [abs_mul, abs_of_pos (by norm_num : (0 : ℚ) < 1 / 4)]
    ring
  calc |delay config a * (1 / 4) * (random.val * 2 - 1)|
      = |delay config a| / 4 * |random.val * 2 - 1| := by rw [abs_mul, hquarter]
    _ ≤ |delay config a| / 4 * 1 := mul_le_mul_of_nonneg_left hdraw (by positivity)
    _ = |delay config a| / 4 := mul_one _

/-! ### One attempt -/

def ending : Outcome → Except Exc Json
  | .raised e => .error e
  | .transportFailure e => .error (.quikSyncConnectionError s!"{call.method} {call.path}: {e}")
  | .response resp =>
    if 400 ≤ resp.statusCode ∧ resp.statusCode < 500 then
      .error (.quikSyncClientError resp.statusCode (errorCode (parseBody resp)) (parseBody resp))
    else if 500 ≤ resp.statusCode then .error (.quikSyncServerError resp.statusCode resp.text)
    else .ok (parseBody resp)

theorem not_transient_of_status {o : Outcome} {s : ℕ} (h : o.status = some s) (hs : s < 500) :
    o.isTransient = false := by
  cases o with
  | response resp =>
    have hstatus : resp.statusCode = s := Option.some.inj h
    exact decide_eq_false (by omega)
  | _ => exact absurd h.symm (Option.some_ne_none s)

section Step

variable {config call world} (a : ℕ) (q : T.State)

def verdictOf (config : HttpConfig) (call : ApiCall) (a : ℕ) (o : Outcome)
    (refresh : Except Exc Json) : Option (Except Exc Json) :=
  if o.isTransient = true ∧ (a : ℤ) < config.maxRetries then
    if a < 1024 then none else some (.error (.builtin .overflowError))
  else if a = 0 ∧ o.status = some 401 then
    match refresh with
    | .ok _ => none
    | .error e => some (.error e)
  else some (ending call o)

def recordOf (config : HttpConfig) (call : ApiCall) (a : ℕ) (token : Except Exc Json) (o : Outcome)
    (random : Draw) : AttemptRecord where
  sent := token.toOption.map call.request
  status := o.status
  forcedRefresh := decide (a = 0 ∧ o.status = some 401)
  slept :=
    if o.isTransient = true ∧ (a : ℤ) < config.maxRetries then
      (sleepBackoff config a random).toOption
    else none

theorem backOffOr_eq (random : Draw) (record : AttemptRecord) (last : Exc)
    (hrecord : record.slept = none) :
    backOffOr config a random q record last =
      ⟨q, { record with slept :=
          if (a : ℤ) < config.maxRetries then (sleepBackoff config a random).toOption else none },
        if (a : ℤ) < config.maxRetries then
          if a < 1024 then none else some (.error (.builtin .overflowError))
        else some (.error last)⟩ := by
  obtain ⟨sent, status, forcedRefresh, slept⟩ := record
  obtain rfl : slept = none := hrecord
  unfold backOffOr
  rw [sleepBackoff_eq]
  by_cases hlast : (a : ℤ) < config.maxRetries
  · by_cases ha : a < 1024
    · simp only [if_pos hlast, if_pos ha]
      rfl
    · simp only [if_pos hlast, if_neg ha]
      rfl
  · simp only [if_neg hlast]

theorem attemptOnce_eq :
    attemptOnce config call world a q =
      let asked := T.getToken q false (world a).token
      let o := outcome asked.2 (world a).exchange
      let refreshed := T.getToken asked.1 true (world a).refresh
      ⟨if a = 0 ∧ o.status = some 401 then refreshed.1 else asked.1,
        recordOf config call a asked.2 o (world a).random,
        verdictOf config call a o refreshed.2⟩ := by
  unfold attemptOnce
  dsimp only
  generalize ho : outcome (T.getToken q false (world a).token).2 (world a).exchange = o
  cases o with
  | raised e => simp [recordOf, verdictOf, ending, Outcome.status, Outcome.isTransient]
  | transportFailure e =>
    dsimp only
    rw [backOffOr_eq _ _ _ _ _ rfl]
    simp [recordOf, verdictOf, ending, Outcome.status, Outcome.isTransient]
  | response resp =>
    by_cases hclient : 400 ≤ resp.statusCode ∧ resp.statusCode < 500
    · have hnot : ¬ 500 ≤ resp.statusCode := by omega
      by_cases hrefresh : resp.statusCode = 401 ∧ a = 0
      · obtain ⟨hstatus, rfl⟩ := hrefresh
        simp only [hstatus, and_self, if_true]
        cases (T.getToken (T.getToken q false (world 0).token).1 true (world 0).refresh).2 <;>
          simp [recordOf, verdictOf, Outcome.status, Outcome.isTransient, hstatus]
      · have hswap : ¬ (a = 0 ∧ resp.statusCode = 401) := fun h => hrefresh ⟨h.2, h.1⟩
        simp [recordOf, verdictOf, ending, Outcome.status, Outcome.isTransient, hclient, hnot,
          hrefresh, hswap]
    · have hstatus : resp.statusCode ≠ 401 := by omega
      by_cases hserver : 500 ≤ resp.statusCode
      · simp only [if_neg hclient, if_pos hserver]
        rw [backOffOr_eq _ _ _ _ _ rfl]
        simp [recordOf, verdictOf, ending, Outcome.status, Outcome.isTransient, hclient, hserver,
          hstatus]
      · simp [recordOf, verdictOf, ending, Outcome.status, Outcome.isTransient, hclient, hserver,
          hstatus]

end Step

theorem stateAt_eq (a : ℕ) :
    Retry.stateAt (attemptOnce config call world) auth a = authAt world auth a := by
  induction a with
  | zero => rfl
  | succ a ih =>
    unfold Retry.stateAt authAt
    rw [attemptOnce_eq, ih]

theorem tryAt_verdict (a : ℕ) :
    (Retry.tryAt (attemptOnce config call world) auth a).verdict =
      verdictOf config call a (outcomeAt world auth a) (refreshAt world auth a) := by
  unfold Retry.tryAt
  rw [attemptOnce_eq, stateAt_eq]
  rfl

theorem tryAt_record (a : ℕ) :
    (Retry.tryAt (attemptOnce config call world) auth a).record =
      recordOf config call a (tokenAt world auth a) (outcomeAt world auth a) (world a).random := by
  unfold Retry.tryAt
  rw [attemptOnce_eq, stateAt_eq]
  rfl

/-! ### The whole request -/

/-- The attempts that the loop sleeps after: from 1024 on the power of two is no float. -/
def BacksOff (a : ℕ) (o : Outcome) : Prop :=
  o.isTransient = true ∧ (a : ℤ) < config.maxRetries ∧ a < 1024

def Passes (a : ℕ) (o : Outcome) (refresh : Except Exc Json) : Prop :=
  BacksOff config a o ∨ (a = 0 ∧ o.status = some 401) ∧ ∃ token, refresh = .ok token

variable {config call} in
theorem verdictOf_eq_none_iff {a : ℕ} {o : Outcome} {refresh : Except Exc Json} :
    verdictOf config call a o refresh = none ↔ Passes config a o refresh := by
  unfold verdictOf Passes BacksOff
  by_cases htransient : o.isTransient = true ∧ (a : ℤ) < config.maxRetries
  · have hstatus : o.status ≠ some 401 := fun h => by
      rw [not_transient_of_status h (by norm_num)] at htransient
      exact Bool.false_ne_true htransient.1
    by_cases ha : a < 1024 <;> simp [htransient, ha, hstatus]
  · rw [if_neg htransient]
    have hno : ¬ (o.isTransient = true ∧ (a : ℤ) < config.maxRetries ∧ a < 1024) :=
      fun h => htransient ⟨h.1, h.2.1⟩
    rw [or_iff_right hno]
    by_cases hrefresh : a = 0 ∧ o.status = some 401
    · cases refresh <;> simp [hrefresh]
    · simp [hrefresh]

theorem reaches_iff (k : ℕ) :
    Retry.Reaches (attemptOnce config call world) auth k ↔
      ∀ b < k, Passes config b (outcomeAt world auth b) (refreshAt world auth b) := by
  unfold Retry.Reaches
  simp only [tryAt_verdict, verdictOf_eq_none_iff]

def recordAt (a : ℕ) : AttemptRecord :=
  recordOf config call a (tokenAt world auth a) (outcomeAt world auth a) (world a).random

theorem requestJson_of_verdict {i : ℕ} {r : Except Exc Json} (hi : (i : ℤ) ≤ config.maxRetries)
    (hpass : ∀ b < i, Passes config b (outcomeAt world auth b) (refreshAt world auth b))
    (hr : verdictOf config call i (outcomeAt world auth i) (refreshAt world auth i) = some r) :
    (requestJson config call world auth).result = r ∧
      (requestJson config call world auth).records =
        (List.range (i + 1)).map (recordAt config call world auth) := by
  have hreach := (reaches_iff config call world auth i).mpr hpass
  have hverdict := (tryAt_verdict config call world auth i).trans hr
  have hlt : i < (config.maxRetries + 1).toNat := by omega
  unfold requestJson
  rw [Retry.run_of_verdict hreach hverdict hlt]
  unfold Retry.recordsBefore
  simp only [tryAt_record, true_and]
  rfl

theorem requestJson_cases :
    (∃ i : ℕ, (i : ℤ) ≤ config.maxRetries ∧
      (∀ b < i, Passes config b (outcomeAt world auth b) (refreshAt world auth b)) ∧
      ∃ r, verdictOf config call i (outcomeAt world auth i) (refreshAt world auth i) = some r) ∨
    (∀ b : ℕ, (b : ℤ) ≤ config.maxRetries →
        Passes config b (outcomeAt world auth b) (refreshAt world auth b)) ∧
      (requestJson config call world auth).result =
        .error (.quikSyncConnectionError s!"{call.method} {call.path}: exhausted retries") := by
  rcases Retry.first_verdict_or_exhausted (attemptOnce config call world) auth
      (config.maxRetries + 1).toNat with ⟨i, hi, hreach, r, hr⟩ | hall
  · refine Or.inl ⟨i, by omega, (reaches_iff config call world auth i).mp hreach, r, ?_⟩
    rw [← tryAt_verdict]
    exact hr
  · refine Or.inr ⟨fun b hb => (reaches_iff config call world auth _).mp hall b (by omega), ?_⟩
    unfold requestJson
    rw [Retry.run_of_exhausted hall]

/-- The attempts of a request, of which all but the last pass, and the token client it leaves. -/
theorem requestJson_stops :
    ∃ k, (requestJson config call world auth).records =
        (List.range k).map (recordAt config call world auth) ∧
      (requestJson config call world auth).state = authAt world auth k ∧
      ∀ b, b + 1 < k → Passes config b (outcomeAt world auth b) (refreshAt world auth b) := by
  obtain ⟨k, hrecords, hstate, hpass⟩ := Retry.run_stops (attemptOnce config call world)
    (.error (.quikSyncConnectionError s!"{call.method} {call.path}: exhausted retries")) auth
    (config.maxRetries + 1).toNat
  refine ⟨k, hrecords.trans ?_, hstate.trans (stateAt_eq config call world auth k), fun b hb => ?_⟩
  · unfold Retry.recordsBefore
    simp only [tryAt_record]
    rfl
  · have hverdict := hpass b hb
    rwa [tryAt_verdict, verdictOf_eq_none_iff] at hverdict

/-! ### Exceptions that the callers do not expect -/

def Escapes (a : ℕ) (o : Outcome) (refresh : Except Exc Json) : Prop :=
  (∃ e, o = .raised e ∧ e.isQuikSync = false) ∨
    ((a = 0 ∧ o.status = some 401) ∧ ∃ e, refresh = .error e ∧ e.isQuikSync = false) ∨
    (o.isTransient = true ∧ (a : ℤ) < config.maxRetries) ∧ 1024 ≤ a

theorem ending_of_not_raised {o : Outcome} {e : Exc} (ho : ∀ e', o ≠ .raised e')
    (h : ending call o = .error e) : e.isQuikSync = true := by
  cases o with
  | raised e' => exact absurd rfl (ho e')
  | transportFailure m =>
    obtain rfl := Except.error.inj h
    rfl
  | response resp =>
    unfold ending at h
    dsimp only at h
    split_ifs at h
    · obtain rfl := Except.error.inj h
      rfl
    · obtain rfl := Except.error.inj h
      rfl

theorem escapes_iff (a : ℕ) (o : Outcome) (refresh : Except Exc Json) :
    Escapes config a o refresh ↔
      ∃ e, verdictOf config call a o refresh = some (.error e) ∧ e.isQuikSync = false := by
  unfold Escapes verdictOf
  by_cases htransient : o.isTransient = true ∧ (a : ℤ) < config.maxRetries
  · have hraised : ¬ ∃ e, o = .raised e ∧ e.isQuikSync = false := by
      rintro ⟨e, rfl, -⟩
      exact Bool.false_ne_true htransient.1
    have hstatus : o.status ≠ some 401 := fun h => by
      rw [not_transient_of_status h (by norm_num)] at htransient
      exact Bool.false_ne_true htransient.1
    rw [or_iff_right hraised, if_pos htransient]
    by_cases ha : a < 1024
    · simp [hstatus, ha, htransient]
    · simp [hstatus, ha, htransient, not_lt.mp ha, Exc.isQuikSync]
  · rw [if_neg htransient]
    by_cases hrefresh : a = 0 ∧ o.status = some 401
    · have hraised : ¬ ∃ e, o = .raised e ∧ e.isQuikSync = false := by
        rintro ⟨e, rfl, -⟩
        exact Option.some_ne_none _ hrefresh.2.symm
      rw [or_iff_right hraised, if_pos hrefresh, or_iff_left fun h => htransient h.1,
        and_iff_right hrefresh]
      cases refresh <;> simp
    · rw [if_neg hrefresh, or_iff_left]
      · constructor
        · rintro ⟨e, rfl, he⟩
          exact ⟨e, rfl, he⟩
        · rintro ⟨e, he, hother⟩
          by_contra hno
          have hnot : ∀ e', o ≠ .raised e' := by
            rintro e' rfl
            exact hno ⟨e', rfl, (Except.error.inj (Option.some.inj he)) ▸ hother⟩
          rw [ending_of_not_raised call hnot (Option.some.inj he)] at hother
          exact Bool.false_ne_true hother.symm
      · rintro (⟨h, -⟩ | ⟨h, -⟩)
        · exact hrefresh h
        · exact htransient h

/-- A request fails only as its callers expect if and only if no attempt it makes lets an
exception of another kind through. -/
theorem requestJson_closed_iff :
    (∀ e, (requestJson config call world auth).result = .error e → e.isQuikSync = true) ↔
      ∀ a : ℕ, (a : ℤ) ≤ config.maxRetries →
        (∀ b < a, Passes config b (outcomeAt world auth b) (refreshAt world auth b)) →
        ¬ Escapes config a (outcomeAt world auth a) (refreshAt world auth a) := by
  constructor
  · intro h a ha hpass hescapes
    obtain ⟨e, he, hother⟩ := (escapes_iff config call a _ _).mp hescapes
    have hclosed := h e (requestJson_of_verdict config call world auth ha hpass he).1
    rw [hother] at hclosed
    exact Bool.false_ne_true hclosed
  · intro h e he
    rcases requestJson_cases config call world auth with
      ⟨i, hi, hpass, r, hr⟩ | ⟨-, hexhausted⟩
    · rw [(requestJson_of_verdict config call world auth hi hpass hr).1] at he
      subst he
      by_contra hother
      exact h i hi hpass ((escapes_iff config call i _ _).mpr ⟨e, hr, Bool.eq_false_iff.mpr hother⟩)
    · obtain rfl := Except.error.inj (hexhausted.symm.trans he)
      rfl

end QuikSync.Client
