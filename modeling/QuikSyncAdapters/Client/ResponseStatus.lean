import QuikSyncAdapters.Client.RetryContract

/-! What the statuses of the responses decide: when a request that returns was answered with a
2xx, and when one that raises tells the status that it was answered with. -/

namespace QuikSync.Client

open Py

/-! ### Requests that return -/

section Returns

variable {T : TokenClient} (config : HttpConfig) (call : ApiCall) (world : ℕ → AttemptWorld T)
  (auth : T.State)

def lastStatus (run : RetryRun T.State AttemptRecord (Except Exc Json)) : Option ℕ :=
  run.records.getLast?.bind (·.status)

def Is2xx (s : ℕ) : Prop := 200 ≤ s ∧ s < 300

def SuccessIs2xx (run : RetryRun T.State AttemptRecord (Except Exc Json)) : Prop :=
  ∀ v, run.result = .ok v → ∃ s, lastStatus run = some s ∧ Is2xx s

theorem verdictOf_eq_ok_iff {a : ℕ} {o : Outcome} {refresh : Except Exc Json} {v : Json} :
    verdictOf config call a o refresh = some (.ok v) ↔
      ∃ resp, o = .response resp ∧ resp.statusCode < 400 ∧ v = parseBody resp := by
  unfold verdictOf
  cases o with
  | raised e =>
    simp [Outcome.isTransient, Outcome.status, ending]
  | transportFailure e =>
    simp only [Outcome.isTransient, Outcome.status, true_and, reduceCtorEq, and_false, if_false,
      ending, false_and]
    split_ifs <;> simp
  | response resp =>
    simp only [Outcome.response.injEq, exists_eq_left']
    by_cases hserver : 500 ≤ resp.statusCode
    · have hnot : ¬ (400 ≤ resp.statusCode ∧ resp.statusCode < 500) := fun h => by omega
      have hlow : ¬ resp.statusCode < 400 := by omega
      have h401 : resp.statusCode ≠ 401 := by omega
      simp only [Outcome.isTransient, Outcome.status, hserver, decide_true, true_and, ending, hnot,
        if_false, if_true, hlow, false_and, iff_false, Option.some.injEq, h401, and_false]
      split_ifs <;> simp
    · by_cases hclient : 400 ≤ resp.statusCode ∧ resp.statusCode < 500
      · have hlow : ¬ resp.statusCode < 400 := by omega
        simp only [Outcome.isTransient, Outcome.status, hserver, decide_false, Bool.false_eq_true,
          false_and, if_false, ending, hclient, and_self, if_true, hlow, iff_false]
        split_ifs
        · cases refresh <;> simp
        · simp
      · have hlow : resp.statusCode < 400 := by omega
        have h401 : resp.statusCode ≠ 401 := by omega
        simp [Outcome.isTransient, Outcome.status, ending, hserver, hclient, hlow, h401, eq_comm]

theorem lastStatus_of_verdict {i : ℕ} {r : Except Exc Json} (hi : (i : ℤ) ≤ config.maxRetries)
    (hpass : ∀ b < i, Passes config b (outcomeAt world auth b) (refreshAt world auth b))
    (hr : verdictOf config call i (outcomeAt world auth i) (refreshAt world auth i) = some r) :
    lastStatus (requestJson config call world auth) = (outcomeAt world auth i).status := by
  have hrecords := (requestJson_of_verdict config call world auth hi hpass hr).2
  unfold lastStatus
  rw [hrecords, List.range_succ, List.map_append, List.map_singleton, List.getLast?_concat]
  rfl

theorem success_is_2xx_iff :
    SuccessIs2xx (requestJson config call world auth) ↔
      ∀ i : ℕ, (i : ℤ) ≤ config.maxRetries →
        (∀ b < i, Passes config b (outcomeAt world auth b) (refreshAt world auth b)) →
        ∀ s, (outcomeAt world auth i).status = some s → s < 400 → Is2xx s := by
  constructor
  · intro h i hi hpass s hs hlow
    obtain ⟨resp, hresp⟩ : ∃ resp, outcomeAt world auth i = .response resp := by
      cases ho : outcomeAt world auth i with
      | response resp => exact ⟨resp, rfl⟩
      | _ =>
        rw [ho] at hs
        exact nomatch hs
    have hstatus : resp.statusCode = s := by
      rw [hresp] at hs
      exact Option.some.inj hs
    have hverdict : verdictOf config call i (outcomeAt world auth i) (refreshAt world auth i) =
        some (.ok (parseBody resp)) :=
      (verdictOf_eq_ok_iff config call).mpr ⟨resp, hresp, hstatus ▸ hlow, rfl⟩
    obtain ⟨hresult, -⟩ := requestJson_of_verdict config call world auth hi hpass hverdict
    obtain ⟨s', hs', h2xx⟩ := h _ hresult
    rw [lastStatus_of_verdict config call world auth hi hpass hverdict, hs] at hs'
    rwa [Option.some.inj hs']
  · intro h v hv
    rcases requestJson_cases config call world auth with
      ⟨i, hi, hpass, r, hr⟩ | ⟨-, hexhausted⟩
    · obtain ⟨hresult, -⟩ := requestJson_of_verdict config call world auth hi hpass hr
      obtain rfl : r = .ok v := hresult.symm.trans hv
      obtain ⟨resp, hresp, hlow, -⟩ := (verdictOf_eq_ok_iff config call).mp hr
      have hstatus : (outcomeAt world auth i).status = some resp.statusCode := by
        rw [hresp]
        rfl
      refine ⟨resp.statusCode, ?_, h i hi hpass _ hstatus hlow⟩
      rw [lastStatus_of_verdict config call world auth hi hpass hr, hstatus]
    · exact nomatch hexhausted.symm.trans hv

end Returns

/-! ### Requests that raise -/

section Raises

variable (config : HttpConfig) (call : ApiCall) (world : ℕ → AttemptWorld .scripted)

def Outcome.response? : Outcome → Option Response
  | response resp => some resp
  | _ => none

def responses (k : ℕ) : List Response :=
  (List.range k).filterMap fun a => (world a).outcome.response?

/-- The loop ends without a verdict, and the line after it is reached. -/
def FallsThrough : Prop :=
  Retry.Reaches (attemptOnce config call world) () (config.maxRetries + 1).toNat

/-- The exception of a request tells the last response it got, if that was a 4xx, and the
transport failure at its end, if it tells of one. -/
structure StatusFaithful : Prop where
  clientError : ∀ resp,
    (responses world (scriptedRun config call world).records.length).getLast? = some resp →
    400 ≤ resp.statusCode → resp.statusCode < 500 →
    (scriptedRun config call world).result = .error
      (.quikSyncClientError resp.statusCode (errorCode (parseBody resp)) (parseBody resp))
  connectionError : ∀ m,
    (scriptedRun config call world).result = .error (.quikSyncConnectionError m) →
    ∃ a e, (scriptedRun config call world).records.length = a + 1 ∧
      (world a).outcome = .transportFailure e
  unreachable : ¬ FallsThrough config call world

/-- A 401 to the first attempt, with nothing but transport failures after it. -/
def Forgotten (n : ℕ) : Prop :=
  (world 0).outcome.status = some 401 ∧
    ∀ a, 0 < a → a ≤ n → a ≤ 1024 → ∃ e, (world a).outcome = .transportFailure e

variable {config call world}

theorem getLast?_responses_iff {k : ℕ} {resp : Response} :
    (responses world k).getLast? = some resp ↔
      ∃ b < k, (world b).outcome = .response resp ∧
        ∀ c, b < c → c < k → (world c).outcome.response? = none := by
  induction k with
  | zero => simp [responses]
  | succ k ih =>
    have hsucc : responses world (k + 1) =
        responses world k ++ ((world k).outcome.response?).toList := by
      unfold responses
      rw [List.range_succ, List.filterMap_append]
      cases h : (world k).outcome.response? <;> simp [h]
    rw [hsucc]
    cases ho : (world k).outcome with
    | response last =>
      simp only [Outcome.response?, Option.toList_some, List.getLast?_concat, Option.some.injEq]
      constructor
      · rintro rfl
        exact ⟨k, Nat.lt_succ_self k, ho, fun c hc hck => absurd hc (by omega)⟩
      · rintro ⟨b, hb, hresp, hlater⟩
        rcases Nat.lt_succ_iff_lt_or_eq.mp hb with hlt | rfl
        · have hnone := hlater k hlt (Nat.lt_succ_self k)
          rw [ho] at hnone
          exact absurd hnone (Option.some_ne_none last)
        · rw [ho] at hresp
          exact Outcome.response.inj hresp
    | _ =>
      simp only [Outcome.response?, Option.toList_none, List.append_nil]
      rw [ih]
      constructor
      · rintro ⟨b, hb, hresp, hlater⟩
        refine ⟨b, Nat.lt_succ_of_lt hb, hresp, fun c hc hck => ?_⟩
        rcases Nat.lt_succ_iff_lt_or_eq.mp hck with hlt | rfl
        · exact hlater c hc hlt
        · rw [ho]
      · rintro ⟨b, hb, hresp, hlater⟩
        have hbk : b < k := by
          rcases Nat.lt_succ_iff_lt_or_eq.mp hb with hlt | rfl
          · exact hlt
          · exact nomatch ho.symm.trans hresp
        exact ⟨b, hbk, hresp, fun c hc hck => hlater c hc (Nat.lt_succ_of_lt hck)⟩

/-! #### Token calls that succeed -/

def TokensServed (world : ℕ → AttemptWorld .scripted) : Prop :=
  ∀ a, (world a).tokenAnswer.isOk = true ∧ (world a).refreshAnswer.isOk = true

theorem TokensServed.transportFailure (h : TokensServed world) {a : ℕ}
    (hnone : (world a).outcome.response? = none) : ∃ e, (world a).outcome = .transportFailure e := by
  cases ho : (world a).outcome with
  | raised e =>
    obtain ⟨m, hm, -⟩ := raised_iff.mp ho
    have htoken := (h a).1
    rw [hm] at htoken
    exact absurd htoken Bool.false_ne_true
  | transportFailure e => exact ⟨e, rfl⟩
  | response resp =>
    rw [ho] at hnone
    exact absurd hnone (Option.some_ne_none resp)

theorem TokensServed.verdict (h : TokensServed world) {a : ℕ} {r : Except Exc Json}
    (hr : verdictOf config call a (world a).outcome
      ((world a).refreshAnswer.mapError TokenError.exc) = some r) :
    ¬ (a = 0 ∧ (world a).outcome.status = some 401) := by
  intro hrefresh
  have hnone : verdictOf config call a (world a).outcome
      ((world a).refreshAnswer.mapError TokenError.exc) = none :=
    verdictOf_eq_none_iff.mpr (Or.inr ⟨hrefresh, mapError_eq_ok.mpr (h a).2⟩)
  exact Option.some_ne_none r (hr.symm.trans hnone)

theorem fallsThrough_iff {n : ℕ} (hn : config.maxRetries = n) (htokens : TokensServed world) :
    FallsThrough config call world ↔ n = 0 ∧ (world 0).outcome.status = some 401 := by
  have hbound : (config.maxRetries + 1).toNat = n + 1 := by omega
  have hreaches : FallsThrough config call world ↔ PassesBefore config world (n + 1) := by
    unfold FallsThrough
    rw [hbound]
    exact reaches_iff config call world () (n + 1)
  rw [hreaches]
  constructor
  · intro h
    rcases h n (Nat.lt_succ_self n) with ⟨-, hlt, -⟩ | ⟨⟨hzero, hstatus⟩, -⟩
    · exact absurd hlt (by omega)
    · exact ⟨hzero, hzero ▸ hstatus⟩
  · rintro ⟨rfl, hstatus⟩ b hb
    obtain rfl : b = 0 := by omega
    exact Or.inr ⟨⟨rfl, hstatus⟩, mapError_eq_ok.mpr (htokens 0).2⟩

variable (config call) in
theorem verdict_of_last_failure {i : ℕ} {e : String} (he : (world i).outcome = .transportFailure e)
    (hlast : ¬ ((i : ℤ) < config.maxRetries ∧ i < 1024)) :
    ∃ x : Exc, verdictOf config call i (world i).outcome
      ((world i).refreshAnswer.mapError TokenError.exc) = some (.error x) ∧
        ∀ s code body, x ≠ .quikSyncClientError s code body := by
  rw [he]
  unfold verdictOf
  by_cases hmore : (i : ℤ) < config.maxRetries
  · rw [if_pos ⟨rfl, hmore⟩, if_neg fun hfloat => hlast ⟨hmore, hfloat⟩]
    exact ⟨.builtin .overflowError, rfl, fun s code body => nofun⟩
  · rw [if_neg fun h => hmore h.2, if_neg fun h => nomatch h.2]
    exact ⟨_, rfl, fun s code body => nofun⟩

theorem not_faithful_of_forgotten {n : ℕ} (hn : config.maxRetries = n)
    (htokens : TokensServed world) (h : Forgotten world n) :
    ¬ StatusFaithful config call world := by
  intro hfaithful
  obtain ⟨hstatus, hfailures⟩ := h
  rcases Nat.eq_zero_or_pos n with hzero | hpos
  · exact hfaithful.unreachable ((fallsThrough_iff hn htokens).mpr ⟨hzero, hstatus⟩)
  · -- the loop stops at the last retry, or at the first whose power of two is no float
    obtain ⟨i, hi⟩ : ∃ i, i = min n 1024 := ⟨_, rfl⟩
    have hpass : PassesBefore config world i := by
      intro b hb
      rcases Nat.eq_zero_or_pos b with rfl | hbpos
      · exact Or.inr ⟨⟨rfl, hstatus⟩, mapError_eq_ok.mpr (htokens 0).2⟩
      · obtain ⟨e, he⟩ := hfailures b hbpos (by omega) (by omega)
        rw [he]
        exact Or.inl ⟨rfl, by omega, by omega⟩
    obtain ⟨e, he⟩ := hfailures i (by omega) (by omega) (by omega)
    obtain ⟨x, hx, hother⟩ := verdict_of_last_failure config call he (by omega)
    obtain ⟨hresult, hrecords⟩ := scriptedRun_of_verdict config call world (by omega) hpass hx
    have hlength : (scriptedRun config call world).records.length = i + 1 := by
      rw [hrecords, List.length_map, List.length_range]
    obtain ⟨resp, hresp⟩ : ∃ resp, (world 0).outcome = .response resp := by
      cases ho : (world 0).outcome with
      | response resp => exact ⟨resp, rfl⟩
      | _ =>
        rw [ho] at hstatus
        exact nomatch hstatus
    have h401 : resp.statusCode = 401 := by
      rw [hresp] at hstatus
      exact Option.some.inj hstatus
    have hlast : (responses world (scriptedRun config call world).records.length).getLast? =
        some resp := by
      rw [hlength]
      refine getLast?_responses_iff.mpr ⟨0, Nat.succ_pos i, hresp, fun c hc hci => ?_⟩
      obtain ⟨e, he⟩ := hfailures c hc (by omega) (by omega)
      rw [he]
      rfl
    have hclient := hfaithful.clientError resp hlast (by omega) (by omega)
    exact hother _ _ _ (Except.error.inj (hresult.symm.trans hclient))

theorem ending_eq_connectionError {o : Outcome} {m : String} (ho : ∀ e, o ≠ .raised e)
    (h : ending call o = .error (.quikSyncConnectionError m)) :
    ∃ e, o = .transportFailure e := by
  cases o with
  | raised e => exact absurd rfl (ho e)
  | transportFailure e => exact ⟨e, rfl⟩
  | response resp =>
    unfold ending at h
    dsimp only at h
    split_ifs at h
    · exact nomatch h
    · exact nomatch h

theorem last_of_verdict {n i b : ℕ} {r : Except Exc Json} (hn : config.maxRetries = n)
    (htokens : TokensServed world) (hpass : PassesBefore config world i)
    (hr : verdictOf config call i (world i).outcome
      ((world i).refreshAnswer.mapError TokenError.exc) = some r)
    (hforgotten : ¬ Forgotten world n) {resp : Response} (hbi : b ≤ i)
    (hresp : (world b).outcome = .response resp) (hlow : resp.statusCode < 500)
    (hlater : ∀ c, b < c → c < i + 1 → (world c).outcome.response? = none) : b = i := by
  by_contra hne
  have hlt : b < i := Nat.lt_of_le_of_ne hbi hne
  have hstatus : (world b).outcome.status = some resp.statusCode := by
    rw [hresp]
    rfl
  rcases hpass b hlt with ⟨htransient, -⟩ | ⟨⟨rfl, h401⟩, -⟩
  · rw [not_transient_of_status hstatus hlow] at htransient
    exact Bool.false_ne_true htransient
  · refine hforgotten ⟨h401, fun a ha han hfloat => ?_⟩
    obtain ⟨e, he⟩ := htokens.transportFailure (hlater i hlt (Nat.lt_succ_self i))
    have hstop : ¬ ((i : ℤ) < config.maxRetries ∧ i < 1024) := by
      rintro ⟨hmore, hfloat⟩
      have hnone : verdictOf config call i (world i).outcome
          ((world i).refreshAnswer.mapError TokenError.exc) = none := by
        rw [he]
        exact verdictOf_eq_none_iff.mpr (Or.inl ⟨rfl, hmore, hfloat⟩)
      exact Option.some_ne_none r (hr.symm.trans hnone)
    exact htokens.transportFailure (hlater a ha (by omega))

theorem faithful_of_not_forgotten {n : ℕ} (hn : config.maxRetries = n)
    (htokens : TokensServed world) (hforgotten : ¬ Forgotten world n) :
    StatusFaithful config call world := by
  have hreached : ¬ FallsThrough config call world := by
    rw [fallsThrough_iff hn htokens]
    rintro ⟨rfl, hstatus⟩
    exact hforgotten ⟨hstatus, fun a ha ha0 => absurd ha (by omega)⟩
  rcases requestJson_cases (T := .scripted) config call world () with
    ⟨i, hi, hpass, r, hverdict⟩ | ⟨hall, -⟩
  · obtain ⟨hresult, hrecords⟩ := scriptedRun_of_verdict config call world hi hpass hverdict
    have hr : verdictOf config call i (world i).outcome
        ((world i).refreshAnswer.mapError TokenError.exc) = some r := hverdict
    have hlength : (scriptedRun config call world).records.length = i + 1 := by
      rw [hrecords, List.length_map, List.length_range]
    have hrefresh := htokens.verdict hr
    refine ⟨fun resp hlast hlow hhigh => ?_, fun m hraised => ?_, hreached⟩
    · rw [hlength] at hlast
      obtain ⟨b, hb, hresp, hlater⟩ := getLast?_responses_iff.mp hlast
      obtain rfl := last_of_verdict hn htokens hpass hr hforgotten (Nat.le_of_lt_succ hb) hresp
        hhigh hlater
      have hnot : (world b).outcome.isTransient = false :=
        not_transient_of_status (congrArg Outcome.status hresp) hhigh
      have hending : r = ending call (world b).outcome := by
        unfold verdictOf at hr
        rw [if_neg fun h => Bool.false_ne_true (hnot.symm.trans h.1), if_neg hrefresh] at hr
        exact (Option.some.inj hr).symm
      rw [hresult, hending, hresp]
      exact if_pos ⟨hlow, hhigh⟩
    · rw [hresult] at hraised
      subst hraised
      unfold verdictOf at hr
      rw [if_neg hrefresh] at hr
      split_ifs at hr with htransient hfloat
      · exact nomatch Option.some.inj hr
      · have hraised : ∀ e, (world i).outcome ≠ .raised e := by
          intro e he
          obtain ⟨x, hx⟩ := htokens.transportFailure (congrArg Outcome.response? he)
          exact nomatch he.symm.trans hx
        obtain ⟨e, he⟩ := ending_eq_connectionError hraised (Option.some.inj hr)
        exact ⟨i, e, hlength, he⟩
  · exact absurd ((reaches_iff config call world () _).mpr fun b hb => hall b (by omega)) hreached

variable (config call world)

/-- The exceptions tell the status exactly when no 401 is forgotten. -/
theorem status_faithful_iff (n : ℕ) (hn : config.maxRetries = n) (htokens : TokensServed world) :
    StatusFaithful config call world ↔ ¬ Forgotten world n :=
  ⟨fun hfaithful hforgotten => not_faithful_of_forgotten hn htokens hforgotten hfaithful,
    faithful_of_not_forgotten hn htokens⟩

theorem status_faithful_iff_witness :
    StatusFaithful { baseUrl := "u" } plainCall (fun _ => answered 409) ↔
      ¬ Forgotten (fun _ => answered 409) 3 :=
  status_faithful_iff { baseUrl := "u" } plainCall (fun _ => answered 409) 3 rfl
    fun _ => ⟨rfl, rfl⟩

/-- With no retries a 401 is reported as a failed connection. -/
theorem unauthorized_falls_through :
    ¬ ∀ (config : HttpConfig) (call : ApiCall) (world : ℕ → AttemptWorld .scripted) (n : ℕ),
      config.maxRetries = n → TokensServed world → StatusFaithful config call world := by
  intro h
  have htokens : TokensServed fun _ => answered 401 := fun _ => ⟨rfl, rfl⟩
  have hclaim := h { baseUrl := "u", maxRetries := 0 } plainCall (fun _ => answered 401) 0 rfl
    htokens
  exact hclaim.unreachable ((fallsThrough_iff rfl htokens).mpr ⟨rfl, rfl⟩)

end Raises

end QuikSync.Client
