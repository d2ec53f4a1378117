import QuikSyncAdapters.Client.HttpRetry

/-! The retry contract of the REST client against arbitrary sequences of outcomes: how it
recovers from a stale token, how often it asks and sleeps, and which exceptions leave it. -/

namespace QuikSync.Client

open Py

namespace AttemptWorld

def tokenAnswer (w : AttemptWorld .scripted) : Except TokenError Json := w.token

def refreshAnswer (w : AttemptWorld .scripted) : Except TokenError Json := w.refresh

def outcome (w : AttemptWorld .scripted) : Outcome :=
  Client.outcome (w.tokenAnswer.mapError TokenError.exc) w.exchange

end AttemptWorld

variable (config : HttpConfig) (call : ApiCall) (world : ℕ → AttemptWorld .scripted)

abbrev scriptedRun : RetryRun Unit AttemptRecord (Except Exc Json) :=
  requestJson (T := .scripted) config call world ()

def PassesBefore (k : ℕ) : Prop :=
  ∀ b < k, Passes config b (world b).outcome ((world b).refreshAnswer.mapError TokenError.exc)

theorem mapError_eq_ok {r : Except TokenError Json} :
    (∃ token, r.mapError TokenError.exc = .ok token) ↔ r.isOk = true := by
  cases r with
  | error e => exact iff_of_false (fun ⟨_, h⟩ => nomatch h) Bool.false_ne_true
  | ok token => exact iff_of_true ⟨token, rfl⟩ rfl

theorem scriptedRun_of_verdict {i : ℕ} {r : Except Exc Json} (hi : (i : ℤ) ≤ config.maxRetries)
    (hpass : PassesBefore config world i)
    (hr : verdictOf config call i (world i).outcome
      ((world i).refreshAnswer.mapError TokenError.exc) = some r) :
    (scriptedRun config call world).result = r ∧
      (scriptedRun config call world).records =
        (List.range (i + 1)).map (recordAt (T := .scripted) config call world ()) :=
  requestJson_of_verdict config call world () hi hpass hr

/-! ### Recovery from a stale token -/

def FirstUnauthorized (records : List AttemptRecord) (k : ℕ) : Prop :=
  (∃ r, records[k]? = some r ∧ r.status = some 401) ∧
    ∀ b < k, ∀ r, records[b]? = some r → r.status ≠ some 401

/-- The first 401 before attempt `n` forces one refresh and leads to a further attempt; a
request fails with 401 only at a second one or at attempt `n`. -/
structure RecoversStaleToken (n : ℕ) (run : RetryRun Unit AttemptRecord (Except Exc Json)) :
    Prop where
  refreshed : ∀ k < n, FirstUnauthorized run.records k →
    (∃ r, run.records[k]? = some r ∧ r.forcedRefresh = true) ∧
      run.records.countP (·.forcedRefresh) = 1 ∧ k + 1 < run.records.length
  raised : ∀ code body, run.result = .error (.quikSyncClientError 401 code body) →
    2 ≤ run.records.countP (fun r => decide (r.status = some 401)) ∨ run.records.length = n + 1

section Records

variable {config call world}

abbrev recordsTo (config : HttpConfig) (call : ApiCall) (world : ℕ → AttemptWorld .scripted)
    (i : ℕ) : List AttemptRecord :=
  (List.range (i + 1)).map (recordAt (T := .scripted) config call world ())

theorem recordsTo_getElem? {i k : ℕ} {r : AttemptRecord} :
    (recordsTo config call world i)[k]? = some r ↔
      k ≤ i ∧ recordAt (T := .scripted) config call world () k = r := by
  rw [List.getElem?_map, Option.map_eq_some_iff]
  constructor
  · rintro ⟨b, hb, rfl⟩
    obtain ⟨hlt, hget⟩ := List.getElem?_eq_some_iff.mp hb
    rw [List.length_range] at hlt
    rw [List.getElem_range] at hget
    subst hget
    exact ⟨Nat.le_of_lt_succ hlt, rfl⟩
  · rintro ⟨hk, rfl⟩
    exact ⟨k, List.getElem?_range (Nat.lt_succ_of_le hk), rfl⟩

theorem recordAt_status (k : ℕ) :
    (recordAt (T := .scripted) config call world () k).status = (world k).outcome.status := rfl

theorem recordAt_forcedRefresh (k : ℕ) :
    (recordAt (T := .scripted) config call world () k).forcedRefresh =
      decide (k = 0 ∧ (world k).outcome.status = some 401) := rfl

theorem firstUnauthorized_iff {i k : ℕ} :
    FirstUnauthorized (recordsTo config call world i) k ↔
      k ≤ i ∧ (world k).outcome.status = some 401 ∧
        ∀ b < k, (world b).outcome.status ≠ some 401 := by
  unfold FirstUnauthorized
  simp only [recordsTo_getElem?]
  constructor
  · rintro ⟨⟨r, ⟨hk, rfl⟩, hstatus⟩, hfirst⟩
    exact ⟨hk, hstatus, fun b hb => hfirst b hb _ ⟨hb.le.trans hk, rfl⟩⟩
  · rintro ⟨hk, hstatus, hfirst⟩
    refine ⟨⟨_, ⟨hk, rfl⟩, hstatus⟩, ?_⟩
    rintro b hb r ⟨-, rfl⟩
    exact hfirst b hb

theorem countP_forcedRefresh {i : ℕ} (h : (world 0).outcome.status = some 401) :
    (recordsTo config call world i).countP (·.forcedRefresh) = 1 := by
  rw [recordsTo, List.range_succ_eq_map, List.map_cons, List.countP_cons]
  have hrest : ((List.range i).map Nat.succ |>.map
      (recordAt (T := .scripted) config call world ())).countP (·.forcedRefresh) = 0 := by
    rw [List.countP_eq_zero]
    intro r hr
    obtain ⟨b, hb, rfl⟩ := List.mem_map.mp hr
    obtain ⟨c, -, rfl⟩ := List.mem_map.mp hb
    rw [recordAt_forcedRefresh]
    simp
  rw [hrest, recordAt_forcedRefresh, h]
  simp

theorem two_le_countP_unauthorized {i : ℕ} (h0 : (world 0).outcome.status = some 401)
    (hi : (world i).outcome.status = some 401) (hpos : 0 < i) :
    2 ≤ (recordsTo config call world i).countP (fun r => decide (r.status = some 401)) := by
  rw [recordsTo, List.range_succ_eq_map, List.map_cons, List.countP_cons]
  have hlast : 0 < ((List.range i).map Nat.succ |>.map
      (recordAt (T := .scripted) config call world ())).countP
        (fun r => decide (r.status = some 401)) := by
    rw [List.countP_pos_iff]
    refine ⟨recordAt (T := .scripted) config call world () i, ?_, ?_⟩
    · apply List.mem_map_of_mem
      exact List.mem_map.mpr ⟨i - 1, List.mem_range.mpr (by omega), by omega⟩
    · rw [recordAt_status, hi]
      rfl
  rw [recordAt_status, h0]
  simp only [decide_true, if_true]
  omega

end Records

theorem raised_iff {w : AttemptWorld .scripted} {e : Exc} :
    w.outcome = .raised e ↔ ∃ m, w.tokenAnswer = .error (.authError m) ∧ e = .authError m := by
  unfold AttemptWorld.outcome
  rcases w.tokenAnswer with (m | m) | token
  · simp [Client.outcome, Except.mapError, TokenError.exc]
  · simp [Client.outcome, Except.mapError, TokenError.exc, eq_comm]
  · cases w.exchange <;> simp [Client.outcome, Except.mapError]

theorem unauthorized_of_verdict {a : ℕ} {w : AttemptWorld .scripted} {code body : Json}
    (h : verdictOf config call a w.outcome (w.refreshAnswer.mapError TokenError.exc) =
      some (.error (.quikSyncClientError 401 code body))) :
    w.outcome.status = some 401 ∧ 0 < a := by
  unfold verdictOf at h
  split_ifs at h with htransient hpower hrefresh
  · simp at h
  · rcases hanswer : w.refreshAnswer with (m | m) | token <;>
      simp [hanswer, Except.mapError, TokenError.exc] at h
  · have hending : ending call w.outcome = .error (.quikSyncClientError 401 code body) :=
      Option.some.inj h
    cases ho : w.outcome with
    | raised e =>
      obtain ⟨m, -, rfl⟩ := raised_iff.mp ho
      simp [ho, ending] at hending
    | transportFailure m => simp [ho, ending] at hending
    | response resp =>
      have hstatus : resp.statusCode = 401 := by
        rw [ho] at hending
        unfold ending at hending
        dsimp only at hending
        split_ifs at hending <;> simp_all
      refine ⟨congrArg some hstatus, Nat.pos_of_ne_zero fun ha => hrefresh ⟨ha, ?_⟩⟩
      rw [ho]
      exact congrArg some hstatus

variable {config world} in
theorem PassesBefore.backsOff {k b : ℕ} (h : PassesBefore config world k) (hb : b < k)
    (hstatus : b = 0 → (world b).outcome.status ≠ some 401) :
    BacksOff config b (world b).outcome :=
  (h b hb).resolve_right fun hrefresh => hstatus hrefresh.1.1 hrefresh.1.2

variable {config} in
theorem exists_verdict {n : ℕ} (hn : config.maxRetries = n) (hpos : 1 ≤ n) :
    ∃ i ≤ n, PassesBefore config world i ∧ ∃ r, verdictOf config call i (world i).outcome
      ((world i).refreshAnswer.mapError TokenError.exc) = some r := by
  rcases requestJson_cases (T := .scripted) config call world () with
    ⟨i, hi, hpass, r, hr⟩ | ⟨hall, -⟩
  · exact ⟨i, by omega, hpass, r, hr⟩
  · rcases hall n (by omega) with ⟨-, hlt, -⟩ | ⟨⟨hzero, -⟩, -⟩
    · omega
    · omega

variable {config world} in
theorem not_recovered_of_verdict {n k : ℕ} {r : Except Exc Json} (hn : config.maxRetries = n)
    (hkn : k < n) (hpass : PassesBefore config world k)
    (hverdict : verdictOf config call k (world k).outcome
      ((world k).refreshAnswer.mapError TokenError.exc) = some r)
    (hstatus : (world k).outcome.status = some 401)
    (hearlier : ∀ b < k, (world b).outcome.status ≠ some 401) :
    ¬ RecoversStaleToken n (scriptedRun config call world) := by
  intro h
  obtain ⟨-, hrecords⟩ := scriptedRun_of_verdict config call world (by omega) hpass hverdict
  have hfirst : FirstUnauthorized (scriptedRun config call world).records k := by
    rw [hrecords]
    exact firstUnauthorized_iff.mpr ⟨le_rfl, hstatus, hearlier⟩
  have hnext := (h.refreshed k hkn hfirst).2.2
  rw [hrecords] at hnext
  simp at hnext

variable {config world} in
theorem late_unauthorized_not_recovered {n k : ℕ} (hn : config.maxRetries = n) (hk : 0 < k)
    (hkn : k < n) (hback : ∀ b < k, BacksOff config b (world b).outcome)
    (hstatus : (world k).outcome.status = some 401) :
    ¬ RecoversStaleToken n (scriptedRun config call world) := by
  have hpass : PassesBefore config world k := fun b hb => Or.inl (hback b hb)
  have hverdict : verdictOf config call k (world k).outcome
      ((world k).refreshAnswer.mapError TokenError.exc) = some (ending call (world k).outcome) := by
    simp [verdictOf, not_transient_of_status hstatus, hk.ne']
  apply not_recovered_of_verdict call hn hkn hpass hverdict hstatus
  intro b hb hbad
  have hno := not_transient_of_status hbad (by norm_num)
  rw [(hback b hb).1] at hno
  exact Bool.false_ne_true hno.symm

variable {config world} in
theorem unrefreshed_not_recovered {n : ℕ} (hn : config.maxRetries = n) (hpos : 1 ≤ n)
    (hstatus : (world 0).outcome.status = some 401)
    (hrefresh : (world 0).refreshAnswer.isOk ≠ true) :
    ¬ RecoversStaleToken n (scriptedRun config call world) := by
  obtain ⟨e, he⟩ : ∃ e, (world 0).refreshAnswer = .error e := by
    cases hanswer : (world 0).refreshAnswer with
    | error e => exact ⟨e, rfl⟩
    | ok token => exact absurd (by rw [hanswer]; rfl) hrefresh
  have hverdict : verdictOf config call 0 (world 0).outcome
      ((world 0).refreshAnswer.mapError TokenError.exc) = some (.error e.exc) := by
    simp [verdictOf, not_transient_of_status hstatus, hstatus, he, Except.mapError]
  have hpass : PassesBefore config world 0 := fun b hb => absurd hb (Nat.not_lt_zero b)
  exact not_recovered_of_verdict call hn hpos hpass hverdict hstatus fun b hb =>
    absurd hb (Nat.not_lt_zero b)

/-- The recovery works exactly when the forced refresh does and no first 401 arrives after
the first attempt and before the last. -/
theorem recovers_stale_token_iff (n : ℕ) (hn : config.maxRetries = n) (hpos : 1 ≤ n) :
    RecoversStaleToken n (scriptedRun config call world) ↔
      ((world 0).outcome.status = some 401 → (world 0).refreshAnswer.isOk = true) ∧
        ∀ k, 0 < k → k < n → (∀ b < k, BacksOff config b (world b).outcome) →
          (world k).outcome.status ≠ some 401 := by
  constructor
  · intro h
    refine ⟨fun hstatus => ?_, fun k hk hkn hback hstatus =>
      late_unauthorized_not_recovered call hn hk hkn hback hstatus h⟩
    by_contra hrefresh
    exact unrefreshed_not_recovered call hn hpos hstatus hrefresh h
  · rintro ⟨hrefresh, hlate⟩
    obtain ⟨i, hi, hpass, r, hverdict⟩ := exists_verdict call world hn hpos
    obtain ⟨hresult, hrecords⟩ := scriptedRun_of_verdict config call world (by omega) hpass hverdict
    refine ⟨fun k hkn hfirst => ?_, fun code body hraised => ?_⟩
    · rw [hrecords] at hfirst ⊢
      obtain ⟨hki, hstatus, hearlier⟩ := firstUnauthorized_iff.mp hfirst
      obtain rfl : k = 0 := by
        by_contra hk
        exact hlate k (Nat.pos_of_ne_zero hk) hkn
          (fun b hb => hpass.backsOff (hb.trans_le hki) fun _ => hearlier b hb) hstatus
      refine ⟨⟨_, recordsTo_getElem?.mpr ⟨hki, rfl⟩, ?_⟩, countP_forcedRefresh hstatus, ?_⟩
      · rw [recordAt_forcedRefresh]
        exact decide_eq_true ⟨rfl, hstatus⟩
      · rw [List.length_map, List.length_range]
        apply Nat.succ_lt_succ
        refine Nat.pos_of_ne_zero fun hzero => ?_
        subst hzero
        have hgoes : Passes config 0 (world 0).outcome
            ((world 0).refreshAnswer.mapError TokenError.exc) :=
          Or.inr ⟨⟨rfl, hstatus⟩, mapError_eq_ok.mpr (hrefresh hstatus)⟩
        rw [verdictOf_eq_none_iff.mpr hgoes] at hverdict
        exact Option.some_ne_none r hverdict.symm
    · rw [hresult] at hraised
      rw [hraised] at hverdict
      obtain ⟨hstatus, hipos⟩ := unauthorized_of_verdict config call hverdict
      rw [hrecords]
      by_cases h0 : (world 0).outcome.status = some 401
      · exact Or.inl (two_le_countP_unauthorized h0 hstatus hipos)
      · right
        rw [List.length_map, List.length_range]
        by_contra hlast
        refine hlate i hipos (by omega) (fun b hb => hpass.backsOff hb fun hb0 => ?_) hstatus
        subst hb0
        exact h0

def plainResponse (statusCode : ℕ) : Response := ⟨statusCode, "{}", true, .ok (.obj [])⟩

def answered (statusCode : ℕ) : AttemptWorld .scripted where
  token := .ok (.str "t")
  exchange := .ok (plainResponse statusCode)
  refresh := .ok (.str "t")
  random := default

def plainCall : ApiCall := ⟨"GET", "/api/v1/connector/open-rmf/discovery", none, none⟩

theorem recovers_stale_token_iff_witness :
    RecoversStaleToken 3 (scriptedRun { baseUrl := "u" } plainCall fun _ => answered 401) ↔
      ((answered 401).outcome.status = some 401 → (answered 401).refreshAnswer.isOk = true) ∧
        ∀ k, 0 < k → k < 3 →
          (∀ b < k, BacksOff { baseUrl := "u" } b (answered 401).outcome) →
          (answered 401).outcome.status ≠ some 401 :=
  recovers_stale_token_iff { baseUrl := "u" } plainCall (fun _ => answered 401) 3 rfl (by norm_num)

/-- A 503 and then a 401: the request fails with two attempts left and no refresh. -/
theorem unauthorized_after_retry :
    ¬ ∀ (config : HttpConfig) (call : ApiCall) (world : ℕ → AttemptWorld .scripted) (n : ℕ),
      config.maxRetries = n → 1 ≤ n → (∀ a, (world a).refreshAnswer.isOk = true) →
        RecoversStaleToken n (scriptedRun config call world) := by
  intro h
  have hclaim := h { baseUrl := "u" } plainCall
    (fun a => if a = 0 then answered 503 else answered 401) 3 rfl (by norm_num)
    (fun a => by split <;> rfl)
  refine late_unauthorized_not_recovered (k := 1) plainCall rfl (by norm_num) (by norm_num) ?_ ?_
    hclaim
  · intro b hb
    obtain rfl : b = 0 := by omega
    exact ⟨rfl, by norm_num, by norm_num⟩
  · rfl

/-! ### How often a request is sent, and the sleeps between -/

/-- The attempts that are followed by another one, as documented. -/
def Retryable (n i : ℕ) (o : Outcome) : Prop :=
  i < n ∧ o.isTransient = true ∨ i = 0 ∧ o.status = some 401

structure Served (w : AttemptWorld .scripted) : Prop where
  token : w.tokenAnswer.isOk = true
  refresh : w.refreshAnswer.isOk = true
  status : ∀ resp, w.exchange = .ok resp →
    200 ≤ resp.statusCode ∧ resp.statusCode < 300 ∨ 400 ≤ resp.statusCode ∧ resp.statusCode < 600

/-- The run whose attempt `i` is the first that is not retryable, as documented. -/
structure RetriesAsDocumented (i : ℕ) (run : RetryRun Unit AttemptRecord (Except Exc Json)) :
    Prop where
  requests : run.records.map (fun r => r.sent.map (·.call)) = List.replicate (i + 1) (some call)
  sleeps : ∀ a r, run.records[a]? = some r →
    if a < i ∧ (world a).outcome.isTransient = true then
      ∃ seconds, r.slept = some seconds ∧ IsBackoff config a seconds
    else r.slept = none
  ends : run.result = ending call (world i).outcome

section Counting

variable {config call world}

theorem not_transient_of_unauthorized {o : Outcome} (h : o.status = some 401) :
    o.isTransient = false :=
  not_transient_of_status h (by norm_num)

theorem Retryable.backsOff {n b : ℕ} {o : Outcome} (h : Retryable n b o)
    (hn : config.maxRetries = n) (hb : b < 1024) (htransient : o.isTransient = true) :
    BacksOff config b o := by
  rcases h with ⟨hlt, -⟩ | ⟨-, hstatus⟩
  · exact ⟨htransient, by omega, hb⟩
  · exact absurd (not_transient_of_unauthorized hstatus) (by simp [htransient])

theorem passesBefore_of_retryable {n k : ℕ} (hn : config.maxRetries = n)
    (hserved : ∀ a, Served (world a)) (hk : k ≤ 1024)
    (hretry : ∀ b < k, Retryable n b (world b).outcome) : PassesBefore config world k := by
  intro b hb
  rcases hretry b hb with ⟨hlt, htransient⟩ | ⟨hzero, hstatus⟩
  · exact Or.inl ((hretry b hb).backsOff hn (by omega) htransient)
  · exact Or.inr ⟨⟨hzero, hstatus⟩, mapError_eq_ok.mpr (hserved b).refresh⟩

theorem recordAt_sent {a : ℕ} (h : (world a).tokenAnswer.isOk = true) :
    (recordAt (T := .scripted) config call world () a).sent.map (·.call) = some call := by
  obtain ⟨token, htoken⟩ := mapError_eq_ok.mpr h
  have hsent : (recordAt (T := .scripted) config call world () a).sent =
      ((world a).tokenAnswer.mapError TokenError.exc).toOption.map call.request := rfl
  rw [hsent, htoken]
  rfl

theorem recordAt_slept (a : ℕ) :
    (recordAt (T := .scripted) config call world () a).slept =
      if (world a).outcome.isTransient = true ∧ (a : ℤ) < config.maxRetries then
        (sleepBackoff config a (world a).random).toOption
      else none := rfl

theorem not_documented_of_overflow {n i : ℕ} (hn : config.maxRetries = n)
    (hserved : ∀ a, Served (world a)) (hretry : ∀ b < i, Retryable n b (world b).outcome)
    (hi : 1024 < i) :
    ¬ RetriesAsDocumented config call world i (scriptedRun config call world) := by
  intro h
  have hpass := passesBefore_of_retryable hn hserved le_rfl fun b hb => hretry b (hb.trans hi)
  have hlast : (world 1024).outcome.isTransient = true ∧ ((1024 : ℕ) : ℤ) < config.maxRetries := by
    rcases hretry 1024 hi with ⟨hlt, htransient⟩ | ⟨hzero, -⟩
    · exact ⟨htransient, by omega⟩
    · exact absurd hzero (by norm_num)
  have hverdict : verdictOf config call 1024 (world 1024).outcome
      ((world 1024).refreshAnswer.mapError TokenError.exc) =
        some (.error (.builtin .overflowError)) := by
    unfold verdictOf
    rw [if_pos hlast, if_neg (lt_irrefl 1024)]
  obtain ⟨-, hrecords⟩ := scriptedRun_of_verdict config call world hlast.2.le hpass hverdict
  have hcount := congrArg List.length h.requests
  rw [hrecords, List.length_map, List.length_map, List.length_range, List.length_replicate] at hcount
  omega

end Counting

/-- Exactly the requests with at most 1024 retries follow the documented rules. -/
theorem retries_as_documented_iff (n : ℕ) (hn : config.maxRetries = n) (hpos : 1 ≤ n)
    (hserved : ∀ a, Served (world a)) (i : ℕ) (hretry : ∀ b < i, Retryable n b (world b).outcome)
    (hlast : ¬ Retryable n i (world i).outcome) :
    RetriesAsDocumented config call world i (scriptedRun config call world) ↔ i ≤ 1024 := by
  refine ⟨fun h => not_lt.mp fun hi => not_documented_of_overflow hn hserved hretry hi h,
    fun hi => ?_⟩
  have hin : i ≤ n := by
    by_contra hgt
    rcases hretry n (not_le.mp hgt) with ⟨hlt, -⟩ | ⟨hzero, -⟩ <;> omega
  have hpass := passesBefore_of_retryable hn hserved hi hretry
  have hstop : ¬ ((world i).outcome.isTransient = true ∧ (i : ℤ) < config.maxRetries) :=
    fun h => hlast (Or.inl ⟨by omega, h.1⟩)
  have hverdict : verdictOf config call i (world i).outcome
      ((world i).refreshAnswer.mapError TokenError.exc) = some (ending call (world i).outcome) := by
    unfold verdictOf
    rw [if_neg hstop, if_neg fun h => hlast (Or.inr h)]
  obtain ⟨hresult, hrecords⟩ := scriptedRun_of_verdict config call world (by omega) hpass hverdict
  refine ⟨?_, fun a r hr => ?_, hresult⟩
  · rw [hrecords, List.map_map, List.eq_replicate_iff, List.length_map, List.length_range]
    refine ⟨rfl, fun c hc => ?_⟩
    obtain ⟨a, -, rfl⟩ := List.mem_map.mp hc
    exact recordAt_sent (hserved a).token
  · rw [hrecords] at hr
    obtain ⟨hai, rfl⟩ := recordsTo_getElem?.mp hr
    rw [recordAt_slept]
    by_cases hsleep : a < i ∧ (world a).outcome.isTransient = true
    · obtain ⟨-, hmore, hfloat⟩ := (hretry a hsleep.1).backsOff hn (by omega) hsleep.2
      rw [if_pos hsleep, if_pos ⟨hsleep.2, hmore⟩, sleepBackoff_eq, if_pos hfloat]
      exact ⟨_, rfl, isBackoff_of_draw config a (world a).random⟩
    · rw [if_neg hsleep, if_neg]
      rintro ⟨htransient, hmore⟩
      rcases hai.lt_or_eq with hlt | rfl
      · exact hsleep ⟨hlt, htransient⟩
      · exact hstop ⟨htransient, hmore⟩

theorem answered_served {s : ℕ} (hs : 200 ≤ s ∧ s < 300 ∨ 400 ≤ s ∧ s < 600) :
    Served (answered s) := by
  refine ⟨rfl, rfl, fun resp hresp => ?_⟩
  obtain rfl : plainResponse s = resp := Except.ok.inj hresp
  exact hs

theorem retries_as_documented_iff_witness :
    RetriesAsDocumented { baseUrl := "u" } plainCall
        (fun a => if a = 0 then answered 503 else answered 200) 1
        (scriptedRun { baseUrl := "u" } plainCall
          fun a => if a = 0 then answered 503 else answered 200) ↔ 1 ≤ 1024 := by
  refine retries_as_documented_iff { baseUrl := "u" } plainCall
    (fun a => if a = 0 then answered 503 else answered 200) 3 rfl (by norm_num) ?_ 1 ?_ ?_
  · intro a
    split
    · exact answered_served (Or.inr ⟨by norm_num, by norm_num⟩)
    · exact answered_served (Or.inl ⟨by norm_num, by norm_num⟩)
  · intro b hb
    obtain rfl : b = 0 := by omega
    exact Or.inl ⟨by norm_num, rfl⟩
  · rintro (⟨-, h⟩ | ⟨h, -⟩)
    · exact Bool.false_ne_true h
    · exact one_ne_zero h

/-- With 1025 retries allowed, a server that stays down is given up one request early. -/
theorem overflow_ends_retries :
    ¬ ∀ (config : HttpConfig) (call : ApiCall) (world : ℕ → AttemptWorld .scripted) (n i : ℕ),
      config.maxRetries = n → 1 ≤ n → (∀ a, Served (world a)) →
      (∀ b < i, Retryable n b (world b).outcome) → ¬ Retryable n i (world i).outcome →
        RetriesAsDocumented config call world i (scriptedRun config call world) := by
  intro h
  have hserved : Served (answered 503) := answered_served (Or.inr ⟨by norm_num, by norm_num⟩)
  have hretry : ∀ b < 1025, Retryable 1025 b (answered 503).outcome :=
    fun b hb => Or.inl ⟨hb, rfl⟩
  have hclaim := h { baseUrl := "u", maxRetries := 1025 } plainCall (fun _ => answered 503)
    1025 1025 rfl (by norm_num) (fun _ => hserved) hretry
    (by rintro (⟨hlt, -⟩ | ⟨hzero, -⟩) <;> omega)
  exact not_documented_of_overflow rfl (fun _ => hserved) hretry (by norm_num) hclaim

/-! ### The exceptions that leave a request -/

/-- No `AuthError` for the token, no failed refresh after a 401 at the first attempt, and no
1025th retry. -/
def Contained (a : ℕ) (w : AttemptWorld .scripted) : Prop :=
  (∀ m, w.tokenAnswer ≠ .error (.authError m)) ∧
    (a = 0 → w.outcome.status = some 401 → w.refreshAnswer.isOk = true) ∧
    (w.outcome.isTransient = true → (a : ℤ) < config.maxRetries → a < 1024)

theorem contained_iff (a : ℕ) (w : AttemptWorld .scripted) :
    Contained config a w ↔
      ¬ Escapes config a w.outcome (w.refreshAnswer.mapError TokenError.exc) := by
  have hraised : (∃ e, w.outcome = .raised e ∧ e.isQuikSync = false) ↔
      ∃ m, w.tokenAnswer = .error (.authError m) := by
    constructor
    · rintro ⟨e, he, -⟩
      obtain ⟨m, hm, -⟩ := raised_iff.mp he
      exact ⟨m, hm⟩
    · rintro ⟨m, hm⟩
      exact ⟨.authError m, raised_iff.mpr ⟨m, hm, rfl⟩, rfl⟩
  have hrefresh : (∃ e, w.refreshAnswer.mapError TokenError.exc = .error e ∧
      e.isQuikSync = false) ↔ ¬ w.refreshAnswer.isOk = true := by
    rcases w.refreshAnswer with (m | m) | token <;>
      simp [Except.mapError, TokenError.exc, Exc.isQuikSync, Except.isOk, Except.toBool]
  unfold Contained Escapes
  rw [hraised, hrefresh]
  push Not
  refine and_congr Iff.rfl (and_congr ?_ ?_)
  · exact ⟨fun h hzero => h hzero.1 hzero.2, fun h h0 h401 => h ⟨h0, h401⟩⟩
  · exact ⟨fun h hmore => h hmore.1 hmore.2, fun h ht hm => h ⟨ht, hm⟩⟩

/-- Only the three documented exceptions leave a request if and only if every attempt it makes
is contained. -/
theorem closed_errors_iff :
    (∀ e, (scriptedRun config call world).result = .error e → e.isQuikSync = true) ↔
      ∀ a : ℕ, (a : ℤ) ≤ config.maxRetries → PassesBefore config world a →
        Contained config a (world a) := by
  simp only [contained_iff]
  exact requestJson_closed_iff (T := .scripted) config call world ()

def unreachableRefresh : AttemptWorld .scripted :=
  { answered 401 with refresh := .error (.httpError "unreachable") }

theorem refresh_failure_escapes :
    ¬ ∀ (config : HttpConfig) (call : ApiCall) (world : ℕ → AttemptWorld .scripted) (e : Exc),
      (scriptedRun config call world).result = .error e → e.isQuikSync = true := by
  intro h
  have hverdict : verdictOf { baseUrl := "u" } plainCall 0 unreachableRefresh.outcome
      (unreachableRefresh.refreshAnswer.mapError TokenError.exc) =
        some (.error (.httpError "unreachable")) := by
    unfold verdictOf
    rw [if_neg fun h => Bool.false_ne_true h.1, if_pos ⟨rfl, rfl⟩]
    rfl
  have hresult := (scriptedRun_of_verdict { baseUrl := "u" } plainCall
    (fun _ => unreachableRefresh) (by norm_num) (fun b hb => absurd hb (Nat.not_lt_zero b))
    hverdict).1
  exact Bool.false_ne_true (h _ _ _ _ hresult)

end QuikSync.Client
