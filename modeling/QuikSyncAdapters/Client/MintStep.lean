import QuikSyncAdapters.Library.Fallible
import QuikSyncAdapters.Client.RefreshThreshold

/-! What one mint does with each answer of Auth0: it stores a token, counts a failure, or
lets an exception of the body's decoding through uncounted. -/

namespace QuikSync.Client

open Py Fallible

def Exc.isMintFailure : Exc → Bool
  | .authError _ | .httpError _ => true
  | _ => false

def Exc.isHttpError : Exc → Bool
  | .httpError _ => true
  | _ => false

def sampleConfig : AuthConfig := Auth0M2MClient.oneDayClient.config

namespace Auth0M2MClient

/-- A token and a lifetime that the clock can be moved by. -/
def Usable (token : Json) (ttl : ℤ) : Prop :=
  token.truthy = true ∧ 0 < ttl ∧ ∃ q, floatOfInt ttl = .ok q

def Serves (answer : MintResponse) : Prop :=
  ∃ text json token ttl, answer = .response 200 text json ∧
    readPayload json = .ok (token, ttl) ∧ Usable token ttl

def Unreachable (c : Auth0M2MClient) (answer : MintResponse) : Prop :=
  (∃ e, answer = .httpError e) ∧ c.consecutiveFailures < 2

theorem not_serves_httpError (m : String) : ¬ Serves (.httpError m) := by
  rintro ⟨_, _, _, _, h, _⟩
  cases h

theorem not_unreachable_response (c : Auth0M2MClient) (statusCode : ℕ) (text : String)
    (json : Except Py.Error Json) : ¬ Unreachable c (.response statusCode text json) := by
  rintro ⟨⟨_, h⟩, -⟩
  cases h

theorem serves_response_iff {statusCode : ℕ} {text : String} {json : Except Py.Error Json} :
    Serves (.response statusCode text json) ↔ statusCode = 200 ∧
      ∃ token ttl, readPayload json = .ok (token, ttl) ∧ Usable token ttl := by
  constructor
  · rintro ⟨_, _, token, ttl, h, hread, husable⟩
    cases h
    exact ⟨rfl, token, ttl, hread, husable⟩
  · rintro ⟨rfl, token, ttl, hread, husable⟩
    exact ⟨text, json, token, ttl, rfl, hread, husable⟩

theorem mintLocked_httpError (c : Auth0M2MClient) (m : String) (now : ℚ) :
    c.mintLocked (.httpError m) now = (c.fail, .error (if 3 ≤ c.consecutiveFailures + 1 then
      .authError s!"Auth0 mint failed 3x in a row: {m}" else .httpError m)) := by
  show (if 3 ≤ c.consecutiveFailures + 1 then _ else _) = _
  split_ifs
  · rfl
  · rfl

def statusMessage (failures statusCode : ℕ) (preview : String) : String :=
  if 3 ≤ failures + 1 then s!"Auth0 mint returned {statusCode} 3x in a row: {preview}"
  else s!"Auth0 mint {statusCode}: {preview}"

theorem mintLocked_of_status (c : Auth0M2MClient) {statusCode : ℕ} (hstatus : statusCode ≠ 200)
    (text : String) (json : Except Py.Error Json) (now : ℚ) :
    c.mintLocked (.response statusCode text json) now = (c.fail, .error (.authError
      (statusMessage c.consecutiveFailures statusCode (bodyPreview text c.config)))) := by
  unfold statusMessage
  simp only [mintLocked, ne_eq, hstatus, not_false_eq_true, if_true]
  show (if 3 ≤ c.consecutiveFailures + 1 then _ else _) = _
  split_ifs
  · rfl
  · rfl

section Payload

variable (c : Auth0M2MClient) {json : Except Py.Error Json} {token : Json} {ttl : ℤ}
  (text : String) (now : ℚ)

theorem mintLocked_unreadable {e : Py.Error} (hread : readPayload json = .error e) :
    c.mintLocked (.response 200 text json) now = (c, .error (.builtin e)) := by
  simp only [mintLocked, ne_eq, not_true_eq_false, if_false, hread]

theorem mintLocked_unusable (hread : readPayload json = .ok (token, ttl))
    (hunusable : ¬ (token.truthy = true ∧ 0 < ttl)) :
    c.mintLocked (.response 200 text json) now =
      (c.fail,
        .error (.authError "Auth0 returned 200 but no usable access_token/expires_in")) := by
  have hbad : (!token.truthy) = true ∨ ttl ≤ 0 := by
    rcases not_and_or.mp hunusable with h | h
    · exact Or.inl (by simpa using h)
    · exact Or.inr (not_lt.mp h)
  simp only [mintLocked, ne_eq, not_true_eq_false, if_false, hread]
  rw [if_pos hbad]

theorem mintLocked_overflow (hread : readPayload json = .ok (token, ttl))
    (htoken : token.truthy = true) (hpos : 0 < ttl) {e : Py.Error}
    (hlarge : floatOfInt ttl = .error e) :
    c.mintLocked (.response 200 text json) now =
      ({ c with consecutiveFailures := 0 }, .error (.builtin e)) := by
  simp [mintLocked, hread, htoken, not_le.mpr hpos, hlarge]

theorem mintLocked_serves (hread : readPayload json = .ok (token, ttl))
    (husable : Usable token ttl) :
    c.mintLocked (.response 200 text json) now =
      ({ c with consecutiveFailures := 0, cached := some ⟨token, now + ttl⟩ }, .ok token) := by
  obtain ⟨htoken, hpos, q, hq⟩ := husable
  simp [mintLocked, hread, htoken, not_le.mpr hpos, hq]

end Payload

def Grants (answer : MintResponse) (token : Json) (ttl : ℤ) : Prop :=
  ∃ text json, answer = .response 200 text json ∧ readPayload json = .ok (token, ttl) ∧
    Usable token ttl

theorem serves_iff_grants {answer : MintResponse} :
    Serves answer ↔ ∃ token ttl, Grants answer token ttl := by
  constructor
  · rintro ⟨text, json, token, ttl, hanswer, hread, husable⟩
    exact ⟨token, ttl, text, json, hanswer, hread, husable⟩
  · rintro ⟨token, ttl, text, json, hanswer, hread, husable⟩
    exact ⟨text, json, token, ttl, hanswer, hread, husable⟩

/-- An answer is accountable unless it is a 200 whose body is no JSON object, whose lifetime
is no integer, or whose usable lifetime is too large for the clock. -/
def Accountable (answer : MintResponse) : Prop :=
  ∀ text json, answer = .response 200 text json → ∃ members ttl, json = .ok (.obj members) ∧
    ((members.lookup "expires_in").getD (.int 0)).toInt = .ok ttl ∧
    ((Dict.get members "access_token").truthy = true → 0 < ttl → ∃ q, floatOfInt ttl = .ok q)

theorem readPayload_eq_ok {json : Except Py.Error Json} {token : Json} {ttl : ℤ} :
    readPayload json = .ok (token, ttl) ↔ ∃ members, json = .ok (.obj members) ∧
      ((members.lookup "expires_in").getD (.int 0)).toInt = .ok ttl ∧
      token = Dict.get members "access_token" := by
  unfold readPayload
  rw [bind_eq_ok]
  constructor
  · rintro ⟨v, rfl, hv⟩
    cases v with
    | obj members =>
      obtain ⟨n, hn, hpair⟩ := bind_eq_ok.mp hv
      obtain ⟨rfl, rfl⟩ := Prod.mk.inj (Except.ok.inj hpair)
      exact ⟨members, rfl, hn, rfl⟩
    | _ => cases hv
  · rintro ⟨members, rfl, httl, rfl⟩
    exact ⟨.obj members, rfl, bind_eq_ok.mpr ⟨ttl, httl, rfl⟩⟩

theorem accountable_httpError (m : String) : Accountable (.httpError m) :=
  fun _ _ h => by cases h

theorem accountable_of_status {statusCode : ℕ} (hstatus : statusCode ≠ 200) (text : String)
    (json : Except Py.Error Json) : Accountable (.response statusCode text json) := by
  intro text' json' h
  exact absurd (MintResponse.response.inj h).1 hstatus

section Read

variable {text : String} {json : Except Py.Error Json} {token : Json} {ttl : ℤ}

theorem accountable_200_iff :
    Accountable (.response 200 text json) ↔ ∃ token ttl, readPayload json = .ok (token, ttl) ∧
      (token.truthy = true → 0 < ttl → ∃ q, floatOfInt ttl = .ok q) := by
  simp only [readPayload_eq_ok]
  constructor
  · intro h
    obtain ⟨members, ttl, hjson, httl, hlarge⟩ := h text json rfl
    exact ⟨_, ttl, ⟨members, hjson, httl, rfl⟩, hlarge⟩
  · rintro ⟨_, ttl, ⟨members, hjson, httl, rfl⟩, hlarge⟩ text' json' hanswer
    obtain ⟨-, -, rfl⟩ := MintResponse.response.inj hanswer
    exact ⟨members, ttl, hjson, httl, hlarge⟩

theorem not_accountable_of_unreadable {e : Py.Error} (hread : readPayload json = .error e) :
    ¬ Accountable (.response 200 text json) := by
  intro h
  obtain ⟨_, _, hok, -⟩ := accountable_200_iff.mp h
  rw [hread] at hok
  cases hok

theorem not_serves_of_unreadable {e : Py.Error} (hread : readPayload json = .error e) :
    ¬ Serves (.response 200 text json) := by
  intro h
  obtain ⟨-, _, _, hok, -⟩ := serves_response_iff.mp h
  rw [hread] at hok
  cases hok

theorem accountable_of_read (hread : readPayload json = .ok (token, ttl)) :
    Accountable (.response 200 text json) ↔
      (token.truthy = true → 0 < ttl → ∃ q, floatOfInt ttl = .ok q) := by
  rw [accountable_200_iff]
  constructor
  · rintro ⟨_, _, hok, hfits⟩
    obtain ⟨rfl, rfl⟩ := Prod.mk.inj (Except.ok.inj (hread.symm.trans hok))
    exact hfits
  · exact fun hfits => ⟨token, ttl, hread, hfits⟩

theorem serves_of_read (hread : readPayload json = .ok (token, ttl)) :
    Serves (.response 200 text json) ↔ Usable token ttl := by
  rw [serves_response_iff]
  constructor
  · rintro ⟨-, _, _, hok, husable⟩
    obtain ⟨rfl, rfl⟩ := Prod.mk.inj (Except.ok.inj (hread.symm.trans hok))
    exact husable
  · exact fun husable => ⟨rfl, token, ttl, hread, husable⟩

end Read

/-- A mint stores what it is granted, or counts its failure, or lets an exception of the
body's decoding through uncounted. -/
inductive MintStep (c : Auth0M2MClient) (answer : MintResponse) (now : ℚ) :
    Auth0M2MClient × Except Exc Json → Prop where
  | granted (token : Json) (ttl : ℤ) (hgrants : Grants answer token ttl)
      (haccount : Accountable answer) : MintStep c answer now
        ({ c with consecutiveFailures := 0, cached := some ⟨token, now + ttl⟩ }, .ok token)
  | counted (e : Exc) (hfailure : e.isMintFailure = true)
      (hkind : e.isHttpError = true ↔ Unreachable c answer) (hserves : ¬ Serves answer)
      (haccount : Accountable answer) : MintStep c answer now (c.fail, .error e)
  | uncounted (e : Py.Error) (n : ℕ) (hserves : ¬ Serves answer)
      (haccount : ¬ Accountable answer) :
      MintStep c answer now ({ c with consecutiveFailures := n }, .error (.builtin e))

theorem mintStep_httpError (c : Auth0M2MClient) (m : String) (now : ℚ) :
    MintStep c (.httpError m) now (c.mintLocked (.httpError m) now) := by
  rw [mintLocked_httpError]
  have hreach : Unreachable c (.httpError m) ↔ ¬ 3 ≤ c.consecutiveFailures + 1 := by
    constructor
    · rintro ⟨-, hfew⟩
      omega
    · exact fun hfew => ⟨⟨m, rfl⟩, by omega⟩
  apply MintStep.counted
  · split_ifs
    · rfl
    · rfl
  · rw [hreach]
    split_ifs with hthird
    · exact iff_of_false Bool.false_ne_true (not_not_intro hthird)
    · exact iff_of_true rfl hthird
  · exact not_serves_httpError m
  · exact accountable_httpError m

theorem mintStep_200 (c : Auth0M2MClient) (text : String) (json : Except Py.Error Json) (now : ℚ) :
    MintStep c (.response 200 text json) now (c.mintLocked (.response 200 text json) now) := by
  cases hread : readPayload json with
  | error e =>
    rw [mintLocked_unreadable c text now hread]
    exact .uncounted e c.consecutiveFailures (not_serves_of_unreadable hread)
      (not_accountable_of_unreadable hread)
  | ok p =>
    obtain ⟨token, ttl⟩ := p
    by_cases hbody : token.truthy = true ∧ 0 < ttl
    · cases hlarge : floatOfInt ttl with
      | ok q =>
        have husable : Usable token ttl := ⟨hbody.1, hbody.2, q, hlarge⟩
        rw [mintLocked_serves c text now hread husable]
        exact .granted token ttl ⟨text, json, rfl, hread, husable⟩
          ((accountable_of_read hread).mpr fun _ _ => ⟨q, hlarge⟩)
      | error e =>
        have hnever : ¬ ∃ q, floatOfInt ttl = .ok q := by simp [hlarge]
        rw [mintLocked_overflow c text now hread hbody.1 hbody.2 hlarge]
        apply MintStep.uncounted
        · exact fun h => hnever ((serves_of_read hread).mp h).2.2
        · exact fun h => hnever ((accountable_of_read hread).mp h hbody.1 hbody.2)
    · rw [mintLocked_unusable c text now hread hbody]
      apply MintStep.counted
      · rfl
      · simp [Exc.isHttpError, not_unreachable_response]
      · exact fun h => hbody ⟨((serves_of_read hread).mp h).1, ((serves_of_read hread).mp h).2.1⟩
      · exact (accountable_of_read hread).mpr fun htoken hpos => absurd ⟨htoken, hpos⟩ hbody

theorem mintLocked_step (c : Auth0M2MClient) (answer : MintResponse) (now : ℚ) :
    MintStep c answer now (c.mintLocked answer now) := by
  cases answer with
  | httpError m => exact mintStep_httpError c m now
  | response statusCode text json =>
    by_cases hstatus : statusCode = 200
    · subst hstatus
      exact mintStep_200 c text json now
    · rw [mintLocked_of_status c hstatus text json now]
      apply MintStep.counted
      · rfl
      · simp [Exc.isHttpError, not_unreachable_response]
      · exact fun h => hstatus (serves_response_iff.mp h).1
      · exact accountable_of_status hstatus text json

end Auth0M2MClient

end QuikSync.Client
