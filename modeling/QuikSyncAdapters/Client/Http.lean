import QuikSyncAdapters.Client.Auth
import QuikSyncAdapters.Library.Retry

/-! The REST client: one request goes through a bounded loop of attempts, each of which asks
for a token, sends the request and looks at the answer. -/

namespace QuikSync.Client

open Py

structure HttpConfig where
  baseUrl : String
  timeoutSeconds : ℚ := 30
  connectTimeoutSeconds : ℚ := 5
  maxRetries : ℤ := 3
  backoffBaseSeconds : ℚ := 1 / 2
  backoffMaxSeconds : ℚ := 8

/-- What an endpoint method hands to `_request_json`. -/
structure ApiCall where
  method : String
  path : String
  body : Option Dict
  params : Option (List (String × String))

def nsParams : Option String → Option (List (String × String))
  | none => none
  | some scope => if scope = "" then none else some [("namespace", scope)]

def optional (key : String) : Option Json → Dict
  | none => []
  | some v => [(key, v)]

def postNavigate (fleet robot executionId : String) (destination : Dict)
    (dockName : Option String) (speedLimit : Option Double) (deadlineUnixMillis : Option ℤ)
    (scope : Option String) : ApiCall where
  method := "POST"
  path := s!"/api/v1/connector/open-rmf/fleets/{fleet}/robots/{robot}/navigate"
  body := some ([("execution_id", .str executionId), ("destination", .obj destination)] ++
    optional "dock_name" (dockName.map .str) ++ optional "speed_limit" (speedLimit.map .float) ++
    optional "deadline_unix_millis" (deadlineUnixMillis.map .int))
  params := nsParams scope

def postStop (fleet robot executionId : String) (scope : Option String) : ApiCall where
  method := "POST"
  path := s!"/api/v1/connector/open-rmf/fleets/{fleet}/robots/{robot}/stop"
  body := some [("execution_id", .str executionId)]
  params := nsParams scope

def postPerformAction (fleet robot executionId category : String) (description : Json)
    (deadlineUnixMillis : Option ℤ) (scope : Option String) : ApiCall where
  method := "POST"
  path := s!"/api/v1/connector/open-rmf/fleets/{fleet}/robots/{robot}/perform_action"
  body := some ([("execution_id", .str executionId), ("category", .str category),
    ("description", description)] ++
    optional "deadline_unix_millis" (deadlineUnixMillis.map .int))
  params := nsParams scope

/-- What answers `get_token(force_refresh)`; an event is what one call finds outside. -/
structure TokenClient where
  State : Type
  Event : Type
  getToken : State → Bool → Event → State × Except Exc Json

inductive TokenError where
  | httpError (message : String)
  | authError (message : String)

def TokenError.exc : TokenError → Exc
  | httpError e => .httpError e
  | authError e => .authError e

def TokenClient.scripted : TokenClient where
  State := Unit
  Event := Except TokenError Json
  getToken _ _ answer := ((), answer.mapError TokenError.exc)

def TokenClient.auth0 (config : AuthConfig) : TokenClient where
  State := Option CachedToken × ℕ
  Event := Auth0M2MClient.World config
  getToken q forceRefresh w :=
    let c : Auth0M2MClient := ⟨config, q.1, q.2⟩
    (((c.getToken forceRefresh w).1.cached, (c.getToken forceRefresh w).1.consecutiveFailures),
      (c.getToken forceRefresh w).2.2)

structure Response where
  statusCode : ℕ
  text : String
  hasContent : Bool
  json : Except Py.Error Json

def parseBody (resp : Response) : Json :=
  if !resp.hasContent then .obj []
  else
    match resp.json with
    | .ok v => v
    | .error _ => .obj [("_raw_body", .str resp.text)]

def errorCode : Json → Json
  | .obj members => Dict.get members "error"
  | _ => .null

/-- A draw of `random.random()`. -/
abbrev Draw := { r : ℚ // 0 ≤ r ∧ r < 1 }

instance : Inhabited Draw := ⟨⟨0, le_rfl, zero_lt_one⟩⟩

def sleepBackoff (config : HttpConfig) (attempt : ℕ) (random : Draw) : Except Py.Error ℚ := do
  -- the power is an integer, and becomes a float when it meets the base
  let power ← floatOfInt (2 ^ attempt)
  let sleepFor := min (config.backoffBaseSeconds * power) config.backoffMaxSeconds
  let jitter := sleepFor * (1 / 4) * (random.val * 2 - 1)
  pure (max (sleepFor + jitter) (1 / 20))

/-- A request as it is sent: its authorization header is `Bearer` and the token. -/
structure HttpRequest where
  call : ApiCall
  bearer : Json
  contentType : Option String

def ApiCall.request (call : ApiCall) (token : Json) : HttpRequest :=
  ⟨call, token, call.body.map fun _ => "application/json"⟩

structure AttemptWorld (T : TokenClient) where
  token : T.Event
  exchange : Except String Response
  refresh : T.Event
  random : Draw

structure AttemptRecord where
  sent : Option HttpRequest
  status : Option ℕ
  forcedRefresh : Bool
  slept : Option ℚ

/-- How the `try` block ends: with an exception that is not an `httpx.HTTPError`, with one
that is, or with a response. -/
inductive Outcome where
  | raised (e : Exc)
  | transportFailure (message : String)
  | response (resp : Response)

def outcome (token : Except Exc Json) (exchange : Except String Response) : Outcome :=
  match token with
  | .error (.httpError e) => .transportFailure e
  | .error e => .raised e
  | .ok _ =>
    match exchange with
    | .error e => .transportFailure e
    | .ok resp => .response resp

def Outcome.status : Outcome → Option ℕ
  | .response resp => some resp.statusCode
  | _ => none

def Outcome.isTransient : Outcome → Bool
  | .raised _ => false
  | .transportFailure _ => true
  | .response resp => decide (500 ≤ resp.statusCode)

variable {T : TokenClient}

def backOffOr (config : HttpConfig) (attempt : ℕ) (random : Draw) (auth : T.State)
    (record : AttemptRecord) (last : Exc) : Try T.State AttemptRecord (Except Exc Json) :=
  if (attempt : ℤ) < config.maxRetries then
    match sleepBackoff config attempt random with
    | .ok seconds => ⟨auth, { record with slept := some seconds }, none⟩
    | .error e => ⟨auth, record, some (.error (.builtin e))⟩
  else ⟨auth, record, some (.error last)⟩

def attemptOnce (config : HttpConfig) (call : ApiCall) (world : ℕ → AttemptWorld T) (attempt : ℕ)
    (auth : T.State) : Try T.State AttemptRecord (Except Exc Json) :=
  let w := world attempt
  let token := (T.getToken auth false w.token).2
  let auth := (T.getToken auth false w.token).1
  let o := outcome token w.exchange
  let record : AttemptRecord := ⟨token.toOption.map call.request, o.status, false, none⟩
  match o with
  | .raised e => ⟨auth, record, some (.error e)⟩
  | .transportFailure e =>
    backOffOr config attempt w.random auth record
      (.quikSyncConnectionError s!"{call.method} {call.path}: {e}")
  | .response resp =>
    if 400 ≤ resp.statusCode ∧ resp.statusCode < 500 then
      if resp.statusCode = 401 ∧ attempt = 0 then
        -- the forced refresh stands outside the `try`
        let refreshed := T.getToken auth true w.refresh
        match refreshed.2 with
        | .ok _ => ⟨refreshed.1, { record with forcedRefresh := true }, none⟩
        | .error e => ⟨refreshed.1, { record with forcedRefresh := true }, some (.error e)⟩
      else
        ⟨auth, record, some (.error
          (.quikSyncClientError resp.statusCode (errorCode (parseBody resp)) (parseBody resp)))⟩
    else if 500 ≤ resp.statusCode then
      backOffOr config attempt w.random auth record
        (.quikSyncServerError resp.statusCode resp.text)
    else ⟨auth, record, some (.ok (parseBody resp))⟩

def requestJson (config : HttpConfig) (call : ApiCall) (world : ℕ → AttemptWorld T)
    (auth : T.State) : RetryRun T.State AttemptRecord (Except Exc Json) :=
  Retry.run (attemptOnce config call world)
    (.error (.quikSyncConnectionError s!"{call.method} {call.path}: exhausted retries"))
    (config.maxRetries + 1).toNat 0 auth

end QuikSync.Client
