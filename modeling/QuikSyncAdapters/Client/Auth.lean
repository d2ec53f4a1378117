import QuikSyncAdapters.Client.Exceptions

/-! The Auth0 token client: one cached token, minted again when it is old. The clock
readings and the jitter draw of a call are its arguments, and so is the answer of Auth0. -/

namespace QuikSync.Client

open Py

structure AuthConfig where
  tenant : String
  audience : String
  clientId : String
  clientSecret : String
  organization : String
  scopes : String := "open-rmf:read open-rmf:invoke"
  refreshThresholdPct : ℚ := 4 / 5
  jitterSecondsMin : ℤ := -600
  jitterSecondsMax : ℤ := 600
  -- `random.randint` refuses an empty range
  jitterRange : jitterSecondsMin ≤ jitterSecondsMax := by decide

abbrev AuthConfig.Jitter (config : AuthConfig) :=
  { j : ℤ // config.jitterSecondsMin ≤ j ∧ j ≤ config.jitterSecondsMax }

structure CachedToken where
  accessToken : Json
  expiresAtUnix : ℚ

structure Auth0M2MClient where
  config : AuthConfig
  cached : Option CachedToken
  consecutiveFailures : ℕ

structure MintRequest where
  url : String
  body : List (String × String)

inductive MintResponse where
  | httpError (message : String)
  | response (statusCode : ℕ) (text : String) (json : Except Py.Error Json)

/-- `str.replace` for a non-empty pattern: occurrences are taken from the left. -/
def replaceAll (pattern replacement : List Char) : ℕ → List Char → List Char
  | 0, text => text
  | _ + 1, [] => []
  | fuel + 1, c :: rest =>
    if pattern.isPrefixOf (c :: rest) then
      replacement ++ replaceAll pattern replacement fuel ((c :: rest).drop pattern.length)
    else c :: replaceAll pattern replacement fuel rest

def redactSecrets (text : String) (config : AuthConfig) : String :=
  if text = "" then text
  else if config.clientSecret = "" then text
  else
    String.ofList (replaceAll config.clientSecret.toList "<redacted client_secret>".toList
      text.length text.toList)

/-- The excerpt of a response body that is logged and raised: its first 200 characters, scrubbed. -/
def bodyPreview (text : String) (config : AuthConfig) : String :=
  redactSecrets (String.ofList (text.toList.take 200)) config

namespace Auth0M2MClient

def new (config : AuthConfig) : Auth0M2MClient := ⟨config, none, 0⟩

def fail (c : Auth0M2MClient) : Auth0M2MClient :=
  { c with consecutiveFailures := c.consecutiveFailures + 1 }

def mintRequest (c : Auth0M2MClient) : MintRequest where
  url := s!"https://{c.config.tenant}/oauth/token"
  body := [("grant_type", "client_credentials"), ("client_id", c.config.clientId),
    ("client_secret", c.config.clientSecret), ("audience", c.config.audience),
    ("scope", c.config.scopes), ("organization", c.config.organization)]

def readPayload (json : Except Py.Error Json) : Except Py.Error (Json × ℤ) := do
  match ← json with
  | .obj members => do
    let token := Dict.get members "access_token"
    let ttl ← ((members.lookup "expires_in").getD (.int 0)).toInt
    pure (token, ttl)
  | _ => throw .attributeError

/-- `now` is the clock reading that a new expiry is counted from. -/
def mintLocked (c : Auth0M2MClient) (answer : MintResponse) (now : ℚ) :
    Auth0M2MClient × Except Exc Json :=
  match answer with
  | .httpError e =>
    let c := c.fail
    if 3 ≤ c.consecutiveFailures then
      (c, .error (.authError s!"Auth0 mint failed 3x in a row: {e}"))
    else (c, .error (.httpError e))
  | .response statusCode text json =>
    if statusCode ≠ 200 then
      let c := c.fail
      let preview := bodyPreview text c.config
      if 3 ≤ c.consecutiveFailures then
        (c, .error (.authError s!"Auth0 mint returned {statusCode} 3x in a row: {preview}"))
      else (c, .error (.authError s!"Auth0 mint {statusCode}: {preview}"))
    else
      match readPayload json with
      | .error e => (c, .error (.builtin e))
      | .ok (token, ttl) =>
        if !token.truthy ∨ ttl ≤ 0 then
          (c.fail, .error (.authError "Auth0 returned 200 but no usable access_token/expires_in"))
        else
          match floatOfInt ttl with
          -- the counter is reset before the new expiry is computed
          | .error e => ({ c with consecutiveFailures := 0 }, .error (.builtin e))
          | .ok _ =>
            ({ c with consecutiveFailures := 0, cached := some ⟨token, now + ttl⟩ }, .ok token)

def estimateTotalTtl (cached : CachedToken) (now : ℚ) : ℚ := max (cached.expiresAtUnix - now) 0 + 60

/-- The clock is read for the remaining lifetime and again for the estimate. -/
def shouldRefresh (config : AuthConfig) (cached : CachedToken) (now now' : ℚ)
    (jitter : config.Jitter) : Bool :=
  let ttlRemaining := cached.expiresAtUnix - now
  if ttlRemaining ≤ 0 then true
  else
    let marginTarget := estimateTotalTtl cached now' * (1 - config.refreshThresholdPct)
    decide (ttlRemaining < marginTarget + jitter.val)

structure World (config : AuthConfig) where
  now : ℚ
  now' : ℚ
  jitter : config.Jitter
  answer : MintResponse
  mintedAt : ℚ

/-- The request is the mint that the call sends, if it sends one. -/
def getToken (c : Auth0M2MClient) (forceRefresh : Bool) (w : World c.config) :
    Auth0M2MClient × Option MintRequest × Except Exc Json :=
  let mint := ((c.mintLocked w.answer w.mintedAt).1, some c.mintRequest,
    (c.mintLocked w.answer w.mintedAt).2)
  match c.cached with
  | none => mint
  | some cached =>
    if !forceRefresh ∧ !shouldRefresh c.config cached w.now w.now' w.jitter then
      (c, none, .ok cached.accessToken)
    else mint

end Auth0M2MClient

end QuikSync.Client
