import QuikSyncAdapters.Client.Http
import QuikSyncAdapters.Library.Machine

/-! The WebSocket client: a state subscription is a coroutine that connects, streams and backs
off, over and over. The subscriptions of a client share its flag and its list of 401s. -/

namespace QuikSync.Client

open Py

structure WsConfig where
  baseUrl : String
  backoffBaseSeconds : ℚ := 1
  backoffMaxSeconds : ℚ := 30
  circuitBreaker401Count : ℤ := 3
  circuitBreakerWindowSeconds : ℚ := 60

structure QuikSyncWsClient where
  config : WsConfig
  closed : Bool
  failureTimes : List ℚ

namespace QuikSyncWsClient

def new (config : WsConfig) : QuikSyncWsClient := ⟨config, false, []⟩

def close (c : QuikSyncWsClient) : QuikSyncWsClient := { c with closed := true }

def record401 (c : QuikSyncWsClient) (now : ℚ) : QuikSyncWsClient :=
  { c with
    failureTimes := (c.failureTimes.filter fun t =>
      decide (now - t < c.config.circuitBreakerWindowSeconds)) ++ [now] }

def isCircuitOpen (c : QuikSyncWsClient) : Bool :=
  decide (c.config.circuitBreaker401Count ≤ c.failureTimes.length)

def jitteredBackoff (base : ℚ) (random : Draw) : ℚ :=
  let jitter := base * (1 / 4) * (random.val * 2 - 1)
  max (base + jitter) (1 / 10)

def subscribeFleetState (fleet : String) : String :=
  s!"/api/connector/ws/open-rmf/fleets/{fleet}/state/subscribe"

def subscribeDoorState (door : String) : String :=
  s!"/api/connector/ws/open-rmf/doors/{door}/state/subscribe"

def subscribeLiftState (lift : String) : String :=
  s!"/api/connector/ws/open-rmf/lifts/{lift}/state/subscribe"

def subscribeUrl (config : WsConfig) (path token : String) (scope : Option String) : String :=
  let url := s!"{config.baseUrl}{path}?access_token={token}"
  match scope with
  | none => url
  | some name => if name = "" then url else url ++ s!"&namespace={name}"

end QuikSyncWsClient

/-! ### One subscription -/

inductive WsExc where
  | client (e : Exc)
  | wsCircuitOpen
  | cancelledError

/-- Where a subscription waits, or how it ended. -/
inductive Phase where
  | unstarted
  | connecting (url : String)
  | streaming
  | sleeping (seconds : ℚ)
  | returned
  | raised (e : WsExc)

def Phase.finished : Phase → Bool
  | returned | raised _ => true
  | _ => false

def Phase.atHead : Phase → Bool
  | unstarted | sleeping _ => true
  | _ => false

def Phase.isConnecting : Phase → Bool
  | connecting _ => true
  | _ => false

inductive Decoded where
  | loaded (v : Json)
  | jsonDecodeError
  | raised (e : Exc)

/-- What the awaited operation of a subscription comes to. -/
inductive WsInput where
  -- the first pull or the end of a sleep; `token` as the URL renders it
  | resume (token : Except Exc String)
  | handshake
  -- an `InvalidStatus` at clock `now`, with the answer to the forced refresh after a 401
  | refused (status : ℕ) (now : ℚ) (refresh : Except Exc String) (random : Draw)
  -- a `WebSocketException` or an `OSError`
  | failed (random : Draw)
  | message (decoded : Decoded)
  | cleanClose (random : Draw)
  | cancel

inductive Attempt where
  | connected
  | refused (status : ℕ) (now : ℚ)
  | failed

inductive WsEffect where
  | getToken (forceRefresh : Bool)
  | refreshFailed (e : Exc)
  | connect (url : String)
  | attempted (a : Attempt)
  | yield (frame : Dict)
  | sleep (seconds : ℚ)
  | raise (e : WsExc)

structure Subscription where
  path : String
  scope : Option String
  backoff : ℚ
  phase : Phase

structure WsStep where
  client : QuikSyncWsClient
  subscription : Subscription
  effects : List WsEffect

namespace Subscription

def new (config : WsConfig) (path : String) (scope : Option String) : Subscription :=
  ⟨path, scope, config.backoffBaseSeconds, .unstarted⟩

/-- The head of the loop, up to the connection. -/
def connect (c : QuikSyncWsClient) (s : Subscription) (token : Except Exc String) : WsStep :=
  if c.closed then ⟨c, { s with phase := .returned }, []⟩
  else
    match token with
    | .error e =>
      ⟨c, { s with phase := .raised (.client e) }, [.getToken false, .raise (.client e)]⟩
    | .ok token =>
      let url := QuikSyncWsClient.subscribeUrl c.config s.path token s.scope
      ⟨c, { s with phase := .connecting url }, [.getToken false, .connect url]⟩

/-- The end of an iteration that left the `try` statement behind. -/
def backOff (c : QuikSyncWsClient) (s : Subscription) (random : Draw) (effects : List WsEffect) :
    WsStep :=
  if c.closed then ⟨c, { s with phase := .returned }, effects⟩
  else
    let seconds := QuikSyncWsClient.jitteredBackoff s.backoff random
    ⟨c, { s with phase := .sleeping seconds }, effects ++ [.sleep seconds]⟩

def invalidStatus (c : QuikSyncWsClient) (s : Subscription) (status : ℕ) (now : ℚ)
    (refresh : Except Exc String) (random : Draw) : WsStep :=
  let refused := WsEffect.attempted (.refused status now)
  if status = 401 then
    let c := c.record401 now
    if c.isCircuitOpen then
      ⟨c, { s with phase := .raised .wsCircuitOpen }, [refused, .raise .wsCircuitOpen]⟩
    else
      match refresh with
      | .ok _ => backOff c s random [refused, .getToken true]
      | .error e => backOff c s random [refused, .getToken true, .refreshFailed e]
  else backOff c s random [refused]

def receive (c : QuikSyncWsClient) (s : Subscription) (decoded : Decoded) : WsStep :=
  if c.closed then ⟨c, { s with phase := .returned }, []⟩
  else
    match decoded with
    | .loaded (.obj frame) => ⟨c, s, [.yield frame]⟩
    | .loaded _ => ⟨c, s, []⟩
    | .jsonDecodeError => ⟨c, s, []⟩
    | .raised e => ⟨c, { s with phase := .raised (.client e) }, [.raise (.client e)]⟩

/-- `_subscribe` from one await to the next; an input that the phase does not wait for changes
nothing. -/
def step (c : QuikSyncWsClient) (s : Subscription) (i : WsInput) : WsStep :=
  match i, s.phase with
  | .resume token, .unstarted => connect c s token
  | .resume token, .sleeping _ =>
    connect c { s with backoff := min (s.backoff * 2) c.config.backoffMaxSeconds } token
  | .handshake, .connecting _ =>
    ⟨c, { s with backoff := c.config.backoffBaseSeconds, phase := .streaming },
      [.attempted .connected]⟩
  | .refused status now refresh random, .connecting _ =>
    invalidStatus c s status now refresh random
  | .failed random, .connecting _ => backOff c s random [.attempted .failed]
  | .failed random, .streaming => backOff c s random []
  | .message decoded, .streaming => receive c s decoded
  | .cleanClose random, .streaming => backOff c s random []
  | .cancel, phase =>
    if phase.finished then ⟨c, s, []⟩
    else ⟨c, { s with phase := .raised .cancelledError }, [.raise .cancelledError]⟩
  | _, _ => ⟨c, s, []⟩

/-! ### What a step keeps -/

section Kept

variable (c : QuikSyncWsClient) (s : Subscription)

@[simp] theorem backOff_client (random : Draw) (effects : List WsEffect) :
    (s.backOff c random effects).client = c := by
  unfold backOff
  split <;> rfl

@[simp] theorem connect_client (token : Except Exc String) : (s.connect c token).client = c := by
  unfold connect
  split
  · rfl
  · cases token <;> rfl

@[simp] theorem receive_client (decoded : Decoded) : (s.receive c decoded).client = c := by
  unfold receive
  split
  · rfl
  · split <;> rfl

theorem invalidStatus_client (status : ℕ) (now : ℚ) (refresh : Except Exc String)
    (random : Draw) :
    (s.invalidStatus c status now refresh random).client =
      if status = 401 then c.record401 now else c := by
  unfold invalidStatus
  by_cases hstatus : status = 401
  · simp only [if_pos hstatus]
    split
    · rfl
    · cases refresh <;> exact backOff_client ..
  · simp only [if_neg hstatus, backOff_client]

theorem step_client (i : WsInput) :
    (s.step c i).client = c ∨ ∃ now, (s.step c i).client = c.record401 now := by
  unfold step
  split
  all_goals try exact Or.inl (by simp)
  · rw [invalidStatus_client]
    split
    · exact Or.inr ⟨_, rfl⟩
    · exact Or.inl rfl
  · split <;> exact Or.inl rfl

@[simp] theorem step_closed (i : WsInput) : (s.step c i).client.closed = c.closed := by
  obtain h | ⟨now, h⟩ := step_client c s i
  · rw [h]
  · rw [h]
    rfl

theorem backOff_scope (random : Draw) (effects : List WsEffect) :
    (s.backOff c random effects).subscription.scope = s.scope := by
  unfold backOff
  split <;> rfl

theorem connect_scope (token : Except Exc String) :
    (s.connect c token).subscription.scope = s.scope := by
  unfold connect
  split
  · rfl
  · cases token <;> rfl

theorem invalidStatus_scope (status : ℕ) (now : ℚ) (refresh : Except Exc String)
    (random : Draw) :
    (s.invalidStatus c status now refresh random).subscription.scope = s.scope := by
  unfold invalidStatus
  dsimp only
  split
  · split
    · rfl
    · cases refresh <;> exact backOff_scope ..
  · exact backOff_scope ..

theorem receive_scope (decoded : Decoded) :
    (s.receive c decoded).subscription.scope = s.scope := by
  unfold receive
  split
  · rfl
  · split <;> rfl

theorem step_scope (i : WsInput) : (s.step c i).subscription.scope = s.scope := by
  unfold step
  split
  · exact connect_scope ..
  · exact connect_scope ..
  · rfl
  · exact invalidStatus_scope ..
  · exact backOff_scope ..
  · exact backOff_scope ..
  · exact receive_scope ..
  · exact backOff_scope ..
  · split <;> rfl
  · rfl

end Kept

end Subscription

structure WsShared where
  client : QuikSyncWsClient
  subscriptions : ℕ → Subscription

inductive SharedInput where
  | subscription (k : ℕ) (i : WsInput)
  | close

def WsShared.new (config : WsConfig) (endpoints : ℕ → String × Option String) : WsShared :=
  ⟨.new config, fun k => .new config (endpoints k).1 (endpoints k).2⟩

def sharedMachine : Machine WsShared SharedInput (List WsEffect) where
  step q
    | .subscription k i =>
      let r := (q.subscriptions k).step q.client i
      (⟨r.client, Function.update q.subscriptions k r.subscription⟩, r.effects)
    | .close => ({ q with client := q.client.close }, [])

theorem sharedMachine_step (q : WsShared) (k : ℕ) (i : WsInput) :
    (sharedMachine.step q (.subscription k i)).1 =
      ⟨((q.subscriptions k).step q.client i).client,
        Function.update q.subscriptions k ((q.subscriptions k).step q.client i).subscription⟩ := rfl

end QuikSync.Client
