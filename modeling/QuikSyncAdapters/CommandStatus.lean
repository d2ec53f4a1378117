import QuikSyncAdapters.Client.Endpoints
import QuikSyncAdapters.Client.ResponseStatus
import QuikSyncAdapters.Door.Node
import QuikSyncAdapters.Fleet.CallbackErrors
import QuikSyncAdapters.Lift.Node

/-! Commands over the REST client: what a response that is no 2xx does to the logs, the
counters, the current activity and the lift lock. -/

namespace QuikSync

open Client Py

/-- The info lines that say `dispatched`. -/
inductive DispatchedLine where
  | navigate (fleet robot executionId : String) (taskId : Json)
  | door (door : String) (mode : DoorGoal) (executionId : String)
  | lift (lift : String) (requestType : Lift.LiftRequestType) (session : NonEmpty)
      (executionId : String)

def taskId : Json → Json
  | .obj response => Dict.get response "task_id"
  | _ => .null

namespace Fleet

def RestClient.request (http : RestClient) (call : ApiCall) :
    RetryRun (TokenClient.auth0 http.authConfig).State AttemptRecord (Except Exc Json) :=
  requestJson (T := .auth0 http.authConfig) http.config call http.world http.auth

def CallbackScope.navigateLog (c : CallbackScope) (http : RestClient) (destination : Destination)
    (executionId : String) : List DispatchedLine :=
  match c.navigatePost destination executionId with
  | .ok (some p) =>
    match http.post p with
    | .ok response => [.navigate c.fleet c.robot executionId (taskId response)]
    | .error _ => []
  | _ => []

end Fleet

namespace Door

def DoorPost.call (p : DoorPost) : ApiCall :=
  postDoorRequest p.door p.requesterId.val p.requestedMode.wire p.executionId p.scope

namespace DoorHandle

def postOver (h : DoorHandle) (http : Fleet.RestClient) (r : DoorRequest)
    (executionId : Option String) (fresh : String) : Except Exc Json :=
  match h.screen r executionId fresh with
  | .ok p => (http.request p.call).result
  | .error _ => .ok .null

def dispatchRequestOver (h : DoorHandle) (http : Fleet.RestClient) (r : DoorRequest)
    (executionId : Option String) (fresh : String) : Dispatch :=
  h.dispatchRequest r executionId fresh (h.postOver http r executionId fresh)

def dispatchLog (h : DoorHandle) (http : Fleet.RestClient) (r : DoorRequest)
    (executionId : Option String) (fresh : String) : List DispatchedLine :=
  match h.screen r executionId fresh with
  | .ok p =>
    match (http.request p.call).result with
    | .ok _ => [.door p.door p.requestedMode p.executionId]
    | .error _ => []
  | .error _ => []

end DoorHandle

end Door

namespace Lift

def LiftPost.call (p : LiftPost) : ApiCall :=
  postLiftRequest p.lift p.sessionId.val p.requestType.wire p.destinationFloor.val p.doorState.wire
    p.executionId p.scope

namespace LiftHandle

def postOver (h : LiftHandle) (http : Fleet.RestClient) (r : LiftRequest)
    (executionId : Option String) (fresh : String) : Except Exc Json :=
  match h.screen r executionId fresh with
  | .request p => (http.request p.call).result
  | _ => .ok .null

def dispatchRequestOver (h : LiftHandle) (http : Fleet.RestClient) (m : LiftSessionManager)
    (r : LiftRequest) (executionId : Option String) (fresh : String) (now stamp : ℚ) : Dispatch :=
  h.dispatchRequest m r executionId fresh now stamp (h.postOver http r executionId fresh)

def dispatchLog (h : LiftHandle) (http : Fleet.RestClient) (m : LiftSessionManager)
    (r : LiftRequest) (executionId : Option String) (fresh : String) (now stamp : ℚ) :
    List DispatchedLine :=
  match h.screen r executionId fresh with
  | .request p =>
    if (p.gate m now stamp).2 then
      match (http.request p.call).result with
      | .ok _ => [.lift p.lift p.requestType p.sessionId p.executionId]
      | .error _ => []
    else []
  | _ => []

end LiftHandle

end Lift

section Status

variable (http : Fleet.RestClient)

def AnsweredElse (call : ApiCall) : Prop :=
  ∃ s, lastStatus (http.request call) = some s ∧ ¬ Is2xx s

/-- A request returns for a 2xx only, and so nothing of a command answered otherwise is
logged, counted or recorded, and no lift is released for it. -/
structure SuccessMeansSuccess : Prop where
  request : ∀ call, SuccessIs2xx (http.request call)
  navigate : ∀ (rmf : Fleet.RmfAdapter) (c : Fleet.CallbackScope) (h : Fleet.RobotHandle rmf)
    (destination : Fleet.Destination) (execution : Fleet.Execution rmf) (executionId : String)
    (p : Fleet.CommandPost), c.navigatePost destination executionId = .ok (some p) →
    AnsweredElse http p.call →
    c.navigateLog http destination executionId = [] ∧
      (c.navigateOver http h destination execution executionId).handle = h
  door : ∀ (h : Door.DoorHandle) (r : Door.DoorRequest) (executionId : Option String)
    (fresh : String) (p : Door.DoorPost), h.screen r executionId fresh = .ok p →
    AnsweredElse http p.call →
    h.dispatchLog http r executionId fresh = [] ∧
      (h.dispatchRequestOver http r executionId fresh).handle.requestsDispatched =
        h.requestsDispatched
  lift : ∀ (h : Lift.LiftHandle) (m : Lift.LiftSessionManager) (r : Lift.LiftRequest)
    (executionId : Option String) (fresh : String) (now stamp : ℚ) (p : Lift.LiftPost),
    h.screen r executionId fresh = .request p → AnsweredElse http p.call →
    h.dispatchLog http m r executionId fresh now stamp = [] ∧
      (h.dispatchRequestOver http m r executionId fresh now stamp).handle.requestsDispatched =
        h.requestsDispatched ∧
      (h.dispatchRequestOver http m r executionId fresh now stamp).manager = (p.gate m now stamp).1

def NoOtherSuccess : Prop :=
  ∀ i : ℕ, (i : ℤ) ≤ http.config.maxRetries →
    (∀ b < i, Passes http.config b (outcomeAt http.world http.auth b)
      (refreshAt http.world http.auth b)) →
    ∀ s, (outcomeAt http.world http.auth i).status = some s → s < 400 → Is2xx s

variable {http}

theorem raises_of_answeredElse {call : ApiCall} (h : SuccessIs2xx (http.request call))
    (hother : AnsweredElse http call) : ∃ e, (http.request call).result = .error e := by
  obtain ⟨s, hs, hno⟩ := hother
  cases hresult : (http.request call).result with
  | error e => exact ⟨e, rfl⟩
  | ok v =>
    obtain ⟨s', hs', h2xx⟩ := h v hresult
    obtain rfl : s = s' := Option.some.inj (hs.symm.trans hs')
    exact absurd h2xx hno

theorem navigate_answeredElse {rmf : Fleet.RmfAdapter} {c : Fleet.CallbackScope}
    {h : Fleet.RobotHandle rmf} {destination : Fleet.Destination} {execution : Fleet.Execution rmf}
    {executionId : String} {p : Fleet.CommandPost}
    (hp : c.navigatePost destination executionId = .ok (some p))
    (hraises : ∃ e, http.post p = .error e) :
    c.navigateLog http destination executionId = [] ∧
      (c.navigateOver http h destination execution executionId).handle = h := by
  obtain ⟨e, he⟩ := hraises
  unfold Fleet.CallbackScope.navigateLog Fleet.CallbackScope.navigateOver
  rw [hp]
  dsimp only
  rw [he]
  exact ⟨rfl, rfl⟩

theorem door_answeredElse {h : Door.DoorHandle} {r : Door.DoorRequest}
    {executionId : Option String} {fresh : String} {p : Door.DoorPost}
    (hp : h.screen r executionId fresh = .ok p)
    (hraises : ∃ e, (http.request p.call).result = .error e) :
    h.dispatchLog http r executionId fresh = [] ∧
      (h.dispatchRequestOver http r executionId fresh).handle.requestsDispatched =
        h.requestsDispatched := by
  obtain ⟨e, he⟩ := hraises
  unfold Door.DoorHandle.dispatchLog Door.DoorHandle.dispatchRequestOver
    Door.DoorHandle.dispatchRequest Door.DoorHandle.postOver
  rw [hp]
  dsimp only
  rw [he]
  exact ⟨rfl, rfl⟩

theorem lift_answeredElse {h : Lift.LiftHandle} {m : Lift.LiftSessionManager}
    {r : Lift.LiftRequest} {executionId : Option String} {fresh : String} {now stamp : ℚ}
    {p : Lift.LiftPost} (hp : h.screen r executionId fresh = .request p)
    (hraises : ∃ e, (http.request p.call).result = .error e) :
    h.dispatchLog http m r executionId fresh now stamp = [] ∧
      (h.dispatchRequestOver http m r executionId fresh now stamp).handle.requestsDispatched =
        h.requestsDispatched ∧
      (h.dispatchRequestOver http m r executionId fresh now stamp).manager =
        (p.gate m now stamp).1 := by
  obtain ⟨e, he⟩ := hraises
  unfold Lift.LiftHandle.dispatchLog Lift.LiftHandle.dispatchRequestOver
    Lift.LiftHandle.dispatchRequest Lift.LiftHandle.postOver
  rw [hp]
  dsimp only
  rw [he]
  -- a request that the lock refuses is rejected before its POST
  cases (p.gate m now stamp).2 with
  | false => exact ⟨rfl, rfl, rfl⟩
  | true => exact ⟨rfl, rfl, rfl⟩

variable (http)

/-- Success means success exactly when no answer below 400 is anything but a 2xx. -/
theorem success_means_success_iff : SuccessMeansSuccess http ↔ NoOtherSuccess http := by
  constructor
  · intro h
    exact (success_is_2xx_iff http.config plainCall http.world http.auth).mp (h.request plainCall)
  · intro h
    have hrequest : ∀ call, SuccessIs2xx (http.request call) := fun call =>
      (success_is_2xx_iff http.config call http.world http.auth).mpr h
    have hraises : ∀ call, AnsweredElse http call → ∃ e, (http.request call).result = .error e :=
      fun call => raises_of_answeredElse (hrequest call)
    refine ⟨hrequest, ?_, ?_, ?_⟩
    · intro rmf c handle destination execution executionId p hp hother
      exact navigate_answeredElse hp (hraises p.call hother)
    · intro handle r executionId fresh p hp hother
      exact door_answeredElse hp (hraises p.call hother)
    · intro handle m r executionId fresh now stamp p hp hother
      exact lift_answeredElse hp (hraises p.call hother)

end Status

def redirecting : Fleet.RestClient where
  config := Fleet.idleRest.config
  authConfig := Fleet.idleRest.authConfig
  auth := (some ⟨.str "t", 1000⟩, 0)
  world attempt := { Fleet.idleRest.world attempt with exchange := .ok (plainResponse 302) }

/-- A 302 is taken for a success. -/
theorem redirect_is_success : ¬ ∀ http : Fleet.RestClient, SuccessMeansSuccess http := by
  intro h
  have hall := (success_is_2xx_iff redirecting.config plainCall redirecting.world
    redirecting.auth).mp ((h redirecting).request plainCall)
  have hstatus : (outcomeAt redirecting.world redirecting.auth 0).status = some 302 := by
    decide +kernel
  obtain ⟨-, hhigh⟩ := hall 0 (by decide) (fun b hb => absurd hb (Nat.not_lt_zero b)) 302 hstatus
    (by norm_num)
  exact absurd hhigh (by norm_num)

end QuikSync
