import QuikSyncAdapters.Client.RosRequest
import QuikSyncAdapters.Lift.SessionManager

/-! One lift of the adapter: the translation of its state frames and of its requests, and
the dispatch of a request through the session manager to the server. -/

namespace QuikSync.Lift

open Client Py Fallible

/-! ### Requests -/

inductive LiftRequestType where
  | endSession
  | agvMode
  | humanMode
  deriving DecidableEq

def LiftRequestType.wire : LiftRequestType → String
  | endSession => "END_SESSION"
  | agvMode => "AGV_MODE"
  | humanMode => "HUMAN_MODE"

/-- The door state of a request: a number, or a message that wraps one as its `value`. -/
inductive DoorStateField where
  | bare (code : Code)
  | message (value : Code)

/-- An object shaped like `rmf_lift_msgs/LiftRequest`: a missing string is `none`. -/
structure LiftRequest where
  liftName : Option String
  sessionId : Option String
  requestType : Code
  destinationFloor : Option String
  doorState : DoorStateField

structure TranslatedLiftRequest where
  liftName : NonEmpty
  sessionId : NonEmpty
  requestType : LiftRequestType
  destinationFloor : NonEmpty
  doorState : DoorGoal
  executionId : String

def requestTypeOf (n : ℤ) : Except String LiftRequestType :=
  if n = 1 then .ok .endSession
  else if n = 2 then .ok .agvMode
  else if n = 3 then .ok .humanMode
  else .error (s!"request_type={n} is not a known constant " ++
    "(expected 1=END_SESSION, 2=AGV_MODE, 3=HUMAN_MODE)")

def doorGoalOf (n : ℤ) : Except String DoorGoal :=
  if n = 2 then .ok .opened
  else if n = 0 then .ok .closed
  else if n = 1 then .error "door_state=MOVING is not a valid goal; QuikSync rejects with 400"
  else .error (s!"door_state={n} is not a known constant " ++ "(expected 0=CLOSED, 2=OPEN)")

def DoorStateField.code : DoorStateField → Code
  | bare code => code
  | message value => value

def requireDoorState (field : DoorStateField) : Except String ℤ :=
  match field with
  | .bare .none => .error "door_state is missing"
  | field => asInt "door_state" field.code

def translateRequest (r : LiftRequest) (executionId : Option String) (fresh : String) :
    Except String TranslatedLiftRequest := do
  let liftName ← requireStr r.liftName "lift_name"
  let sessionId ← requireStr r.sessionId "session_id"
  let destinationFloor ← requireStr r.destinationFloor "destination_floor"
  let requestType ← asInt "request_type" r.requestType >>= requestTypeOf
  let doorState ← requireDoorState r.doorState >>= doorGoalOf
  pure ⟨liftName, sessionId, requestType, destinationFloor, doorState, orFresh executionId fresh⟩

def Code.requestType? (c : Code) : Option LiftRequestType :=
  c.asInt?.bind fun n => (requestTypeOf n).toOption

def DoorStateField.goal? (f : DoorStateField) : Option DoorGoal :=
  f.code.asInt?.bind fun n => (doorGoalOf n).toOption

theorem toOption_eq_some {ε α : Type*} {x : Except ε α} {a : α} :
    x.toOption = some a ↔ x = .ok a := by
  cases x <;> simp [Except.toOption]

theorem readRequestType_eq_ok {c : Code} {t : LiftRequestType} :
    asInt "request_type" c >>= requestTypeOf = .ok t ↔ Code.requestType? c = some t := by
  simp only [bind_eq_ok, asInt_eq_ok, Code.requestType?, Option.bind_eq_some_iff, toOption_eq_some]

theorem requireDoorState_eq_ok {f : DoorStateField} {n : ℤ} :
    requireDoorState f = .ok n ↔ f.code.asInt? = some n := by
  unfold requireDoorState
  split
  · simp [DoorStateField.code, Code.asInt?]
  · exact asInt_eq_ok

theorem readDoorState_eq_ok {f : DoorStateField} {g : DoorGoal} :
    requireDoorState f >>= doorGoalOf = .ok g ↔ f.goal? = some g := by
  simp only [bind_eq_ok, requireDoorState_eq_ok, DoorStateField.goal?, Option.bind_eq_some_iff,
    toOption_eq_some]

theorem translateRequest_eq_ok {r : LiftRequest} {executionId : Option String} {fresh : String}
    {t : TranslatedLiftRequest} :
    translateRequest r executionId fresh = .ok t ↔
      r.liftName = some t.liftName.val ∧ r.sessionId = some t.sessionId.val ∧
        r.destinationFloor = some t.destinationFloor.val ∧
        Code.requestType? r.requestType = some t.requestType ∧
        r.doorState.goal? = some t.doorState ∧ t.executionId = orFresh executionId fresh := by
  obtain ⟨liftName, sessionId, requestType, destinationFloor, doorState, execution⟩ := t
  unfold translateRequest
  rw [bind_eq_ok]
  simp only [bind_eq_ok (α := NonEmpty), requireStr_eq_ok]
  constructor
  · rintro ⟨l, hl, s, hs, f, hf, hrest⟩
    obtain ⟨ty, hty, hrest⟩ := bind_eq_ok.mp hrest
    obtain ⟨g, hg, hrest⟩ := bind_eq_ok.mp hrest
    obtain ⟨rfl, rfl, rfl, rfl, rfl, rfl⟩ := TranslatedLiftRequest.mk.inj (Except.ok.inj hrest)
    exact ⟨hl, hs, hf, readRequestType_eq_ok.mp hty, readDoorState_eq_ok.mp hg, rfl⟩
  · rintro ⟨hl, hs, hf, hty, hg, rfl⟩
    refine ⟨liftName, hl, sessionId, hs, destinationFloor, hf, ?_⟩
    rw [readRequestType_eq_ok.mpr hty, readDoorState_eq_ok.mpr hg]
    rfl

structure LiftPost where
  lift : String
  sessionId : NonEmpty
  requestType : LiftRequestType
  destinationFloor : NonEmpty
  doorState : DoorGoal
  executionId : String
  scope : Option String

/-! ### State frames -/

/-- A state frame, whose `session_id` is a string if it is there. -/
structure LiftStateFrame where
  members : Dict
  sessionIsString : ∀ v, members.lookup "session_id" = some v → v = .null ∨ ∃ s, v = .str s

structure LiftStateFields where
  liftName : Json
  liftTime : ℤ × ℤ
  currentFloor : Json
  destinationFloor : Json
  doorState : ℤ
  motionState : ℤ
  availableModes : List ℤ
  currentMode : ℤ
  sessionId : String

namespace LiftStateFrame

def sessionId (f : LiftStateFrame) : String :=
  match f.members.lookup "session_id" with
  | some (.str s) => s
  | _ => ""

def getOr (f : LiftStateFrame) (key : String) (default : Json) : Json :=
  (f.members.lookup key).getD default

end LiftStateFrame

def translateState (f : LiftStateFrame) : Except Py.Error LiftStateFields := do
  let liftTime ← millisToTimeParts (← Dict.item f.members "lift_time")
  let modesRaw ← ((f.getOr "available_modes" .null).orElse (.arr [])).iter
  let availableModes ← modesRaw.mapM fun m => m.item "value" >>= Json.toInt
  let liftName ← Dict.item f.members "lift_name"
  let currentFloor := (f.getOr "current_floor" (.str "")).orElse (.str "")
  let destinationFloor := (f.getOr "destination_floor" (.str "")).orElse (.str "")
  let doorState ← (f.getOr "door_state" (.int 0)).toInt
  let motionState ← (f.getOr "motion_state" (.int 0)).toInt
  let currentMode ← Dict.item f.members "current_mode" >>= (·.item "value") >>= Json.toInt
  pure { liftName, liftTime, currentFloor, destinationFloor, doorState, motionState,
         availableModes, currentMode, sessionId := f.sessionId }

def LiftStateFrame.minimal (lift session : String) : LiftStateFrame where
  members := [("lift_name", .str lift), ("lift_time", .int 0),
    ("current_mode", .obj [("value", .int 0)]), ("session_id", .str session)]
  sessionIsString := fun _ hv => Or.inr ⟨session, (Option.some.inj hv).symm⟩

theorem translateState_sessionId {f : LiftStateFrame} {fields : LiftStateFields}
    (h : translateState f = .ok fields) : fields.sessionId = f.sessionId := by
  unfold translateState at h
  obtain ⟨_, -, h⟩ := bind_eq_ok.mp h
  obtain ⟨_, -, h⟩ := bind_eq_ok.mp h
  obtain ⟨_, -, h⟩ := bind_eq_ok.mp h
  obtain ⟨_, -, h⟩ := bind_eq_ok.mp h
  obtain ⟨_, -, h⟩ := bind_eq_ok.mp h
  obtain ⟨_, -, h⟩ := bind_eq_ok.mp h
  obtain ⟨_, -, h⟩ := bind_eq_ok.mp h
  obtain ⟨_, -, h⟩ := bind_eq_ok.mp h
  rw [← Except.ok.inj h]

/-! ### The handle -/

structure LiftHandle where
  liftName : String
  scope : Option String
  stateDispatched : ℕ
  requestsDispatched : ℕ
  requestsRejected : ℕ

inductive Screening where
  | dropped
  | rejected (why : String)
  | request (p : LiftPost)

namespace LiftHandle

def new (liftName : String) (scope : Option String) : LiftHandle := ⟨liftName, scope, 0, 0, 0⟩

def reject (h : LiftHandle) : LiftHandle := { h with requestsRejected := h.requestsRejected + 1 }

def dispatched (h : LiftHandle) : LiftHandle :=
  { h with requestsDispatched := h.requestsDispatched + 1 }

def post (h : LiftHandle) (t : TranslatedLiftRequest) : LiftPost :=
  ⟨h.liftName, t.sessionId, t.requestType, t.destinationFloor, t.doorState, t.executionId, h.scope⟩

def screenTranslated (h : LiftHandle) (r : LiftRequest) (executionId : Option String)
    (fresh : String) : Screening :=
  match translateRequest r executionId fresh with
  | .error why => .rejected why
  | .ok t =>
    if t.liftName.val ≠ h.liftName then
      .rejected (s!"LiftRequest for lift={t.liftName.val} arrived at handle owning " ++
        s!"lift={h.liftName}; rejecting")
    else .request (h.post t)

def screen (h : LiftHandle) (r : LiftRequest) (executionId : Option String) (fresh : String) :
    Screening :=
  match r.requestType with
  | .none => h.screenTranslated r executionId fresh
  | code =>
    match asInt "request_type" code with
    | .error why => .rejected why
    | .ok n => if n = 0 then .dropped else h.screenTranslated r executionId fresh

end LiftHandle

/-- The session lock stands before an AGV_MODE request only. -/
def LiftPost.gate (p : LiftPost) (m : LiftSessionManager) (now stamp : ℚ) :
    LiftSessionManager × Bool :=
  if p.requestType = .agvMode then m.tryAcquire p.lift p.sessionId now stamp else (m, true)

/-- Once the POST has returned, the lock is given up after END_SESSION and HUMAN_MODE. -/
def LiftPost.settle (p : LiftPost) (m : LiftSessionManager) : LiftSessionManager :=
  if p.requestType = .agvMode then m else (m.release p.lift p.sessionId).1

structure Dispatch where
  handle : LiftHandle
  manager : LiftSessionManager
  posts : List LiftPost
  result : Except Exc Bool

/-- `outcome` is what the HTTP client makes of the POST, if there is one. -/
def LiftHandle.dispatchRequest (h : LiftHandle) (m : LiftSessionManager) (r : LiftRequest)
    (executionId : Option String) (fresh : String) (now stamp : ℚ) (outcome : Except Exc Json) :
    Dispatch :=
  match h.screen r executionId fresh with
  | .dropped => ⟨h, m, [], .ok false⟩
  | .rejected _ => ⟨h.reject, m, [], .ok false⟩
  | .request p =>
    let (m, acquired) := p.gate m now stamp
    if !acquired then ⟨h.reject, m, [], .ok false⟩
    else
      match outcome with
      | .error e => ⟨h, m, [p], .error e⟩
      | .ok _ => ⟨h.dispatched, p.settle m, [p], .ok true⟩

/-- The fields are those handed to the publisher; `published` says that it did not raise. -/
def LiftHandle.onStateFrame (h : LiftHandle) (m : LiftSessionManager) (f : LiftStateFrame)
    (now : ℚ) (published : Bool) : LiftHandle × LiftSessionManager × Option LiftStateFields :=
  match translateState f with
  | .error _ => (h, m, none)
  | .ok fields =>
    let m := m.observeServerState h.liftName fields.sessionId now
    if published then ({ h with stateDispatched := h.stateDispatched + 1 }, m, some fields)
    else (h, m, some fields)

namespace LiftHandle

variable {h : LiftHandle} {r : LiftRequest} {executionId : Option String} {fresh : String}

theorem screenTranslated_eq_request {p : LiftPost} :
    h.screenTranslated r executionId fresh = .request p ↔
      ∃ t, translateRequest r executionId fresh = .ok t ∧ t.liftName.val = h.liftName ∧
        h.post t = p := by
  unfold screenTranslated
  cases translateRequest r executionId fresh with
  | error why => simp
  | ok t =>
    dsimp only
    split_ifs with hname
    · simp [hname]
    · simp [not_not.mp hname]

theorem screen_eq_screenTranslated {p : LiftPost} :
    h.screen r executionId fresh = .request p ↔
      h.screenTranslated r executionId fresh = .request p := by
  -- what translates has a request type, and NO_REQUEST is none
  have hread : h.screenTranslated r executionId fresh = .request p →
      ∃ n, r.requestType.asInt? = some n ∧ n ≠ 0 := by
    intro hp
    obtain ⟨t, ht, -, -⟩ := screenTranslated_eq_request.mp hp
    obtain ⟨-, -, -, htype, -, -⟩ := translateRequest_eq_ok.mp ht
    obtain ⟨n, hn, hof⟩ := Option.bind_eq_some_iff.mp htype
    refine ⟨n, hn, ?_⟩
    rintro rfl
    exact absurd hof nofun
  unfold screen
  split
  · exact Iff.rfl
  split
  · rename_i why hcode
    refine ⟨nofun, fun hp => ?_⟩
    obtain ⟨n, hn, -⟩ := hread hp
    rw [asInt_eq_ok.mpr hn] at hcode
    cases hcode
  · rename_i n hcode
    split_ifs with hzero
    · refine ⟨nofun, fun hp => ?_⟩
      obtain ⟨k, hk, hne⟩ := hread hp
      have hnk : n = k := Option.some.inj ((asInt_eq_ok.mp hcode).symm.trans hk)
      exact absurd (hnk.symm.trans hzero) hne
    · exact Iff.rfl

theorem screen_eq_request {p : LiftPost} :
    h.screen r executionId fresh = .request p ↔
      r.liftName = some h.liftName ∧ h.liftName ≠ "" ∧ r.sessionId = some p.sessionId.val ∧
        r.destinationFloor = some p.destinationFloor.val ∧
        Code.requestType? r.requestType = some p.requestType ∧
        r.doorState.goal? = some p.doorState ∧
        p.lift = h.liftName ∧ p.executionId = orFresh executionId fresh ∧ p.scope = h.scope := by
  rw [screen_eq_screenTranslated, screenTranslated_eq_request]
  constructor
  · rintro ⟨t, ht, hname, rfl⟩
    obtain ⟨hl, hs, hf, hty, hd, hx⟩ := translateRequest_eq_ok.mp ht
    exact ⟨hname ▸ hl, hname ▸ t.liftName.2, hs, hf, hty, hd, rfl, hx, rfl⟩
  · rintro ⟨hl, hne, hs, hf, hty, hd, hpl, hpx, hps⟩
    refine ⟨⟨⟨h.liftName, hne⟩, p.sessionId, p.requestType, p.destinationFloor, p.doorState,
      p.executionId⟩, translateRequest_eq_ok.mpr ⟨hl, hs, hf, hty, hd, hpx⟩, rfl, ?_⟩
    simp only [post, ← hpl, ← hps]

end LiftHandle

end QuikSync.Lift
