import QuikSyncAdapters.Client.RosRequest

/-! One door of the adapter: the translation of its state frames and of its requests. -/

namespace QuikSync.Door

open Client Py Fallible

/-- An object shaped like `rmf_door_msgs/DoorRequest`; the mode, if it is there, is known
by its `value`. -/
structure DoorRequest where
  doorName : Option String
  requesterId : Option String
  requestedMode : Option Code

structure TranslatedDoorRequest where
  doorName : NonEmpty
  requesterId : NonEmpty
  requestedMode : DoorGoal
  executionId : String

/-- The mode value is compared as it comes, without a coercion to an integer. -/
def requestedModeOf (mode : Option Code) : Except String DoorGoal :=
  match mode with
  | none => .error "requested_mode is missing"
  | some .none => .error "requested_mode.value is missing"
  | some value =>
    if value.equals? = some 2 then .ok .opened
    else if value.equals? = some 0 then .ok .closed
    else if value.equals? = some 1 then
      .error "MODE_MOVING is not a valid goal; QuikSync rejects with 400"
    else
      .error (s!"requested_mode.value={value.repr} is not a known DoorMode " ++
        "(expected 0=CLOSED, 2=OPEN)")

def translateRequest (r : DoorRequest) (executionId : Option String) (fresh : String) :
    Except String TranslatedDoorRequest := do
  let doorName ← requireStr r.doorName "door_name"
  let requesterId ← requireStr r.requesterId "requester_id"
  let requestedMode ← requestedModeOf r.requestedMode
  pure ⟨doorName, requesterId, requestedMode, orFresh executionId fresh⟩

theorem translateRequest_eq_ok {r : DoorRequest} {executionId : Option String} {fresh : String}
    {t : TranslatedDoorRequest} :
    translateRequest r executionId fresh = .ok t ↔
      r.doorName = some t.doorName.val ∧ r.requesterId = some t.requesterId.val ∧
        requestedModeOf r.requestedMode = .ok t.requestedMode ∧
        t.executionId = orFresh executionId fresh := by
  obtain ⟨doorName, requesterId, requestedMode, execution⟩ := t
  unfold translateRequest
  constructor
  · intro h
    obtain ⟨d, hd, h⟩ := bind_eq_ok.mp h
    obtain ⟨q, hq, h⟩ := bind_eq_ok.mp h
    obtain ⟨g, hg, h⟩ := bind_eq_ok.mp h
    obtain ⟨rfl, rfl, rfl, rfl⟩ := TranslatedDoorRequest.mk.inj (Except.ok.inj h)
    exact ⟨requireStr_eq_ok.mp hd, requireStr_eq_ok.mp hq, hg, rfl⟩
  · rintro ⟨hd, hq, hg, rfl⟩
    rw [requireStr_eq_ok.mpr hd, requireStr_eq_ok.mpr hq, hg]
    rfl

structure DoorPost where
  door : String
  requesterId : NonEmpty
  requestedMode : DoorGoal
  executionId : String
  scope : Option String

structure DoorStateFields where
  doorName : Json
  doorTime : ℤ × ℤ
  currentMode : ℤ

def translateState (frame : Dict) : Except Py.Error DoorStateFields := do
  let doorTime ← Dict.item frame "door_time" >>= millisToTimeParts
  let modeValue ← Dict.item frame "current_mode" >>= (·.item "value") >>= Json.toInt
  let doorName ← Dict.item frame "door_name"
  pure ⟨doorName, doorTime, modeValue⟩

structure DoorHandle where
  doorName : String
  scope : Option String
  stateDispatched : ℕ
  requestsDispatched : ℕ
  requestsRejected : ℕ

structure Dispatch where
  handle : DoorHandle
  posts : List DoorPost
  result : Except Exc Bool

namespace DoorHandle

def new (doorName : String) (scope : Option String) : DoorHandle := ⟨doorName, scope, 0, 0, 0⟩

def reject (h : DoorHandle) : DoorHandle := { h with requestsRejected := h.requestsRejected + 1 }

def dispatched (h : DoorHandle) : DoorHandle :=
  { h with requestsDispatched := h.requestsDispatched + 1 }

def screen (h : DoorHandle) (r : DoorRequest) (executionId : Option String) (fresh : String) :
    Except String DoorPost :=
  match translateRequest r executionId fresh with
  | .error why => .error why
  | .ok t =>
    if t.doorName.val ≠ h.doorName then
      .error (s!"DoorRequest for door={t.doorName.val} arrived at handle owning " ++
        s!"door={h.doorName}; rejecting")
    else .ok ⟨h.doorName, t.requesterId, t.requestedMode, t.executionId, h.scope⟩

/-- `outcome` is what the HTTP client makes of the POST, if there is one. -/
def dispatchRequest (h : DoorHandle) (r : DoorRequest) (executionId : Option String)
    (fresh : String) (outcome : Except Exc Json) : Dispatch :=
  match h.screen r executionId fresh with
  | .error _ => ⟨h.reject, [], .ok false⟩
  | .ok p =>
    match outcome with
    | .error e => ⟨h, [p], .error e⟩
    | .ok _ => ⟨h.dispatched, [p], .ok true⟩

def onStateFrame (h : DoorHandle) (frame : Dict) (published : Bool) :
    DoorHandle × Option DoorStateFields :=
  match translateState frame with
  | .error _ => (h, none)
  | .ok fields =>
    if published then ({ h with stateDispatched := h.stateDispatched + 1 }, some fields)
    else (h, some fields)

theorem screen_eq_ok {h : DoorHandle} {r : DoorRequest} {executionId : Option String}
    {fresh : String} {p : DoorPost} :
    h.screen r executionId fresh = .ok p ↔
      r.doorName = some h.doorName ∧ h.doorName ≠ "" ∧ r.requesterId = some p.requesterId.val ∧
        requestedModeOf r.requestedMode = .ok p.requestedMode ∧ p.door = h.doorName ∧
        p.executionId = orFresh executionId fresh ∧ p.scope = h.scope := by
  have hscreen : h.screen r executionId fresh = .ok p ↔
      ∃ t, translateRequest r executionId fresh = .ok t ∧ t.doorName.val = h.doorName ∧
        ⟨h.doorName, t.requesterId, t.requestedMode, t.executionId, h.scope⟩ = p := by
    unfold screen
    cases translateRequest r executionId fresh with
    | error why => simp
    | ok t =>
      dsimp only
      split_ifs with hname
      · simp [hname]
      · simp [not_not.mp hname]
  rw [hscreen]
  constructor
  · rintro ⟨t, ht, hname, rfl⟩
    obtain ⟨hd, hq, hg, hx⟩ := translateRequest_eq_ok.mp ht
    exact ⟨hname ▸ hd, hname ▸ t.doorName.2, hq, hg, rfl, hx, rfl⟩
  · rintro ⟨hd, hne, hq, hg, hpd, hpx, hps⟩
    refine ⟨⟨⟨h.doorName, hne⟩, p.requesterId, p.requestedMode, p.executionId⟩,
      translateRequest_eq_ok.mpr ⟨hd, hq, hg, hpx⟩, rfl, ?_⟩
    simp only [← hpd, ← hps]

theorem dispatchRequest_returns_iff {h : DoorHandle} {r : DoorRequest}
    {executionId : Option String} {fresh : String} {outcome : Except Exc Json} :
    (∃ b, (h.dispatchRequest r executionId fresh outcome).result = .ok b) ↔
      (∃ body, outcome = .ok body) ∨ ∀ p, h.screen r executionId fresh ≠ .ok p := by
  unfold dispatchRequest
  cases h.screen r executionId fresh with
  | error why => exact ⟨fun _ => Or.inr nofun, fun _ => ⟨false, rfl⟩⟩
  | ok p =>
    cases outcome with
    | error e =>
      refine ⟨nofun, ?_⟩
      rintro (⟨body, hbody⟩ | hstop)
      · cases hbody
      · exact absurd rfl (hstop p)
    | ok body => exact ⟨fun _ => Or.inl ⟨body, rfl⟩, fun _ => ⟨true, rfl⟩⟩

end DoorHandle

end QuikSync.Door
