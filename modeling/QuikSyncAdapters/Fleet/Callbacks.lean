import QuikSyncAdapters.Client.RosRequest
import QuikSyncAdapters.Fleet.RobotHandle

/-! The three callbacks through which Open-RMF commands a robot. Each sends one POST; what
`navigate` and `action_executor` record on the handle is all that ties later frames to the
command. -/

namespace QuikSync.Fleet

open Client Py

variable {rmf : RmfAdapter}

/-- A position, as far as `hasattr`, `getattr` and an index tell. -/
structure Position where
  attr : String → Option Json
  item : ℕ → Except Py.Error Json

/-- A destination: an attribute that is not there is `None`. -/
structure Destination where
  map : Json
  position : Option Position
  dock : Json
  speedLimit : Json

/-- An execution: a name under which no identifier is found is `none`. -/
structure Execution (rmf : RmfAdapter) where
  identifier : Option rmf.ActivityIdentifier
  activity : Option rmf.ActivityIdentifier
  activityIdentifier : Option rmf.ActivityIdentifier

structure WireDestination where
  x : Double
  y : Double
  yaw : Double
  mapName : NonEmpty

def readCoordinate (position : Position) (name : String) (index : ℕ) : Except Py.Error Double :=
  match position.attr name with
  | some v => v.toFloat
  | none => position.item index >>= Json.toFloat

/-- The yaw is 0 for a position of two items, and for one that has something else there. -/
def readYaw (position : Position) : Except Py.Error Double :=
  match position.attr "yaw" with
  | some v => v.toFloat
  | none =>
    (catching [.indexError, .typeError] (position.item 2 >>= Json.toFloat)).map
      fun yaw => yaw.getD (.finite 0)

def readPosition (position : Position) (mapName : NonEmpty) : Except Py.Error WireDestination := do
  let x ← readCoordinate position "x" 0
  let y ← readCoordinate position "y" 1
  let yaw ← readYaw position
  pure ⟨x, y, yaw, mapName⟩

def extractDestination (destination : Destination) : Except Py.Error (Option WireDestination) :=
  match destination.map with
  | .str mapName =>
    if h : mapName = "" then .ok none
    else
      match destination.position with
      | none => .ok none
      | some position =>
        catching [.attributeError, .indexError, .typeError, .valueError]
          (readPosition position ⟨mapName, h⟩)
  | _ => .ok none

def dockName (destination : Destination) : Option NonEmpty :=
  match destination.dock with
  | .str dock => if h : dock = "" then none else some ⟨dock, h⟩
  | _ => none

def speedLimit (destination : Destination) : Except Py.Error (Option Double) :=
  let limit := destination.speedLimit
  if limit.isNumber && limit.isPositive then limit.toFloat.map some else .ok none

def activityIdentifier (execution : Execution rmf) : Option rmf.ActivityIdentifier :=
  execution.identifier <|> execution.activity <|> execution.activityIdentifier

inductive CommandPost where
  | navigate (fleet robot executionId : String) (destination : WireDestination)
      (dockName : Option NonEmpty) (speedLimit : Option Double) (scope : Option String)
  | stop (fleet robot executionId : String) (scope : Option String)
  | performAction (fleet robot executionId category : String) (description : Json)
      (scope : Option String)

structure CallbackScope where
  fleet : String
  robot : String
  scope : Option String

structure CallbackRun (rmf : RmfAdapter) where
  handle : RobotHandle rmf
  posts : List CommandPost
  result : Except Exc Unit

/-- The POST of a callback: only the exceptions of the client itself are logged. -/
def send (h accepted : RobotHandle rmf) (post : CommandPost) (outcome : Except Exc Json) :
    CallbackRun rmf :=
  match outcome with
  | .error e => ⟨h, [post], if e.isQuikSync then .ok () else .error e⟩
  | .ok _ => ⟨accepted, [post], .ok ()⟩

namespace CallbackScope

def navigate (c : CallbackScope) (h : RobotHandle rmf) (destination : Destination)
    (execution : Execution rmf) (executionId : String) (outcome : Except Exc Json) :
    CallbackRun rmf :=
  match extractDestination destination with
  | .error e => ⟨h, [], .error (.builtin e)⟩
  | .ok none => ⟨h, [], .ok ()⟩
  | .ok (some body) =>
    match speedLimit destination with
    | .error e => ⟨h, [], .error (.builtin e)⟩
    | .ok limit =>
      send h (h.setCurrentActivity (activityIdentifier execution))
        (.navigate c.fleet c.robot executionId body (dockName destination) limit c.scope) outcome

def stop (c : CallbackScope) (h : RobotHandle rmf) (executionId : String)
    (outcome : Except Exc Json) : CallbackRun rmf :=
  send h h (.stop c.fleet c.robot executionId c.scope) outcome

def actionExecutor (c : CallbackScope) (h : RobotHandle rmf) (category : String)
    (description : Json) (execution : Execution rmf) (executionId : String)
    (outcome : Except Exc Json) : CallbackRun rmf :=
  send h (h.setCurrentActivity (activityIdentifier execution))
    (.performAction c.fleet c.robot executionId category description c.scope) outcome

end CallbackScope

def isUsable (destination : Destination) : Bool :=
  match extractDestination destination, speedLimit destination with
  | .ok (some _), .ok _ => true
  | _, _ => false

theorem send_handle (h accepted : RobotHandle rmf) (post : CommandPost)
    (outcome : Except Exc Json) :
    (send h accepted post outcome).handle = if outcome.isOk then accepted else h := by
  cases outcome <;> rfl

theorem send_of_same (h : RobotHandle rmf) (post : CommandPost) (outcome : Except Exc Json) :
    (send h h post outcome).handle = h := by
  rw [send_handle, ite_self]

theorem CallbackScope.navigate_handle (c : CallbackScope) (h : RobotHandle rmf)
    (destination : Destination) (execution : Execution rmf) (executionId : String)
    (outcome : Except Exc Json) :
    (c.navigate h destination execution executionId outcome).handle =
      if isUsable destination && outcome.isOk then
        h.setCurrentActivity (activityIdentifier execution)
      else h := by
  unfold navigate isUsable
  rcases extractDestination destination with e | (_ | body)
  · rfl
  · rfl
  · rcases speedLimit destination with e | limit
    · rfl
    · exact send_handle _ _ _ _

end QuikSync.Fleet
