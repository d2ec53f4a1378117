import QuikSyncAdapters.Client.Exceptions

/-! One robot of the fleet adapter: the handle that turns its state frames into calls of
Open-RMF, registering the robot with the first frame that translates. -/

namespace QuikSync.Fleet

open Client Py

/-- The Python bindings of Open-RMF: the types that the adapter passes around, whether they
can be imported, and the constructor of robot states. -/
structure RmfAdapter where
  UpdateHandle : Type
  FleetHandle : Type
  RobotConfiguration : Type
  RobotCallbacks : Type
  ActivityIdentifier : Type
  RobotState : Type
  importable : Bool
  -- `RobotState(level_name, [x, y, yaw], battery_soc)`
  robotState : Json → Double × Double × Double → Double → Except Exc RobotState

variable {rmf : RmfAdapter}

def readLocation (location : Dict) : Except Py.Error ((Double × Double × Double) × Json) := do
  let x ← Dict.item location "x" >>= Json.toFloat
  let y ← Dict.item location "y" >>= Json.toFloat
  let yaw ← Dict.item location "yaw" >>= Json.toFloat
  let levelName ← Dict.item location "level_name"
  pure ((x, y, yaw), levelName)

def toRmfRobotState (rmf : RmfAdapter) (state : Dict) : Except Exc (Option rmf.RobotState) :=
  if !rmf.importable then .ok none
  else
    match Dict.get state "location" with
    | .obj location =>
      match catching [.keyError, .typeError, .valueError] (readLocation location) with
      | .error e => .error (.builtin e)
      | .ok none => .ok none
      | .ok (some (position, levelName)) =>
        let batteryPercent := Dict.get state "battery_percent"
        if !batteryPercent.isNumber then .ok none
        else
          match batteryPercent.toFloat with
          | .error e => .error (.builtin e)
          | .ok percent => (rmf.robotState levelName position (percent.divide 100)).map some
    | _ => .ok none

structure Registration (rmf : RmfAdapter) where
  fleetHandle : rmf.FleetHandle
  robotConfig : rmf.RobotConfiguration
  callbacks : rmf.RobotCallbacks

structure RobotHandle (rmf : RmfAdapter) where
  robotName : String
  latestState : Option Dict
  rmfHandle : Option rmf.UpdateHandle
  currentActivity : Option rmf.ActivityIdentifier
  registration : Option (Registration rmf)
  updatesPushed : ℕ
  updatesDroppedNoHandle : ℕ
  registrationsRejected : ℕ

inductive RmfCall (rmf : RmfAdapter) where
  | update (handle : rmf.UpdateHandle) (state : rmf.RobotState)
      (currentActivity : Option rmf.ActivityIdentifier)
  | addRobot (robotName : String) (state : rmf.RobotState) (registration : Registration rmf)

structure RmfAnswers (rmf : RmfAdapter) where
  update : Except Exc Unit
  addRobot : Except Exc (Option rmf.UpdateHandle)

namespace RobotHandle

def new (rmf : RmfAdapter) (robotName : String) : RobotHandle rmf :=
  ⟨robotName, none, none, none, none, 0, 0, 0⟩

def prepareRegistration (h : RobotHandle rmf) (fleetHandle : rmf.FleetHandle)
    (robotConfig : rmf.RobotConfiguration) (callbacks : rmf.RobotCallbacks) : RobotHandle rmf :=
  { h with registration := some ⟨fleetHandle, robotConfig, callbacks⟩ }

def bind (h : RobotHandle rmf) (rmfHandle : rmf.UpdateHandle) : RobotHandle rmf :=
  { h with rmfHandle := some rmfHandle }

def setCurrentActivity (h : RobotHandle rmf) (activity : Option rmf.ActivityIdentifier) :
    RobotHandle rmf :=
  { h with currentActivity := activity }

def pushed (h : RobotHandle rmf) : RobotHandle rmf :=
  { h with updatesPushed := h.updatesPushed + 1 }

def droppedNoHandle (h : RobotHandle rmf) : RobotHandle rmf :=
  { h with updatesDroppedNoHandle := h.updatesDroppedNoHandle + 1 }

def rejected (h : RobotHandle rmf) : RobotHandle rmf :=
  { h with registrationsRejected := h.registrationsRejected + 1 }

/-- `on_state` up to the release of the lock: the call to make, if there is one. -/
def receive (h : RobotHandle rmf) (state : Dict) :
    RobotHandle rmf × Except Exc (Option (RmfCall rmf)) :=
  let h := { h with latestState := some state }
  match h.rmfHandle with
  | some handle =>
    (h, (toRmfRobotState rmf state).map
      (Option.map fun rmfState => .update handle rmfState h.currentActivity))
  | none =>
    match h.registration with
    | some registration =>
      match toRmfRobotState rmf state with
      | .error e => (h, .error e)
      | .ok none => (h.droppedNoHandle, .ok none)
      | .ok (some rmfState) => (h, .ok (some (.addRobot h.robotName rmfState registration)))
    | none => (h.droppedNoHandle, .ok none)

/-- `_attempt_lazy_register`, once `add_robot` has answered. -/
def registered (h : RobotHandle rmf) (answer : Except Exc (Option rmf.UpdateHandle)) :
    RobotHandle rmf :=
  match answer with
  | .error _ => h.rejected
  | .ok none => h.rejected
  | .ok (some updateHandle) => (h.bind updateHandle).pushed

/-- `on_state` from the call on; an exception of `update` is logged. -/
def settle (h : RobotHandle rmf) (call : RmfCall rmf) (answers : RmfAnswers rmf) :
    RobotHandle rmf :=
  match call with
  | .update .. =>
    match answers.update with
    | .ok () => h.pushed
    | .error _ => h
  | .addRobot .. => h.registered answers.addRobot

structure OnState (rmf : RmfAdapter) where
  handle : RobotHandle rmf
  calls : List (RmfCall rmf)
  result : Except Exc Unit

def onState (h : RobotHandle rmf) (state : Dict) (answers : RmfAnswers rmf) : OnState rmf :=
  match h.receive state with
  | (h, .error e) => ⟨h, [], .error e⟩
  | (h, .ok none) => ⟨h, [], .ok ()⟩
  | (h, .ok (some call)) => ⟨h.settle call answers, [call], .ok ()⟩

theorem receive_handle (h : RobotHandle rmf) (state : Dict) :
    ∃ n, (h.receive state).1 =
      { h with latestState := some state, updatesDroppedNoHandle := n } := by
  unfold receive
  dsimp only
  split
  · exact ⟨_, rfl⟩
  split
  · split <;> exact ⟨_, rfl⟩
  · exact ⟨_, rfl⟩

theorem settle_handle (h : RobotHandle rmf) (call : RmfCall rmf) (answers : RmfAnswers rmf) :
    ∃ bound m n, h.settle call answers =
      { h with rmfHandle := bound, updatesPushed := m, registrationsRejected := n } := by
  unfold settle registered
  split <;> split <;> exact ⟨_, _, _, rfl⟩

@[simp] theorem receive_rmfHandle (h : RobotHandle rmf) (state : Dict) :
    (h.receive state).1.rmfHandle = h.rmfHandle := by
  obtain ⟨n, hn⟩ := receive_handle h state
  rw [hn]

@[simp] theorem receive_registration (h : RobotHandle rmf) (state : Dict) :
    (h.receive state).1.registration = h.registration := by
  obtain ⟨n, hn⟩ := receive_handle h state
  rw [hn]

@[simp] theorem settle_registration (h : RobotHandle rmf) (call : RmfCall rmf)
    (answers : RmfAnswers rmf) : (h.settle call answers).registration = h.registration := by
  obtain ⟨bound, m, n, hsettle⟩ := settle_handle h call answers
  rw [hsettle]

theorem onState_handle (h : RobotHandle rmf) (state : Dict) (answers : RmfAnswers rmf) :
    ∃ latest bound pushed dropped rejected, (h.onState state answers).handle =
      { h with
        latestState := latest
        rmfHandle := bound
        updatesPushed := pushed
        updatesDroppedNoHandle := dropped
        registrationsRejected := rejected } := by
  obtain ⟨n, hn⟩ := receive_handle h state
  unfold onState
  split
  · rename_i hr
    rw [hr] at hn
    exact ⟨_, _, _, _, _, hn⟩
  · rename_i hr
    rw [hr] at hn
    exact ⟨_, _, _, _, _, hn⟩
  · rename_i received call hr
    rw [hr] at hn
    obtain ⟨bound, m, k, hsettle⟩ := settle_handle received call answers
    subst hn
    exact ⟨_, _, _, _, _, hsettle⟩

@[simp] theorem onState_currentActivity (h : RobotHandle rmf) (state : Dict)
    (answers : RmfAnswers rmf) :
    (h.onState state answers).handle.currentActivity = h.currentActivity := by
  obtain ⟨_, _, _, _, _, hhandle⟩ := onState_handle h state answers
  rw [hhandle]

theorem receive_of_bound {h : RobotHandle rmf} {u : rmf.UpdateHandle}
    (hbound : h.rmfHandle = some u) (state : Dict) :
    h.receive state = ({ h with latestState := some state },
      (toRmfRobotState rmf state).map
        (Option.map fun rmfState => RmfCall.update u rmfState h.currentActivity)) := by
  unfold receive
  simp only [hbound]

theorem onState_of_bound {h : RobotHandle rmf} {u : rmf.UpdateHandle}
    (hbound : h.rmfHandle = some u) {state : Dict} {rmfState : rmf.RobotState}
    (hstate : toRmfRobotState rmf state = .ok (some rmfState)) (answers : RmfAnswers rmf) :
    (h.onState state answers).calls = [.update u rmfState h.currentActivity] := by
  unfold onState
  rw [receive_of_bound hbound, hstate]
  rfl

theorem onState_rmfHandle_of_bound {h : RobotHandle rmf} {u : rmf.UpdateHandle}
    (hbound : h.rmfHandle = some u) (state : Dict) (answers : RmfAnswers rmf) :
    (h.onState state answers).handle.rmfHandle = some u := by
  unfold onState
  rw [receive_of_bound hbound]
  rcases toRmfRobotState rmf state with e | (_ | rmfState)
  · exact hbound
  · exact hbound
  · simp only [Except.map, Option.map, settle]
    cases answers.update <;> exact hbound

end RobotHandle

end QuikSync.Fleet
