import QuikSyncAdapters.Fleet.Callbacks
import QuikSyncAdapters.Library.ObjectStore

/-! Binding a fleet to Open-RMF: the objects that describe the fleet are built from discovery
or from files, and every robot is prepared with the closures through which it is commanded. -/

namespace QuikSync.Fleet

open Client Py

/-- A callback closure: the names it was made with, and a reference to its robot handle. -/
structure Closure where
  scope : CallbackScope
  handle : ℕ

structure RobotClosures where
  navigate : Closure
  stop : Closure
  actionExecutor : Closure

structure Limits where
  velocity : Double
  acceleration : Double

/-- The objects of `rmf_adapter` that binding makes: their types and constructors. -/
structure RmfModule (rmf : RmfAdapter) where
  VehicleTraits : Type
  BatterySystem : Type
  Graph : Type
  FleetConfiguration : Type
  Adapter : Type
  vehicleTraits : Limits → Limits → Double → Double → Except Exc VehicleTraits
  batterySystem : Double → Double → Double → Except Exc BatterySystem
  deserialize : Dict → Except Exc Graph
  fleetConfiguration : Json → Graph → VehicleTraits → BatterySystem → List Key →
    Except Exc FleetConfiguration
  fromConfigFiles : String → String → Except Exc (Option FleetConfiguration)
  withServerUri : FleetConfiguration → String → FleetConfiguration
  makeAdapter : String → Except Exc (Option Adapter)
  addEasyFleet : Adapter → FleetConfiguration → Except Exc rmf.FleetHandle
  knownRobots : FleetConfiguration → List String
  knownRobotConfiguration : FleetConfiguration → String → Except Exc rmf.RobotConfiguration
  robotConfiguration : Except Exc rmf.RobotConfiguration
  robotCallbacks : RobotClosures → Except Exc rmf.RobotCallbacks
  closures : rmf.RobotCallbacks → RobotClosures
  closures_robotCallbacks : ∀ {c : RobotClosures} {callbacks : rmf.RobotCallbacks},
    robotCallbacks c = .ok callbacks → closures callbacks = c

inductive BindError where
  | bindingError (message : String)
  | raised (e : Exc)

def BindError.builtin (e : Py.Error) : BindError := .raised (.builtin e)

variable {rmf : RmfAdapter} (m : RmfModule rmf) (repr : Json → String)

def requiredTraits : List String :=
  ["linear_velocity_m_s", "linear_acceleration_m_s2", "angular_velocity_rad_s",
    "angular_acceleration_rad_s2", "footprint_radius_m", "vicinity_radius_m"]

/-- The required traits `k` for which `k in traits` is false. -/
def missingTraits : Json → Except Py.Error (List String)
  | .obj members => .ok (requiredTraits.filter fun k => (members.lookup k).isNone)
  | .arr items => .ok (requiredTraits.filter fun k => !items.any fun item => Json.eq item (.str k))
  | .str s => .ok (requiredTraits.filter fun k => decide (¬ k.toList <:+: s.toList))
  | _ => .error .typeError

def readFloat (v : Json) (key : String) : Except BindError Double :=
  (v.item key >>= Json.toFloat).mapError .builtin

def buildVehicleTraits (traits : Json) : Except BindError m.VehicleTraits := do
  let missing ← (missingTraits traits).mapError .builtin
  if missing ≠ [] then
    throw (.bindingError
      s!"traits dict is missing required fields: {repr (.arr (missing.map .str))}")
  let linearVelocity ← readFloat traits "linear_velocity_m_s"
  let linearAcceleration ← readFloat traits "linear_acceleration_m_s2"
  let angularVelocity ← readFloat traits "angular_velocity_rad_s"
  let angularAcceleration ← readFloat traits "angular_acceleration_rad_s2"
  let footprint ← readFloat traits "footprint_radius_m"
  let vicinity ← readFloat traits "vicinity_radius_m"
  (m.vehicleTraits ⟨linearVelocity, linearAcceleration⟩ ⟨angularVelocity, angularAcceleration⟩
    footprint vicinity).mapError .raised

def buildBatterySystem (battery : Json) : Except BindError m.BatterySystem := do
  let nominalVoltage ← readFloat battery "nominal_voltage_v"
  let capacity ← readFloat battery "capacity_ah"
  (m.batterySystem nominalVoltage capacity (.finite 10)).mapError .raised

def buildConsiderRequestDict (categories : Json) : Except BindError (List Key) := do
  let items ← categories.iter.mapError .builtin
  (items.mapM Json.key).mapError .builtin

def graphNamed (name : Json) : List Json → Except Py.Error (Option Dict)
  | [] => .ok none
  | .obj graph :: rest =>
    if Json.eq (Dict.get graph "name") name then .ok (some graph) else graphNamed name rest
  | _ :: _ => .error .attributeError

def navGraphs (level : Dict) : Except Py.Error (List Json) :=
  ((Dict.get level "nav_graphs").orElse (.arr [])).iter

def graphInLevels (name : Json) : List Json → Except Py.Error (Option Dict)
  | [] => .ok none
  | .obj level :: rest => do
    let graphs ← navGraphs level
    match ← graphNamed name graphs with
    | some graph => pure (some graph)
    | none => graphInLevels name rest
  | _ :: _ => .error .attributeError

/-- The names that the message lists; by then every graph has been looked at. -/
def availableGraphs (levels : List Json) : List Json :=
  levels.flatMap fun
    | .obj level => ((navGraphs level).toOption.getD []).map fun
      | .obj graph => Dict.get graph "name"
      | _ => .null
    | _ => []

def buildGraph (buildingMap navGraphName : Json) : Except BindError m.Graph := do
  let levels ← match buildingMap with
    | .obj map => (((Dict.get map "levels").orElse (.arr [])).iter).mapError .builtin
    | _ => throw (.builtin .attributeError)
  match ← (graphInLevels navGraphName levels).mapError .builtin with
  | some graph => (m.deserialize graph).mapError .raised
  | none =>
    throw (.bindingError (s!"nav graph {repr navGraphName} not found in building_map; " ++
      s!"available: {repr (.arr (availableGraphs levels))}"))

def buildFleetConfiguration (fleetEntry : Dict) (buildingMap : Json) :
    Except BindError m.FleetConfiguration := do
  let fleetName ← (Dict.item fleetEntry "fleet_name").mapError .builtin
  let traits ← (Dict.item fleetEntry "traits").mapError .builtin
  let traits ← buildVehicleTraits m repr traits
  let battery ← (Dict.item fleetEntry "battery").mapError .builtin
  let battery ← buildBatterySystem m battery
  let navGraphName ← (Dict.item fleetEntry "nav_graph_name").mapError .builtin
  let graph ← buildGraph m repr buildingMap navGraphName
  let taskCategories ← buildConsiderRequestDict
    ((Dict.get fleetEntry "task_categories").orElse (.arr []))
  (m.fleetConfiguration fleetName graph traits battery taskCategories).mapError .raised

abbrev Handles (rmf : RmfAdapter) := ObjectStore Key (RobotHandle rmf)

def robotsOf (fleetEntry : Dict) : Except Py.Error (List Json) :=
  ((Dict.get fleetEntry "robots").orElse (.arr [])).iter

/-- `handles[name] = RobotHandle(name)`. A name that is no string is kept as its text. -/
def createHandle (handles : Handles rmf) (name : Json) (key : Key) : Handles rmf :=
  handles.create key (.new rmf (name.text repr))

def addRobotHandle (handles : Handles rmf) : Json → Except Py.Error (Handles rmf)
  | .obj robot =>
    let name := Dict.get robot "name"
    if name.truthy then name.key.map (createHandle repr handles name) else .ok handles
  | _ => .ok handles

def buildRobotHandles (rmf : RmfAdapter) (repr : Json → String) (fleetEntry : Dict) :
    Except Py.Error (Handles rmf) := do
  let robots ← robotsOf fleetEntry
  robots.foldlM (addRobotHandle repr) .empty

/-- `make_navigate_callback`, `make_stop_callback` and `make_action_executor`. -/
def robotClosures (fleet robot : String) (handle : ℕ) (scope : Option String) :
    RobotClosures where
  navigate := ⟨⟨fleet, robot, scope⟩, handle⟩
  stop := ⟨⟨fleet, robot, scope⟩, handle⟩
  actionExecutor := ⟨⟨fleet, robot, scope⟩, handle⟩

def buildRobotCallbacks (fleet robot : String) (handle : ℕ) (scope : Option String) :
    Except Exc rmf.RobotCallbacks :=
  m.robotCallbacks (robotClosures fleet robot handle scope)

/-- The end of both loops: the handle behind a reference is prepared. -/
def prepareRobot (fleet robot : String) (scope : Option String) (fleetHandle : rmf.FleetHandle)
    (robotConfig : Except Exc rmf.RobotConfiguration) (handles : Handles rmf) (handle : ℕ) :
    Except BindError (Handles rmf) := do
  let robotConfig ← robotConfig.mapError .raised
  let callbacks ← (buildRobotCallbacks m fleet robot handle scope).mapError .raised
  pure (handles.modify handle fun h => h.prepareRegistration fleetHandle robotConfig callbacks)

/-- The loop of `bind_from_yaml`, which creates the handles that are not there. -/
def prepareKnownRobots (fleetConfig : m.FleetConfiguration) (fleet : String)
    (scope : Option String) (fleetHandle : rmf.FleetHandle) (handles : Handles rmf)
    (robot : String) : Except BindError (Handles rmf) :=
  let robotConfig := m.knownRobotConfiguration fleetConfig robot
  match handles.ref (.text robot) with
  | some handle => prepareRobot m fleet robot scope fleetHandle robotConfig handles handle
  | none =>
    prepareRobot m fleet robot scope fleetHandle robotConfig
      (handles.create (.text robot) (.new rmf robot)) handles.objects.length

/-- The loop of `bind_easy_full_control`, which skips robots without a handle. -/
def prepareListedRobots (fleet : String) (scope : Option String) (fleetHandle : rmf.FleetHandle)
    (handles : Handles rmf) : Json → Except BindError (Handles rmf)
  | .obj robot =>
    let name := Dict.get robot "name"
    if name.truthy then
      match name.key with
      | .error e => .error (.builtin e)
      | .ok key =>
        match handles.ref key with
        | some handle =>
          prepareRobot m fleet (name.text repr) scope fleetHandle m.robotConfiguration handles
            handle
        | none => .ok handles
    else .ok handles
  | _ => .error (.builtin .attributeError)

structure Bound (m : RmfModule rmf) where
  adapter : m.Adapter
  fleetHandle : rmf.FleetHandle
  handles : Handles rmf

def addServerUri (fleetConfig : m.FleetConfiguration) : Option String → m.FleetConfiguration
  | some uri => if uri = "" then fleetConfig else m.withServerUri fleetConfig uri
  | none => fleetConfig

def addFleet (nodeName : String) (fleetConfig : m.FleetConfiguration) :
    Except BindError (m.Adapter × rmf.FleetHandle) := do
  match ← (m.makeAdapter nodeName).mapError .raised with
  | none =>
    throw (.bindingError
      s!"rmf_adapter.Adapter.make({repr (.str nodeName)}) returned None — is rclpy initialised?")
  | some adapter =>
    let fleetHandle ← (m.addEasyFleet adapter fleetConfig).mapError .raised
    pure (adapter, fleetHandle)

def bindFromYaml (configPath navGraphPath nodeName fleetName : String)
    (serverUri scope : Option String) (handles : Handles rmf) : Except BindError (Bound m) := do
  if configPath = "" then
    throw (.bindingError "YAML mode requires a config file path (--config)")
  if navGraphPath = "" then
    throw (.bindingError ("YAML mode requires a nav graph file path (--nav-graph). " ++
      "Either provide one, or enable dynamic mode (quiksync.dynamic_mode: true)."))
  match ← (m.fromConfigFiles configPath navGraphPath).mapError .raised with
  | none =>
    throw (.bindingError ("FleetConfiguration.from_config_files returned None for " ++
      s!"config={repr (.str configPath)} nav_graph={repr (.str navGraphPath)}"))
  | some fleetConfig =>
    let fleetConfig := addServerUri m fleetConfig serverUri
    let (adapter, fleetHandle) ← addFleet m repr nodeName fleetConfig
    let handles ← (m.knownRobots fleetConfig).foldlM
      (prepareKnownRobots m fleetConfig fleetName scope fleetHandle) handles
    pure ⟨adapter, fleetHandle, handles⟩

def bindEasyFullControl (fleetEntry : Dict) (buildingMap : Json) (nodeName : String)
    (serverUri scope : Option String) (handles : Handles rmf) : Except BindError (Bound m) := do
  let fleetName ← (Dict.item fleetEntry "fleet_name").mapError .builtin
  let fleetConfig ← buildFleetConfiguration m repr fleetEntry buildingMap
  let fleetConfig := addServerUri m fleetConfig serverUri
  let (adapter, fleetHandle) ← addFleet m repr nodeName fleetConfig
  let robots ← (robotsOf fleetEntry).mapError .builtin
  let handles ← robots.foldlM
    (prepareListedRobots m repr (fleetName.text repr) scope fleetHandle) handles
  pure ⟨adapter, fleetHandle, handles⟩

end QuikSync.Fleet
