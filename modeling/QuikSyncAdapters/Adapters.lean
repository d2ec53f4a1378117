import QuikSyncAdapters.CommandStatus
import QuikSyncAdapters.Config
import QuikSyncAdapters.Fleet.Discovery
import QuikSyncAdapters.Fleet.Wiring
import QuikSyncAdapters.Lift.Interleaving
import QuikSyncAdapters.Pump.Subscriptions

/-! The three adapters at work, in full mode and in dry-run mode: the REST calls and the
WebSocket connections that their start, their requests and callbacks and their subscriptions
lead to. -/

namespace QuikSync

open Client Py

inductive Mode where
  | full
  | dryRun
  deriving DecidableEq

inductive Issued where
  | rest (call : ApiCall)
  | wss (path token url : String)

namespace Pump

def tokenOf : WsInput → String
  | .resume (.ok token) => token
  | _ => ""

def connects (c : QuikSyncWsClient) (s : Subscription) (i : WsInput) : List Issued :=
  (s.step c i).effects.filterMap fun
    | .connect url => some (.wss s.path (tokenOf i) url)
    | _ => none

def PumpWorld.connects (w : PumpWorld) : PumpInput → List Issued
  | .progress t i _ =>
    match w.tasks[t]? with
    | none => []
    | some task => if task.done then [] else Pump.connects w.client task.subscription i
  | _ => []

def PumpInput.within (n : ℕ) : PumpInput → Bool
  | .start p | .stop p => decide (p < n)
  | .progress .. => true

def pumpFor (names : List String) (pump : String → PumpConfig) (p : ℕ) : PumpConfig :=
  pump (names.getD p "")

def subscriptions (names : List String) (pump : String → PumpConfig) :
    Machine PumpWorld PumpInput (List Issued) where
  step w i :=
    if i.within names.length then
      (((pumpMachine (pumpFor names pump)).step w i).1, w.connects i)
    else (w, [])

end Pump

open Pump

def namespaceValue : Option String → Json
  | none => .null
  | some scope => .str scope

namespace Door

/-- Frames may reach the handles at any time. -/
inductive DoorEvent where
  | request (r : DoorRequest) (fresh : String) (outcome : Except Exc Json)
  | frame (door : String) (frame : Dict) (published : Bool)

def nodeMachine : Machine DoorAdapterNode DoorEvent (List Issued) where
  step n
    | .request r fresh outcome =>
      let routed := n.routeRequest r fresh outcome
      (routed.node, routed.posts.map fun p => .rest p.call)
    | .frame door frame published => ((n.onStateFrame door frame published).1, [])

end Door

namespace DoorAdapterConfig

def runFull (config : DoorAdapterConfig) (scope : Option String) (ws : WsConfig)
    (events : List (Door.DoorEvent ⊕ PumpInput)) : List Issued :=
  (Door.nodeMachine.beside
    (subscriptions config.doors fun door => doorStatePump door scope)).trace
      (.new config.doors scope, .new ws) events

/-- The pumps of the dry run are built without a namespace. -/
def runDry (config : DoorAdapterConfig) (ws : WsConfig) (events : List PumpInput) :
    List Issued :=
  (subscriptions config.doors fun door => doorStatePump door none).trace (.new ws) events

end DoorAdapterConfig

namespace Lift

def nodeMachine : Machine LiftSystem LiftEvent (List Issued) where
  step q e :=
    ((q.step e).1, (q.step e).2.filterMap fun
      | .posted p => some (.rest p.call)
      | _ => none)

/-- An infinite TTL, or nan, makes no session stale, as if there were none. -/
def ttlSeconds : Double → ℚ
  | .finite q => q
  | _ => 0

end Lift

namespace LiftAdapterConfig

def runFull (config : LiftAdapterConfig) (scope : Option String) (ws : WsConfig)
    (events : List (Lift.LiftEvent ⊕ PumpInput)) : List Issued :=
  match config.sessionTtlSeconds.toFloat with
  | .error _ => []
  | .ok ttl =>
    (Lift.nodeMachine.beside
      (subscriptions config.lifts fun lift => liftStatePump lift scope)).trace
        (.new config.lifts scope (Lift.ttlSeconds ttl), .new ws) events

def runDry (config : LiftAdapterConfig) (ws : WsConfig) (events : List PumpInput) :
    List Issued :=
  (subscriptions config.lifts fun lift => liftStatePump lift none).trace (.new ws) events

end LiftAdapterConfig

namespace Fleet

variable {rmf : RmfAdapter} (m : RmfModule rmf)

def robotMachine : Machine (Handles rmf) (Key × RobotEvent rmf) (List Issued) where
  step handles i :=
    ((fleetStep m handles i.1 i.2).1, (fleetStep m handles i.1 i.2).2.filterMap fun
      | .posted p => some (.rest p.call)
      | _ => none)

/-- The entry and its handles; with neither, `main` stops there. -/
def fetchFleetEntry (rmf : RmfAdapter) (repr : Json → String) (fleetName : Json)
    (discovery : Except Exc Json) : Option (Dict × Handles rmf) :=
  match discovery with
  | .error _ => none
  | .ok discovery =>
    match findOurFleet fleetName discovery with
    | .ok (some entry) => (buildRobotHandles rmf repr entry).toOption.map fun h => (entry, h)
    | _ => none

theorem fetchFleetEntry_eq (repr : Json → String) (fleetName : Json)
    (discovery : Except Exc Json) :
    fetchFleetEntry rmf repr fleetName discovery =
      match Discovery.fetchFleetEntry fleetName discovery with
      | .ok (some entry, none) =>
        (buildRobotHandles rmf repr entry).toOption.map fun h => (entry, h)
      | _ => none := by
  cases discovery with
  | error e => rfl
  | ok discovery =>
    unfold fetchFleetEntry Discovery.fetchFleetEntry
    dsimp only
    cases hfound : findOurFleet fleetName discovery with
    | error e => rfl
    | ok found =>
      cases found with
      | some entry => rfl
      | none =>
        cases Discovery.available discovery with
        | error e => simp [bind, Except.bind]
        | ok names => simp [bind, Except.bind, pure, Except.pure]

structure Args where
  configPath : Option String
  navGraphPath : Option String
  serverUri : String

def Args.serverUri? (args : Args) : Option String :=
  if args.serverUri = "" then none else some args.serverUri

structure Launch (rmf : RmfAdapter) where
  calls : List ApiCall
  handles : Option (Handles rmf)

end Fleet

namespace FleetAdapterConfig

open Fleet

variable {rmf : RmfAdapter} (m : RmfModule rmf) (repr : Json → String)

def nodeName : String := "fleet_adapter_quiksync"

def bindDynamic (scope : Option String) (args : Args) (entry : Dict) (handles : Handles rmf)
    (buildingMap : Except Exc Json) : Option (Handles rmf) :=
  match buildingMap with
  | .error _ => none
  | .ok buildingMap =>
    (bindEasyFullControl m repr entry buildingMap nodeName args.serverUri? scope
      handles).toOption.map Bound.handles

def bindYaml (config : FleetAdapterConfig) (scope : Option String) (args : Args) :
    Option (Handles rmf) :=
  (bindFromYaml m repr (args.configPath.getD "") (args.navGraphPath.getD "") nodeName
    (config.fleetName.text repr) args.serverUri? scope .empty).toOption.map Bound.handles

/-- `main` and `_run_full` up to the state pump. -/
def launch (config : FleetAdapterConfig) (scope : Option String) (mode : Mode) (args : Args)
    (discovery buildingMap : Except Exc Json) : Launch rmf :=
  if config.dynamicMode.truthy || mode = .dryRun then
    match fetchFleetEntry rmf repr config.fleetName discovery with
    | none => ⟨[getDiscovery scope], none⟩
    | some (entry, handles) =>
      match mode with
      | .dryRun => ⟨[getDiscovery scope], some handles⟩
      | .full =>
        ⟨[getDiscovery scope, getBuildingMap scope],
          bindDynamic m repr scope args entry handles buildingMap⟩
  else ⟨[], config.bindYaml m repr scope args⟩

def run (config : FleetAdapterConfig) (scope : Option String) (ws : WsConfig) (mode : Mode)
    (args : Args) (discovery buildingMap : Except Exc Json)
    (events : List ((Key × RobotEvent rmf) ⊕ PumpInput)) : List Issued :=
  let start := config.launch m repr scope mode args discovery buildingMap
  start.calls.map .rest ++
    match start.handles with
    | none => []
    | some handles =>
      ((robotMachine m).beside (subscriptions [config.fleetName.text repr] fun fleet =>
        fleetStatePump fleet scope)).trace (handles, .new ws) events

end FleetAdapterConfig

/-- Everything that an adapter can issue, started in a mode with the configuration `data`. -/
inductive Issues (env : LoadEnv) (data : Dict) : Adapter → Mode → Issued → Prop
  | doorFull {config : DoorAdapterConfig} {clients : Clients} {scope : Option String}
      {events : List (Door.DoorEvent ⊕ PumpInput)} {x : Issued}
      (hload : DoorAdapterConfig.fromDict env data = .ok config)
      (hclients : config.buildClients env = .ok clients)
      (hscope : config.scope = namespaceValue scope)
      (hx : x ∈ config.runFull scope clients.ws.config events) : Issues env data .door .full x
  | doorDry {config : DoorAdapterConfig} {clients : Clients} {events : List PumpInput}
      {x : Issued} (hload : DoorAdapterConfig.fromDict env data = .ok config)
      (hclients : config.buildClients env = .ok clients)
      (hx : x ∈ config.runDry clients.ws.config events) : Issues env data .door .dryRun x
  | liftFull {config : LiftAdapterConfig} {clients : Clients} {scope : Option String}
      {events : List (Lift.LiftEvent ⊕ PumpInput)} {x : Issued}
      (hload : LiftAdapterConfig.fromDict env data = .ok config)
      (hclients : config.buildClients env = .ok clients)
      (hscope : config.scope = namespaceValue scope)
      (hx : x ∈ config.runFull scope clients.ws.config events) : Issues env data .lift .full x
  | liftDry {config : LiftAdapterConfig} {clients : Clients} {events : List PumpInput}
      {x : Issued} (hload : LiftAdapterConfig.fromDict env data = .ok config)
      (hclients : config.buildClients env = .ok clients)
      (hx : x ∈ config.runDry clients.ws.config events) : Issues env data .lift .dryRun x
  | fleet {config : FleetAdapterConfig} {clients : Clients} {scope : Option String} {mode : Mode}
      {rmf : Fleet.RmfAdapter} {m : Fleet.RmfModule rmf} {args : Fleet.Args}
      {discovery buildingMap : Except Exc Json}
      {events : List ((Key × Fleet.RobotEvent rmf) ⊕ PumpInput)} {x : Issued}
      (hload : FleetAdapterConfig.fromDict env data = .ok config)
      (hclients : config.buildClients env = .ok clients)
      (hscope : config.scope = namespaceValue scope)
      (hx : x ∈ config.run m env.repr scope clients.ws.config mode args discovery buildingMap
        events) : Issues env data .fleet mode x

end QuikSync
