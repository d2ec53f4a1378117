import QuikSyncAdapters.Client.Ws

/-! The state pumps of the door, lift and fleet adapters. A pump runs a subscription as a task
of the event loop and hands its frames to a callback; the three pumps differ in the endpoint
and in the callbacks that a frame leads to. -/

namespace QuikSync.Pump

open Client Py

structure PumpConfig where
  path : String
  scope : Option String
  invocations : Dict → List (Json × Dict)

def doorStatePump (doorName : String) (scope : Option String) : PumpConfig where
  path := QuikSyncWsClient.subscribeDoorState doorName
  scope := scope
  invocations frame := [(.str doorName, frame)]

def liftStatePump (liftName : String) (scope : Option String) : PumpConfig where
  path := QuikSyncWsClient.subscribeLiftState liftName
  scope := scope
  invocations frame := [(.str liftName, frame)]

def robotIter (frame : Dict) : List Json :=
  match Dict.get frame "robots" with
  | .obj members => members.map Prod.snd
  | .arr items => items
  | _ => []

def robotInvocation : Json → Option (Json × Dict)
  | .obj robot =>
    let name := Dict.get robot "name"
    if name.truthy then some (name, robot) else none
  | _ => none

def fleetStatePump (fleetName : String) (scope : Option String) : PumpConfig where
  path := QuikSyncWsClient.subscribeFleetState fleetName
  scope := scope
  invocations frame := (robotIter frame).filterMap robotInvocation

structure StatePump where
  -- the index of `_task` among the tasks of the event loop
  task : Option ℕ
  stopRequested : Bool
  framesSeen : ℕ
  dispatchesOk : ℕ

def StatePump.new : StatePump := ⟨none, false, 0, 0⟩

structure Task where
  pump : ℕ
  subscription : Subscription
  -- `_run` returned in the middle of the subscription
  left : Bool

def Task.done (t : Task) : Bool := t.left || t.subscription.phase.finished

structure PumpWorld where
  client : QuikSyncWsClient
  pumps : ℕ → StatePump
  tasks : List Task

def PumpWorld.new (config : WsConfig) : PumpWorld := ⟨.new config, fun _ => .new, []⟩

structure Delivery where
  pump : ℕ
  frame : Dict
  invocations : List (Json × Dict)

namespace PumpWorld

variable (configs : ℕ → PumpConfig)

def running (w : PumpWorld) (p : ℕ) : Bool :=
  ((w.pumps p).task.bind fun t => w.tasks[t]?).any fun task => !task.done

def start (w : PumpWorld) (p : ℕ) : PumpWorld :=
  if w.running p then w
  else
    { w with
      pumps := Function.update w.pumps p
        { w.pumps p with stopRequested := false, task := some w.tasks.length }
      tasks := w.tasks ++
        [⟨p, .new w.client.config (configs p).path (configs p).scope, false⟩] }

def cancel (c : QuikSyncWsClient) (task : Task) : Task :=
  if task.done then task
  else { task with subscription := (task.subscription.step c .cancel).subscription }

def stop (w : PumpWorld) (p : ℕ) : PumpWorld where
  client := w.client.close
  pumps := Function.update w.pumps p { w.pumps p with stopRequested := true, task := none }
  tasks :=
    match (w.pumps p).task with
    | some t => w.tasks.modify t (cancel w.client.close)
    | none => w.tasks

/-- `_dispatch_frame`; `accepts` tells which callbacks return. -/
def dispatchFrame (w : PumpWorld) (p : ℕ) (frame : Dict) (accepts : Json × Dict → Bool) :
    PumpWorld × List Delivery :=
  let invocations := (configs p).invocations frame
  ({ w with
      pumps := Function.update w.pumps p
        { w.pumps p with
          framesSeen := (w.pumps p).framesSeen + 1
          dispatchesOk := (w.pumps p).dispatchesOk + invocations.countP accepts } },
    [⟨p, frame, invocations⟩])

end PumpWorld

def yielded (effects : List WsEffect) : Option Dict :=
  effects.findSome? fun
    | .yield frame => some frame
    | _ => none

/-- A task takes its subscription to the next await, and goes through the loop of `_run` if
that yields a frame. -/
def PumpWorld.progress (configs : ℕ → PumpConfig) (w : PumpWorld) (t : ℕ) (task : Task)
    (i : WsInput) (accepts : Json × Dict → Bool) : PumpWorld × List Delivery :=
  let r := task.subscription.step w.client i
  let task := { task with subscription := r.subscription }
  let w := { w with client := r.client, tasks := w.tasks.set t task }
  match yielded r.effects with
  | none => (w, [])
  | some frame =>
    if (w.pumps task.pump).stopRequested then
      ({ w with tasks := w.tasks.set t { task with left := true } }, [])
    else w.dispatchFrame configs task.pump frame accepts

inductive PumpInput where
  | start (p : ℕ)
  | stop (p : ℕ)
  | progress (t : ℕ) (i : WsInput) (accepts : Json × Dict → Bool)

/-- Pumps that share a client, with their tasks interleaved between the calls. -/
def pumpMachine (configs : ℕ → PumpConfig) : Machine PumpWorld PumpInput (List Delivery) where
  step w
    | .start p => (w.start configs p, [])
    | .stop p => (w.stop p, [])
    | .progress t i accepts =>
      match w.tasks[t]? with
      | none => (w, [])
      | some task => if task.done then (w, []) else w.progress configs t task i accepts

end QuikSync.Pump
