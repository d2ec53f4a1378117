import QuikSyncAdapters.Client.WsFrames
import QuikSyncAdapters.Pump.Attended

/-! The state path of a bound fleet, from the messages on its WebSocket connection to the calls
of Open-RMF. Frames carry the states of all robots and commands come for any of them, yet every
robot runs as if it were alone with its own. -/

namespace QuikSync.Fleet

open Client Py Pump

variable {rmf : RmfAdapter} (m : RmfModule rmf)

/-! ### One robot of the fleet -/

def ownEntry (robot : String) (e : (Key × RobotEvent rmf) × List (RobotAction rmf)) :
    Option (RobotEvent rmf × List (RobotAction rmf)) :=
  if e.1.1 = .text robot then some (e.1.2, e.2) else none

/-- The fleet as it was bound, but for what events do to its handles, with the handle of a
robot. -/
structure Holds (bound : Handles rmf) (robot : String) (now : Handles rmf) (h : RobotHandle rmf) :
    Prop where
  same : SameWiring bound now
  handle : now.get (.text robot) = some h

section Robot

variable {m} {bound now : Handles rmf} {fleet robot : String} {scope : Option String} {r : ℕ}
  {registration : Registration rmf} {h : RobotHandle rmf}

theorem SameWiring.step (h : SameWiring bound now) (key : Key) (e : RobotEvent rmf) :
    SameWiring bound (fleetStep m now key e).1 := by
  have hstep := sameWiring_step (m := m) now key e
  exact ⟨hstep.1.trans h.1, fun r => (hstep.2 r).trans (h.2 r)⟩

theorem runOn_self (hprepared : PreparedWith now robot r registration)
    (hhandle : now.get (.text robot) = some h)
    (f : RobotHandle rmf → RobotHandle rmf × List (RobotAction rmf)) :
    (runOn now r f).1.get (.text robot) = some (f h).1 ∧ (runOn now r f).2 = (f h).2 := by
  have hobject : now.objects[r]? = some h :=
    (ObjectStore.get_of_ref hprepared.ref).symm.trans hhandle
  unfold runOn
  rw [hobject]
  refine ⟨?_, rfl⟩
  rw [ObjectStore.get_of_ref (s := now.modify r _) hprepared.ref, now.modify_objects_self, hobject]
  rfl

theorem fleetStep_own (hwired : WiredFleet m fleet scope bound)
    (hprepared : PreparedWith bound robot r registration) (hnow : Holds bound robot now h)
    (e : RobotEvent rmf) :
    fleetStep m now (.text robot) e =
      runOn now r fun h => (CallbackScope.mk fleet robot scope).step h e := by
  have hthen := hprepared.same hnow.same
  obtain ⟨object, hobject, hname, hregistration⟩ := hprepared.object
  cases e with
  | frame state answers => exact fleetStep_frame hthen state answers
  | _ => exact fleetStep_command hthen trivial (hname ▸ hwired.closures hobject hregistration)

theorem runOn_other {key : Key} (href : now.ref key = some r) (hkey : key ≠ .text robot)
    (f : RobotHandle rmf → RobotHandle rmf × List (RobotAction rmf)) :
    (runOn now r f).1.get (.text robot) = now.get (.text robot) := by
  unfold runOn
  split
  · exact ObjectStore.modify_get_of_ne href hkey _
  · rfl

theorem closure_handle (hwired : WiredFleet m fleet scope bound) (hsame : SameWiring bound now)
    {key : Key} {c : Closure} {e : RobotEvent rmf}
    (hregistration : (now.get key).bind RobotHandle.registration = some registration)
    (hcalled : (m.closures registration.callbacks).called e = some c) :
    now.ref key = some c.handle := by
  obtain ⟨h, hget, hregistered⟩ := Option.bind_eq_some_iff.mp hregistration
  obtain ⟨r, href, hobject⟩ := ObjectStore.get_eq_some.mp hget
  have hwiring := hsame.2 r
  rw [hobject] at hwiring
  obtain ⟨h₀, hobject₀, heq⟩ := Option.map_eq_some_iff.mp hwiring.symm
  obtain ⟨-, hregistered₀⟩ := Prod.mk.inj heq
  rw [hwired.closures hobject₀ (hregistered₀.trans hregistered)] at hcalled
  have hhandle : c.handle = r := by
    cases e with
    | frame state answers => exact absurd hcalled (Option.some_ne_none _).symm
    | _ => rw [← Option.some.inj hcalled]; rfl
  rw [hhandle]
  exact href

theorem fleetStep_other (hwired : WiredFleet m fleet scope bound) (hsame : SameWiring bound now)
    {key : Key} (hkey : key ≠ .text robot) (e : RobotEvent rmf) :
    (fleetStep m now key e).1.get (.text robot) = now.get (.text robot) := by
  unfold fleetStep
  split
  · split
    · rename_i href
      exact runOn_other href hkey _
    · rfl
  · split
    · rename_i hregistration
      split
      · rename_i hcalled
        exact runOn_other (closure_handle hwired hsame hregistration hcalled) hkey _
      · rfl
    · rfl

theorem projects_robot (hwired : WiredFleet m fleet scope bound)
    (hprepared : PreparedWith bound robot r registration) :
    Machine.Projects (fleetMachine m) (CallbackScope.machine rmf ⟨fleet, robot, scope⟩)
      (Holds bound robot) (ownEntry robot) where
  hidden now h i hnow hview := by
    have hkey : i.1 ≠ .text robot := by
      intro hkey
      exact absurd hview (by simp [ownEntry, hkey])
    refine ⟨hnow.same.step i.1 i.2, ?_⟩
    exact (fleetStep_other hwired hnow.same hkey i.2).trans hnow.handle
  seen now h i e a hnow hview := by
    obtain ⟨key, e'⟩ := i
    unfold ownEntry at hview
    split at hview
    · rename_i hkey
      obtain rfl : key = .text robot := hkey
      obtain ⟨rfl, rfl⟩ := Prod.mk.inj (Option.some.inj hview)
      have hrun := runOn_self (hprepared.same hnow.same) hnow.handle
        fun h => (CallbackScope.mk fleet robot scope).step h e'
      have hstep : (fleetMachine m).step now (.text robot, e') = _ :=
        fleetStep_own hwired hprepared hnow e'
      refine ⟨⟨hnow.same.step _ e', ?_⟩, ?_⟩
      · rw [hstep]
        exact hrun.1
      · rw [hstep]
        exact hrun.2
    · exact absurd hview (Option.some_ne_none _).symm

end Robot

structure FleetArrival (rmf : RmfAdapter) where
  input : PumpInput
  answers : ℕ → RmfAnswers rmf

structure Command (rmf : RmfAdapter) where
  robot : Key
  event : RobotEvent rmf
  isCommand : event.IsCommand

def Command.entry (c : Command rmf) : Key × RobotEvent rmf := (c.robot, c.event)

def fleetPump (rmf : RmfAdapter) (fleet : String) (scope : Option String) :
    Machine PumpWorld (FleetArrival rmf) (List Delivery) where
  step w a :=
    if a.input.within 1 then (pumpMachine fun _ => fleetStatePump fleet scope).step w a.input
    else (w, [])

/-- The `on_state` of the pump thread looks the handle up by the name; a name that is no key
raises, and the pump logs that and goes on. -/
def robotEvents (a : FleetArrival rmf) (d : Delivery) : List (Key × RobotEvent rmf) :=
  d.invocations.zipIdx.filterMap fun (call, n) =>
    call.1.key.toOption.map fun key => (key, .frame call.2 (a.answers n))

def fleetAdapter (fleet : String) (scope : Option String) :
    Machine (PumpWorld × Handles rmf) (FleetArrival rmf ⊕ Command rmf)
      (List ((Key × RobotEvent rmf) × List (RobotAction rmf))) :=
  (fleetPump rmf fleet scope).pipe (fleetMachine m).logging robotEvents Command.entry

def statesFor (robot : String) (frame : Dict) : List Dict :=
  ((robotIter frame).filterMap robotInvocation).filterMap fun
    | (.str name, state) => if name = robot then some state else none
    | _ => none

def RobotEvent.state? : RobotEvent rmf → Option Dict
  | .frame state _ => some state
  | _ => none

/-! ### A run -/

section Run

variable (fleet : String) (scope : Option String) (ws : WsConfig) (bound : Handles rmf)
  (events : List (FleetArrival rmf ⊕ Command rmf)) (robot : String)

def ownLog : List (RobotEvent rmf × List (RobotAction rmf)) :=
  ((fleetAdapter m fleet scope).trace (.new ws, bound) events).filterMap (ownEntry robot)

def heard : List Decoded :=
  ((fleetPump rmf fleet scope).shown (fun w a => w.heard a.input) (.new ws)
    (events.filterMap Sum.getLeft?)).map Prod.snd

/-- A robot of the fleet does what it would do alone, given its own commands and, each once and
in order, its own states among the frames that are heard. -/
structure RunsAlone : Prop where
  alone : ∃ h, bound.get (.text robot) = some h ∧
    ownLog m fleet scope ws bound events robot =
      (CallbackScope.machine rmf ⟨fleet, robot, scope⟩).log h
        ((ownLog m fleet scope ws bound events robot).map Prod.fst) ∧
    ((fleetAdapter m fleet scope).after (.new ws, bound) events).2.get (.text robot) =
      some ((CallbackScope.machine rmf ⟨fleet, robot, scope⟩).after h
        ((ownLog m fleet scope ws bound events robot).map Prod.fst))
  states : ((ownLog m fleet scope ws bound events robot).map Prod.fst).filterMap
      RobotEvent.state? =
    ((heard fleet scope ws events).filterMap Decoded.frame?).flatMap (statesFor robot)
  commands : ((ownLog m fleet scope ws bound events robot).map Prod.fst).filter
      (fun e => e.state?.isNone) =
    ((events.filterMap Sum.getRight?).filter fun c => c.robot = .text robot).map Command.event

/-- What the fleet is given: the commands, and the states of the frames, robot by robot. -/
def given : List (Key × RobotEvent rmf) :=
  (fleetPump rmf fleet scope).given robotEvents Command.entry (.new ws) events

def ownEvent (i : Key × RobotEvent rmf) : Option (RobotEvent rmf) :=
  if i.1 = .text robot then some i.2 else none

theorem trace_eq : (fleetAdapter m fleet scope).trace (.new ws, bound) events =
    (fleetMachine m).log bound (given fleet scope ws events) := by
  have htrace := (Machine.pipe_run (fleetPump rmf fleet scope) (fleetMachine m).logging robotEvents
    Command.entry (.new ws) bound events).1
  exact htrace.trans ((fleetMachine m).logging_run bound _).1

theorem after_eq : ((fleetAdapter m fleet scope).after (.new ws, bound) events).2 =
    (fleetMachine m).after bound (given fleet scope ws events) := by
  have hafter := (Machine.pipe_run (fleetPump rmf fleet scope) (fleetMachine m).logging robotEvents
    Command.entry (.new ws) bound events).2
  exact (congrArg Prod.snd hafter).trans ((fleetMachine m).logging_run bound _).2

theorem ownLog_events : (ownLog m fleet scope ws bound events robot).map Prod.fst =
    (given fleet scope ws events).filterMap (ownEvent robot) := by
  have hview : ∀ e : (Key × RobotEvent rmf) × List (RobotAction rmf),
      (ownEntry robot e).map Prod.fst = ownEvent robot e.1 := by
    intro e
    unfold ownEntry ownEvent
    split <;> rfl
  rw [ownLog, trace_eq, List.map_filterMap]
  simp only [hview]
  rw [← Machine.log_map_fst (fleetMachine m) bound (given fleet scope ws events),
    List.filterMap_map, Machine.log_map_fst]
  rfl

def stateFor (i : Key × RobotEvent rmf) : List Dict :=
  ((ownEvent robot i).bind RobotEvent.state?).toList

def callFor (robot : String) : Json × Dict → Option Dict
  | (.str name, state) => if name = robot then some state else none
  | _ => none

theorem stateFor_call (call : Json × Dict) (answers : RmfAnswers rmf) :
    (call.1.key.toOption.map fun key => (key, RobotEvent.frame call.2 answers)).elim []
      (stateFor robot) = (callFor robot call).toList := by
  obtain ⟨name, state⟩ := call
  cases name with
  | str name =>
    show ((if Key.text name = .text robot then some (RobotEvent.frame state answers)
      else none).bind RobotEvent.state?).toList = (if name = robot then some state else none).toList
    by_cases hname : name = robot
    · rw [if_pos hname, if_pos (congrArg Key.text hname)]
      rfl
    · rw [if_neg hname, if_neg fun h => hname (Key.text.inj h)]
      rfl
  | _ => rfl

theorem robotEvents_states (a : FleetArrival rmf) (d : Delivery) :
    (robotEvents a d).flatMap (stateFor robot) = d.invocations.filterMap (callFor robot) := by
  have hcalls : d.invocations.filterMap (callFor robot) =
      (d.invocations.zipIdx.map Prod.fst).filterMap (callFor robot) := by
    rw [List.zipIdx_map_fst]
  rw [robotEvents, Machine.flatMap_filterMap, hcalls, List.filterMap_map,
    List.filterMap_eq_flatMap_toList]
  exact List.flatMap_congr fun ⟨call, n⟩ _ => stateFor_call robot call (a.answers n)

theorem stateFor_command (c : Command rmf) : stateFor robot c.entry = [] := by
  obtain ⟨key, event, hcommand⟩ := c
  unfold stateFor ownEvent Command.entry
  dsimp only
  cases event with
  | frame state answers => exact hcommand.elim
  | _ => split <;> rfl

theorem fleetPump_trace (arrivals : List (FleetArrival rmf)) :
    (fleetPump rmf fleet scope).trace (.new ws) arrivals =
      ((fleetPump rmf fleet scope).shown (fun w a => w.heard a.input) (.new ws)
        arrivals).filterMap (deliver fun _ => fleetStatePump fleet scope) := by
  refine Machine.trace_shown (P := PumpWorld.StopCloses) ?_ (stopCloses_new ws) arrivals
  intro w a h
  unfold fleetPump
  dsimp only
  split
  · exact ⟨stopCloses_step h a.input, step_delivers h a.input⟩
  · rename_i hwithin
    rw [heard_of_not_within hwithin]
    exact ⟨h, rfl⟩

theorem states_eq : ((ownLog m fleet scope ws bound events robot).map Prod.fst).filterMap
      RobotEvent.state? =
    ((heard fleet scope ws events).filterMap Decoded.frame?).flatMap (statesFor robot) := by
  -- the sink's view of a delivery is the list of states that the frame has for the robot
  have hgiven : (given fleet scope ws events).flatMap (stateFor robot) = _ :=
    Machine.given_passed (fleetPump rmf fleet scope) (stateFor_command robot)
      (robotEvents_states robot) (.new ws) events
  rw [ownLog_events, List.filterMap_filterMap, List.filterMap_eq_flatMap_toList]
  refine hgiven.trans ?_
  rw [fleetPump_trace, heard, List.filterMap_map, Machine.flatMap_filterMap,
    Machine.flatMap_filterMap]
  refine List.flatMap_congr fun ⟨p, decoded⟩ _ => ?_
  cases decoded with
  | loaded v => cases v <;> rfl
  | _ => rfl

def commandFor (i : Key × RobotEvent rmf) : List (RobotEvent rmf) :=
  ((ownEvent robot i).filter fun e => e.state?.isNone).toList

theorem robotEvents_commands (a : FleetArrival rmf) (d : Delivery) :
    (robotEvents a d).flatMap (commandFor robot) = [] := by
  rw [List.flatMap_eq_nil_iff]
  intro i hi
  obtain ⟨⟨call, n⟩, -, hevent⟩ := List.mem_filterMap.mp hi
  obtain ⟨key, -, rfl⟩ := Option.map_eq_some_iff.mp hevent
  unfold commandFor ownEvent
  dsimp only
  split <;> rfl

theorem commandFor_entry (c : Command rmf) :
    commandFor robot c.entry = (if c.robot = .text robot then some c.event else none).toList := by
  obtain ⟨key, event, hcommand⟩ := c
  unfold commandFor ownEvent Command.entry
  dsimp only
  cases event with
  | frame state answers => exact hcommand.elim
  | _ => split <;> rfl

theorem commands_eq : ((ownLog m fleet scope ws bound events robot).map Prod.fst).filter
      (fun e => e.state?.isNone) =
    ((events.filterMap Sum.getRight?).filter fun c => c.robot = .text robot).map
      Command.event := by
  have hgiven : (given fleet scope ws events).flatMap (commandFor robot) = _ :=
    Machine.given_own (fleetPump rmf fleet scope) (robotEvents_commands robot) (.new ws) events
  rw [ownLog_events, List.filter_filterMap, List.filterMap_eq_flatMap_toList]
  refine hgiven.trans ?_
  rw [← List.filterMap_eq_map, List.filterMap_filter,
    List.filterMap_eq_flatMap_toList (l := (events.filterMap Sum.getRight?))]
  refine List.flatMap_congr fun c _ => (commandFor_entry robot c).trans ?_
  simp

end Run

/-- Every robot of a bound fleet runs alone, whatever its pump hears, Open-RMF commands and both
answer. -/
theorem runs_alone {repr : Json → String} {scope : Option String} {fleet robot : String}
    {names : List String} {bound : Handles rmf} (h : Binds m repr scope fleet names bound)
    (hrobot : robot ∈ names) (ws : WsConfig) (events : List (FleetArrival rmf ⊕ Command rmf)) :
    RunsAlone m fleet scope ws bound events robot where
  alone := by
    obtain ⟨hwired, hprepared⟩ := h.wires
    obtain ⟨r, registration, hr⟩ := hprepared robot hrobot
    obtain ⟨handle, hhandle⟩ := ObjectStore.exists_get hr.ref
    have hstart : Holds bound robot bound handle := ⟨⟨rfl, fun _ => rfl⟩, hhandle⟩
    obtain ⟨hlog, hend⟩ := (projects_robot hwired hr).run hstart (given fleet scope ws events)
    rw [← trace_eq m fleet scope ws bound events] at hlog hend
    refine ⟨handle, hhandle, hlog, ?_⟩
    rw [after_eq]
    exact hend.handle
  states := states_eq m fleet scope ws bound events robot
  commands := commands_eq m fleet scope ws bound events robot

def pairEvents : List (FleetArrival wiredRmf ⊕ Command wiredRmf) :=
  [.inl ⟨.start 0, fun _ => ⟨.ok (), .ok (some ())⟩⟩,
    .inl ⟨.progress 0 (.resume (.ok "t")) fun _ => true, fun _ => ⟨.ok (), .ok (some ())⟩⟩,
    .inl ⟨.progress 0 .handshake fun _ => true, fun _ => ⟨.ok (), .ok (some ())⟩⟩,
    .inl ⟨.progress 0 (.message (.loaded (.obj [("robots",
      .arr [.obj [("name", .str "r1")], .obj [("name", .str "r2")]])]))) fun _ => true,
        fun _ => ⟨.ok (), .ok (some ())⟩⟩,
    .inr ⟨.text "r2", .stop "x" (.ok .null), trivial⟩]

theorem runs_alone_pair :
    RunsAlone wiredModule "fleet" (some "north") ⟨"wss://host", 1, 30, 3, 60⟩ pairHandles pairEvents
      "r2" :=
  runs_alone wiredModule pair_binds (by decide) _ pairEvents

end QuikSync.Fleet
