import QuikSyncAdapters.Fleet.Binding
import QuikSyncAdapters.Fleet.Completion

/-! No robot is wired to another: after either binding, the callbacks that Open-RMF gets for a
robot command that robot and record on its own handle, in every run of frames and commands. -/

namespace QuikSync.Fleet

open Client Py Fallible

variable {rmf : RmfAdapter} (m : RmfModule rmf)

/-! ### A bound fleet at work -/

def RobotClosures.called (c : RobotClosures) : RobotEvent rmf → Option Closure
  | .navigate .. => some c.navigate
  | .actionExecutor .. => some c.actionExecutor
  | .stop .. => some c.stop
  | .frame .. => none

def runOn (handles : Handles rmf) (r : ℕ)
    (f : RobotHandle rmf → RobotHandle rmf × List (RobotAction rmf)) :
    Handles rmf × List (RobotAction rmf) :=
  match handles.objects[r]? with
  | some h => (handles.modify r fun _ => (f h).1, (f h).2)
  | none => (handles, [])

/-- A frame goes to the handle of its robot, a command to the callbacks stored on it. -/
def fleetStep (handles : Handles rmf) (robot : Key) (e : RobotEvent rmf) :
    Handles rmf × List (RobotAction rmf) :=
  match e with
  | .frame state answers =>
    match handles.ref robot with
    | some r => runOn handles r fun h =>
      ((h.onState state answers).handle, (h.onState state answers).calls.map .called)
    | none => (handles, [])
  | e =>
    match (handles.get robot).bind RobotHandle.registration with
    | some registration =>
      match (m.closures registration.callbacks).called e with
      | some c => runOn handles c.handle fun h => c.scope.step h e
      | none => (handles, [])
    | none => (handles, [])

def fleetMachine :
    Machine (Handles rmf) (Key × RobotEvent rmf) (List (RobotAction rmf)) where
  step handles i := fleetStep m handles i.1 i.2

def CommandPost.scope : CommandPost → CallbackScope
  | .navigate fleet robot _ _ _ _ scope => ⟨fleet, robot, scope⟩
  | .stop fleet robot _ scope => ⟨fleet, robot, scope⟩
  | .performAction fleet robot _ _ _ scope => ⟨fleet, robot, scope⟩

def RobotEvent.IsCommand : RobotEvent rmf → Prop
  | .frame .. => False
  | _ => True

theorem isCommand_of_ne {e : RobotEvent rmf} (h : ∀ state answers, e ≠ .frame state answers) :
    e.IsCommand := by
  cases e with
  | frame state answers => exact h state answers rfl
  | _ => exact trivial

/-- The robot has one prepared handle, and in every run its callbacks command it and touch its
handle only, and its first frame that translates registers it under its name with them. -/
structure WiredAlone (fleet : String) (scope : Option String) (handles : Handles rmf)
    (robot : String) : Prop where
  prepared : ∃! r : ℕ, ∃ h : RobotHandle rmf, handles.objects[r]? = some h ∧ h.robotName = robot ∧
    h.registration.isSome = true
  commands : ∀ (past : List (Key × RobotEvent rmf)) (e : RobotEvent rmf) (now : Handles rmf),
    (fleetMachine m).after handles past = now → e.IsCommand →
    (∀ a ∈ (fleetStep m now (.text robot) e).2, ∃ p, a = .posted p ∧ p.scope = ⟨fleet, robot, scope⟩) ∧
      ∀ key, key ≠ .text robot → (fleetStep m now (.text robot) e).1.get key = now.get key
  registers : ∃ registration,
    (handles.get (.text robot)).bind RobotHandle.registration = some registration ∧
    ∀ (past : List (Key × RobotEvent rmf)) (state : Dict) (answers : RmfAnswers rmf)
      (s : rmf.RobotState),
      (∀ old oldAnswers oldState, (.text robot, .frame old oldAnswers) ∈ past →
        toRmfRobotState rmf old ≠ .ok (some oldState)) →
      toRmfRobotState rmf state = .ok (some s) →
      (fleetStep m ((fleetMachine m).after handles past) (.text robot) (.frame state answers)).2 =
        [.called (.addRobot robot s registration)]

/-! ### What work leaves alone -/

section Work

variable {m} {handles : Handles rmf} {fleet : String} {scope : Option String}

/-- What binding fixes on a handle. -/
def RobotHandle.wiring (h : RobotHandle rmf) : String × Option (Registration rmf) :=
  (h.robotName, h.registration)

theorem onState_wiring (h : RobotHandle rmf) (state : Dict) (answers : RmfAnswers rmf) :
    (h.onState state answers).handle.wiring = h.wiring := by
  obtain ⟨_, _, _, _, _, hhandle⟩ := h.onState_handle state answers
  rw [hhandle]
  rfl

theorem step_wiring (c : CallbackScope) (h : RobotHandle rmf) (e : RobotEvent rmf) :
    (c.step h e).1.wiring = h.wiring := by
  by_cases hframe : ∃ state answers, e = .frame state answers
  · obtain ⟨state, answers, rfl⟩ := hframe
    exact onState_wiring h state answers
  · rw [step_of_callback fun state answers he => hframe ⟨state, answers, he⟩]
    cases e.command? <;> rfl

theorem send_scope {h accepted : RobotHandle rmf} {post : CommandPost} {c : CallbackScope}
    (hpost : post.scope = c) (outcome : Except Exc Json) :
    ∀ p ∈ (send h accepted post outcome).posts, p.scope = c := by
  have hposts : (send h accepted post outcome).posts = [post] := by
    cases outcome <;> rfl
  rw [hposts, List.forall_mem_singleton]
  exact hpost

theorem navigate_scope (c : CallbackScope) (h : RobotHandle rmf) (destination : Destination)
    (execution : Execution rmf) (executionId : String) (outcome : Except Exc Json) :
    ∀ p ∈ (c.navigate h destination execution executionId outcome).posts, p.scope = c := by
  unfold CallbackScope.navigate
  rcases extractDestination destination with e | (_ | body)
  · exact List.forall_mem_nil _
  · exact List.forall_mem_nil _
  rcases speedLimit destination with e | limit
  · exact List.forall_mem_nil _
  · exact send_scope rfl outcome

theorem posts_of_command (c : CallbackScope) (h : RobotHandle rmf) {e : RobotEvent rmf}
    (he : e.IsCommand) : ∀ a ∈ (c.step h e).2, ∃ p, a = .posted p ∧ p.scope = c := by
  have hmap : ∀ {posts : List CommandPost}, (∀ p ∈ posts, p.scope = c) →
      ∀ a ∈ posts.map (@RobotAction.posted rmf), ∃ p, a = .posted p ∧ p.scope = c := by
    intro posts hposts a ha
    obtain ⟨p, hp, rfl⟩ := List.mem_map.mp ha
    exact ⟨p, rfl, hposts p hp⟩
  cases e with
  | navigate destination execution executionId outcome =>
    exact hmap (navigate_scope c h destination execution executionId outcome)
  | actionExecutor category description execution executionId outcome =>
    exact hmap (send_scope rfl outcome)
  | stop executionId outcome => exact hmap (send_scope rfl outcome)
  | frame state answers => exact he.elim

def SameWiring (handles now : Handles rmf) : Prop :=
  now.ref = handles.ref ∧
    ∀ r : ℕ, (now.objects[r]?).map RobotHandle.wiring = (handles.objects[r]?).map RobotHandle.wiring

theorem sameWiring_runOn (r : ℕ) {f : RobotHandle rmf → RobotHandle rmf × List (RobotAction rmf)}
    (hf : ∀ h, (f h).1.wiring = h.wiring) : SameWiring handles (runOn handles r f).1 := by
  unfold runOn
  split
  · rename_i h hr
    refine ⟨rfl, fun r' => ?_⟩
    rcases eq_or_ne r r' with rfl | hne
    · rw [handles.modify_objects_self, hr]
      exact congrArg some (hf h)
    · rw [handles.modify_objects_of_ne hne]
  · exact ⟨rfl, fun _ => rfl⟩

theorem sameWiring_step (handles : Handles rmf) (robot : Key) (e : RobotEvent rmf) :
    SameWiring handles (fleetStep m handles robot e).1 := by
  have hsame : SameWiring handles handles := ⟨rfl, fun _ => rfl⟩
  unfold fleetStep
  split
  · rename_i state answers
    split
    · exact sameWiring_runOn _ fun h => onState_wiring h state answers
    · exact hsame
  · split
    · split
      · exact sameWiring_runOn _ fun h => step_wiring _ h _
      · exact hsame
    · exact hsame

theorem sameWiring_after (handles : Handles rmf) (past : List (Key × RobotEvent rmf)) :
    SameWiring handles ((fleetMachine m).after handles past) := by
  apply Machine.after_invariant (P := SameWiring handles)
  · intro now i h
    have hstep := sameWiring_step (m := m) now i.1 i.2
    exact ⟨hstep.1.trans h.1, fun r => (hstep.2 r).trans (h.2 r)⟩
  · exact ⟨rfl, fun _ => rfl⟩

/-! ### A wired fleet -/

/-- Each key is the name of its handle, a prepared handle stands under its name, and its
closures carry that name and refer to it. -/
structure WiredFleet (m : RmfModule rmf) (fleet : String) (scope : Option String)
    (handles : Handles rmf) : Prop where
  named : ∀ {key : Key} {r : ℕ} {h : RobotHandle rmf}, handles.ref key = some r →
    handles.objects[r]? = some h → key = .text h.robotName
  reachable : ∀ {r : ℕ} {h : RobotHandle rmf}, handles.objects[r]? = some h →
    h.registration.isSome = true → handles.ref (.text h.robotName) = some r
  closures : ∀ {r : ℕ} {h : RobotHandle rmf} {registration : Registration rmf},
    handles.objects[r]? = some h → h.registration = some registration →
    m.closures registration.callbacks = robotClosures fleet h.robotName r scope
  unbound : ∀ {r : ℕ} {h : RobotHandle rmf}, handles.objects[r]? = some h → h.rmfHandle = none

structure PreparedWith (handles : Handles rmf) (robot : String) (r : ℕ)
    (registration : Registration rmf) : Prop where
  ref : handles.ref (.text robot) = some r
  object : ∃ h : RobotHandle rmf, handles.objects[r]? = some h ∧ h.robotName = robot ∧
    h.registration = some registration

theorem PreparedWith.get {robot : String} {r : ℕ} {registration : Registration rmf}
    (h : PreparedWith handles robot r registration) :
    (handles.get (.text robot)).bind RobotHandle.registration = some registration := by
  obtain ⟨object, hobject, -, hregistration⟩ := h.object
  rw [ObjectStore.get_of_ref h.ref, hobject]
  exact hregistration

theorem PreparedWith.same {robot : String} {r : ℕ} {registration : Registration rmf}
    (h : PreparedWith handles robot r registration) {now : Handles rmf}
    (hsame : SameWiring handles now) : PreparedWith now robot r registration := by
  refine ⟨(congrFun hsame.1 _).trans h.ref, ?_⟩
  obtain ⟨object, hobject, hname, hregistration⟩ := h.object
  have hwiring := hsame.2 r
  rw [hobject] at hwiring
  obtain ⟨changed, hchanged, heq⟩ := Option.map_eq_some_iff.mp hwiring
  obtain ⟨hname', hregistration'⟩ := Prod.mk.inj heq
  exact ⟨changed, hchanged, hname'.trans hname, hregistration'.trans hregistration⟩

section Robot

variable {robot : String} {r : ℕ} {registration : Registration rmf}
  (hprepared : PreparedWith handles robot r registration)

include hprepared

theorem fleetStep_command {e : RobotEvent rmf} (he : e.IsCommand)
    (hclosures : m.closures registration.callbacks = robotClosures fleet robot r scope) :
    fleetStep m handles (.text robot) e =
      runOn handles r fun h => (CallbackScope.mk fleet robot scope).step h e := by
  unfold fleetStep
  cases e with
  | frame state answers => exact he.elim
  | _ =>
    dsimp only
    rw [hprepared.get]
    dsimp only
    rw [hclosures]
    rfl

theorem fleetStep_frame (state : Dict) (answers : RmfAnswers rmf) :
    fleetStep m handles (.text robot) (.frame state answers) =
      runOn handles r fun h =>
        ((h.onState state answers).handle, (h.onState state answers).calls.map .called) := by
  unfold fleetStep
  dsimp only
  rw [hprepared.ref]

theorem runOn_get_of_ne (f : RobotHandle rmf → RobotHandle rmf × List (RobotAction rmf))
    {key : Key} (hkey : key ≠ .text robot) : (runOn handles r f).1.get key = handles.get key := by
  unfold runOn
  split
  · exact ObjectStore.modify_get_of_ne hprepared.ref hkey.symm _
  · rfl

theorem runOn_actions (f : RobotHandle rmf → RobotHandle rmf × List (RobotAction rmf)) :
    ∃ h : RobotHandle rmf, handles.objects[r]? = some h ∧ h.robotName = robot ∧
      h.registration = some registration ∧ (runOn handles r f).2 = (f h).2 := by
  obtain ⟨h, hobject, hname, hregistration⟩ := hprepared.object
  refine ⟨h, hobject, hname, hregistration, ?_⟩
  unfold runOn
  rw [hobject]

end Robot

/-! ### The first frame that translates -/

theorem onState_unbound {h : RobotHandle rmf} (hfree : h.rmfHandle = none) {state : Dict}
    (hidle : ∀ s, toRmfRobotState rmf state ≠ .ok (some s)) (answers : RmfAnswers rmf) :
    (h.onState state answers).handle.rmfHandle = none := by
  have hreceive := h.receive_rmfHandle state
  unfold RobotHandle.onState
  split
  · rename_i hr
    rw [hr] at hreceive
    exact hreceive.trans hfree
  · rename_i hr
    rw [hr] at hreceive
    exact hreceive.trans hfree
  · rename_i received call hr
    exfalso
    unfold RobotHandle.receive at hr
    simp only [hfree] at hr
    split at hr
    · split at hr
      · exact nomatch hr
      · exact nomatch hr
      · exact hidle _ ‹_›
    · exact nomatch hr

theorem onState_registers {h : RobotHandle rmf} {registration : Registration rmf}
    (hfree : h.rmfHandle = none) (hprepared : h.registration = some registration) {state : Dict}
    {s : rmf.RobotState} (hstate : toRmfRobotState rmf state = .ok (some s))
    (answers : RmfAnswers rmf) :
    (h.onState state answers).calls = [.addRobot h.robotName s registration] := by
  unfold RobotHandle.onState RobotHandle.receive
  simp only [hfree, hprepared, hstate]

def UnboundAt (handles : Handles rmf) (r : ℕ) : Prop :=
  ∀ h : RobotHandle rmf, handles.objects[r]? = some h → h.rmfHandle = none

theorem unboundAt_runOn {r r' : ℕ} (hfree : UnboundAt handles r)
    {f : RobotHandle rmf → RobotHandle rmf × List (RobotAction rmf)}
    (hf : r' = r → ∀ h : RobotHandle rmf, h.rmfHandle = none → (f h).1.rmfHandle = none) :
    UnboundAt (runOn handles r' f).1 r := by
  unfold runOn
  split
  · rename_i h hr'
    intro changed hchanged
    rcases eq_or_ne r' r with rfl | hne
    · rw [handles.modify_objects_self, hr'] at hchanged
      obtain rfl := Option.some.inj hchanged
      exact hf rfl h (hfree h hr')
    · rw [handles.modify_objects_of_ne hne] at hchanged
      exact hfree changed hchanged
  · exact hfree

theorem step_rmfHandle_of_command (c : CallbackScope) (h : RobotHandle rmf) {e : RobotEvent rmf}
    (he : ∀ state answers, e ≠ .frame state answers) : (c.step h e).1.rmfHandle = h.rmfHandle := by
  rw [step_of_callback he]
  cases e.command? <;> rfl

theorem unboundAt_step {robot : String} {r : ℕ} (href : handles.ref (.text robot) = some r)
    (hfree : UnboundAt handles r) {i : Key × RobotEvent rmf}
    (hi : ∀ old answers s, i = (.text robot, .frame old answers) →
      toRmfRobotState rmf old ≠ .ok (some s)) :
    UnboundAt (fleetStep m handles i.1 i.2).1 r := by
  obtain ⟨other, e⟩ := i
  unfold fleetStep
  dsimp only
  split
  · rename_i old answers
    split
    · rename_i r' href'
      refine unboundAt_runOn hfree fun heq h hunbound => onState_unbound hunbound ?_ answers
      subst heq
      obtain rfl := handles.separate href' href
      exact fun s => hi old answers s rfl
    · exact hfree
  · rename_i hcommand
    split
    · split
      · refine unboundAt_runOn hfree fun _ h hunbound => ?_
        exact (step_rmfHandle_of_command _ h hcommand).trans hunbound
      · exact hfree
    · exact hfree

theorem unboundAt_after {robot : String} {r : ℕ} (href : handles.ref (.text robot) = some r)
    (hfree : UnboundAt handles r) {past : List (Key × RobotEvent rmf)}
    (hpast : ∀ old answers s, (.text robot, .frame old answers) ∈ past →
      toRmfRobotState rmf old ≠ .ok (some s)) :
    UnboundAt ((fleetMachine m).after handles past) r := by
  have hstep : ∀ (now : Handles rmf) (i : Key × RobotEvent rmf),
      (∀ old answers s, i = (.text robot, .frame old answers) →
        toRmfRobotState rmf old ≠ .ok (some s)) →
      now.ref (.text robot) = some r ∧ UnboundAt now r →
        (fleetStep m now i.1 i.2).1.ref (.text robot) = some r ∧
          UnboundAt (fleetStep m now i.1 i.2).1 r := by
    intro now i hi h
    have hsame := congrFun (sameWiring_step (m := m) now i.1 i.2).1 (.text robot)
    exact ⟨hsame.trans h.1, unboundAt_step h.1 h.2 hi⟩
  have hrun := Machine.after_allowed (M := fleetMachine m)
    (P := fun now : Handles rmf => now.ref (.text robot) = some r ∧ UnboundAt now r) hstep
    ⟨href, hfree⟩
    fun i hi old answers s heq => hpast old answers s (heq ▸ hi)
  exact hrun.2

theorem wiredAlone {fleet : String} (hwired : WiredFleet m fleet scope handles) {robot : String}
    {r : ℕ} {registration : Registration rmf}
    (hprepared : PreparedWith handles robot r registration) :
    WiredAlone m fleet scope handles robot := by
  obtain ⟨h, hobject, hname, hregistration⟩ := hprepared.object
  have hclosures : m.closures registration.callbacks = robotClosures fleet robot r scope :=
    hname ▸ hwired.closures hobject hregistration
  refine ⟨⟨r, ?_, ?_⟩, ?_, registration, hprepared.get, ?_⟩
  · exact ⟨h, hobject, hname, Option.isSome_iff_exists.mpr ⟨_, hregistration⟩⟩
  · rintro r' ⟨h', hobject', rfl, hsome⟩
    exact Option.some.inj ((hwired.reachable hobject' hsome).symm.trans hprepared.ref)
  · rintro past e now rfl he
    have hnow := hprepared.same (sameWiring_after (m := m) handles past)
    rw [fleetStep_command hnow he hclosures]
    obtain ⟨h', -, -, -, hactions⟩ := runOn_actions hnow
      fun h => (CallbackScope.mk fleet robot scope).step h e
    rw [hactions]
    exact ⟨posts_of_command _ h' he, fun key hkey => runOn_get_of_ne hnow _ hkey⟩
  · intro past state answers s hpast hstate
    have hnow := hprepared.same (sameWiring_after (m := m) handles past)
    have hfree : UnboundAt ((fleetMachine m).after handles past) r :=
      unboundAt_after hprepared.ref (fun _ hr => hwired.unbound hr)
        fun old answers s hmem => hpast old answers s hmem
    rw [fleetStep_frame hnow]
    obtain ⟨h', hobject', hname', hregistration', hactions⟩ := runOn_actions hnow
      fun h => ((h.onState state answers).handle, (h.onState state answers).calls.map .called)
    rw [hactions, onState_registers (hfree h' hobject') hregistration' hstate, hname']
    rfl

/-! ### Binding wires the fleet -/

def Prepared (handles : Handles rmf) (robot : String) : Prop :=
  ∃ r registration, PreparedWith handles robot r registration

theorem WiredFleet.create {fleet robot : String} (h : WiredFleet m fleet scope handles)
    (hfresh : ∀ {r : ℕ} {old : RobotHandle rmf}, handles.objects[r]? = some old →
      old.registration.isSome = true → old.robotName ≠ robot) :
    WiredFleet m fleet scope (handles.create (.text robot) (.new rmf robot)) where
  named := by
    intro key r object href hobject
    rcases eq_or_ne key (.text robot) with rfl | hne
    · rw [handles.create_ref_self] at href
      obtain rfl := Option.some.inj href
      rw [handles.create_objects_new] at hobject
      obtain rfl := Option.some.inj hobject
      rfl
    · rw [handles.create_ref_of_ne hne] at href
      rw [handles.create_objects_of_lt _ _ (handles.bounded href)] at hobject
      exact h.named href hobject
  reachable := by
    intro r object hobject hsome
    obtain hold | ⟨-, rfl⟩ := ObjectStore.create_objects_cases hobject
    · have hname := hfresh hold hsome
      rw [handles.create_ref_of_ne fun heq => hname (Key.text.inj heq)]
      exact h.reachable hold hsome
    · exact nomatch hsome
  closures := by
    intro r object registration hobject hregistration
    obtain hold | ⟨-, rfl⟩ := ObjectStore.create_objects_cases hobject
    · exact h.closures hold hregistration
    · exact nomatch hregistration
  unbound := by
    intro r object hobject
    obtain hold | ⟨-, rfl⟩ := ObjectStore.create_objects_cases hobject
    · exact h.unbound hold
    · rfl

theorem PreparedWith.create {other : String} {r : ℕ} {registration : Registration rmf}
    (h : PreparedWith handles other r registration) {robot : String}
    (hfree : handles.ref (.text robot) = none) :
    PreparedWith (handles.create (.text robot) (.new rmf robot)) other r registration := by
  have hne : Key.text other ≠ .text robot := by
    intro heq
    rw [← heq, h.ref] at hfree
    exact nomatch hfree
  refine ⟨(handles.create_ref_of_ne hne _).trans h.ref, ?_⟩
  rw [handles.create_objects_of_lt _ _ (handles.bounded h.ref)]
  exact h.object

theorem prepareRobot_ok {fleet robot : String} {fleetHandle : rmf.FleetHandle}
    {robotConfig : Except Exc rmf.RobotConfiguration} {r : ℕ} {bound : Handles rmf}
    (h : prepareRobot m fleet robot scope fleetHandle robotConfig handles r = .ok bound) :
    ∃ registration : Registration rmf,
      bound = handles.modify r (fun object => { object with registration := some registration }) ∧
        m.closures registration.callbacks = robotClosures fleet robot r scope := by
  unfold prepareRobot buildRobotCallbacks at h
  obtain ⟨config, -, h⟩ := bind_eq_ok.mp h
  obtain ⟨callbacks, hcallbacks, h⟩ := bind_eq_ok.mp h
  obtain rfl := Except.ok.inj h
  have hbuilt := m.closures_robotCallbacks (mapError_ok_iff.mp hcallbacks)
  exact ⟨⟨fleetHandle, config, callbacks⟩, rfl, hbuilt⟩

theorem prepareRobot_wires {fleet robot : String} {fleetHandle : rmf.FleetHandle}
    {robotConfig : Except Exc rmf.RobotConfiguration} {r : ℕ} {bound : Handles rmf}
    (hwired : WiredFleet m fleet scope handles) (href : handles.ref (.text robot) = some r)
    (h : prepareRobot m fleet robot scope fleetHandle robotConfig handles r = .ok bound) :
    WiredFleet m fleet scope bound ∧ bound.ref = handles.ref ∧ Prepared bound robot ∧
      ∀ other, Prepared handles other → Prepared bound other := by
  obtain ⟨registration, rfl, hclosures⟩ := prepareRobot_ok h
  obtain ⟨object, hobject⟩ := ObjectStore.exists_get href
  rw [ObjectStore.get_of_ref href] at hobject
  have hname : object.robotName = robot := (Key.text.inj (hwired.named href hobject)).symm
  have hself : (handles.modify r fun old =>
      { old with registration := some registration }).objects[r]? =
        some { object with registration := some registration } := by
    rw [handles.modify_objects_self, hobject]
    rfl
  have hprepared : PreparedWith (handles.modify r fun old =>
      { old with registration := some registration }) robot r registration :=
    ⟨href, _, hself, hname, rfl⟩
  refine ⟨⟨?_, ?_, ?_, ?_⟩, rfl, ⟨r, registration, hprepared⟩, ?_⟩
  · intro key r' changed href' hchanged
    obtain ⟨-, hold⟩ | ⟨rfl, old, hold, rfl⟩ := ObjectStore.modify_objects_cases hchanged
    · exact hwired.named href' hold
    · exact hwired.named (h := old) href' hold
  · intro r' changed hchanged hsome
    obtain ⟨-, hold⟩ | ⟨rfl, old, hold, rfl⟩ := ObjectStore.modify_objects_cases hchanged
    · exact hwired.reachable hold hsome
    · obtain rfl := Option.some.inj (hold.symm.trans hobject)
      show handles.ref (.text old.robotName) = some r'
      rw [hname, href]
  · intro r' changed registration' hchanged hregistration
    obtain ⟨-, hold⟩ | ⟨rfl, old, hold, rfl⟩ := ObjectStore.modify_objects_cases hchanged
    · exact hwired.closures hold hregistration
    · obtain rfl := Option.some.inj (hold.symm.trans hobject)
      obtain rfl := Option.some.inj hregistration
      show m.closures registration.callbacks = robotClosures fleet old.robotName r' scope
      rw [hname, hclosures]
  · intro r' changed hchanged
    obtain ⟨-, hold⟩ | ⟨rfl, old, hold, rfl⟩ := ObjectStore.modify_objects_cases hchanged
    · exact hwired.unbound hold
    · exact hwired.unbound (h := old) hold
  · rintro other ⟨r', registration', hother⟩
    rcases eq_or_ne r r' with rfl | hne
    · obtain rfl := Key.text.inj (handles.separate hother.ref href)
      exact ⟨r, registration, hprepared⟩
    · refine ⟨r', registration', hother.ref, ?_⟩
      rw [handles.modify_objects_of_ne hne]
      exact hother.object

theorem foldlM_prepares {α : Type} {items : List α} (name : α → String)
    (P : Handles rmf → Prop) {f : Handles rmf → α → Except BindError (Handles rmf)}
    (hstep : ∀ {handles next : Handles rmf} {a : α}, a ∈ items → P handles →
      f handles a = .ok next →
      P next ∧ Prepared next (name a) ∧ ∀ other, Prepared handles other → Prepared next other)
    {bound : Handles rmf} (hstart : P handles) (h : items.foldlM f handles = .ok bound) :
    P bound ∧ (∀ a ∈ items, Prepared bound (name a)) ∧
      ∀ other, Prepared handles other → Prepared bound other := by
  induction items generalizing handles with
  | nil =>
    obtain rfl := Except.ok.inj h
    exact ⟨hstart, List.forall_mem_nil _, fun _ hother => hother⟩
  | cons a items ih =>
    obtain ⟨next, hfirst, hrest⟩ := bind_eq_ok.mp h
    obtain ⟨hnext, hrobot, hkept⟩ := hstep List.mem_cons_self hstart hfirst
    obtain ⟨hbound, hprepared, hkept'⟩ :=
      ih (fun hmem => hstep (List.mem_cons_of_mem a hmem)) hnext hrest
    refine ⟨hbound, ?_, fun other hother => hkept' other (hkept other hother)⟩
    exact List.forall_mem_cons.mpr ⟨hkept' _ hrobot, hprepared⟩

theorem prepareKnownRobots_wires {fleet robot : String} {fleetConfig : m.FleetConfiguration}
    {fleetHandle : rmf.FleetHandle} {next : Handles rmf}
    (hwired : WiredFleet m fleet scope handles)
    (h : prepareKnownRobots m fleetConfig fleet scope fleetHandle handles robot = .ok next) :
    WiredFleet m fleet scope next ∧ Prepared next robot ∧
      ∀ other, Prepared handles other → Prepared next other := by
  unfold prepareKnownRobots at h
  dsimp only at h
  split at h
  · rename_i r href
    obtain ⟨hnext, -, hrobot, hkept⟩ := prepareRobot_wires hwired href h
    exact ⟨hnext, hrobot, hkept⟩
  · rename_i hfree
    have hcreated : WiredFleet m fleet scope (handles.create (.text robot) (.new rmf robot)) := by
      apply hwired.create
      rintro r old hold hsome rfl
      have hthere := hwired.reachable hold hsome
      rw [hfree] at hthere
      cases hthere
    obtain ⟨hnext, -, hrobot, hkept⟩ :=
      prepareRobot_wires hcreated (handles.create_ref_self _ _) h
    refine ⟨hnext, hrobot, ?_⟩
    rintro other ⟨r, registration, hother⟩
    exact hkept other ⟨r, registration, hother.create hfree⟩

def newHandles (rmf : RmfAdapter) (names : List String) : Handles rmf :=
  names.foldl (fun handles name => handles.create (.text name) (.new rmf name)) .empty

theorem newHandles_append (rmf : RmfAdapter) (names : List String) (name : String) :
    newHandles rmf (names ++ [name]) =
      (newHandles rmf names).create (.text name) (.new rmf name) := by
  unfold newHandles
  rw [List.foldl_append, List.foldl_cons, List.foldl_nil]

theorem newHandles_wired (m : RmfModule rmf) (fleet : String) (scope : Option String)
    (names : List String) :
    WiredFleet m fleet scope (newHandles rmf names) ∧
      (∀ (r : ℕ) (h : RobotHandle rmf), (newHandles rmf names).objects[r]? = some h →
        h.registration = none) ∧
      ∀ name ∈ names, ∃ r, (newHandles rmf names).ref (.text name) = some r := by
  induction names using List.reverseRecOn with
  | nil =>
    have hnone : ∀ {r : ℕ} {h : RobotHandle rmf}, (newHandles rmf []).objects[r]? ≠ some h := nofun
    refine ⟨⟨nofun, ?_, ?_, ?_⟩, fun _ _ hobject => absurd hobject hnone, List.forall_mem_nil _⟩
    · exact fun hobject => absurd hobject hnone
    · exact fun hobject => absurd hobject hnone
    · exact fun hobject => absurd hobject hnone
  | append_singleton names name ih =>
    obtain ⟨hwired, hnew, href⟩ := ih
    rw [newHandles_append]
    generalize newHandles rmf names = handles at hwired hnew href ⊢
    refine ⟨?_, ?_, ?_⟩
    · apply hwired.create
      intro r old hold hsome
      rw [hnew r old hold] at hsome
      exact nomatch hsome
    · intro r h hobject
      obtain hold | ⟨-, rfl⟩ := ObjectStore.create_objects_cases hobject
      · exact hnew r h hold
      · rfl
    · intro other hother
      rcases eq_or_ne other name with rfl | hne
      · exact ⟨_, handles.create_ref_self _ _⟩
      · have hold : other ∈ names := by simpa [hne] using hother
        obtain ⟨r, hr⟩ := href other hold
        exact ⟨r, (handles.create_ref_of_ne (fun heq => hne (Key.text.inj heq)) _).trans hr⟩

theorem foldlM_addRobotHandle (repr : Json → String) {robots : List Dict} {names : List String}
    (hnames : robots.map (Dict.get · "name") = names.map .str) (hnonempty : "" ∉ names)
    (handles : Handles rmf) :
    (robots.map Json.obj).foldlM (addRobotHandle repr) handles =
      .ok (names.foldl (fun handles name => handles.create (.text name) (.new rmf name))
        handles) := by
  induction names generalizing robots handles with
  | nil =>
    obtain rfl := List.map_eq_nil_iff.mp hnames
    rfl
  | cons name names ih =>
    obtain ⟨robot, robots, rfl, hname, hrest⟩ := List.map_eq_cons_iff.mp hnames
    have hne : name ≠ "" := fun h => hnonempty (h ▸ List.mem_cons_self)
    have hstep : addRobotHandle repr handles (.obj robot) =
        .ok (handles.create (.text name) (.new rmf name)) := by
      unfold addRobotHandle
      simp only [hname, Json.truthy, bne_iff_ne, if_pos hne]
      rfl
    rw [List.map_cons, List.foldlM_cons, hstep, List.foldl_cons]
    exact ih hrest (fun h => hnonempty (List.mem_cons_of_mem _ h)) _

theorem buildRobotHandles_eq {repr : Json → String} {fleetEntry : Dict} {robots : List Dict}
    {names : List String} (hrobots : robotsOf fleetEntry = .ok (robots.map .obj))
    (hnames : robots.map (Dict.get · "name") = names.map .str) (hnonempty : "" ∉ names) :
    buildRobotHandles rmf repr fleetEntry = .ok (newHandles rmf names) := by
  unfold buildRobotHandles
  rw [hrobots]
  exact foldlM_addRobotHandle repr hnames hnonempty _

theorem prepareListedRobots_wires {repr : Json → String} {fleet : String}
    {fleetHandle : rmf.FleetHandle} {robot : Dict} {name : String} {next : Handles rmf}
    (hwired : WiredFleet m fleet scope handles) (hname : Dict.get robot "name" = .str name)
    (hne : name ≠ "") (hthere : ∃ r, handles.ref (.text name) = some r)
    (h : prepareListedRobots m repr fleet scope fleetHandle handles (.obj robot) = .ok next) :
    WiredFleet m fleet scope next ∧ next.ref = handles.ref ∧ Prepared next name ∧
      ∀ other, Prepared handles other → Prepared next other := by
  obtain ⟨r, href⟩ := hthere
  unfold prepareListedRobots at h
  simp only [hname, Json.truthy, bne_iff_ne, if_pos hne, Json.key, href] at h
  exact prepareRobot_wires hwired href h

/-! ### The two bindings -/

theorem bindEasyFullControl_ok {repr : Json → String} {fleetEntry : Dict} {buildingMap : Json}
    {nodeName : String} {serverUri : Option String} {bound : Bound m}
    (h : bindEasyFullControl m repr fleetEntry buildingMap nodeName serverUri scope handles =
      .ok bound) :
    ∃ robots, robotsOf fleetEntry = .ok robots ∧
      robots.foldlM (prepareListedRobots m repr ((Dict.get fleetEntry "fleet_name").text repr)
        scope bound.fleetHandle) handles = .ok bound.handles := by
  unfold bindEasyFullControl at h
  obtain ⟨fleetName, hfleet, h⟩ := bind_eq_ok.mp h
  obtain ⟨_, -, h⟩ := bind_eq_ok.mp h
  obtain ⟨⟨_, fleetHandle⟩, -, h⟩ := bind_eq_ok.mp h
  obtain ⟨robots, hrobots, h⟩ := bind_eq_ok.mp h
  obtain ⟨_, hfold, h⟩ := bind_eq_ok.mp h
  obtain rfl := Except.ok.inj h
  have hname : Dict.get fleetEntry "fleet_name" = fleetName := by
    have hitem : Dict.item fleetEntry "fleet_name" = .ok fleetName := mapError_ok_iff.mp hfleet
    unfold Dict.item at hitem
    unfold Dict.get
    split at hitem
    · rename_i v hv
      obtain rfl := Except.ok.inj hitem
      rw [hv, Option.getD_some]
    · exact nomatch hitem
  rw [hname]
  exact ⟨robots, mapError_ok_iff.mp hrobots, hfold⟩

theorem bindFromYaml_ok {repr : Json → String} {configPath navGraphPath nodeName fleet : String}
    {serverUri : Option String} {bound : Bound m}
    (h : bindFromYaml m repr configPath navGraphPath nodeName fleet serverUri scope handles =
      .ok bound) :
    ∃ fleetConfig, m.fromConfigFiles configPath navGraphPath = .ok (some fleetConfig) ∧
      (m.knownRobots (addServerUri m fleetConfig serverUri)).foldlM (prepareKnownRobots m
        (addServerUri m fleetConfig serverUri) fleet scope bound.fleetHandle) handles =
          .ok bound.handles := by
  unfold bindFromYaml at h
  dsimp only at h
  by_cases hpath : configPath = ""
  · rw [if_pos hpath] at h
    exact nomatch h
  rw [if_neg hpath] at h
  by_cases hgraph : navGraphPath = ""
  · rw [if_pos hgraph] at h
    exact nomatch h
  rw [if_neg hgraph] at h
  obtain ⟨found, hfound, h⟩ := bind_eq_ok.mp h
  cases found with
  | none => exact nomatch h
  | some fleetConfig =>
    obtain ⟨⟨_, fleetHandle⟩, -, h⟩ := bind_eq_ok.mp h
    obtain ⟨_, hfold, h⟩ := bind_eq_ok.mp h
    obtain rfl := Except.ok.inj h
    exact ⟨fleetConfig, mapError_ok_iff.mp hfound, hfold⟩

/-- The handles that either binding leaves for the robots it lists, under a fleet name. -/
inductive Binds (m : RmfModule rmf) (repr : Json → String) (scope : Option String) :
    String → List String → Handles rmf → Prop
  | dynamic {fleetEntry : Dict} {robots : List Dict} {names : List String} {buildingMap : Json}
      {nodeName : String} {serverUri : Option String} {handles : Handles rmf} {bound : Bound m}
      (hrobots : robotsOf fleetEntry = .ok (robots.map .obj))
      (hnames : robots.map (Dict.get · "name") = names.map .str) (hdistinct : names.Nodup)
      (hnonempty : "" ∉ names) (hhandles : buildRobotHandles rmf repr fleetEntry = .ok handles)
      (hbound : bindEasyFullControl m repr fleetEntry buildingMap nodeName serverUri scope
        handles = .ok bound) :
      Binds m repr scope ((Dict.get fleetEntry "fleet_name").text repr) names bound.handles
  | yaml {configPath navGraphPath nodeName fleet : String} {serverUri : Option String}
      {initial : List String} {fleetConfig : m.FleetConfiguration} {bound : Bound m}
      (hconfig : m.fromConfigFiles configPath navGraphPath = .ok (some fleetConfig))
      (hbound : bindFromYaml m repr configPath navGraphPath nodeName fleet serverUri scope
        (newHandles rmf initial) = .ok bound) :
      Binds m repr scope fleet (m.knownRobots (addServerUri m fleetConfig serverUri))
        bound.handles

theorem Binds.wires {repr : Json → String} {fleet : String} {names : List String}
    {bound : Handles rmf} (h : Binds m repr scope fleet names bound) :
    WiredFleet m fleet scope bound ∧ ∀ name ∈ names, Prepared bound name := by
  cases h with
  | @dynamic fleetEntry robots _ _ _ _ handles bound hrobots hnames hdistinct hnonempty
      hhandles hbound =>
    obtain rfl := Except.ok.inj (hhandles.symm.trans (buildRobotHandles_eq hrobots hnames hnonempty))
    obtain ⟨listed, hlisted, hloop⟩ := bindEasyFullControl_ok hbound
    obtain rfl := Except.ok.inj (hrobots.symm.trans hlisted)
    rw [List.foldlM_map] at hloop
    obtain ⟨hnew, -, hthere⟩ := newHandles_wired m
      ((Dict.get fleetEntry "fleet_name").text repr) scope names
    have hname : ∀ robot ∈ robots, ∃ name ∈ names, Dict.get robot "name" = .str name := by
      intro robot hrobot
      have hmem : Dict.get robot "name" ∈ names.map Json.str :=
        hnames ▸ List.mem_map_of_mem hrobot
      obtain ⟨name, hname, heq⟩ := List.mem_map.mp hmem
      exact ⟨name, hname, heq.symm⟩
    -- The references stay as they were built, so that no listed robot is passed over.
    obtain ⟨⟨hwired, -⟩, hprepared, -⟩ := foldlM_prepares
      (fun robot : Dict => (Dict.get robot "name").text repr)
      (fun now => WiredFleet m _ scope now ∧ now.ref = (newHandles rmf names).ref)
      (fun {now next robot} hrobot hnow hstep => by
        obtain ⟨name, hmem, heq⟩ := hname robot hrobot
        obtain ⟨hnext, href, hrest⟩ := prepareListedRobots_wires hnow.1 heq
          (fun h => hnonempty (h ▸ hmem)) (hnow.2 ▸ hthere name hmem) hstep
        rw [heq]
        exact ⟨⟨hnext, href.trans hnow.2⟩, hrest⟩) ⟨hnew, rfl⟩ hloop
    refine ⟨hwired, fun name hmem => ?_⟩
    have hrobot : Json.str name ∈ robots.map (Dict.get · "name") :=
      hnames ▸ List.mem_map_of_mem hmem
    obtain ⟨robot, hrobot, heq⟩ := List.mem_map.mp hrobot
    have hthis := hprepared robot hrobot
    rw [heq] at hthis
    exact hthis
  | @yaml _ _ _ _ serverUri initial fleetConfig bound hconfig hbound =>
    have hnew := (newHandles_wired m fleet scope initial).1
    obtain ⟨found, hfound, hloop⟩ := bindFromYaml_ok hbound
    obtain rfl := Option.some.inj (Except.ok.inj (hconfig.symm.trans hfound))
    obtain ⟨hwired, hprepared, -⟩ := foldlM_prepares id (WiredFleet m fleet scope)
      (fun _ hnow hstep => prepareKnownRobots_wires hnow hstep) hnew hloop
    exact ⟨hwired, hprepared⟩

end Work

/-- After either binding, every robot that it lists is wired alone. -/
theorem no_cross_wiring {repr : Json → String} {scope : Option String} {fleet robot : String}
    {names : List String} {handles : Handles rmf} (h : Binds m repr scope fleet names handles)
    (hrobot : robot ∈ names) : WiredAlone m fleet scope handles robot := by
  obtain ⟨hwired, hprepared⟩ := h.wires
  obtain ⟨r, registration, hr⟩ := hprepared robot hrobot
  exact wiredAlone hwired hr

def wiredRmf : RmfAdapter := { plainRmf with RobotCallbacks := RobotClosures }

def wiredModule : RmfModule wiredRmf where
  VehicleTraits := Unit
  BatterySystem := Unit
  Graph := Unit
  FleetConfiguration := Unit
  Adapter := Unit
  vehicleTraits _ _ _ _ := .ok ()
  batterySystem _ _ _ := .ok ()
  deserialize _ := .ok ()
  fleetConfiguration _ _ _ _ _ := .ok ()
  fromConfigFiles _ _ := .ok (some ())
  withServerUri _ _ := ()
  makeAdapter _ := .ok (some ())
  addEasyFleet _ _ := .ok ()
  knownRobots _ := ["r1", "r2"]
  knownRobotConfiguration _ _ := .ok ()
  robotConfiguration := .ok ()
  robotCallbacks c := .ok c
  closures c := c
  closures_robotCallbacks h := (Except.ok.inj h).symm

def pairEntry : Dict :=
  [("fleet_name", .str "fleet"),
    ("traits", .obj (requiredTraits.map fun k => (k, .float (.finite 1)))),
    ("battery", .obj [("nominal_voltage_v", .float (.finite 12)),
      ("capacity_ah", .float (.finite 24))]),
    ("nav_graph_name", .str "g"),
    ("robots", .arr [.obj [("name", .str "r1")], .obj [("name", .str "r2")]])]

def pairMap : Json :=
  .obj [("levels", .arr [.obj [("nav_graphs", .arr [.obj [("name", .str "g")]])]])]

def pairHandles : Handles wiredRmf :=
  ((newHandles wiredRmf ["r1", "r2"]).modify 0 fun h =>
    h.prepareRegistration () () (robotClosures "fleet" "r1" 0 (some "north"))).modify 1 fun h =>
    h.prepareRegistration () () (robotClosures "fleet" "r2" 1 (some "north"))

theorem pair_binds :
    Binds wiredModule (fun _ => "") (some "north") "fleet" ["r1", "r2"] pairHandles :=
  @Binds.dynamic _ wiredModule (fun _ => "") (some "north") pairEntry
    [[("name", .str "r1")], [("name", .str "r2")]] ["r1", "r2"] pairMap "node" none
    (newHandles wiredRmf ["r1", "r2"]) ⟨(), (), pairHandles⟩ rfl rfl (by decide) (by decide) rfl rfl

theorem no_cross_wiring_witness :
    WiredAlone wiredModule "fleet" (some "north") pairHandles "r2" :=
  no_cross_wiring wiredModule pair_binds (by decide)

end QuikSync.Fleet
