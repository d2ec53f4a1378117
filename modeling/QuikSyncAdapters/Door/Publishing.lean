import QuikSyncAdapters.Client.WsFrames
import QuikSyncAdapters.Pump.Attended
import QuikSyncAdapters.Scoping

/-! The state path of the door adapter, from the messages on its WebSocket connections to the
`DoorState` messages of its ROS publisher, with requests routed in between. -/

namespace QuikSync.Door

open Client Py Fallible Pump

/-- `rmf_door_msgs.msg`, whose constructors check what they are given. -/
structure MsgModule where
  Time : Type
  DoorMode : Type
  DoorState : Type
  time : ℤ → ℤ → Except Exc Time
  doorMode : ℤ → Except Exc DoorMode
  doorState : Json → Time → DoorMode → Except Exc DoorState

def buildDoorStateMsg (m : MsgModule) (fields : DoorStateFields) : Except Exc m.DoorState := do
  let doorTime ← m.time fields.doorTime.1 fields.doorTime.2
  let mode ← m.doorMode fields.currentMode
  m.doorState fields.doorName doorTime mode

/-- The fields say what the frame says: its name, the time of its milliseconds in normal form
and the integer that its mode is coerced to. -/
structure Shows (frame : Dict) (fields : DoorStateFields) : Prop where
  name : frame.lookup "door_name" = some fields.doorName
  time : ∃ millis, frame.lookup "door_time" = some (.int millis) ∧
    stampNanos fields.doorTime = millis * 1000000
  normal : 0 ≤ fields.doorTime.2 ∧ fields.doorTime.2 < 1000000000
  mode : ∃ mode value, frame.lookup "current_mode" = some (.obj mode) ∧
    mode.lookup "value" = some value ∧ value.toInt = .ok fields.currentMode

theorem translateState_eq_ok {frame : Dict} {fields : DoorStateFields} :
    translateState frame = .ok fields ↔ Shows frame fields := by
  constructor
  · intro h
    obtain ⟨stamp, hstamp, h⟩ := bind_eq_ok.mp h
    obtain ⟨value, hvalue, h⟩ := bind_eq_ok.mp h
    obtain ⟨name, hname, h⟩ := bind_eq_ok.mp h
    obtain rfl := Except.ok.inj h
    obtain ⟨time, htime, hparts⟩ := bind_eq_ok.mp hstamp
    obtain ⟨millis, rfl, hnanos, hnormal⟩ := millisToTimeParts_eq_ok.mp hparts
    obtain ⟨code, hcode, hint⟩ := bind_eq_ok.mp hvalue
    obtain ⟨member, hmember, hcode⟩ := bind_eq_ok.mp hcode
    obtain ⟨mode, rfl, hlookup⟩ := Json.item_eq_ok.mp hcode
    exact ⟨Dict.item_eq_ok.mp hname, ⟨millis, Dict.item_eq_ok.mp htime, hnanos⟩, hnormal,
      ⟨mode, code, Dict.item_eq_ok.mp hmember, hlookup, hint⟩⟩
  · rintro ⟨hname, ⟨millis, htime, hnanos⟩, hnormal, ⟨mode, code, hmode, hcode, hint⟩⟩
    have hparts : millisToTimeParts (.int millis) = .ok fields.doorTime :=
      millisToTimeParts_eq_ok.mpr ⟨millis, rfl, hnanos, hnormal⟩
    have hitem : (Json.obj mode).item "value" = .ok code :=
      Json.item_eq_ok.mpr ⟨mode, rfl, hcode⟩
    refine bind_eq_ok.mpr ⟨fields.doorTime, bind_eq_ok.mpr
      ⟨_, Dict.item_eq_ok.mpr htime, hparts⟩, ?_⟩
    refine bind_eq_ok.mpr ⟨fields.currentMode, bind_eq_ok.mpr ⟨code, bind_eq_ok.mpr
      ⟨_, Dict.item_eq_ok.mpr hmode, hitem⟩, hint⟩, ?_⟩
    exact bind_eq_ok.mpr ⟨fields.doorName, Dict.item_eq_ok.mpr hname, rfl⟩

def stateMsg (m : MsgModule) (frame : Dict) : Option m.DoorState :=
  (translateState frame).toOption.bind fun fields => (buildDoorStateMsg m fields).toOption

inductive DoorAction (m : MsgModule) where
  | posted (p : DoorPost)
  | published (door : String) (msg : m.DoorState) (accepted : Bool)

def publish (m : MsgModule) (door : String) (accepted : Bool) (fields : DoorStateFields) :
    List (DoorAction m) :=
  match buildDoorStateMsg m fields with
  | .ok msg => [.published door msg accepted]
  | .error _ => []

/-- The node with its publisher: a frame is published if its message can be built and the
publisher takes it. -/
def publishingNode (m : MsgModule) : Machine DoorAdapterNode DoorEvent (List (DoorAction m)) where
  step n
    | .request r fresh outcome =>
      let routed := n.routeRequest r fresh outcome
      (routed.node, routed.posts.map .posted)
    | .frame door frame accepted =>
      let received := n.onStateFrame door frame ((stateMsg m frame).isSome && accepted)
      (received.1, received.2.toList.flatMap (publish m door accepted))

variable {m : MsgModule}

def DoorAction.publication : DoorAction m → Option (String × m.DoorState)
  | published door msg _ => some (door, msg)
  | posted _ => none

def DoorAction.post : DoorAction m → Option DoorPost
  | published .. => none
  | posted p => some p

def DoorAction.acceptedFor (door : String) : DoorAction m → Bool
  | published door' _ accepted => accepted && decide (door' = door)
  | posted _ => false

structure Incoming where
  request : DoorRequest
  fresh : String
  outcome : Except Exc Json

def Incoming.event (i : Incoming) : DoorEvent := .request i.request i.fresh i.outcome

def frameEvents (a : Arrival Bool) (d : Delivery) : List DoorEvent :=
  d.invocations.filterMap fun
    | (.str door, frame) => some (.frame door frame a.outcome)
    | _ => none

def adapter (m : MsgModule) (doors : List String) (scope : Option String) :
    Machine (PumpWorld × DoorAdapterNode) (Arrival Bool ⊕ Incoming) (List (DoorAction m)) :=
  (attended doors fun door => doorStatePump door scope).pipe (publishingNode m) frameEvents
    Incoming.event

def stateOf (m : MsgModule) (doors : List String) (e : ℕ × Decoded) :
    Option (String × m.DoorState) :=
  (e.2.frame?.bind (stateMsg m)).map fun msg => (doors.getD e.1 "", msg)

/-! ### What a step does -/

section Step

variable {n n' : DoorAdapterNode} {doors : List String} {scope : Option String}

structure Serves (doors : List String) (scope : Option String) (n : DoorAdapterNode) : Prop where
  keys : n.handles.keys = doors
  namespaced : n.handles.Forall (·.scope = scope)

theorem Serves.set (h : Serves doors scope n) {handle : DoorHandle}
    (hscope : handle.scope = scope) :
    Serves doors scope ⟨n.handles.set handle⟩ := ⟨h.keys, h.namespaced.set hscope⟩

theorem Serves.get_of_mem (h : Serves doors scope n) {door : String} (hdoor : door ∈ doors) :
    n.handles.get door = some (n.handles.entry door) :=
  Registry.get_eq_some.mpr ⟨h.keys ▸ hdoor, rfl⟩

theorem Serves.get_of_notMem (h : Serves doors scope n) {door : String} (hdoor : door ∉ doors) :
    n.handles.get door = none := Registry.get_eq_none.mpr (h.keys ▸ hdoor)

theorem onStateFrame_fields (h : DoorHandle) (frame : Dict) (published : Bool) :
    (h.onStateFrame frame published).2 = (translateState frame).toOption := by
  unfold DoorHandle.onStateFrame
  cases translateState frame with
  | error e => rfl
  | ok fields => cases published <;> rfl

theorem mem_publish {door : String} {accepted : Bool} {fields : DoorStateFields}
    {a : DoorAction m} :
    a ∈ publish m door accepted fields ↔
      ∃ msg, buildDoorStateMsg m fields = .ok msg ∧ a = .published door msg accepted := by
  unfold publish
  cases buildDoorStateMsg m fields <;> simp

theorem publish_publications (door : String) (accepted : Bool) (frame : Dict) :
    ((translateState frame).toOption.toList.flatMap (publish m door accepted)).filterMap
        DoorAction.publication =
      ((stateMsg m frame).map fun msg => (door, msg)).toList := by
  unfold stateMsg
  cases translateState frame with
  | error e => rfl
  | ok fields =>
    show ((publish m door accepted fields) ++ []).filterMap _ =
      ((buildDoorStateMsg m fields).toOption.map _).toList
    unfold publish
    cases buildDoorStateMsg m fields <;> rfl

theorem dispatchRequest_posts_congr {h h' : DoorHandle} (hname : h.doorName = h'.doorName)
    (hscope : h.scope = h'.scope) (r : DoorRequest) (executionId : Option String) (fresh : String)
    (outcome : Except Exc Json) :
    (h.dispatchRequest r executionId fresh outcome).posts =
      (h'.dispatchRequest r executionId fresh outcome).posts := by
  have hscreen : h.screen r executionId fresh = h'.screen r executionId fresh := by
    unfold DoorHandle.screen
    rw [hname, hscope]
  unfold DoorHandle.dispatchRequest
  rw [hscreen]
  cases h'.screen r executionId fresh with
  | error why => rfl
  | ok p => cases outcome <;> rfl

theorem routeRequest_posts_congr (h : Serves doors scope n) (h' : Serves doors scope n')
    (r : DoorRequest) (fresh : String) (outcome : Except Exc Json) :
    (n.routeRequest r fresh outcome).posts = (n'.routeRequest r fresh outcome).posts := by
  unfold DoorAdapterNode.routeRequest
  cases r.doorName with
  | none => rfl
  | some door =>
    dsimp only
    by_cases hdoor : door ∈ doors
    · rw [h.get_of_mem hdoor, h'.get_of_mem hdoor]
      apply dispatchRequest_posts_congr
      · rw [n.handles.keyed, n'.handles.keyed]
      · exact (h.namespaced door).trans (h'.namespaced door).symm
    · rw [h.get_of_notMem hdoor, h'.get_of_notMem hdoor]

theorem serves_step (h : Serves doors scope n) (e : DoorEvent) :
    Serves doors scope ((publishingNode m).step n e).1 := by
  cases e with
  | request r fresh outcome =>
    show Serves doors scope (n.routeRequest r fresh outcome).node
    unfold DoorAdapterNode.routeRequest
    cases r.doorName with
    | none => exact h
    | some door =>
      dsimp only
      cases hget : n.handles.get door with
      | none => exact h
      | some handle =>
        have hscope := (dispatchRequest_scope handle r none fresh outcome).1
        exact h.set (hscope.trans (h.namespaced.get hget))
  | frame door frame accepted =>
    show Serves doors scope (n.onStateFrame door frame _).1
    unfold DoorAdapterNode.onStateFrame
    cases hget : n.handles.get door with
    | none => exact h
    | some handle =>
      exact h.set ((onStateFrame_scope handle frame _).trans (h.namespaced.get hget))

def publicationsOf (m : MsgModule) (doors : List String) : DoorEvent → List (String × m.DoorState)
  | .request .. => []
  | .frame door frame _ =>
    if door ∈ doors then ((stateMsg m frame).map fun msg => (door, msg)).toList else []

theorem publications_step (h : Serves doors scope n) (e : DoorEvent) :
    ((publishingNode m).step n e).2.filterMap DoorAction.publication =
      publicationsOf m doors e := by
  cases e with
  | request r fresh outcome =>
    show ((n.routeRequest r fresh outcome).posts.map DoorAction.posted).filterMap _ = []
    rw [List.filterMap_map]
    exact List.filterMap_eq_nil_iff.mpr fun _ _ => rfl
  | frame door frame accepted =>
    show ((n.onStateFrame door frame _).2.toList.flatMap (publish m door accepted)).filterMap _ = _
    unfold DoorAdapterNode.onStateFrame publicationsOf
    dsimp only
    by_cases hdoor : door ∈ doors
    · rw [if_pos hdoor, h.get_of_mem hdoor]
      dsimp only
      rw [onStateFrame_fields, publish_publications]
    · rw [if_neg hdoor, h.get_of_notMem hdoor]
      rfl

def postsOf (n₀ : DoorAdapterNode) : DoorEvent → List DoorPost
  | .request r fresh outcome => (n₀.routeRequest r fresh outcome).posts
  | .frame .. => []

theorem posts_step {n₀ : DoorAdapterNode} (h₀ : Serves doors scope n₀) (h : Serves doors scope n)
    (e : DoorEvent) :
    ((publishingNode m).step n e).2.filterMap DoorAction.post = postsOf n₀ e := by
  cases e with
  | request r fresh outcome =>
    show ((n.routeRequest r fresh outcome).posts.map DoorAction.posted).filterMap _ = _
    rw [List.filterMap_map, routeRequest_posts_congr h h₀]
    exact List.filterMap_some
  | frame door frame accepted =>
    show ((n.onStateFrame door frame _).2.toList.flatMap (publish m door accepted)).filterMap _ = []
    rw [List.filterMap_eq_nil_iff]
    intro a ha
    obtain ⟨fields, -, ha⟩ := List.mem_flatMap.mp ha
    obtain ⟨msg, -, rfl⟩ := mem_publish.mp ha
    rfl

theorem dispatchRequest_kept (h : DoorHandle) (r : DoorRequest) (executionId : Option String)
    (fresh : String) (outcome : Except Exc Json) :
    (h.dispatchRequest r executionId fresh outcome).handle.doorName = h.doorName ∧
      (h.dispatchRequest r executionId fresh outcome).handle.stateDispatched =
        h.stateDispatched := by
  unfold DoorHandle.dispatchRequest
  cases h.screen r executionId fresh with
  | error why => exact ⟨rfl, rfl⟩
  | ok p => cases outcome <;> exact ⟨rfl, rfl⟩

theorem onStateFrame_kept (h : DoorHandle) (frame : Dict) (accepted : Bool) :
    (h.onStateFrame frame ((stateMsg m frame).isSome && accepted)).1.doorName = h.doorName ∧
      (h.onStateFrame frame ((stateMsg m frame).isSome && accepted)).1.stateDispatched =
        h.stateDispatched + ((stateMsg m frame).isSome && accepted).toNat := by
  generalize hpublished : ((stateMsg m frame).isSome && accepted) = published
  unfold DoorHandle.onStateFrame
  cases hframe : translateState frame with
  | error e =>
    have hnone : published = false := by
      rw [← hpublished]
      unfold stateMsg
      rw [hframe]
      rfl
    rw [hnone]
    exact ⟨rfl, rfl⟩
  | ok fields => cases published <;> exact ⟨rfl, rfl⟩

theorem publish_accepted (name door : String) (accepted : Bool) (frame : Dict) :
    ((translateState frame).toOption.toList.flatMap (publish m name accepted)).countP
        (DoorAction.acceptedFor door) =
      if door = name then ((stateMsg m frame).isSome && accepted).toNat else 0 := by
  unfold stateMsg
  cases translateState frame with
  | error e => simp [Except.toOption]
  | ok fields =>
    show (publish m name accepted fields ++ []).countP _ =
      if door = name then ((buildDoorStateMsg m fields).toOption.isSome && accepted).toNat else 0
    unfold publish
    cases buildDoorStateMsg m fields with
    | error e => simp [Except.toOption]
    | ok msg =>
      show ([.published name msg accepted] : List (DoorAction m)).countP _ =
        if door = name then accepted.toNat else 0
      rw [List.countP_singleton, DoorAction.acceptedFor]
      cases accepted <;> simp [eq_comm]

theorem dispatched_step (n : DoorAdapterNode) (e : DoorEvent) (door : String) :
    (((publishingNode m).step n e).1.handles.entry door).stateDispatched =
      (n.handles.entry door).stateDispatched +
        ((publishingNode m).step n e).2.countP (DoorAction.acceptedFor door) := by
  cases e with
  | request r fresh outcome =>
    have hnone : ((n.routeRequest r fresh outcome).posts.map DoorAction.posted).countP
        (DoorAction.acceptedFor (m := m) door) = 0 := by
      rw [List.countP_map]
      exact List.countP_eq_zero.mpr fun _ _ => Bool.false_ne_true
    show ((n.routeRequest r fresh outcome).node.handles.entry door).stateDispatched = _ + _
    rw [publishingNode, hnone]
    unfold DoorAdapterNode.routeRequest
    cases r.doorName with
    | none => rfl
    | some name =>
      dsimp only
      cases hget : n.handles.get name with
      | none => rfl
      | some handle =>
        obtain ⟨hname, hcount⟩ := dispatchRequest_kept handle r none fresh outcome
        have hkey := hname.trans (Registry.key_of_get hget)
        rw [Registry.count_set hget hkey (f := DoorHandle.stateDispatched) (c := 0) hcount,
          ite_self]
  | frame name frame accepted =>
    show ((n.onStateFrame name frame _).1.handles.entry door).stateDispatched = _ +
      ((n.onStateFrame name frame _).2.toList.flatMap (publish m name accepted)).countP _
    unfold DoorAdapterNode.onStateFrame
    cases hget : n.handles.get name with
    | none => rfl
    | some handle =>
      obtain ⟨hname, hcount⟩ := onStateFrame_kept (m := m) handle frame accepted
      have hkey := hname.trans (Registry.key_of_get hget)
      dsimp only
      rw [Registry.count_set hget hkey hcount, onStateFrame_fields, publish_accepted]

end Step

/-! ### A run -/

section Run

variable (m : MsgModule) (names : List String) (scope : Option String) (ws : WsConfig)
  (events : List (Arrival Bool ⊕ Incoming))

def doorsOf (names : List String) : List String := (DoorAdapterNode.new names none).handles.keys

def start : PumpWorld × DoorAdapterNode := (.new ws, .new names scope)

def actions : List (DoorAction m) :=
  (adapter m (doorsOf names) scope).trace (start names scope ws) events

def finish : PumpWorld × DoorAdapterNode :=
  (adapter m (doorsOf names) scope).after (start names scope ws) events

def heard : List (ℕ × Decoded) :=
  heardIn (doorsOf names) (fun door => doorStatePump door scope) ws (events.filterMap Sum.getLeft?)

/-- The adapter publishes the frames that its doors hear, each once, in order and for its own
door, counts them, and answers its requests as if there were none. -/
structure StatePath : Prop where
  published : (actions m names scope ws events).filterMap DoorAction.publication =
    (heard names scope ws events).filterMap (stateOf m (doorsOf names))
  shown : ∀ door msg accepted, .published door msg accepted ∈ actions m names scope ws events →
    ∃ p frame fields, (p, .loaded (.obj frame)) ∈ heard names scope ws events ∧
      (doorsOf names)[p]? = some door ∧ Shows frame fields ∧ buildDoorStateMsg m fields = .ok msg
  dispatched : ∀ door handle,
    (finish m names scope ws events).2.handles.get door = some handle →
    handle.stateDispatched = (actions m names scope ws events).countP (DoorAction.acceptedFor door)
  counted : ∀ p,
    ((finish m names scope ws events).1.pumps p).framesSeen =
        (heard names scope ws events).countP (fun e => e.1 = p && e.2.frame?.isSome) ∧
      ((finish m names scope ws events).1.pumps p).dispatchesOk =
        ((finish m names scope ws events).1.pumps p).framesSeen
  posted : (actions m names scope ws events).filterMap DoorAction.post =
    (events.filterMap Sum.getRight?).flatMap fun i =>
      ((DoorAdapterNode.new names scope).routeRequest i.request i.fresh i.outcome).posts

theorem serves_new : Serves (doorsOf names) scope (.new names scope) := ⟨rfl, fun _ => rfl⟩

theorem actions_eq :
    actions m names scope ws events =
      (publishingNode m).trace (.new names scope)
        ((attended (doorsOf names) fun door => doorStatePump door scope).given frameEvents
          Incoming.event (.new ws) events) :=
  (Machine.pipe_run _ _ _ _ _ _ _).1

def publicationsFor (d : Delivery) : List (String × m.DoorState) :=
  (frameEvents ⟨.start 0, true⟩ d).flatMap (publicationsOf m (doorsOf names))

theorem frameEvents_publications (a : Arrival Bool) (d : Delivery) :
    (frameEvents a d).flatMap (publicationsOf m (doorsOf names)) = publicationsFor m names d := by
  unfold publicationsFor frameEvents
  induction d.invocations with
  | nil => rfl
  | cons i is ih =>
    obtain ⟨name, frame⟩ := i
    cases name with
    | str door => exact congrArg (publicationsOf m (doorsOf names) (.frame door frame true) ++ ·) ih
    | _ => exact ih

theorem frameEvents_posts (n₀ : DoorAdapterNode) (a : Arrival Bool) (d : Delivery) :
    (frameEvents a d).flatMap (postsOf n₀) = [] := by
  rw [List.flatMap_eq_nil_iff]
  intro e he
  obtain ⟨⟨name, frame⟩, -, hframe⟩ := List.mem_filterMap.mp he
  cases name with
  | str door =>
    obtain rfl := Option.some.inj hframe
    rfl
  | _ => exact absurd hframe (Option.some_ne_none _).symm

theorem published_eq : (actions m names scope ws events).filterMap DoorAction.publication =
    (heard names scope ws events).filterMap (stateOf m (doorsOf names)) := by
  rw [actions_eq, Machine.trace_view (fun n e h => ⟨serves_step h e, publications_step h e⟩)
    (serves_new names scope), Machine.given_passed _ (fun _ => rfl)
      (frameEvents_publications m names), attended_trace]
  rw [Machine.flatMap_filterMap, List.filterMap_eq_flatMap_toList (stateOf m _)]
  apply List.flatMap_congr
  rintro ⟨p, decoded⟩ he
  unfold stateOf
  cases decoded with
  | loaded v =>
    cases v with
    | obj frame =>
      obtain ⟨-, hmem⟩ := pumped_of_lt (lt_of_heardIn he)
      show (if (doorsOf names).getD p "" ∈ doorsOf names then _ else _) ++ [] = _
      rw [if_pos hmem, List.append_nil]
      rfl
    | _ => rfl
  | _ => rfl

theorem finish_eq :
    finish m names scope ws events =
      ((attended (doorsOf names) fun door => doorStatePump door scope).after (.new ws)
          (events.filterMap Sum.getLeft?),
        (publishingNode m).after (.new names scope)
          ((attended (doorsOf names) fun door => doorStatePump door scope).given frameEvents
            Incoming.event (.new ws) events)) :=
  (Machine.pipe_run _ _ _ _ _ _ _).2

theorem shown_of_published {door : String} {msg : m.DoorState} {accepted : Bool}
    (h : .published door msg accepted ∈ actions m names scope ws events) :
    ∃ p frame fields, (p, .loaded (.obj frame)) ∈ heard names scope ws events ∧
      (doorsOf names)[p]? = some door ∧ Shows frame fields ∧
      buildDoorStateMsg m fields = .ok msg := by
  have hmem : (door, msg) ∈ (actions m names scope ws events).filterMap DoorAction.publication :=
    List.mem_filterMap.mpr ⟨_, h, rfl⟩
  rw [published_eq] at hmem
  obtain ⟨⟨p, decoded⟩, he, hstate⟩ := List.mem_filterMap.mp hmem
  obtain ⟨msg', hmsg, heq⟩ := Option.map_eq_some_iff.mp hstate
  obtain ⟨hdoor, rfl⟩ := Prod.mk.inj heq
  obtain ⟨frame, hframe, hmsg⟩ := Option.bind_eq_some_iff.mp hmsg
  obtain ⟨fields, hfields, hbuilt⟩ := Option.bind_eq_some_iff.mp hmsg
  obtain rfl := Decoded.frame?_eq_some.mp hframe
  refine ⟨p, frame, fields, he, ?_, translateState_eq_ok.mp (ok_of_toOption hfields),
    ok_of_toOption hbuilt⟩
  rw [← hdoor]
  exact (pumped_of_lt (lt_of_heardIn he)).1

/-- The state path of the door adapter, in every run of its pumps and of its requests. -/
theorem state_path : StatePath m names scope ws events where
  published := published_eq m names scope ws events
  shown _ _ _ h := shown_of_published m names scope ws events h
  dispatched door handle hget := by
    rw [finish_eq] at hget
    obtain ⟨-, rfl⟩ := Registry.get_eq_some.mp hget
    have hcount := Machine.after_countP (M := publishingNode m) (P := fun _ => True)
      (f := fun n => (n.handles.entry door).stateDispatched)
      (fun n e _ => ⟨trivial, dispatched_step n e door⟩) (q := .new names scope) trivial
    rw [actions_eq]
    exact (hcount _).trans (Nat.zero_add _)
  counted p := by
    rw [finish_eq]
    refine ⟨?_, dispatchesOk_attended _ _ _ _ (fun _ _ => rfl) p⟩
    rw [framesSeen_attended, attended_trace, List.countP_filterMap]
    refine List.countP_congr ?_
    rintro ⟨p', decoded⟩ -
    cases decoded with
    | loaded v => cases v <;> simp [deliver, Decoded.frame?]
    | _ => simp [deliver, Decoded.frame?]
  posted := by
    rw [actions_eq, Machine.trace_view
      (fun n e h => ⟨serves_step h e, posts_step (serves_new names scope) h e⟩)
      (serves_new names scope), Machine.given_own _ (frameEvents_posts _)]
    rfl

end Run

end QuikSync.Door
