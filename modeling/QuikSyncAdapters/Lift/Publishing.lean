import QuikSyncAdapters.Client.WsFrames
import QuikSyncAdapters.Lift.Convergence
import QuikSyncAdapters.Pump.Attended

/-! The state path of the lift adapter. A frame that is heard first tells the session manager who
holds the lift and is then published; in between, requests try, hold and release the lock. -/

namespace QuikSync.Lift

open Client Py Fallible Pump LiftSessionManager

/-! ### One frame -/

/-- `rmf_lift_msgs.msg`, whose constructors check what they are given. -/
structure MsgModule where
  Time : Type
  LiftState : Type
  time : ℤ → ℤ → Except Exc Time
  -- `LiftState(lift_name, lift_time, available_floors, current_floor, destination_floor,
  -- door_state, motion_state, available_modes, current_mode, session_id)`
  liftState : Json → Time → List String → Json → Json → ℤ → ℤ → List ℤ → ℤ → String →
    Except Exc LiftState

def buildLiftStateMsg (m : MsgModule) (fields : LiftStateFields) : Except Exc m.LiftState := do
  let liftTime ← m.time fields.liftTime.1 fields.liftTime.2
  m.liftState fields.liftName liftTime [] fields.currentFloor fields.destinationFloor
    fields.doorState fields.motionState fields.availableModes fields.currentMode fields.sessionId

def Reads (v : Json) (code : ℤ) : Prop :=
  ∃ members value, v = .obj members ∧ members.lookup "value" = some value ∧ value.toInt = .ok code

/-- The fields say what the frame says, with the defaults for what it leaves out. -/
structure Shows (f : LiftStateFrame) (fields : LiftStateFields) : Prop where
  name : f.members.lookup "lift_name" = some fields.liftName
  time : ∃ millis, f.members.lookup "lift_time" = some (.int millis) ∧
    stampNanos fields.liftTime = millis * 1000000
  normal : 0 ≤ fields.liftTime.2 ∧ fields.liftTime.2 < 1000000000
  floors : fields.currentFloor = (f.getOr "current_floor" (.str "")).orElse (.str "") ∧
    fields.destinationFloor = (f.getOr "destination_floor" (.str "")).orElse (.str "")
  motion : (f.getOr "door_state" (.int 0)).toInt = .ok fields.doorState ∧
    (f.getOr "motion_state" (.int 0)).toInt = .ok fields.motionState
  modes : ∃ items, ((f.getOr "available_modes" .null).orElse (.arr [])).iter = .ok items ∧
    List.Forall₂ Reads items fields.availableModes
  mode : ∃ mode, f.members.lookup "current_mode" = some mode ∧ Reads mode fields.currentMode
  session : fields.sessionId = f.sessionId

theorem item_toInt_eq_ok {v : Json} {code : ℤ} :
    v.item "value" >>= Json.toInt = .ok code ↔ Reads v code := by
  rw [bind_eq_ok]
  constructor
  · rintro ⟨value, hvalue, hcode⟩
    obtain ⟨members, hmembers, hlookup⟩ := Json.item_eq_ok.mp hvalue
    exact ⟨members, value, hmembers, hlookup, hcode⟩
  · rintro ⟨members, value, hmembers, hlookup, hcode⟩
    exact ⟨value, Json.item_eq_ok.mpr ⟨members, hmembers, hlookup⟩, hcode⟩

theorem currentMode_eq_ok {frame : Dict} {code : ℤ} :
    Dict.item frame "current_mode" >>= (·.item "value") >>= Json.toInt = .ok code ↔
      ∃ mode, frame.lookup "current_mode" = some mode ∧ Reads mode code := by
  rw [bind_eq_ok]
  constructor
  · rintro ⟨value, hvalue, hcode⟩
    obtain ⟨mode, hmode, hitem⟩ := bind_eq_ok.mp hvalue
    exact ⟨mode, Dict.item_eq_ok.mp hmode, item_toInt_eq_ok.mp (bind_eq_ok.mpr ⟨_, hitem, hcode⟩)⟩
  · rintro ⟨mode, hmode, hreads⟩
    obtain ⟨value, hitem, hcode⟩ := bind_eq_ok.mp (item_toInt_eq_ok.mpr hreads)
    exact ⟨value, bind_eq_ok.mpr ⟨mode, Dict.item_eq_ok.mpr hmode, hitem⟩, hcode⟩

theorem translateState_eq_ok {f : LiftStateFrame} {fields : LiftStateFields} :
    translateState f = .ok fields ↔ Shows f fields := by
  have hitems : ∀ {items : List Json} {codes : List ℤ},
      (items.mapM fun m => m.item "value" >>= Json.toInt) = .ok codes ↔
        List.Forall₂ Reads items codes := by
    intro items codes
    rw [mapM_eq_ok]
    simp only [item_toInt_eq_ok]
  constructor
  · intro h
    obtain ⟨time, htime, h⟩ := bind_eq_ok.mp h
    obtain ⟨parts, hparts, h⟩ := bind_eq_ok.mp h
    obtain ⟨items, hiter, h⟩ := bind_eq_ok.mp h
    obtain ⟨modes, hmodes, h⟩ := bind_eq_ok.mp h
    obtain ⟨name, hname, h⟩ := bind_eq_ok.mp h
    obtain ⟨door, hdoor, h⟩ := bind_eq_ok.mp h
    obtain ⟨motion, hmotion, h⟩ := bind_eq_ok.mp h
    obtain ⟨mode, hmode, h⟩ := bind_eq_ok.mp h
    obtain rfl := Except.ok.inj h
    obtain ⟨millis, rfl, hnanos, hnormal⟩ := millisToTimeParts_eq_ok.mp hparts
    exact
      { name := Dict.item_eq_ok.mp hname
        time := ⟨millis, Dict.item_eq_ok.mp htime, hnanos⟩
        normal := hnormal
        floors := ⟨rfl, rfl⟩
        motion := ⟨hdoor, hmotion⟩
        modes := ⟨items, hiter, hitems.mp hmodes⟩
        mode := currentMode_eq_ok.mp hmode
        session := rfl }
  · intro h
    obtain ⟨millis, htime, hnanos⟩ := h.time
    obtain ⟨items, hiter, hmodes⟩ := h.modes
    have hparts : millisToTimeParts (.int millis) = .ok fields.liftTime :=
      millisToTimeParts_eq_ok.mpr ⟨millis, rfl, hnanos, h.normal⟩
    refine bind_eq_ok.mpr ⟨_, Dict.item_eq_ok.mpr htime, bind_eq_ok.mpr ⟨_, hparts, ?_⟩⟩
    refine bind_eq_ok.mpr ⟨_, hiter, bind_eq_ok.mpr ⟨_, hitems.mpr hmodes, ?_⟩⟩
    refine bind_eq_ok.mpr ⟨_, Dict.item_eq_ok.mpr h.name, ?_⟩
    refine bind_eq_ok.mpr ⟨_, h.motion.1, bind_eq_ok.mpr ⟨_, h.motion.2, ?_⟩⟩
    refine bind_eq_ok.mpr ⟨_, currentMode_eq_ok.mpr h.mode, ?_⟩
    rw [← h.floors.1, ← h.floors.2, ← h.session]
    rfl

def stateMsg (m : MsgModule) (f : LiftStateFrame) : Option m.LiftState :=
  (translateState f).toOption.bind fun fields => (buildLiftStateMsg m fields).toOption

def reported (f : LiftStateFrame) : Option String :=
  (translateState f).toOption.map LiftStateFields.sessionId

def isSession : Option Json → Bool
  | none | some .null | some (.str _) => true
  | _ => false

theorem isSession_eq_true {v : Option Json} (h : isSession v = true) {w : Json} (hw : v = some w) :
    w = .null ∨ ∃ s, w = .str s := by
  subst hw
  cases w with
  | null => exact Or.inl rfl
  | str s => exact Or.inr ⟨s, rfl⟩
  | _ => exact absurd h Bool.false_ne_true

def LiftStateFrame.ofDict? (frame : Dict) : Option LiftStateFrame :=
  if h : isSession (frame.lookup "session_id") = true then
    some ⟨frame, fun _ hv => isSession_eq_true h hv⟩
  else none

inductive Occurrence (m : MsgModule) where
  | acted (a : LiftAction)
  | published (lift : String) (msg : m.LiftState) (accepted : Bool)

def publish (m : MsgModule) (lift : String) (accepted : Bool) (fields : LiftStateFields) :
    List (Occurrence m) :=
  match buildLiftStateMsg m fields with
  | .ok msg => [.published lift msg accepted]
  | .error _ => []

/-- The node with its publisher: the manager is told before the message goes out. -/
def publishingNode (m : MsgModule) : Machine LiftSystem LiftEvent (List (Occurrence m)) where
  step q
    | .frame lift f now accepted =>
      let published := (stateMsg m f).isSome && accepted
      let told := q.frame lift f now published
      let fields := (q.node.onStateFrame lift f now published).2
      (told.1, told.2.map .acted ++ fields.toList.flatMap (publish m lift accepted))
    | e => ((q.step e).1, (q.step e).2.map .acted)

variable {m : MsgModule}

def Occurrence.publication : Occurrence m → Option (String × m.LiftState)
  | published lift msg _ => some (lift, msg)
  | acted _ => none

def Occurrence.acceptedFor (lift : String) : Occurrence m → Bool
  | published lift' _ accepted => accepted && decide (lift' = lift)
  | acted _ => false

def LiftAction.told : LiftAction → Option (String × String)
  | observed lift session _ => some (lift, session)
  | _ => none

def Occurrence.told : Occurrence m → Option (String × String)
  | acted a => a.told
  | published .. => none

def ofLift (lift : String) (said : String × String) : Option String :=
  if said.1 = lift then some said.2 else none

structure Reception where
  accepted : Bool
  now : ℚ

inductive RequestEvent where
  | dispatch (owner : String) (r : LiftRequest) (executionId : Option String) (fresh : String)
      (now stamp : ℚ)
  | response (i : ℕ) (outcome : Except Exc Json)

def RequestEvent.event : RequestEvent → LiftEvent
  | dispatch owner r executionId fresh now stamp => .dispatch owner r executionId fresh now stamp
  | response i outcome => .response i outcome

def frameEvents (a : Arrival Reception) (d : Delivery) : List LiftEvent :=
  d.invocations.filterMap fun
    | (.str lift, frame) => (LiftStateFrame.ofDict? frame).map fun f =>
      .frame lift f a.outcome.now a.outcome.accepted
    | _ => none

def adapter (m : MsgModule) (lifts : List String) (scope : Option String) :
    Machine (PumpWorld × LiftSystem) (Arrival Reception ⊕ RequestEvent) (List (Occurrence m)) :=
  (attended lifts fun lift => liftStatePump lift scope).pipe (publishingNode m) frameEvents
    RequestEvent.event

def frameOf (lifts : List String) (e : ℕ × Decoded) : Option (String × LiftStateFrame) :=
  (e.2.frame?.bind LiftStateFrame.ofDict?).map fun f => (lifts.getD e.1 "", f)

def publicationOf (m : MsgModule) (e : String × LiftStateFrame) : Option (String × m.LiftState) :=
  (stateMsg m e.2).map fun msg => (e.1, msg)

def reportOf (e : String × LiftStateFrame) : Option (String × String) :=
  (reported e.2).map fun session => (e.1, session)

/-! ### What a step does -/

namespace LiftSystem

variable {q q' : LiftSystem} {c : Cause} {actions : List LiftAction}

theorem tries_told (p : LiftPost) (now stamp : ℚ) (granted : Bool) :
    (tries p now stamp granted).filterMap LiftAction.told = [] := by
  unfold tries
  split_ifs <;> rfl

theorem Effect.untold (h : Effect q c (q', actions)) (hc : ∀ lift f, c ≠ .frame lift f) :
    actions.filterMap LiftAction.told = [] := by
  apply List.filterMap_eq_nil_iff.mpr
  intro a ha
  cases a with
  | observed lift s t =>
    obtain ⟨f, hframe, -⟩ := h.of_observed ha
    exact absurd hframe (hc lift f)
  | _ => rfl

theorem Effect.view (h : Effect q c (q', actions)) (lift : String) :
    q'.node.sessionManager.server lift =
      ((actions.filterMap LiftAction.told).filterMap (ofLift lift)).getLast?.or
        (q.node.sessionManager.server lift) := by
  have hquiet : actions.filterMap LiftAction.told = [] →
      q'.node.sessionManager.server lift =
        ((actions.filterMap LiftAction.told).filterMap (ofLift lift)).getLast?.or
          (q.node.sessionManager.server lift) := by
    intro hnone
    rw [hnone]
    apply h.server
    intro s t hmem
    have htold : (lift, s) ∈ actions.filterMap LiftAction.told :=
      List.mem_filterMap.mpr ⟨_, hmem, rfl⟩
    rw [hnone] at htold
    exact List.not_mem_nil htold
  cases h with
  | quiet _ _ => exact hquiet rfl
  | refused p now stamp _ _ => exact hquiet (tries_told p now stamp false)
  | posted p now stamp _ _ =>
    refine hquiet ?_
    rw [List.filterMap_append, tries_told]
    rfl
  | released p verdict _ _ _ _ => exact hquiet rfl
  | observed other f now hm _ =>
    rw [hm, observeServerState_server]
    by_cases hlift : lift = other
    · subst hlift
      rw [Function.update_self]
      simp [LiftAction.told, ofLift]
    · rw [Function.update_of_ne hlift]
      simp [LiftAction.told, ofLift, Ne.symm hlift]

end LiftSystem

section Step

variable {q : LiftSystem} {lifts : List String}

def framesIn (lifts : List String) : LiftEvent → List (String × LiftStateFrame)
  | .frame lift f _ _ => if lift ∈ lifts then [(lift, f)] else []
  | _ => []

theorem filterMap_framesIn {β : Type} (g : String × LiftStateFrame → Option β) (lift : String)
    (f : LiftStateFrame) (now : ℚ) (published : Bool) :
    (framesIn lifts (.frame lift f now published)).filterMap g =
      if lift ∈ lifts then (g (lift, f)).toList else [] := by
  unfold framesIn
  dsimp only
  split_ifs
  · rw [List.filterMap_eq_flatMap_toList, List.flatMap_singleton]
  · rfl

theorem keys_step (h : q.node.handles.keys = lifts) (e : LiftEvent) :
    ((publishingNode m).step q e).1.node.handles.keys = lifts := by
  cases e with
  | dispatch owner r executionId fresh now stamp =>
    exact (LiftSystem.dispatch_keys q owner r executionId fresh now stamp).trans h
  | response i outcome => exact (LiftSystem.response_keys q i outcome).trans h
  | frame lift f now accepted => exact (LiftSystem.frame_keys q lift f now _).trans h

theorem onStateFrame_fields (n : LiftAdapterNode) (lift : String) (f : LiftStateFrame) (now : ℚ)
    (published : Bool) :
    (n.onStateFrame lift f now published).2 =
      if lift ∈ n.handles.keys then (translateState f).toOption else none := by
  unfold LiftAdapterNode.onStateFrame
  by_cases hlift : lift ∈ n.handles.keys
  · rw [if_pos hlift, Registry.get_eq_some.mpr ⟨hlift, rfl⟩]
    dsimp only [LiftHandle.onStateFrame]
    cases translateState f with
    | error e => rfl
    | ok fields => cases published <;> rfl
  · rw [if_neg hlift, Registry.get_eq_none.mpr hlift]

theorem frame_told (q : LiftSystem) (lift : String) (f : LiftStateFrame) (now : ℚ)
    (published : Bool) :
    (q.frame lift f now published).2.filterMap LiftAction.told =
      (framesIn q.node.handles.keys (.frame lift f now published)).filterMap reportOf := by
  rw [filterMap_framesIn]
  unfold LiftSystem.frame
  by_cases hlift : lift ∈ q.node.handles.keys
  · rw [if_pos hlift, Registry.get_eq_some.mpr ⟨hlift, rfl⟩]
    dsimp only
    rw [reportOf, reported]
    cases translateState f <;> rfl
  · rw [if_neg hlift, Registry.get_eq_none.mpr hlift]
    rfl

theorem publish_publications (lift : String) (accepted : Bool) (f : LiftStateFrame) :
    ((translateState f).toOption.toList.flatMap (publish m lift accepted)).filterMap
        Occurrence.publication =
      (publicationOf m (lift, f)).toList := by
  unfold publicationOf stateMsg
  cases translateState f with
  | error e => rfl
  | ok fields =>
    show ((publish m lift accepted fields) ++ []).filterMap _ =
      ((buildLiftStateMsg m fields).toOption.map _).toList
    unfold publish
    cases buildLiftStateMsg m fields <;> rfl

theorem acted_publications (actions : List LiftAction) :
    (actions.map (Occurrence.acted (m := m))).filterMap Occurrence.publication = [] := by
  rw [List.filterMap_map]
  exact List.filterMap_eq_nil_iff.mpr fun _ _ => rfl

theorem publications_step (h : q.node.handles.keys = lifts) (e : LiftEvent) :
    ((publishingNode m).step q e).2.filterMap Occurrence.publication =
      (framesIn lifts e).filterMap (publicationOf m) := by
  cases e with
  | dispatch owner r executionId fresh now stamp => exact acted_publications _
  | response i outcome => exact acted_publications _
  | frame lift f now accepted =>
    dsimp only [publishingNode]
    rw [List.filterMap_append, acted_publications, List.nil_append, onStateFrame_fields, h,
      filterMap_framesIn]
    split_ifs
    · exact publish_publications lift accepted f
    · rfl

theorem acted_told (actions : List LiftAction) :
    (actions.map (Occurrence.acted (m := m))).filterMap Occurrence.told =
      actions.filterMap LiftAction.told := by
  rw [List.filterMap_map]
  rfl

theorem mem_publish {lift : String} {accepted : Bool} {fields : LiftStateFields}
    {o : Occurrence m} :
    o ∈ publish m lift accepted fields ↔
      ∃ msg, buildLiftStateMsg m fields = .ok msg ∧ o = .published lift msg accepted := by
  unfold publish
  cases buildLiftStateMsg m fields <;> simp

theorem published_told (lift : String) (accepted : Bool) (fields : Option LiftStateFields) :
    (fields.toList.flatMap (publish m lift accepted)).filterMap Occurrence.told = [] := by
  rw [List.filterMap_eq_nil_iff]
  intro o ho
  obtain ⟨_, -, ho⟩ := List.mem_flatMap.mp ho
  obtain ⟨msg, -, rfl⟩ := mem_publish.mp ho
  rfl

theorem told_step (h : q.node.handles.keys = lifts) (e : LiftEvent) :
    ((publishingNode m).step q e).2.filterMap Occurrence.told =
        (framesIn lifts e).filterMap reportOf ∧
      ∀ lift, ((publishingNode m).step q e).1.node.sessionManager.server lift =
        ((((publishingNode m).step q e).2.filterMap Occurrence.told).filterMap
            (ofLift lift)).getLast?.or
          (q.node.sessionManager.server lift) := by
  cases e with
  | dispatch owner r executionId fresh now stamp =>
    have heffect := LiftSystem.dispatch_effect q owner r executionId fresh now stamp
    dsimp only [publishingNode]
    rw [acted_told]
    exact ⟨heffect.untold (by simp), heffect.view⟩
  | response i outcome =>
    have heffect := LiftSystem.response_effect q i outcome
    dsimp only [publishingNode]
    rw [acted_told]
    exact ⟨heffect.untold (by simp), heffect.view⟩
  | frame lift f now accepted =>
    have heffect := LiftSystem.frame_effect q lift f now ((stateMsg m f).isSome && accepted)
    dsimp only [publishingNode]
    rw [List.filterMap_append, published_told, List.append_nil, acted_told]
    refine ⟨?_, heffect.view⟩
    rw [frame_told, h]
    rfl

theorem onStateFrame_kept (h : LiftHandle) (manager : LiftSessionManager) (f : LiftStateFrame)
    (now : ℚ) (accepted : Bool) :
    (h.onStateFrame manager f now ((stateMsg m f).isSome && accepted)).1.liftName = h.liftName ∧
      (h.onStateFrame manager f now ((stateMsg m f).isSome && accepted)).1.stateDispatched =
        h.stateDispatched + ((stateMsg m f).isSome && accepted).toNat := by
  generalize hpublished : ((stateMsg m f).isSome && accepted) = published
  unfold LiftHandle.onStateFrame
  cases hframe : translateState f with
  | error e =>
    have hnone : published = false := by
      rw [← hpublished]
      unfold stateMsg
      rw [hframe]
      rfl
    rw [hnone]
    exact ⟨rfl, rfl⟩
  | ok fields => cases published <;> exact ⟨rfl, rfl⟩

theorem publish_accepted (name lift : String) (accepted : Bool) (f : LiftStateFrame) :
    ((translateState f).toOption.toList.flatMap (publish m name accepted)).countP
        (Occurrence.acceptedFor lift) =
      if lift = name then ((stateMsg m f).isSome && accepted).toNat else 0 := by
  unfold stateMsg
  cases translateState f with
  | error e => simp [Except.toOption]
  | ok fields =>
    show (publish m name accepted fields ++ []).countP _ =
      if lift = name then ((buildLiftStateMsg m fields).toOption.isSome && accepted).toNat else 0
    unfold publish
    cases buildLiftStateMsg m fields with
    | error e => simp [Except.toOption]
    | ok msg =>
      show ([.published name msg accepted] : List (Occurrence m)).countP _ =
        if lift = name then accepted.toNat else 0
      rw [List.countP_singleton, Occurrence.acceptedFor]
      cases accepted <;> simp [eq_comm]

theorem acted_accepted (actions : List LiftAction) (lift : String) :
    (actions.map (Occurrence.acted (m := m))).countP (Occurrence.acceptedFor lift) = 0 := by
  rw [List.countP_map]
  exact List.countP_eq_zero.mpr fun _ _ => Bool.false_ne_true

theorem dispatch_dispatched (q : LiftSystem) (owner : String) (r : LiftRequest)
    (executionId : Option String) (fresh : String) (now stamp : ℚ) (lift : String) :
    ((q.dispatch owner r executionId fresh now stamp).1.node.handles.entry lift).stateDispatched =
      (q.node.handles.entry lift).stateDispatched := by
  unfold LiftSystem.dispatch
  cases hget : q.node.handles.get owner with
  | none => rfl
  | some h =>
    have hkey : h.liftName = owner := Registry.key_of_get hget
    have hreject : ((q.node.handles.set h.reject).entry lift).stateDispatched =
        (q.node.handles.entry lift).stateDispatched := by
      rw [Registry.count_set hget (b := h.reject) hkey (f := LiftHandle.stateDispatched)
        (c := 0) rfl, ite_self]
      rfl
    dsimp only
    cases h.screen r executionId fresh with
    | dropped => rfl
    | rejected why => exact hreject
    | request p =>
      dsimp only
      cases (p.gate q.node.sessionManager now stamp).2 with
      | false => exact hreject
      | true => rfl

theorem response_dispatched (q : LiftSystem) (i : ℕ) (outcome : Except Exc Json) (lift : String) :
    ((q.response i outcome).1.node.handles.entry lift).stateDispatched =
      (q.node.handles.entry lift).stateDispatched := by
  unfold LiftSystem.response
  cases q.outstanding[i]? with
  | none => rfl
  | some p =>
    cases outcome with
    | error e => rfl
    | ok body =>
      dsimp only
      cases hget : q.node.handles.get p.lift with
      | none => rfl
      | some h =>
        have hkey : h.liftName = p.lift := Registry.key_of_get hget
        dsimp only
        rw [Registry.count_set hget (b := h.dispatched) hkey (f := LiftHandle.stateDispatched)
          (c := 0) rfl, ite_self]
        rfl

theorem dispatched_step (q : LiftSystem) (e : LiftEvent) (lift : String) :
    (((publishingNode m).step q e).1.node.handles.entry lift).stateDispatched =
      (q.node.handles.entry lift).stateDispatched +
        ((publishingNode m).step q e).2.countP (Occurrence.acceptedFor lift) := by
  cases e with
  | dispatch owner r executionId fresh now stamp =>
    dsimp only [publishingNode]
    rw [acted_accepted]
    exact dispatch_dispatched q owner r executionId fresh now stamp lift
  | response i outcome =>
    dsimp only [publishingNode]
    rw [acted_accepted]
    exact response_dispatched q i outcome lift
  | frame name f now accepted =>
    dsimp only [publishingNode]
    rw [List.countP_append, acted_accepted, Nat.zero_add, onStateFrame_fields]
    unfold LiftSystem.frame
    by_cases hname : name ∈ q.node.handles.keys
    · have hget : q.node.handles.get name = some (q.node.handles.entry name) :=
        Registry.get_eq_some.mpr ⟨hname, rfl⟩
      obtain ⟨hkept, hcount⟩ := onStateFrame_kept (m := m) (q.node.handles.entry name)
        q.node.sessionManager f now accepted
      have hkey := hkept.trans (Registry.key_of_get hget)
      rw [if_pos hname, publish_accepted, hget]
      dsimp only [LiftAdapterNode.onStateFrame]
      rw [hget]
      exact Registry.count_set hget hkey hcount lift
    · rw [if_neg hname, Registry.get_eq_none.mpr hname]
      rfl

end Step

/-! ### A run -/

section Run

variable (m : MsgModule) (names : List String) (scope : Option String) (ttlSeconds : ℚ)
  (ws : WsConfig) (events : List (Arrival Reception ⊕ RequestEvent))

def liftsOf (names : List String) : List String := (LiftSystem.new names none 0).node.handles.keys

def start : PumpWorld × LiftSystem := (.new ws, .new names scope ttlSeconds)

def occurrences : List (Occurrence m) :=
  (adapter m (liftsOf names) scope).trace (start names scope ttlSeconds ws) events

def finish : PumpWorld × LiftSystem :=
  (adapter m (liftsOf names) scope).after (start names scope ttlSeconds ws) events

def heard : List (ℕ × Decoded) :=
  heardIn (liftsOf names) (fun lift => liftStatePump lift scope) ws
    (events.filterMap Sum.getLeft?)

/-- The session ids of the frames that are heard are strings, where there are any. -/
def Sessioned : Prop :=
  ∀ p frame, (p, .loaded (.obj frame)) ∈ heard names scope ws events →
    isSession (frame.lookup "session_id") = true

def frames : List (String × LiftStateFrame) :=
  (heard names scope ws events).filterMap (frameOf (liftsOf names))

def reports (lift : String) : List String :=
  ((frames names scope ws events).filterMap reportOf).filterMap (ofLift lift)

/-- The adapter publishes the frames that its lifts hear, each once, in order and for its own
lift, and tells the session manager of each, which then knows the holder by the last of them. -/
structure StatePath : Prop where
  frames : (frames names scope ws events).map (fun e => (e.1, e.2.members)) =
    (heard names scope ws events).filterMap fun e =>
      e.2.frame?.map fun frame => ((liftsOf names).getD e.1 "", frame)
  published : (occurrences m names scope ttlSeconds ws events).filterMap Occurrence.publication =
    (QuikSync.Lift.frames names scope ws events).filterMap (publicationOf m)
  shown : ∀ lift msg accepted,
    .published lift msg accepted ∈ occurrences m names scope ttlSeconds ws events →
    ∃ f fields, (lift, f) ∈ QuikSync.Lift.frames names scope ws events ∧ Shows f fields ∧
      buildLiftStateMsg m fields = .ok msg
  told : (occurrences m names scope ttlSeconds ws events).filterMap Occurrence.told =
    (QuikSync.Lift.frames names scope ws events).filterMap reportOf
  view : ∀ lift,
    (finish m names scope ttlSeconds ws events).2.node.sessionManager.server lift =
      (reports names scope ws events lift).getLast?
  holder : ∀ lift session, (reports names scope ws events lift).getLast? = some session → ∀ now,
    ((finish m names scope ttlSeconds ws events).2.node.sessionManager.currentHolder lift now).2 =
      if session = "" then none else some session
  dispatched : ∀ lift handle,
    (finish m names scope ttlSeconds ws events).2.node.handles.get lift = some handle →
    handle.stateDispatched =
      (occurrences m names scope ttlSeconds ws events).countP (Occurrence.acceptedFor lift)
  counted : ∀ p,
    ((finish m names scope ttlSeconds ws events).1.pumps p).framesSeen =
        (heard names scope ws events).countP (fun e => e.1 = p && e.2.frame?.isSome) ∧
      ((finish m names scope ttlSeconds ws events).1.pumps p).dispatchesOk =
        ((finish m names scope ttlSeconds ws events).1.pumps p).framesSeen

def given : List LiftEvent :=
  (attended (liftsOf names) fun lift => liftStatePump lift scope).given frameEvents
    RequestEvent.event (.new ws) events

theorem keys_new : (LiftSystem.new names scope ttlSeconds).node.handles.keys = liftsOf names := rfl

theorem occurrences_eq :
    occurrences m names scope ttlSeconds ws events =
      (publishingNode m).trace (.new names scope ttlSeconds) (given names scope ws events) :=
  (Machine.pipe_run _ _ _ _ _ _ _).1

theorem finish_eq :
    finish m names scope ttlSeconds ws events =
      ((attended (liftsOf names) fun lift => liftStatePump lift scope).after (.new ws)
          (events.filterMap Sum.getLeft?),
        (publishingNode m).after (.new names scope ttlSeconds) (given names scope ws events)) :=
  (Machine.pipe_run _ _ _ _ _ _ _).2

def framesFor (lifts : List String) (d : Delivery) : List (String × LiftStateFrame) :=
  d.invocations.flatMap fun
    | (.str lift, frame) =>
      (LiftStateFrame.ofDict? frame).elim [] fun f => if lift ∈ lifts then [(lift, f)] else []
    | _ => []

theorem frameEvents_frames (lifts : List String) (a : Arrival Reception) (d : Delivery) :
    (frameEvents a d).flatMap (framesIn lifts) = framesFor lifts d := by
  unfold frameEvents framesFor
  rw [Machine.flatMap_filterMap]
  apply List.flatMap_congr
  rintro ⟨name, frame⟩ -
  cases name with
  | str lift =>
    dsimp only
    cases LiftStateFrame.ofDict? frame <;> rfl
  | _ => rfl

theorem framesFor_deliver {e : ℕ × Decoded} (he : e ∈ heard names scope ws events) :
    (deliver (pumpFor (liftsOf names) fun lift => liftStatePump lift scope) e).elim []
        (framesFor (liftsOf names)) =
      (frameOf (liftsOf names) e).toList := by
  obtain ⟨p, decoded⟩ := e
  cases hframe : decoded.frame? with
  | none =>
    have hnone : deliver (pumpFor (liftsOf names) fun lift => liftStatePump lift scope)
        (p, decoded) = none := by
      cases hdeliver : deliver (pumpFor (liftsOf names) _) (p, decoded) with
      | none => rfl
      | some d =>
        obtain ⟨frame, heq, -⟩ := deliver_eq_some.mp hdeliver
        obtain ⟨-, rfl⟩ := Prod.mk.inj heq
        exact absurd hframe (by simp [Decoded.frame?])
    rw [hnone, frameOf, hframe]
    rfl
  | some frame =>
    obtain rfl := Decoded.frame?_eq_some.mp hframe
    obtain ⟨-, hmem⟩ := pumped_of_lt (lt_of_heardIn he)
    show ((LiftStateFrame.ofDict? frame).elim [] _) ++ [] =
      ((LiftStateFrame.ofDict? frame).map _).toList
    rw [List.append_nil]
    cases LiftStateFrame.ofDict? frame with
    | none => rfl
    | some f => exact if_pos hmem

theorem given_frames : (given names scope ws events).flatMap (framesIn (liftsOf names)) =
    frames names scope ws events := by
  have hown : ∀ r : RequestEvent, framesIn (liftsOf names) r.event = [] := by
    intro r
    cases r <;> rfl
  unfold given frames heard
  rw [Machine.given_passed _ hown (frameEvents_frames _), attended_trace,
    Machine.flatMap_filterMap, List.filterMap_eq_flatMap_toList (frameOf _)]
  exact List.flatMap_congr fun e he => framesFor_deliver names scope ws events he

theorem published_eq :
    (occurrences m names scope ttlSeconds ws events).filterMap Occurrence.publication =
      (frames names scope ws events).filterMap (publicationOf m) := by
  rw [occurrences_eq, Machine.trace_view (fun q e h => ⟨keys_step h e, publications_step h e⟩)
    (keys_new names scope ttlSeconds), ← given_frames, List.filterMap_flatMap]

theorem told_eq :
    (occurrences m names scope ttlSeconds ws events).filterMap Occurrence.told =
      (frames names scope ws events).filterMap reportOf := by
  rw [occurrences_eq, Machine.trace_view (fun q e h => ⟨keys_step h e, (told_step h e).1⟩)
    (keys_new names scope ttlSeconds), ← given_frames, List.filterMap_flatMap]

theorem view_eq (lift : String) :
    (finish m names scope ttlSeconds ws events).2.node.sessionManager.server lift =
      (reports names scope ws events lift).getLast? := by
  have hview : ∀ answers : List (Occurrence m),
      answers.filterMap (fun o => o.told.bind (ofLift lift)) =
        (answers.filterMap Occurrence.told).filterMap (ofLift lift) := by
    intro answers
    rw [List.filterMap_filterMap]
  have hstep : ∀ (q : LiftSystem) (e : LiftEvent), q.node.handles.keys = liftsOf names →
      ((publishingNode m).step q e).1.node.handles.keys = liftsOf names ∧
        ((publishingNode m).step q e).1.node.sessionManager.server lift =
          (((publishingNode m).step q e).2.filterMap
              fun o => o.told.bind (ofLift lift)).getLast?.or
            (q.node.sessionManager.server lift) := by
    intro q e h
    rw [hview]
    exact ⟨keys_step h e, (told_step h e).2 lift⟩
  rw [finish_eq, reports, ← told_eq m names scope ttlSeconds, occurrences_eq, ← hview]
  have hlatest := Machine.after_latest (P := fun q : LiftSystem =>
    q.node.handles.keys = liftsOf names) (f := fun q => q.node.sessionManager.server lift) hstep
    (keys_new names scope ttlSeconds) (given names scope ws events)
  exact hlatest.trans Option.or_none

theorem shown_of_published {lift : String} {msg : m.LiftState} {accepted : Bool}
    (h : .published lift msg accepted ∈ occurrences m names scope ttlSeconds ws events) :
    ∃ f fields, (lift, f) ∈ frames names scope ws events ∧ Shows f fields ∧
      buildLiftStateMsg m fields = .ok msg := by
  have hmem : (lift, msg) ∈ (occurrences m names scope ttlSeconds ws events).filterMap
      Occurrence.publication :=
    List.mem_filterMap.mpr ⟨_, h, rfl⟩
  rw [published_eq] at hmem
  obtain ⟨⟨lift', f⟩, he, hpublication⟩ := List.mem_filterMap.mp hmem
  obtain ⟨msg', hmsg, heq⟩ := Option.map_eq_some_iff.mp hpublication
  obtain ⟨rfl, rfl⟩ := Prod.mk.inj heq
  obtain ⟨fields, hfields, hbuilt⟩ := Option.bind_eq_some_iff.mp hmsg
  exact ⟨f, fields, he, translateState_eq_ok.mp (ok_of_toOption hfields), ok_of_toOption hbuilt⟩

theorem frames_members {names : List String} {scope : Option String} {ws : WsConfig}
    {events : List (Arrival Reception ⊕ RequestEvent)} (h : Sessioned names scope ws events) :
    (frames names scope ws events).map (fun e => (e.1, e.2.members)) =
      (heard names scope ws events).filterMap fun e =>
        e.2.frame?.map fun frame => ((liftsOf names).getD e.1 "", frame) := by
  unfold frames
  rw [List.map_filterMap]
  apply List.filterMap_congr
  rintro ⟨p, decoded⟩ he
  unfold frameOf
  dsimp only
  cases hframe : decoded.frame? with
  | none => rfl
  | some frame =>
    obtain rfl := Decoded.frame?_eq_some.mp hframe
    show ((LiftStateFrame.ofDict? frame).map _).map _ = _
    unfold LiftStateFrame.ofDict?
    rw [dif_pos (h p frame he)]
    rfl

/-- The state path of the lift adapter, in every run of its pumps and of its requests. -/
theorem frames_reach_both {names : List String} {scope : Option String} {ws : WsConfig}
    {events : List (Arrival Reception ⊕ RequestEvent)} (h : Sessioned names scope ws events) :
    StatePath m names scope ttlSeconds ws events where
  frames := frames_members h
  published := published_eq m names scope ttlSeconds ws events
  shown _ _ _ hmem := shown_of_published m names scope ttlSeconds ws events hmem
  told := told_eq m names scope ttlSeconds ws events
  view := view_eq m names scope ttlSeconds ws events
  holder lift session hlast now := by
    have hview := view_eq m names scope ttlSeconds ws events lift
    exact currentHolder_of_view (hview.trans hlast) now
  dispatched lift handle hget := by
    rw [finish_eq] at hget
    obtain ⟨-, rfl⟩ := Registry.get_eq_some.mp hget
    have hcount := Machine.after_countP (M := publishingNode m) (P := fun _ => True)
      (f := fun q => (q.node.handles.entry lift).stateDispatched)
      (fun q e _ => ⟨trivial, dispatched_step q e lift⟩) (q := .new names scope ttlSeconds)
      trivial
    rw [occurrences_eq]
    exact (hcount _).trans (Nat.zero_add _)
  counted p := by
    rw [finish_eq]
    refine ⟨?_, dispatchesOk_attended _ _ _ _ (fun _ _ => rfl) p⟩
    rw [framesSeen_attended, attended_trace, List.countP_filterMap]
    apply List.countP_congr
    rintro ⟨p', decoded⟩ -
    cases decoded with
    | loaded v => cases v <;> simp [deliver, Decoded.frame?]
    | _ => simp [deliver, Decoded.frame?]

end Run

def keptMsgs : MsgModule where
  Time := ℤ × ℤ
  LiftState := Json × (ℤ × ℤ) × Json × String
  time sec nanosec := .ok (sec, nanosec)
  liftState name time _ floor _ _ _ _ _ session := .ok (name, time, floor, session)

def sessionFrame (lift session : String) (millis : ℤ) : Dict :=
  [("lift_name", .str lift), ("lift_time", .int millis), ("current_floor", .str "G"),
    ("current_mode", .obj [("value", .int 2)]), ("session_id", .str session)]

def connection (p : ℕ) : List (Arrival Reception ⊕ RequestEvent) :=
  [.inl ⟨.start p, ⟨true, 0⟩⟩, .inl ⟨.progress p (.resume (.ok "t")) fun _ => true, ⟨true, 0⟩⟩,
    .inl ⟨.progress p .handshake fun _ => true, ⟨true, 0⟩⟩]

def hears (p : ℕ) (frame : Dict) : Arrival Reception ⊕ RequestEvent :=
  .inl ⟨.progress p (.message (.loaded (.obj frame))) fun _ => true, ⟨true, 0⟩⟩

def heldEvents : List (Arrival Reception ⊕ RequestEvent) :=
  connection 0 ++ connection 1 ++
    [hears 0 (sessionFrame "L1" "a" 1500), hears 1 (sessionFrame "L2" "b" 1600),
      .inr (.dispatch "L1" ⟨some "L1", some "a", .int 2, some "G", .bare (.int 0)⟩ none "x" 1 1),
      hears 0 (sessionFrame "L1" "c" 2500)]

theorem held_sessioned : Sessioned ["L1", "L2"] none ⟨"wss://host", 1, 30, 3, 60⟩ heldEvents := by
  intro p frame h
  have hheard : (p, Decoded.loaded (.obj frame)) ∈
      [(0, Decoded.loaded (.obj (sessionFrame "L1" "a" 1500))),
        (1, .loaded (.obj (sessionFrame "L2" "b" 1600))),
        (0, .loaded (.obj (sessionFrame "L1" "c" 2500)))] := h
  simp only [List.mem_cons, List.not_mem_nil, or_false, Prod.mk.injEq, Decoded.loaded.injEq,
    Json.obj.injEq] at hheard
  obtain ⟨-, rfl⟩ | ⟨-, rfl⟩ | ⟨-, rfl⟩ := hheard <;> rfl

theorem frames_reach_both_held :
    StatePath keptMsgs ["L1", "L2"] none 0 ⟨"wss://host", 1, 30, 3, 60⟩ heldEvents ∧
      reports ["L1", "L2"] none ⟨"wss://host", 1, 30, 3, 60⟩ heldEvents "L1" = ["a", "c"] :=
  ⟨frames_reach_both keptMsgs 0 held_sessioned, rfl⟩

end QuikSync.Lift
