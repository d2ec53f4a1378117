import QuikSyncAdapters.Pump.StatePump
import Mathlib.Data.List.Forall2

/-! The dispatch loop of the fleet pump, with callbacks that may raise. Whatever they do, each
robot of a frame that is an object with a name is passed on once, in order; the name is the
robot's own, also where the frame has the robots under their names. -/

namespace QuikSync.Pump

open Client Py

structure FleetStatePump where
  framesSeen : ℕ
  dispatchesOk : ℕ
  calls : List (Json × Dict)

namespace FleetStatePump

def new : FleetStatePump := ⟨0, 0, []⟩

/-- One pass of the loop over the robots; `outcome n` is how callback number `n` ends. -/
def dispatchRobot (outcome : ℕ → Except Exc Unit) (pump : FleetStatePump) :
    Json → FleetStatePump
  | .obj robot =>
    let name := Dict.get robot "name"
    if !name.truthy then pump
    else
      let called := { pump with calls := pump.calls ++ [(name, robot)] }
      match outcome pump.calls.length with
      | .ok () => { called with dispatchesOk := called.dispatchesOk + 1 }
      | .error _ => called
  | _ => pump

def dispatchFrame (outcome : ℕ → Except Exc Unit) (pump : FleetStatePump) (frame : Dict) :
    FleetStatePump :=
  let seen := { pump with framesSeen := pump.framesSeen + 1 }
  match Dict.get frame "robots" with
  | .obj robots => (robots.map Prod.snd).foldl (dispatchRobot outcome) seen
  | .arr robots => robots.foldl (dispatchRobot outcome) seen
  -- null, or logged and skipped
  | _ => seen

/-- `_run` over the frames of its subscription, while nobody stops the pump. -/
def run (outcome : ℕ → Except Exc Unit) (frames : List Dict) : FleetStatePump :=
  frames.foldl (dispatchFrame outcome) new

/-! ### What a frame leads to -/

section Loop

variable (outcome : ℕ → Except Exc Unit) (pump : FleetStatePump)

def attempt (call : Json × Dict) : FleetStatePump where
  framesSeen := pump.framesSeen
  dispatchesOk := pump.dispatchesOk + if (outcome pump.calls.length).isOk then 1 else 0
  calls := pump.calls ++ [call]

theorem dispatchRobot_eq (robot : Json) :
    dispatchRobot outcome pump robot =
      (robotInvocation robot).elim pump (attempt outcome pump) := by
  cases robot with
  | obj robot =>
    by_cases hname : (Dict.get robot "name").truthy = true
    · have hcall : robotInvocation (.obj robot) = some (Dict.get robot "name", robot) :=
        if_pos hname
      have hnamed : ¬ (!(Dict.get robot "name").truthy) = true := by simp [hname]
      rw [hcall, Option.elim_some]
      unfold dispatchRobot attempt
      dsimp only
      rw [if_neg hnamed]
      cases outcome pump.calls.length with
      | ok _ => rfl
      | error e => rfl
    · have hcall : robotInvocation (.obj robot) = none := if_neg hname
      rw [hcall, Option.elim_none]
      exact if_pos (by simpa using hname)
  | _ => rfl

theorem foldl_dispatchRobot (robots : List Json) :
    robots.foldl (dispatchRobot outcome) pump =
      (robots.filterMap robotInvocation).foldl (attempt outcome) pump := by
  induction robots generalizing pump with
  | nil => rfl
  | cons robot robots ih =>
    rw [List.foldl_cons, dispatchRobot_eq, ih]
    cases hcall : robotInvocation robot with
    | none => rw [List.filterMap_cons_none hcall]; rfl
    | some call => rw [List.filterMap_cons_some hcall]; rfl

theorem dispatchFrame_eq (frame : Dict) :
    dispatchFrame outcome pump frame =
      ((robotIter frame).filterMap robotInvocation).foldl (attempt outcome)
        { pump with framesSeen := pump.framesSeen + 1 } := by
  unfold dispatchFrame robotIter
  cases Dict.get frame "robots" with
  | obj robots => exact foldl_dispatchRobot outcome _ _
  | arr robots => exact foldl_dispatchRobot outcome _ _
  | _ => rfl

theorem foldl_attempt_calls (calls : List (Json × Dict)) :
    (calls.foldl (attempt outcome) pump).calls = pump.calls ++ calls := by
  induction calls generalizing pump with
  | nil => exact (List.append_nil _).symm
  | cons call calls ih =>
    rw [List.foldl_cons, ih]
    exact List.append_assoc ..

theorem foldl_attempt_framesSeen (calls : List (Json × Dict)) :
    (calls.foldl (attempt outcome) pump).framesSeen = pump.framesSeen := by
  induction calls generalizing pump with
  | nil => rfl
  | cons call calls ih => exact ih (attempt outcome pump call)

def Accounted : Prop :=
  pump.dispatchesOk = (List.range pump.calls.length).countP fun n => (outcome n).isOk

variable {outcome pump}

theorem accounted_attempt (h : Accounted outcome pump) (call : Json × Dict) :
    Accounted outcome (attempt outcome pump call) := by
  unfold Accounted at h ⊢
  show pump.dispatchesOk + _ = (List.range (pump.calls ++ [call]).length).countP _
  rw [List.length_append, List.length_singleton, List.range_succ, List.countP_append, h,
    List.countP_singleton]

theorem accounted_foldl (h : Accounted outcome pump) (calls : List (Json × Dict)) :
    Accounted outcome (calls.foldl (attempt outcome) pump) := by
  induction calls generalizing pump with
  | nil => exact h
  | cons call calls ih => exact ih (accounted_attempt h call)

variable (outcome pump)

theorem dispatchFrame_calls (frame : Dict) :
    (dispatchFrame outcome pump frame).calls =
      pump.calls ++ (robotIter frame).filterMap robotInvocation := by
  rw [dispatchFrame_eq]
  exact foldl_attempt_calls outcome _ _

theorem dispatchFrame_framesSeen (frame : Dict) :
    (dispatchFrame outcome pump frame).framesSeen = pump.framesSeen + 1 := by
  rw [dispatchFrame_eq]
  exact foldl_attempt_framesSeen outcome _ _

theorem foldl_attempt_dispatchesOk (accepts : Json × Dict → Bool) (calls : List (Json × Dict))
    (hends : ∀ n call, calls[n]? = some call →
      (outcome (pump.calls.length + n)).isOk = accepts call) :
    (calls.foldl (attempt outcome) pump).dispatchesOk =
      pump.dispatchesOk + calls.countP accepts := by
  -- `outcome` numbers the callbacks of the whole run, so the offset moves with every call
  induction calls generalizing pump with
  | nil => rfl
  | cons call calls ih =>
    have hfirst : (outcome pump.calls.length).isOk = accepts call := hends 0 call rfl
    have hrest : ∀ n later, calls[n]? = some later →
        (outcome ((attempt outcome pump call).calls.length + n)).isOk = accepts later := by
      intro n later hlater
      have hlength : (attempt outcome pump call).calls.length = pump.calls.length + 1 :=
        List.length_append
      rw [hlength, Nat.add_assoc, Nat.add_comm 1 n]
      exact hends (n + 1) later hlater
    rw [List.foldl_cons, ih _ hrest, attempt, hfirst, List.countP_cons, Nat.add_assoc,
      Nat.add_comm (List.countP accepts calls)]

/-- The pump among the others of its client dispatches a frame as the loop does. -/
theorem dispatchFrame_refines (configs : ℕ → PumpConfig) (fleetName : String)
    (scope : Option String) (w : PumpWorld) (p : ℕ) (frame : Dict) (accepts : Json × Dict → Bool)
    (hfleet : configs p = fleetStatePump fleetName scope)
    (hseen : (w.pumps p).framesSeen = pump.framesSeen)
    (hok : (w.pumps p).dispatchesOk = pump.dispatchesOk)
    (hends : ∀ n call, ((configs p).invocations frame)[n]? = some call →
      (outcome (pump.calls.length + n)).isOk = accepts call) :
    ((w.dispatchFrame configs p frame accepts).1.pumps p).framesSeen =
        (dispatchFrame outcome pump frame).framesSeen ∧
      ((w.dispatchFrame configs p frame accepts).1.pumps p).dispatchesOk =
        (dispatchFrame outcome pump frame).dispatchesOk ∧
      (dispatchFrame outcome pump frame).calls = pump.calls ++
        (w.dispatchFrame configs p frame accepts).2.flatMap Delivery.invocations := by
  have hcalls : (configs p).invocations frame = (robotIter frame).filterMap robotInvocation := by
    rw [hfleet]
    rfl
  have hpump : (w.dispatchFrame configs p frame accepts).1.pumps p =
      { w.pumps p with
        framesSeen := (w.pumps p).framesSeen + 1
        dispatchesOk := (w.pumps p).dispatchesOk +
          ((configs p).invocations frame).countP accepts } := Function.update_self ..
  rw [hcalls] at hends
  have hcount := foldl_attempt_dispatchesOk outcome
    { pump with framesSeen := pump.framesSeen + 1 } accepts _ hends
  refine ⟨?_, ?_, ?_⟩
  · rw [hpump, dispatchFrame_framesSeen, ← hseen]
  · rw [hpump, dispatchFrame_eq, hcount]
    show (w.pumps p).dispatchesOk + _ = pump.dispatchesOk + _
    rw [hok, hcalls]
  · rw [dispatchFrame_calls, PumpWorld.dispatchFrame, List.flatMap_singleton, hcalls]

end Loop

structure Dispatched (outcome : ℕ → Except Exc Unit) (frames : List Dict) (pump : FleetStatePump) :
    Prop where
  calls : pump.calls = frames.flatMap fun frame => (robotIter frame).filterMap robotInvocation
  framesSeen : pump.framesSeen = frames.length
  dispatchesOk : Accounted outcome pump

theorem dispatched_step {outcome : ℕ → Except Exc Unit} {frames : List Dict} {pump : FleetStatePump}
    (h : Dispatched outcome frames pump) (frame : Dict) :
    Dispatched outcome (frames ++ [frame]) (dispatchFrame outcome pump frame) where
  calls := by
    rw [dispatchFrame_calls, h.calls, List.flatMap_append, List.flatMap_singleton]
  framesSeen := by
    rw [dispatchFrame_framesSeen, h.framesSeen, List.length_append, List.length_singleton]
  dispatchesOk := by
    have hseen : Accounted outcome { pump with framesSeen := pump.framesSeen + 1 } :=
      h.dispatchesOk
    rw [dispatchFrame_eq]
    exact accounted_foldl hseen _

theorem dispatched_run (outcome : ℕ → Except Exc Unit) (frames : List Dict) :
    Dispatched outcome frames (run outcome frames) := by
  induction frames using List.reverseRecOn with
  | nil => exact ⟨rfl, rfl, rfl⟩
  | append_singleton frames frame ih =>
    rw [run, List.foldl_append, List.foldl_cons, List.foldl_nil]
    exact dispatched_step ih frame

/-- The failures of the callbacks change nothing of what is invoked: each object with a name
in the robots of each frame, in order. -/
theorem failures_isolated (frames : List Dict) (outcome outcome' : ℕ → Except Exc Unit) :
    (run outcome frames).calls = (run outcome' frames).calls ∧
      (run outcome frames).calls =
        (frames.flatMap fun frame => (robotIter frame).filterMap robotInvocation) ∧
      (run outcome frames).framesSeen = frames.length ∧
      (run outcome frames).dispatchesOk =
        (List.range (run outcome frames).calls.length).countP fun n => (outcome n).isOk := by
  have h := dispatched_run outcome frames
  have h' := dispatched_run outcome' frames
  exact ⟨h.calls.trans h'.calls.symm, h.calls, h.framesSeen, h.dispatchesOk⟩

/-! ### Robots under their names -/

def keyedInvocation : String × Json → Option (Json × Dict)
  | (key, .obj robot) => some (.str key, robot)
  | _ => none

def anonymous (robot : Dict) : Dict := robot.filter fun m => m.1 != "name"

def identified (call : Json × Dict) : Json × Dict := (call.1, anonymous call.2)

/-- The members have these robots under their names; what name a value carries is open. -/
def KeyedAs (robots : List Dict) (members : List (String × Json)) : Prop :=
  List.Forall₂ (fun robot m => Dict.get robot "name" = .str m.1 ∧
    ∃ value, m.2 = .obj value ∧ anonymous value = anonymous robot) robots members

/-- A frame with a map of robots leads to one callback for each object, under its key, and to
those that the list of the same robots leads to. -/
structure ShapesAgree (outcome : ℕ → Except Exc Unit) (frame : Dict)
    (members : List (String × Json)) : Prop where
  keyed : (dispatchFrame outcome new frame).calls = members.filterMap keyedInvocation
  listed : ∀ listFrame robots, Dict.get listFrame "robots" = .arr (robots.map Json.obj) →
    KeyedAs robots members →
    (dispatchFrame outcome new frame).calls.map identified =
      (dispatchFrame outcome new listFrame).calls.map identified

def KeysRepeated (members : List (String × Json)) : Prop :=
  ∀ key robot, (key, .obj robot) ∈ members → key ≠ "" ∧ Dict.get robot "name" = .str key

theorem robotInvocation_eq_keyed_iff (key : String) (robot : Dict) :
    robotInvocation (.obj robot) = keyedInvocation (key, .obj robot) ↔
      key ≠ "" ∧ Dict.get robot "name" = .str key := by
  unfold robotInvocation keyedInvocation
  dsimp only
  constructor
  · intro h
    split_ifs at h with hname
    obtain ⟨hkey, -⟩ := Prod.mk.inj (Option.some.inj h)
    rw [hkey] at hname
    exact ⟨by simpa [Json.truthy] using hname, hkey⟩
  · rintro ⟨hne, hkey⟩
    have hname : (Dict.get robot "name").truthy = true := by simpa [hkey, Json.truthy] using hne
    rw [if_pos hname, hkey]

section Keyed

variable {frame : Dict} {members : List (String × Json)} {outcome : ℕ → Except Exc Unit}

theorem calls_of_map (h : Dict.get frame "robots" = .obj members) :
    (dispatchFrame outcome new frame).calls =
      members.filterMap fun m => robotInvocation m.2 := by
  rw [dispatchFrame_calls, robotIter, h]
  exact List.filterMap_map

theorem calls_of_list {robots : List Dict} (h : Dict.get frame "robots" = .arr (robots.map .obj)) :
    (dispatchFrame outcome new frame).calls =
      robots.filterMap fun robot => robotInvocation (.obj robot) := by
  rw [dispatchFrame_calls, robotIter, h]
  exact List.filterMap_map

theorem keyed_iff (h : Dict.get frame "robots" = .obj members) :
    (dispatchFrame outcome new frame).calls = members.filterMap keyedInvocation ↔
      KeysRepeated members := by
  rw [calls_of_map h, Machine.filterMap_eq_iff]
  -- the keyed dispatch skips nothing that the loop dispatches, so the two can only agree entrywise
  · constructor
    · intro hsame key robot hmem
      exact (robotInvocation_eq_keyed_iff key robot).mp (hsame _ hmem)
    · rintro hkeys ⟨key, value⟩ hmem
      cases value with
      | obj robot => exact (robotInvocation_eq_keyed_iff key robot).mpr (hkeys key robot hmem)
      | _ => rfl
  · rintro ⟨key, value⟩ - hnone
    cases value with
    | obj robot => cases hnone
    | _ => rfl

theorem identified_of_keyedAs {robots : List Dict} (hkeyed : KeyedAs robots members)
    (hkeys : KeysRepeated members) :
    (members.filterMap keyedInvocation).map identified =
      (robots.filterMap fun robot => robotInvocation (.obj robot)).map identified := by
  induction hkeyed with
  | nil => rfl
  | @cons robot m robots members hm _ ih =>
    obtain ⟨key, value⟩ := m
    obtain ⟨hname, value', rfl, hstate⟩ := hm
    have hne := (hkeys key value' List.mem_cons_self).1
    have hcall : robotInvocation (.obj robot) = some (.str key, robot) :=
      (robotInvocation_eq_keyed_iff key robot).mpr ⟨hne, hname⟩
    have hrest := ih fun key robot hmem => hkeys key robot (List.mem_cons_of_mem _ hmem)
    have hfirst : identified (.str key, value') = identified (.str key, robot) :=
      congrArg (Prod.mk _) hstate
    rw [List.filterMap_cons_some (f := fun robot => robotInvocation (.obj robot)) hcall,
      List.map_cons, ← hrest, ← hfirst]
    rfl

end Keyed

/-- A map of robots is dispatched by its keys, and as the list of its robots, exactly when every
object in it carries its key as its name. -/
theorem shapes_agree_iff (outcome : ℕ → Except Exc Unit) (frame : Dict)
    (members : List (String × Json)) (h : Dict.get frame "robots" = .obj members) :
    ShapesAgree outcome frame members ↔ KeysRepeated members := by
  constructor
  · exact fun hagree => (keyed_iff h).mp hagree.keyed
  · intro hkeys
    have hkeyed : (dispatchFrame outcome new frame).calls = members.filterMap keyedInvocation :=
      (keyed_iff h).mpr hkeys
    refine ⟨hkeyed, fun listFrame robots hlist hkeyedAs => ?_⟩
    rw [hkeyed, calls_of_list hlist]
    exact identified_of_keyedAs hkeyedAs hkeys

theorem shapes_agree_witness :
    ShapesAgree (fun _ => .ok ()) [("robots", .obj [("r1", .obj [("name", .str "r1")])])]
        [("r1", .obj [("name", .str "r1")])] ↔
      KeysRepeated [("r1", .obj [("name", .str "r1")])] :=
  shapes_agree_iff (fun _ => .ok ()) _ _ rfl

/-- A map whose value does not repeat its key: the robot is dropped. -/
theorem unnamed_value_dropped :
    ¬ ∀ (outcome : ℕ → Except Exc Unit) (frame : Dict) (members : List (String × Json)),
      Dict.get frame "robots" = .obj members → ShapesAgree outcome frame members := by
  intro h
  have hkeyed := (h (fun _ => .ok ()) [("robots", .obj [("r1", .obj [])])] [("r1", .obj [])]
    rfl).keyed
  exact absurd (congrArg List.length hkeyed) (by decide)

end FleetStatePump

end QuikSync.Pump
