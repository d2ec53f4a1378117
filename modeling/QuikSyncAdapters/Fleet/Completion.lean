import QuikSyncAdapters.Library.Machine
import QuikSyncAdapters.Fleet.Callbacks
import Mathlib.Data.List.Induction

/-! Completion as Open-RMF sees it: whether the updates for the frames that report a command
finished stop carrying its activity. -/

namespace QuikSync.Fleet

open Client Py

variable {rmf : RmfAdapter}

/-- A callback stands in a run where it records the activity, a frame where it takes the lock. -/
inductive RobotEvent (rmf : RmfAdapter) where
  | navigate (destination : Destination) (execution : Execution rmf) (executionId : String)
      (outcome : Except Exc Json)
  | actionExecutor (category : String) (description : Json) (execution : Execution rmf)
      (executionId : String) (outcome : Except Exc Json)
  | stop (executionId : String) (outcome : Except Exc Json)
  | frame (state : Dict) (answers : RmfAnswers rmf)

inductive RobotAction (rmf : RmfAdapter) where
  | posted (p : CommandPost)
  | called (c : RmfCall rmf)

namespace CallbackScope

def step (c : CallbackScope) (h : RobotHandle rmf) :
    RobotEvent rmf → RobotHandle rmf × List (RobotAction rmf)
  | .navigate destination execution executionId outcome =>
    let run := c.navigate h destination execution executionId outcome
    (run.handle, run.posts.map .posted)
  | .actionExecutor category description execution executionId outcome =>
    let run := c.actionExecutor h category description execution executionId outcome
    (run.handle, run.posts.map .posted)
  | .stop executionId outcome =>
    let run := c.stop h executionId outcome
    (run.handle, run.posts.map .posted)
  | .frame state answers =>
    let run := h.onState state answers
    (run.handle, run.calls.map .called)

def machine (rmf : RmfAdapter) (c : CallbackScope) :
    Machine (RobotHandle rmf) (RobotEvent rmf) (List (RobotAction rmf)) := ⟨c.step⟩

end CallbackScope

/-! ### The life of a command -/

/-- What the server has said about the last accepted command, with the activity under which
Open-RMF knows it, if its execution exposes one. -/
inductive CommandPhase (A : Type) where
  | idle
  | queued (activity : Option A)
  | running (activity : Option A)
  | finished (activity : Option A)

namespace CommandPhase

variable {A : Type}

def command? : CommandPhase A → Option (Option A)
  | idle => none
  | queued activity => some activity
  | running activity => some activity
  | finished activity => some activity

/-- A command runs from the first frame with a `task_id` on, and is finished by the first
well-formed frame after it whose `task_id` is null. -/
def onFrame (taskId : Option Json) (wellFormed : Bool) (phase : CommandPhase A) : CommandPhase A :=
  match phase, taskId with
  | queued activity, some .null => queued activity
  | queued activity, some _ => running activity
  | running activity, some .null => if wellFormed then finished activity else running activity
  | phase, _ => phase

end CommandPhase

def isWellFormed (rmf : RmfAdapter) (state : Dict) : Bool :=
  match toRmfRobotState rmf state with
  | .ok (some _) => true
  | _ => false

def RobotEvent.command? : RobotEvent rmf → Option (Option rmf.ActivityIdentifier)
  | .navigate destination execution _ outcome =>
    if isUsable destination && outcome.isOk then some (activityIdentifier execution) else none
  | .actionExecutor _ _ execution _ outcome =>
    if outcome.isOk then some (activityIdentifier execution) else none
  | .stop _ _ => none
  | .frame _ _ => none

def CommandPhase.next (phase : CommandPhase rmf.ActivityIdentifier) (e : RobotEvent rmf) :
    CommandPhase rmf.ActivityIdentifier :=
  match e with
  | .frame state _ => phase.onFrame (state.lookup "task_id") (isWellFormed rmf state)
  | e => e.command?.elim phase .queued

def commandPhase (events : List (RobotEvent rmf)) : CommandPhase rmf.ActivityIdentifier :=
  events.foldl CommandPhase.next .idle

/-- From the frame that finishes a command to the next command, every frame that translates
is pushed with no activity. -/
def ClearsOnCompletion (c : CallbackScope) (h : RobotHandle rmf) (u : rmf.UpdateHandle)
    (events : List (RobotEvent rmf)) : Prop :=
  ∀ pre state answers post activity rmfState, events = pre ++ .frame state answers :: post →
    commandPhase (pre ++ [.frame state answers]) = .finished activity →
    toRmfRobotState rmf state = .ok (some rmfState) →
    (c.step ((c.machine rmf).after h pre) (.frame state answers)).2 =
      [.called (.update u rmfState none)]

/-! ### The handle keeps what the last command recorded -/

def Records (h : RobotHandle rmf) (phase : CommandPhase rmf.ActivityIdentifier) : Prop :=
  ∀ activity, phase.command? = some activity → h.currentActivity = activity

theorem command_onFrame (phase : CommandPhase rmf.ActivityIdentifier) (taskId : Option Json)
    (wellFormed : Bool) : (phase.onFrame taskId wellFormed).command? = phase.command? := by
  unfold CommandPhase.onFrame
  split
  · rfl
  · rfl
  · split <;> rfl
  · rfl

theorem step_of_callback {c : CallbackScope} {h : RobotHandle rmf} {e : RobotEvent rmf}
    (he : ∀ state answers, e ≠ .frame state answers) :
    (c.step h e).1 = e.command?.elim h h.setCurrentActivity := by
  cases e with
  | navigate destination execution executionId outcome =>
    apply (c.navigate_handle h destination execution executionId outcome).trans
    simp only [RobotEvent.command?]
    split_ifs <;> rfl
  | actionExecutor category description execution executionId outcome =>
    apply (send_handle _ _ _ _).trans
    simp only [RobotEvent.command?]
    split_ifs <;> rfl
  | stop executionId outcome => exact send_of_same _ _ _
  | frame state answers => exact absurd rfl (he state answers)

theorem next_of_callback {phase : CommandPhase rmf.ActivityIdentifier} {e : RobotEvent rmf}
    (he : ∀ state answers, e ≠ .frame state answers) :
    phase.next e = e.command?.elim phase .queued := by
  cases e with
  | frame state answers => exact absurd rfl (he state answers)
  | _ => rfl

theorem records_step {c : CallbackScope} {h : RobotHandle rmf}
    {phase : CommandPhase rmf.ActivityIdentifier} (hrec : Records h phase) (e : RobotEvent rmf) :
    Records (c.step h e).1 (phase.next e) := by
  by_cases hframe : ∃ state answers, e = .frame state answers
  · obtain ⟨state, answers, rfl⟩ := hframe
    intro activity hcommand
    simp only [CallbackScope.step, RobotHandle.onState_currentActivity]
    apply hrec
    rwa [← command_onFrame]
  · have hcallback : ∀ state answers, e ≠ .frame state answers := by
      intro state answers he
      exact hframe ⟨state, answers, he⟩
    rw [step_of_callback hcallback, next_of_callback hcallback]
    cases e.command? with
    | none => exact hrec
    | some activity => exact fun _ hcommand => Option.some.inj hcommand

theorem records_after {c : CallbackScope} {h : RobotHandle rmf}
    {phase : CommandPhase rmf.ActivityIdentifier} (hrec : Records h phase)
    (events : List (RobotEvent rmf)) :
    Records ((c.machine rmf).after h events) (events.foldl CommandPhase.next phase) := by
  induction events generalizing h phase with
  | nil => exact hrec
  | cons e events ih => exact ih (records_step hrec e)

theorem bound_step {c : CallbackScope} {h : RobotHandle rmf} {u : rmf.UpdateHandle}
    (hbound : h.rmfHandle = some u) (e : RobotEvent rmf) : (c.step h e).1.rmfHandle = some u := by
  by_cases hframe : ∃ state answers, e = .frame state answers
  · obtain ⟨state, answers, rfl⟩ := hframe
    exact RobotHandle.onState_rmfHandle_of_bound hbound state answers
  · rw [step_of_callback fun state answers he => hframe ⟨state, answers, he⟩]
    cases e.command? <;> exact hbound

theorem bound_after {c : CallbackScope} {h : RobotHandle rmf} {u : rmf.UpdateHandle}
    (hbound : h.rmfHandle = some u) (events : List (RobotEvent rmf)) :
    ((c.machine rmf).after h events).rmfHandle = some u :=
  Machine.after_invariant (P := fun h : RobotHandle rmf => h.rmfHandle = some u)
    (fun _ e hb => bound_step hb e) hbound events

theorem frame_pushes_command {c : CallbackScope} {h : RobotHandle rmf} {u : rmf.UpdateHandle}
    (hbound : h.rmfHandle = some u) {pre : List (RobotEvent rmf)} {state : Dict}
    {answers : RmfAnswers rmf} {activity : Option rmf.ActivityIdentifier}
    {rmfState : rmf.RobotState}
    (hfinished : commandPhase (pre ++ [.frame state answers]) = .finished activity)
    (hstate : toRmfRobotState rmf state = .ok (some rmfState)) :
    (c.step ((c.machine rmf).after h pre) (.frame state answers)).2 =
      [.called (.update u rmfState activity)] := by
  have hrec : Records ((c.machine rmf).after h pre) (commandPhase pre) :=
    records_after (fun _ hnone => (Option.some_ne_none _ hnone.symm).elim) pre
  have hcommand : (commandPhase pre).command? = some activity := by
    rw [commandPhase, List.foldl_append] at hfinished
    have hframe := command_onFrame (commandPhase pre) (state.lookup "task_id")
      (isWellFormed rmf state)
    rw [← hframe]
    exact congrArg CommandPhase.command? hfinished
  have hcalls := RobotHandle.onState_of_bound (bound_after (c := c) hbound pre) hstate answers
  rw [hrec activity hcommand] at hcalls
  simp only [CallbackScope.step, hcalls, List.map_cons, List.map_nil]

/-! ### When completion reaches Open-RMF -/

theorem onFrame_eq_finished {phase : CommandPhase rmf.ActivityIdentifier} {taskId : Option Json}
    {wellFormed : Bool} {activity : Option rmf.ActivityIdentifier}
    (h : phase.onFrame taskId wellFormed = .finished activity) :
    phase = .finished activity ∨ wellFormed = true := by
  unfold CommandPhase.onFrame at h
  split at h
  · cases h
  · cases h
  · split_ifs at h with hwell
    exact Or.inr hwell
  · exact Or.inl h

theorem isWellFormed_iff {state : Dict} :
    isWellFormed rmf state = true ↔
      ∃ rmfState, toRmfRobotState rmf state = .ok (some rmfState) := by
  unfold isWellFormed
  rcases toRmfRobotState rmf state with e | (_ | rmfState) <;> simp

theorem next_eq_finished {phase : CommandPhase rmf.ActivityIdentifier} {e : RobotEvent rmf}
    {activity : Option rmf.ActivityIdentifier} (h : phase.next e = .finished activity) :
    phase = .finished activity ∨ ∃ state answers rmfState, e = .frame state answers ∧
      toRmfRobotState rmf state = .ok (some rmfState) := by
  by_cases hframe : ∃ state answers, e = .frame state answers
  · obtain ⟨state, answers, rfl⟩ := hframe
    rcases onFrame_eq_finished h with hold | hwell
    · exact Or.inl hold
    · obtain ⟨rmfState, hstate⟩ := isWellFormed_iff.mp hwell
      exact Or.inr ⟨state, answers, rmfState, rfl, hstate⟩
  · rw [next_of_callback fun state answers he => hframe ⟨state, answers, he⟩] at h
    cases hcommand : e.command? with
    | none =>
      rw [hcommand] at h
      exact Or.inl h
    | some other =>
      rw [hcommand] at h
      cases h

theorem exists_finishing_frame {events : List (RobotEvent rmf)}
    {activity : Option rmf.ActivityIdentifier} (h : commandPhase events = .finished activity) :
    ∃ pre state answers post rmfState, events = pre ++ .frame state answers :: post ∧
      commandPhase (pre ++ [.frame state answers]) = .finished activity ∧
      toRmfRobotState rmf state = .ok (some rmfState) := by
  induction events using List.reverseRecOn with
  | nil => cases h
  | append_singleton events e ih =>
    have hnext : (commandPhase events).next e = .finished activity := by
      rwa [commandPhase, List.foldl_append] at h
    rcases next_eq_finished hnext with hold | ⟨state, answers, rmfState, rfl, hstate⟩
    · obtain ⟨pre, state, answers, post, rmfState, rfl, hrest⟩ := ih hold
      exact ⟨pre, state, answers, post ++ [e], rmfState, by simp, hrest⟩
    · exact ⟨events, state, answers, [], rmfState, rfl, h, hstate⟩

theorem activity_of_update {u : rmf.UpdateHandle} {rmfState : rmf.RobotState}
    {a b : Option rmf.ActivityIdentifier}
    (h : [RobotAction.called (RmfCall.update u rmfState a)] = [.called (.update u rmfState b)]) :
    a = b := by
  obtain ⟨hcall, -⟩ := List.cons.inj h
  exact (RmfCall.update.inj (RobotAction.called.inj hcall)).2.2

/-- Completion reaches Open-RMF in exactly those runs of a bound robot in which no command
that finishes has recorded an activity. -/
theorem clears_on_completion_iff (c : CallbackScope) (h : RobotHandle rmf)
    (u : rmf.UpdateHandle) (hbound : h.rmfHandle = some u) (events : List (RobotEvent rmf)) :
    ClearsOnCompletion c h u events ↔
      ∀ pre activity, pre <+: events → commandPhase pre = .finished activity → activity = none := by
  constructor
  · rintro hclears before activity ⟨rest, rfl⟩ hfinished
    obtain ⟨pre, state, answers, post, rmfState, rfl, hframe, hstate⟩ :=
      exists_finishing_frame hfinished
    -- the finishing frame was pushed with the recorded activity and with none
    have hpushed := frame_pushes_command (c := c) hbound hframe hstate
    have hcleared := hclears pre state answers (post ++ rest) activity rmfState (by simp) hframe
      hstate
    exact activity_of_update (hpushed.symm.trans hcleared)
  · intro hnone pre state answers post activity rmfState hevents hfinished hstate
    have hprefix : pre ++ [.frame state answers] <+: events := ⟨post, by simp [hevents]⟩
    obtain rfl := hnone _ activity hprefix hfinished
    exact frame_pushes_command hbound hfinished hstate

def plainRmf : RmfAdapter where
  UpdateHandle := Unit
  FleetHandle := Unit
  RobotConfiguration := Unit
  RobotCallbacks := Unit
  ActivityIdentifier := String
  RobotState := Json × (Double × Double × Double) × Double
  importable := true
  robotState levelName position batterySoc := .ok (levelName, position, batterySoc)

def originFrame (taskId : Json) : Dict :=
  [("task_id", taskId), ("location", .obj [("x", .int 0), ("y", .int 0), ("yaw", .int 0),
    ("level_name", .str "L1")]), ("battery_percent", .int 0)]

theorem originFrame_translates (taskId : Json) :
    toRmfRobotState plainRmf (originFrame taskId) =
      .ok (some (.str "L1", (.finite 0, .finite 0, .finite 0), .finite 0)) := by
  have hread : toRmfRobotState plainRmf (originFrame taskId) =
      .ok (some (.str "L1", (.finite 0, .finite 0, .finite 0), (Double.finite 0).divide 100)) := rfl
  have hsoc : (Double.finite 0).divide 100 = .finite 0 := by
    simp [Double.divide, Double.round_zero]
  rw [hread, hsoc]

def finishedAction : List (RobotEvent plainRmf) :=
  [.actionExecutor "clean" (.obj []) ⟨some "clean-1", none, none⟩ "x" (.ok (.obj [])),
    .frame (originFrame (.str "t1")) ⟨.ok (), .ok none⟩,
    .frame (originFrame .null) ⟨.ok (), .ok none⟩]

theorem clears_on_completion_iff_witness :
    ClearsOnCompletion ⟨"fleet", "r1", none⟩ ((RobotHandle.new plainRmf "r1").bind ()) ()
        finishedAction ↔
      ∀ pre activity, pre <+: finishedAction → commandPhase pre = .finished activity →
        activity = none :=
  clears_on_completion_iff ⟨"fleet", "r1", none⟩ ((RobotHandle.new plainRmf "r1").bind ()) () rfl
    finishedAction

/-- The update for the frame that reports the action finished still carries its activity. -/
theorem finished_activity_kept :
    ¬ ∀ (rmf : RmfAdapter) (c : CallbackScope) (h : RobotHandle rmf) (u : rmf.UpdateHandle)
        (events : List (RobotEvent rmf)), h.rmfHandle = some u →
      ClearsOnCompletion c h u events := by
  intro hall
  have hclears := hall plainRmf ⟨"fleet", "r1", none⟩ ((RobotHandle.new plainRmf "r1").bind ()) ()
    finishedAction rfl
  have hcleared := hclears (finishedAction.take 2) (originFrame .null) ⟨.ok (), .ok none⟩ []
    (some "clean-1") _ rfl rfl (originFrame_translates .null)
  have hkept : none = some "clean-1" := activity_of_update
    (hcleared.symm.trans (frame_pushes_command rfl rfl (originFrame_translates .null)))
  exact absurd hkept nofun

end QuikSync.Fleet
