import QuikSyncAdapters.Adapters
import QuikSyncAdapters.Pump.Deliveries
import QuikSyncAdapters.Pump.Subscriptions

/-! The pumps of the door and of the lift adapter: one for each handle, with callbacks that log
what goes wrong and return. Each pump counts every frame as dispatched. -/

namespace QuikSync.Pump

open Client Py

structure Arrival (α : Type) where
  input : PumpInput
  outcome : α

variable {α : Type}

/-- The callbacks of the door and of the lift handles never raise. -/
def PumpInput.attended : PumpInput → PumpInput
  | .progress t i _ => .progress t i fun _ => true
  | i => i

def attended (names : List String) (pump : String → PumpConfig) :
    Machine PumpWorld (Arrival α) (List Delivery) where
  step w a :=
    if a.input.within names.length then
      (pumpMachine (pumpFor names pump)).step w a.input.attended
    else (w, [])

structure Managed (n : ℕ) (w : PumpWorld) : Prop where
  stopCloses : w.StopCloses
  tasks : ∀ task ∈ w.tasks, task.pump < n

variable {names : List String} {pump : String → PumpConfig} {w : PumpWorld}

theorem heard_attended (i : PumpInput) : w.heard i.attended = w.heard i := by
  cases i with
  | progress t i accepts => cases i <;> rfl
  | _ => rfl

theorem heard_of_not_within {n : ℕ} {i : PumpInput} (h : ¬ i.within n = true) :
    w.heard i = none := by
  cases hheard : w.heard i with
  | none => rfl
  | some e =>
    obtain ⟨t, accepts, _, rfl, -⟩ := heard_eq_some hheard
    exact absurd rfl h

theorem pumped_of_lt {p : ℕ} (hp : p < names.length) :
    names[p]? = some (names.getD p "") ∧ names.getD p "" ∈ names := by
  have hget : names[p]? = some (names.getD p "") := by
    rw [List.getD_eq_getElem?_getD, List.getElem?_eq_getElem hp, Option.getD_some]
  exact ⟨hget, List.mem_of_getElem? hget⟩

theorem managed_new (n : ℕ) (config : WsConfig) : Managed n (.new config) :=
  ⟨stopCloses_new config, List.forall_mem_nil _⟩

theorem cancel_pump (c : QuikSyncWsClient) (task : Task) :
    (PumpWorld.cancel c task).pump = task.pump := by
  unfold PumpWorld.cancel
  split <;> rfl

theorem tasks_stop {n : ℕ} (h : ∀ task ∈ w.tasks, task.pump < n) (p : ℕ) :
    ∀ task ∈ (w.stop p).tasks, task.pump < n := by
  unfold PumpWorld.stop
  dsimp only
  split
  · rename_i t _
    intro task htask
    obtain ⟨j, hj⟩ := List.mem_iff_getElem?.mp htask
    rw [List.getElem?_modify] at hj
    obtain ⟨old, hold, rfl⟩ := Option.map_eq_some_iff.mp hj
    have hpump := h old (List.mem_of_getElem? hold)
    split
    · rw [cancel_pump]
      exact hpump
    · exact hpump
  · exact h

theorem tasks_step (configs : ℕ → PumpConfig) {n : ℕ} (h : ∀ task ∈ w.tasks, task.pump < n)
    {i : PumpInput} (hi : i.within n = true) :
    ∀ task ∈ ((pumpMachine configs).step w i).1.tasks, task.pump < n := by
  cases i with
  | start p =>
    show ∀ task ∈ (w.start configs p).tasks, task.pump < n
    unfold PumpWorld.start
    split
    · exact h
    · rw [List.forall_mem_append, List.forall_mem_singleton]
      exact ⟨h, of_decide_eq_true hi⟩
  | stop p => exact tasks_stop h p
  | progress t i accepts =>
    dsimp only [pumpMachine]
    split
    · exact h
    rename_i task htask
    split
    · exact h
    obtain ⟨pumps, left, hnext⟩ := progress_eq_set configs w t task i accepts
    rw [hnext]
    intro task' htask'
    obtain hold | rfl := List.mem_or_eq_of_mem_set htask'
    · exact h task' hold
    · exact h task (List.mem_of_getElem? htask)

variable (pump) in
theorem attended_step (h : Managed names.length w) (a : Arrival α) :
    Managed names.length ((attended names pump).step w a).1 ∧
      ((attended names pump).step w a).2 =
        ((w.heard a.input).bind (deliver (pumpFor names pump))).toList := by
  unfold attended
  dsimp only
  split
  · rename_i hwithin
    have hattended : a.input.attended.within names.length = true := by
      rw [← hwithin]
      cases a.input <;> rfl
    rw [step_delivers h.stopCloses, heard_attended]
    exact ⟨⟨stopCloses_step h.stopCloses _, tasks_step _ h.tasks hattended⟩, rfl⟩
  · rename_i hwithin
    rw [heard_of_not_within hwithin]
    exact ⟨h, rfl⟩

def heardIn (names : List String) (pump : String → PumpConfig) (ws : WsConfig)
    (arrivals : List (Arrival α)) : List (ℕ × Decoded) :=
  (attended names pump).shown (fun w a => w.heard a.input) (.new ws) arrivals

section Run

variable (names pump) (ws : WsConfig) (arrivals : List (Arrival α))

theorem attended_trace :
    (attended names pump).trace (.new ws) arrivals =
      (heardIn names pump ws arrivals).filterMap (deliver (pumpFor names pump)) :=
  Machine.trace_shown (P := Managed names.length) (fun _ a h => attended_step pump h a)
    (managed_new _ ws) arrivals

theorem attended_pumps :
    ∀ d ∈ (attended names pump).trace (.new ws) arrivals, d.pump < names.length := by
  have halways : (attended names pump : Machine PumpWorld (Arrival α) _).Always
      (fun d => d.pump < names.length) (.new ws) := by
    refine Machine.always_of_invariant (P := Managed names.length) ?_ (managed_new _ ws)
    intro w a h
    obtain ⟨hnext, hanswer⟩ := attended_step pump h a
    refine ⟨hnext, ?_⟩
    rw [hanswer]
    intro d hd
    obtain ⟨e, hheard, hdeliver⟩ := Option.bind_eq_some_iff.mp (Option.mem_toList.mp hd)
    obtain ⟨frame, rfl, -⟩ := deliver_eq_some.mp hdeliver
    obtain ⟨_, _, task, -, htask, hpump, -⟩ := heard_eq_some hheard
    exact hpump ▸ h.tasks task (List.mem_of_getElem? htask)
  exact halways arrivals

variable {names pump ws arrivals} in
theorem lt_of_heardIn {p : ℕ} {frame : Dict}
    (h : (p, .loaded (.obj frame)) ∈ heardIn names pump ws arrivals) : p < names.length := by
  have hmem : (⟨p, frame, (pumpFor names pump p).invocations frame⟩ : Delivery) ∈
      (attended names pump).trace (.new ws) arrivals := by
    rw [attended_trace]
    exact List.mem_filterMap.mpr ⟨_, h, rfl⟩
  exact attended_pumps names pump ws arrivals _ hmem

theorem counts_attended (h : Managed names.length w) (a : Arrival α) (p : ℕ) :
    Counts p (fun _ => true) ((attended names pump).step w a).2 (w.pumps p)
      (((attended names pump).step w a).1.pumps p) := by
  unfold attended
  dsimp only
  split
  · have hreturn : a.input.attended.accepts = fun _ => true := by
      cases a.input <;> rfl
    exact hreturn ▸ counts_step h.stopCloses a.input.attended p
  · exact ⟨rfl, rfl⟩

theorem framesSeen_attended (p : ℕ) :
    (((attended names pump).after (.new ws) arrivals).pumps p).framesSeen =
      ((attended names pump).trace (.new ws) arrivals).countP (·.pump = p) := by
  have hcount := Machine.after_countP (M := attended names pump) (P := Managed names.length)
    (f := fun w => (w.pumps p).framesSeen) (p := (·.pump = p))
    (fun w a h => ⟨(attended_step pump h a).1, (counts_attended names pump h a p).framesSeen⟩)
    (managed_new _ ws) arrivals
  exact hcount.trans (Nat.zero_add _)

theorem dispatchesOk_attended (hone : ∀ name frame, ((pump name).invocations frame).length = 1)
    (p : ℕ) :
    (((attended names pump).after (.new ws) arrivals).pumps p).dispatchesOk =
      (((attended names pump).after (.new ws) arrivals).pumps p).framesSeen := by
  let Even : PumpWorld → Prop := fun w =>
    Managed names.length w ∧ (w.pumps p).dispatchesOk = (w.pumps p).framesSeen
  have hstep : ∀ w (a : Arrival α), Even w → Even ((attended names pump).step w a).1 := by
    intro w a ⟨hmanaged, heven⟩
    obtain ⟨hnext, hanswer⟩ := attended_step pump hmanaged a
    obtain ⟨hseen, hok⟩ := counts_attended names pump hmanaged a p
    refine ⟨hnext, ?_⟩
    rw [hseen, hok, heven, hanswer]
    cases hd : (w.heard a.input).bind (deliver (pumpFor names pump)) with
    | none => rfl
    | some d =>
      obtain ⟨e, -, hdeliver⟩ := Option.bind_eq_some_iff.mp hd
      obtain ⟨frame, -, hmade⟩ := deliver_eq_some.mp hdeliver
      have hlength : d.invocations.length = 1 := by
        rw [hmade]
        exact hone _ frame
      by_cases hp : d.pump = p
      · simp [hp, hlength]
      · simp [hp]
  have hnew : Even (.new ws) := ⟨managed_new _ ws, rfl⟩
  exact (Machine.after_invariant hstep hnew arrivals).2

end Run

end QuikSync.Pump
