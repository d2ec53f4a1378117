import QuikSyncAdapters.Library.Pipelines
import QuikSyncAdapters.Pump.Lifecycle

/-! What the pumps of one client deliver: the JSON objects among the messages that their tasks
hear on open connections, one by one and in the order in which they come. -/

namespace QuikSync.Pump

open Client Py

def PumpWorld.heard (w : PumpWorld) : PumpInput → Option (ℕ × Decoded)
  | .progress t (.message decoded) _ =>
    w.tasks[t]?.bind fun task =>
      match task.subscription.phase with
      | .streaming => if task.left || w.client.closed then none else some (task.pump, decoded)
      | _ => none
  | _ => none

def deliver (configs : ℕ → PumpConfig) : ℕ × Decoded → Option Delivery
  | (p, .loaded (.obj frame)) => some ⟨p, frame, (configs p).invocations frame⟩
  | _ => none

/-- A pump is asked to stop in the call that closes the client. -/
def PumpWorld.StopCloses (w : PumpWorld) : Prop :=
  ∀ p, (w.pumps p).stopRequested = true → w.client.closed = true

variable (configs : ℕ → PumpConfig)

theorem heard_eq_some {w : PumpWorld} {i : PumpInput} {p : ℕ} {decoded : Decoded}
    (h : w.heard i = some (p, decoded)) :
    ∃ t accepts task, i = .progress t (.message decoded) accepts ∧ w.tasks[t]? = some task ∧
      task.pump = p ∧ task.subscription.phase = .streaming ∧ task.left = false ∧
      w.client.closed = false := by
  unfold PumpWorld.heard at h
  split at h
  · rename_i t decoded' accepts
    obtain ⟨task, htask, h⟩ := Option.bind_eq_some_iff.mp h
    split at h
    · rename_i hphase
      split_ifs at h with hidle
      obtain ⟨rfl, rfl⟩ := Prod.mk.inj (Option.some.inj h)
      rw [Bool.not_eq_true, Bool.or_eq_false_iff] at hidle
      exact ⟨t, accepts, task, rfl, htask, rfl, hphase, hidle.1, hidle.2⟩
    · exact absurd h (by simp)
  · exact absurd h (by simp)

theorem heard_of_listening {w : PumpWorld} {t : ℕ} {task : Task} (htask : w.tasks[t]? = some task)
    (hphase : task.subscription.phase = .streaming) (hleft : task.left = false)
    (hopen : w.client.closed = false) (decoded : Decoded) (accepts : Json × Dict → Bool) :
    w.heard (.progress t (.message decoded) accepts) = some (task.pump, decoded) := by
  unfold PumpWorld.heard
  simp only [htask, Option.bind_some, hphase, hleft, hopen, Bool.or_self, Bool.false_eq_true,
    if_false]

/-! ### One input -/

section Step

variable {configs} {w : PumpWorld}

def StatePump.dispatched (pump : StatePump) (d : Delivery) (accepts : Json × Dict → Bool) :
    StatePump :=
  { pump with
    framesSeen := pump.framesSeen + 1
    dispatchesOk := pump.dispatchesOk + d.invocations.countP accepts }

/-- A task that goes on delivers nothing and leaves the pumps alone, or it has heard a frame and
its pump dispatches it. -/
inductive Progressed (configs : ℕ → PumpConfig) (w : PumpWorld) (i : PumpInput)
    (accepts : Json × Dict → Bool) : PumpWorld → List Delivery → Prop where
  | silent {w' : PumpWorld} (hpumps : w'.pumps = w.pumps)
      (hheard : (w.heard i).bind (deliver configs) = none) : Progressed configs w i accepts w' []
  | frame {w' : PumpWorld} {d : Delivery}
      (hpumps : w'.pumps = Function.update w.pumps d.pump ((w.pumps d.pump).dispatched d accepts))
      (hheard : (w.heard i).bind (deliver configs) = some d) : Progressed configs w i accepts w' [d]

theorem deliver_eq_some {e : ℕ × Decoded} {d : Delivery} :
    deliver configs e = some d ↔ ∃ frame, e = (d.pump, .loaded (.obj frame)) ∧
      d = ⟨d.pump, frame, (configs d.pump).invocations frame⟩ := by
  unfold deliver
  split
  · rename_i p frame
    constructor
    · intro h
      obtain rfl := Option.some.inj h
      exact ⟨frame, rfl, rfl⟩
    · rintro ⟨frame', he, hd⟩
      obtain ⟨rfl, hframe⟩ := Prod.mk.inj he
      obtain rfl : frame = frame' := Json.obj.inj (Decoded.loaded.inj hframe)
      rw [hd]
  · rename_i hother
    simp only [reduceCtorEq, false_iff]
    rintro ⟨frame, he, -⟩
    exact hother _ _ he

theorem delivers_iff {t : ℕ} {task : Task} (htask : w.tasks[t]? = some task) {i : WsInput}
    {accepts : Json × Dict → Bool} {d : Delivery} :
    (w.heard (.progress t i accepts)).bind (deliver configs) = some d ↔
      ∃ frame, task.done = false ∧
        yielded (task.subscription.step w.client i).effects = some frame ∧
        d = ⟨task.pump, frame, (configs task.pump).invocations frame⟩ := by
  constructor
  · intro hd
    obtain ⟨e, hheard, hdeliver⟩ := Option.bind_eq_some_iff.mp hd
    obtain ⟨frame, rfl, hmade⟩ := deliver_eq_some.mp hdeliver
    obtain ⟨t', accepts', task', hi, htask', hpump, hphase, hleft, hopen⟩ := heard_eq_some hheard
    obtain ⟨rfl, rfl, -⟩ := PumpInput.progress.inj hi
    obtain rfl : task = task' := Option.some.inj (htask.symm.trans htask')
    refine ⟨frame, ?_, ?_, ?_⟩
    · unfold Task.done
      rw [hleft, hphase]
      rfl
    · rw [step_message hopen hphase]
      rfl
    · rw [hpump]
      exact hmade
  · rintro ⟨frame, hdone, hframe, rfl⟩
    obtain ⟨hopen, hphase, rfl⟩ := step_yielded hframe
    have hleft : task.left = false := (Bool.or_eq_false_iff.mp hdone).1
    rw [heard_of_listening htask hphase hleft hopen]
    rfl

variable (configs) in
theorem progressed (h : w.StopCloses) (t : ℕ) (i : WsInput) (accepts : Json × Dict → Bool) :
    Progressed configs w (.progress t i accepts) accepts
      ((pumpMachine configs).step w (.progress t i accepts)).1
      ((pumpMachine configs).step w (.progress t i accepts)).2 := by
  dsimp only [pumpMachine]
  split
  · rename_i htask
    have hunheard : w.heard (.progress t i accepts) = none := by
      by_contra hsome
      obtain ⟨⟨p, decoded⟩, hheard⟩ := Option.ne_none_iff_exists'.mp hsome
      obtain ⟨t', _, task, hi, htask', -⟩ := heard_eq_some hheard
      obtain ⟨rfl, -, -⟩ := PumpInput.progress.inj hi
      exact absurd (htask.symm.trans htask') (Option.some_ne_none _).symm
    refine .silent rfl ?_
    rw [hunheard]
    rfl
  rename_i task htask
  have hunheard : ¬ (∃ frame, task.done = false ∧
      yielded (task.subscription.step w.client i).effects = some frame) →
      (w.heard (.progress t i accepts)).bind (deliver configs) = none := by
    intro hno
    by_contra hsome
    obtain ⟨d, hd⟩ := Option.ne_none_iff_exists'.mp hsome
    obtain ⟨frame, hdone, hframe, -⟩ := (delivers_iff htask).mp hd
    exact hno ⟨frame, hdone, hframe⟩
  split
  · rename_i hdone
    refine .silent rfl (hunheard ?_)
    rintro ⟨_, hopen, -⟩
    exact Bool.false_ne_true (hopen.symm.trans hdone)
  · rename_i hdone
    unfold PumpWorld.progress
    dsimp only
    split
    · rename_i hsilent
      refine .silent rfl (hunheard ?_)
      rintro ⟨frame, -, hframe⟩
      exact absurd (hsilent.symm.trans hframe) (Option.some_ne_none _).symm
    · rename_i frame hframe
      have hopen := (step_yielded hframe).1
      have hwanted : ¬ (w.pumps task.pump).stopRequested = true := by
        intro hstop
        exact Bool.false_ne_true (hopen.symm.trans (h _ hstop))
      rw [if_neg hwanted]
      refine .frame rfl ((delivers_iff htask).mpr ⟨frame, ?_, hframe, rfl⟩)
      exact Bool.not_eq_true _ ▸ hdone

def PumpInput.accepts : PumpInput → Json × Dict → Bool
  | .progress _ _ accepts => accepts
  | _ => fun _ => true

structure Counts (p : ℕ) (accepts : Json × Dict → Bool) (ds : List Delivery)
    (pump pump' : StatePump) : Prop where
  framesSeen : pump'.framesSeen = pump.framesSeen + ds.countP (·.pump = p)
  dispatchesOk : pump'.dispatchesOk = pump.dispatchesOk +
    ((ds.filter (·.pump = p)).flatMap Delivery.invocations).countP accepts

theorem counts_start (p p' : ℕ) (accepts : Json × Dict → Bool) :
    Counts p' accepts [] (w.pumps p') ((w.start configs p).pumps p') := by
  unfold PumpWorld.start
  split
  · exact ⟨rfl, rfl⟩
  · dsimp only
    rcases eq_or_ne p' p with rfl | hne
    · rw [Function.update_self]
      exact ⟨rfl, rfl⟩
    · rw [Function.update_of_ne hne]
      exact ⟨rfl, rfl⟩

theorem counts_stop (p p' : ℕ) (accepts : Json × Dict → Bool) :
    Counts p' accepts [] (w.pumps p') ((w.stop p).pumps p') := by
  unfold PumpWorld.stop
  dsimp only
  rcases eq_or_ne p' p with rfl | hne
  · rw [Function.update_self]
    exact ⟨rfl, rfl⟩
  · rw [Function.update_of_ne hne]
    exact ⟨rfl, rfl⟩

theorem counts_step (h : w.StopCloses) (i : PumpInput) (p : ℕ) :
    Counts p i.accepts ((pumpMachine configs).step w i).2 (w.pumps p)
      (((pumpMachine configs).step w i).1.pumps p) := by
  cases i with
  | start p' => exact counts_start p' p _
  | stop p' => exact counts_stop p' p _
  | progress t i accepts =>
    have hprogressed := progressed configs h t i accepts
    generalize (pumpMachine configs).step w (.progress t i accepts) = r at hprogressed ⊢
    obtain ⟨w', ds⟩ := r
    cases hprogressed with
    | silent hpumps hheard =>
      rw [hpumps]
      exact ⟨rfl, rfl⟩
    | frame hpumps hheard =>
      rename_i d
      rw [hpumps]
      rcases eq_or_ne p d.pump with rfl | hne
      · rw [Function.update_self]
        refine ⟨?_, ?_⟩
        · simp [StatePump.dispatched]
        · simp [StatePump.dispatched, PumpInput.accepts]
      · rw [Function.update_of_ne hne]
        refine ⟨?_, ?_⟩
        · simp [hne.symm]
        · simp [hne.symm]

theorem step_delivers (h : w.StopCloses) (i : PumpInput) :
    ((pumpMachine configs).step w i).2 = ((w.heard i).bind (deliver configs)).toList := by
  cases i with
  | start p => rfl
  | stop p => rfl
  | progress t i accepts =>
    have hprogressed := progressed configs h t i accepts
    generalize (pumpMachine configs).step w (.progress t i accepts) = r at hprogressed ⊢
    obtain ⟨w', ds⟩ := r
    cases hprogressed with
    | silent hpumps hheard =>
      rw [hheard]
      rfl
    | frame hpumps hheard =>
      rw [hheard]
      rfl

theorem stopCloses_step (h : w.StopCloses) (i : PumpInput) :
    ((pumpMachine configs).step w i).1.StopCloses := by
  intro p hp
  by_cases hclosed : w.client.closed = true
  · exact (step_of_closed configs hclosed i).1
  have hwanted : (w.pumps p).stopRequested = false :=
    Bool.eq_false_iff.mpr fun hstop => hclosed (h p hstop)
  cases i with
  | start p' =>
    have hstart : ((w.start configs p').pumps p).stopRequested = false := by
      unfold PumpWorld.start
      split
      · exact hwanted
      · dsimp only
        rcases eq_or_ne p p' with rfl | hne
        · rw [Function.update_self]
        · rw [Function.update_of_ne hne]
          exact hwanted
    exact absurd (hstart.symm.trans hp) Bool.false_ne_true
  | stop p' => rfl
  | progress t i accepts =>
    have hprogressed := progressed configs h t i accepts
    generalize (pumpMachine configs).step w (.progress t i accepts) = r at hprogressed hp ⊢
    obtain ⟨w', ds⟩ := r
    have hkept : (w'.pumps p).stopRequested = (w.pumps p).stopRequested := by
      cases hprogressed with
      | silent hpumps hheard => rw [hpumps]
      | frame hpumps hheard =>
        rename_i d
        rw [hpumps]
        rcases eq_or_ne p d.pump with rfl | hne
        · rw [Function.update_self]
          rfl
        · rw [Function.update_of_ne hne]
    exact absurd ((hkept.trans hwanted).symm.trans hp) Bool.false_ne_true

end Step

theorem stopCloses_new (config : WsConfig) : (PumpWorld.new config).StopCloses :=
  fun _ h => absurd h Bool.false_ne_true

def heardBy (configs : ℕ → PumpConfig) (config : WsConfig) (is : List PumpInput) :
    List (ℕ × Decoded) := (pumpMachine configs).shown PumpWorld.heard (.new config) is

theorem trace_eq_heard (config : WsConfig) (is : List PumpInput) :
    (pumpMachine configs).trace (.new config) is =
      (heardBy configs config is).filterMap (deliver configs) :=
  Machine.trace_shown (fun _ i h => ⟨stopCloses_step h i, step_delivers h i⟩)
    (stopCloses_new config) is

end QuikSync.Pump
