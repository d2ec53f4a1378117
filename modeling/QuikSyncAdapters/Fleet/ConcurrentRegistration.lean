import QuikSyncAdapters.Fleet.LazyRegistration

/-! Frames that reach one prepared handle concurrently. The lock is released between the
decision to register and the `add_robot` call, so a run of the handle interleaves three
sections of each `on_state`. -/

namespace QuikSync.Fleet

open Client Py

variable {rmf : RmfAdapter}

/-! ### Interleaved frames -/

/-- How far an `on_state` has come. -/
inductive Stage (rmf : RmfAdapter) where
  -- the lock is released and the call not yet made
  | calling (call : RmfCall rmf)
  -- Open-RMF has answered and the handle does not know it yet
  | settling (call : RmfCall rmf)
  | returned

/-- A handle with the frames it has received, in the order in which they took the lock. -/
structure HandleThreads (rmf : RmfAdapter) where
  handle : RobotHandle rmf
  frames : List (Stage rmf)

inductive HandleEvent (rmf : RmfAdapter) where
  | receive (state : Dict)
  | answer (frame : ℕ)
  | settle (frame : ℕ)
  | setCurrentActivity (activity : Option rmf.ActivityIdentifier)

def Stage.received : Except Exc (Option (RmfCall rmf)) → Stage rmf
  | .ok (some call) => .calling call
  | .ok none => .returned
  | .error _ => .returned

namespace HandleThreads

/-- The atomic sections, answering with the update handles that `add_robot` returns and the
frames they are returned for; Open-RMF answers the call of frame `k` with `answers k`. -/
def step (answers : ℕ → RmfAnswers rmf) (q : HandleThreads rmf) :
    HandleEvent rmf → HandleThreads rmf × List (ℕ × rmf.UpdateHandle)
  | .receive state =>
    (⟨(q.handle.receive state).1, q.frames ++ [.received (q.handle.receive state).2]⟩, [])
  | .answer k =>
    match q.frames[k]? with
    | some (.calling call) =>
      (⟨q.handle, q.frames.set k (.settling call)⟩,
        ((boundBy (call, answers k)).map fun u => (k, u)).toList)
    | _ => (q, [])
  | .settle k =>
    match q.frames[k]? with
    | some (.settling call) =>
      (⟨q.handle.settle call (answers k), q.frames.set k .returned⟩, [])
    | _ => (q, [])
  | .setCurrentActivity activity => (⟨q.handle.setCurrentActivity activity, q.frames⟩, [])

def machine (answers : ℕ → RmfAnswers rmf) :
    Machine (HandleThreads rmf) (HandleEvent rmf) (List (ℕ × rmf.UpdateHandle)) := ⟨step answers⟩

def preparedHandle (h : RobotHandle rmf) (r : Registration rmf) : HandleThreads rmf :=
  ⟨h.prepareRegistration r.fleetHandle r.robotConfig r.callbacks, []⟩

end HandleThreads

open HandleThreads

/-- `add_robot` returns a handle at most once, and a bound handle is never replaced. -/
structure RegistersOnce (answers : ℕ → RmfAnswers rmf) (q : HandleThreads rmf)
    (events : List (HandleEvent rmf)) : Prop where
  returned : ((machine answers).trace q events).length ≤ 1
  bound : ∀ {pre post : List (HandleEvent rmf)} {u : rmf.UpdateHandle}, events = pre ++ post →
    ((machine answers).after q pre).handle.rmfHandle = some u →
    ((machine answers).after q events).handle.rmfHandle = some u

def RmfAnswers.Accepts (answers : RmfAnswers rmf) : Prop := ∃ u, answers.addRobot = .ok (some u)

/-- Frame `k` is about to register the robot: its `add_robot` is accepted in the course of
`events`, or was accepted before them and is not bound yet. -/
def Registering (answers : ℕ → RmfAnswers rmf) (q : HandleThreads rmf)
    (events : List (HandleEvent rmf)) (k : ℕ) : Prop :=
  ∃ call : RmfCall rmf, call.isAddRobot = true ∧ (answers k).Accepts ∧
    (q.frames[k]? = some (.calling call) ∧ .answer k ∈ events ∨
      q.frames[k]? = some (.settling call))

/-- A frame that translates arrives unbound while an earlier one is about to register the
robot, and its own `add_robot` is accepted too. -/
def Races (answers : ℕ → RmfAnswers rmf) (q : HandleThreads rmf) (state : Dict)
    (events : List (HandleEvent rmf)) : Prop :=
  q.handle.rmfHandle = none ∧ (∃ s, toRmfRobotState rmf state = .ok (some s)) ∧
    (answers q.frames.length).Accepts ∧ .answer q.frames.length ∈ events ∧
    ∃ k, Registering answers q events k

/-! ### What each section does -/

namespace RobotHandle

theorem receive_addRobot {h : RobotHandle rmf} {r : Registration rmf}
    (hprepared : h.registration = some r) (hfree : h.rmfHandle = none) {state : Dict}
    {s : rmf.RobotState} (hstate : toRmfRobotState rmf state = .ok (some s)) :
    Stage.received (h.receive state).2 = .calling (.addRobot h.robotName s r) := by
  unfold receive
  simp only [hfree, hprepared, hstate]
  rfl

theorem of_receive_addRobot {h : RobotHandle rmf} {state : Dict} {call : RmfCall rmf}
    (hcall : Stage.received (h.receive state).2 = .calling call) (hadd : call.isAddRobot = true) :
    h.rmfHandle = none ∧ ∃ s, toRmfRobotState rmf state = .ok (some s) := by
  cases hbound : h.rmfHandle with
  | some u =>
    rw [receive_of_bound hbound] at hcall
    rcases hstate : toRmfRobotState rmf state with e | (_ | s)
    · rw [hstate] at hcall
      cases hcall
    · rw [hstate] at hcall
      cases hcall
    · rw [hstate] at hcall
      cases hcall
      exact nomatch hadd
  | none =>
    refine ⟨rfl, ?_⟩
    unfold receive at hcall
    simp only [hbound] at hcall
    split at hcall
    · split at hcall
      · exact nomatch hcall
      · exact nomatch hcall
      · exact ⟨_, ‹_›⟩
    · exact nomatch hcall

theorem settle_accepted (h : RobotHandle rmf) {call : RmfCall rmf} {answers : RmfAnswers rmf}
    (hadd : call.isAddRobot = true) (hanswer : answers.Accepts) :
    (h.settle call answers).rmfHandle.isSome = true := by
  obtain ⟨u, hu⟩ := hanswer
  cases call with
  | update _ _ _ => exact nomatch hadd
  | addRobot _ _ _ =>
    simp only [settle, registered, hu]
    rfl

theorem settle_refused (h : RobotHandle rmf) {call : RmfCall rmf} {answers : RmfAnswers rmf}
    (hrefused : ¬ (call.isAddRobot = true ∧ answers.Accepts)) :
    (h.settle call answers).rmfHandle = h.rmfHandle := by
  unfold settle registered
  cases call with
  | update _ _ _ =>
    dsimp only
    split <;> rfl
  | addRobot _ _ _ =>
    dsimp only
    split
    · rfl
    · rfl
    · exact absurd ⟨rfl, _, ‹_›⟩ hrefused

end RobotHandle

section Sections

variable {answers : ℕ → RmfAnswers rmf} {q : HandleThreads rmf} {events : List (HandleEvent rmf)}

theorem isAddRobot_and_accepts_iff {call : RmfCall rmf} {a : RmfAnswers rmf} :
    call.isAddRobot = true ∧ a.Accepts ↔ ∃ u, boundBy (call, a) = some u := by
  cases call with
  | update _ _ _ => simp [boundBy, RmfCall.isAddRobot]
  | addRobot _ _ _ =>
    simp only [boundBy, RmfCall.isAddRobot, true_and, RmfAnswers.Accepts]
    rcases a.addRobot with e | (_ | u) <;> simp [Except.toOption]

theorem calling_step (answers : ℕ → RmfAnswers rmf) {k : ℕ} {call : RmfCall rmf}
    (hk : q.frames[k]? = some (.calling call)) {e : HandleEvent rmf} (he : e ≠ .answer k) :
    (step answers q e).1.frames[k]? = some (.calling call) := by
  cases e with
  | receive state =>
    have hlt : k < q.frames.length := (List.getElem?_eq_some_iff.mp hk).1
    simp only [step, List.getElem?_append_left hlt, hk]
  | answer j =>
    have hne : j ≠ k := fun hjk => he (hjk ▸ rfl)
    simp only [step]
    split
    · rw [List.getElem?_set_ne hne, hk]
    · exact hk
  | settle j =>
    simp only [step]
    split
    · rename_i hj
      have hne : j ≠ k := fun hjk => by
        rw [hjk, hk] at hj
        exact nomatch hj
      rw [List.getElem?_set_ne hne, hk]
    · exact hk
  | setCurrentActivity activity => exact hk

theorem handle_step (answers : ℕ → RmfAnswers rmf) (q : HandleThreads rmf)
    (e : HandleEvent rmf) (events : List (HandleEvent rmf)) :
    (step answers q e).1.handle.rmfHandle = q.handle.rmfHandle ∨
      ∃ k, Registering answers q events k ∧ (step answers q e).1.frames[k]? = some .returned ∧
        (step answers q e).1.handle.rmfHandle.isSome = true := by
  cases e with
  | receive state => exact Or.inl (q.handle.receive_rmfHandle state)
  | answer j =>
    simp only [step]
    split
    · exact Or.inl rfl
    · exact Or.inl rfl
  | settle j =>
    simp only [step]
    split
    · rename_i call hj
      by_cases hregisters : call.isAddRobot = true ∧ (answers j).Accepts
      · have hlt : j < q.frames.length := (List.getElem?_eq_some_iff.mp hj).1
        refine Or.inr ⟨j, ⟨call, hregisters.1, hregisters.2, Or.inr hj⟩, ?_, ?_⟩
        · exact List.getElem?_set_self hlt
        · exact q.handle.settle_accepted hregisters.1 hregisters.2
      · exact Or.inl (q.handle.settle_refused hregisters)
    · exact Or.inl rfl
  | setCurrentActivity activity => exact Or.inl rfl

theorem registering_of_step {e : HandleEvent rmf} {k : ℕ}
    (hk : Registering answers (step answers q e).1 events k) :
    Registering answers q (e :: events) k ∨
      ∃ state, e = .receive state ∧ k = q.frames.length ∧ q.handle.rmfHandle = none ∧
        (∃ s, toRmfRobotState rmf state = .ok (some s)) ∧ (answers k).Accepts ∧
        .answer k ∈ events := by
  obtain ⟨call, hadd, haccepts, hstage⟩ := hk
  -- a stage found unchanged before the section
  have hsame : q.frames[k]? = some (.calling call) ∧ .answer k ∈ events ∨
      q.frames[k]? = some (.settling call) → Registering answers q (e :: events) k := by
    intro hbefore
    refine ⟨call, hadd, haccepts, hbefore.imp_left ?_⟩
    exact fun hcalling => ⟨hcalling.1, List.mem_cons_of_mem e hcalling.2⟩
  cases e with
  | receive state =>
    simp only [step] at hstage
    by_cases hlt : k < q.frames.length
    · rw [List.getElem?_append_left hlt] at hstage
      exact Or.inl (hsame hstage)
    rw [List.getElem?_append_right (Nat.le_of_not_lt hlt)] at hstage
    have hlast : k = q.frames.length := by
      by_contra hne
      have hout : 1 ≤ k - q.frames.length := by omega
      rw [List.getElem?_eq_none (by simpa using hout)] at hstage
      simp at hstage
    subst hlast
    rw [Nat.sub_self, List.getElem?_cons_zero] at hstage
    obtain ⟨hcalling, hanswer⟩ | hsettling := hstage
    · have hreceived := RobotHandle.of_receive_addRobot (Option.some.inj hcalling) hadd
      exact Or.inr ⟨state, rfl, rfl, hreceived.1, hreceived.2, haccepts, hanswer⟩
    · unfold Stage.received at hsettling
      split at hsettling <;> cases hsettling
  | answer j =>
    simp only [step] at hstage
    split at hstage
    · rename_i called hj
      by_cases hjk : j = k
      · subst hjk
        have hlt : j < q.frames.length := (List.getElem?_eq_some_iff.mp hj).1
        rw [List.getElem?_set_self hlt] at hstage
        obtain ⟨hcalling, -⟩ | hsettling := hstage
        · cases hcalling
        · obtain rfl := Stage.settling.inj (Option.some.inj hsettling)
          exact Or.inl ⟨called, hadd, haccepts, Or.inl ⟨hj, List.mem_cons_self ..⟩⟩
      · rw [List.getElem?_set_ne hjk] at hstage
        exact Or.inl (hsame hstage)
    · exact Or.inl (hsame hstage)
  | settle j =>
    simp only [step] at hstage
    split at hstage
    · rename_i called hj
      by_cases hjk : j = k
      · subst hjk
        have hlt : j < q.frames.length := (List.getElem?_eq_some_iff.mp hj).1
        rw [List.getElem?_set_self hlt] at hstage
        obtain ⟨hcalling, -⟩ | hsettling := hstage
        · cases hcalling
        · cases hsettling
      · rw [List.getElem?_set_ne hjk] at hstage
        exact Or.inl (hsame hstage)
    · exact Or.inl (hsame hstage)
  | setCurrentActivity activity => exact Or.inl (hsame hstage)

theorem registering_not_returned {k : ℕ} (hk : Registering answers q events k) :
    q.frames[k]? ≠ some .returned := by
  obtain ⟨call, -, -, ⟨hcalling, -⟩ | hsettling⟩ := hk
  · rw [hcalling]
    exact nofun
  · rw [hsettling]
    exact nofun

/-! ### At most one frame registers the robot -/

structure Sole (answers : ℕ → RmfAnswers rmf) (q : HandleThreads rmf)
    (events : List (HandleEvent rmf)) : Prop where
  one : ∀ {i j : ℕ}, Registering answers q events i → Registering answers q events j → i = j
  unbound : ∀ {i : ℕ}, Registering answers q events i → q.handle.rmfHandle = none

def RaceFree (answers : ℕ → RmfAnswers rmf) (q : HandleThreads rmf)
    (events : List (HandleEvent rmf)) : Prop :=
  ∀ (pre post : List (HandleEvent rmf)) (state : Dict), events = pre ++ .receive state :: post →
    ¬ Races answers ((machine answers).after q pre) state post

theorem RaceFree.tail {e : HandleEvent rmf} (h : RaceFree answers q (e :: events)) :
    RaceFree answers (step answers q e).1 events := by
  intro pre post state hevents
  exact h (e :: pre) post state (by rw [hevents, List.cons_append])

theorem sole_step {e : HandleEvent rmf} (hfree : RaceFree answers q (e :: events))
    (hsole : Sole answers q (e :: events)) : Sole answers (step answers q e).1 events where
  one {i j} hi hj := by
    -- a frame that the section received is alone, or there was a race
    have hnew : ∀ {k k' : ℕ}, Registering answers (step answers q e).1 events k →
        Registering answers (step answers q e).1 events k' →
        ¬ Registering answers q (e :: events) k → k = k' := by
      intro k k' hk hk' hfresh
      obtain hold | ⟨state, rfl, rfl, hunbound, htranslates, haccepts, hanswer⟩ :=
        registering_of_step hk
      · exact absurd hold hfresh
      obtain hold' | ⟨_, _, rfl, _⟩ := registering_of_step hk'
      · obtain ⟨call, hadd, haccepts', hstage⟩ := hold'
        have hstage' : q.frames[k']? = some (.calling call) ∧ .answer k' ∈ events ∨
            q.frames[k']? = some (.settling call) := by
          refine hstage.imp_left fun hcalling => ⟨hcalling.1, ?_⟩
          exact (List.mem_cons.mp hcalling.2).resolve_left nofun
        have hrace : Races answers q state events :=
          ⟨hunbound, htranslates, haccepts, hanswer, k', call, hadd, haccepts', hstage'⟩
        exact absurd hrace (hfree [] events state rfl)
      · rfl
    by_cases hi' : Registering answers q (e :: events) i
    · by_cases hj' : Registering answers q (e :: events) j
      · exact hsole.one hi' hj'
      · exact (hnew hj hi hj').symm
    · exact hnew hi hj hi'
  unbound {k} hk := by
    have hbefore : q.handle.rmfHandle = none := by
      obtain hold | ⟨_, _, _, hunbound, _⟩ := registering_of_step hk
      · exact hsole.unbound hold
      · exact hunbound
    obtain hsame | ⟨j, hj, hreturned, -⟩ := handle_step answers q e (e :: events)
    · exact hsame.trans hbefore
    · -- the frame that bound the handle was the only one and is done
      obtain hold | ⟨_, rfl, _⟩ := registering_of_step hk
      · obtain rfl := hsole.one hj hold
        exact absurd hreturned (registering_not_returned hk)
      · exact (q.handle.receive_rmfHandle _).trans hbefore

/-- The robot is registered, though the handle need not know it yet. -/
def Registered (answers : ℕ → RmfAnswers rmf) (q : HandleThreads rmf) : Prop :=
  q.handle.rmfHandle.isSome = true ∨ ∃ (k : ℕ) (call : RmfCall rmf), call.isAddRobot = true ∧
    (answers k).Accepts ∧ q.frames[k]? = some (.settling call)

theorem registered_step (h : Registered answers q) (e : HandleEvent rmf) :
    Registered answers (step answers q e).1 := by
  obtain hbound | ⟨k, call, hadd, haccepts, hk⟩ := h
  · left
    obtain hsame | ⟨_, _, _, hsome⟩ := handle_step answers q e []
    · rwa [hsame]
    · exact hsome
  have hlt : k < q.frames.length := (List.getElem?_eq_some_iff.mp hk).1
  have hkept : ∀ j : ℕ, j ≠ k → ∀ stage : Stage rmf,
      (q.frames.set j stage)[k]? = some (.settling call) := fun j hjk stage => by
    rw [List.getElem?_set_ne hjk, hk]
  cases e with
  | receive state =>
    refine Or.inr ⟨k, call, hadd, haccepts, ?_⟩
    simp only [step, List.getElem?_append_left hlt, hk]
  | answer j =>
    simp only [step]
    split
    · rename_i hj
      have hne : j ≠ k := fun hjk => by
        rw [hjk, hk] at hj
        exact nomatch hj
      exact Or.inr ⟨k, call, hadd, haccepts, hkept j hne _⟩
    · exact Or.inr ⟨k, call, hadd, haccepts, hk⟩
  | settle j =>
    simp only [step]
    split
    · rename_i hj
      by_cases hjk : j = k
      · subst hjk
        obtain rfl := Stage.settling.inj (Option.some.inj (hj.symm.trans hk))
        exact Or.inl (q.handle.settle_accepted hadd haccepts)
      · exact Or.inr ⟨k, call, hadd, haccepts, hkept j hjk _⟩
    · exact Or.inr ⟨k, call, hadd, haccepts, hk⟩
  | setCurrentActivity activity => exact Or.inr ⟨k, call, hadd, haccepts, hk⟩

theorem answer_eq {k : ℕ} {call : RmfCall rmf} (hk : q.frames[k]? = some (.calling call)) :
    step answers q (.answer k) = (⟨q.handle, q.frames.set k (.settling call)⟩,
      ((boundBy (call, answers k)).map fun u => (k, u)).toList) := by
  simp only [step, hk]

theorem returned_step (answers : ℕ → RmfAnswers rmf) (q : HandleThreads rmf)
    (e : HandleEvent rmf) :
    (step answers q e).2 = [] ∨ ∃ k call u, e = .answer k ∧ call.isAddRobot = true ∧
      (answers k).Accepts ∧ q.frames[k]? = some (.calling call) ∧
      (step answers q e).2 = [(k, u)] := by
  cases e with
  | receive state => exact Or.inl rfl
  | settle j =>
    simp only [step]
    split <;> exact Or.inl rfl
  | setCurrentActivity activity => exact Or.inl rfl
  | answer k =>
    by_cases hcalling : ∃ call, q.frames[k]? = some (.calling call)
    · obtain ⟨call, hk⟩ := hcalling
      rw [answer_eq hk]
      cases hbound : boundBy (call, answers k) with
      | none => exact Or.inl rfl
      | some u =>
        obtain ⟨hadd, haccepts⟩ := isAddRobot_and_accepts_iff.mpr ⟨u, hbound⟩
        exact Or.inr ⟨k, call, u, rfl, hadd, haccepts, hk, rfl⟩
    · simp only [step]
      split
      · exact absurd ⟨_, ‹_›⟩ hcalling
      · exact Or.inl rfl

theorem returned_of_registered {e : HandleEvent rmf} (hsole : Sole answers q (e :: events))
    (h : Registered answers q) : (step answers q e).2 = [] := by
  obtain hnone | ⟨k, call, u, rfl, hadd, haccepts, hk, -⟩ := returned_step answers q e
  · exact hnone
  have hregistering : Registering answers q (.answer k :: events) k :=
    ⟨call, hadd, haccepts, Or.inl ⟨hk, List.mem_cons_self ..⟩⟩
  obtain hbound | ⟨j, settled, hadd', haccepts', hj⟩ := h
  · rw [hsole.unbound hregistering] at hbound
    exact nomatch hbound
  · obtain rfl := hsole.one hregistering ⟨settled, hadd', haccepts', Or.inr hj⟩
    exact nomatch hk.symm.trans hj

theorem trace_of_registered (hfree : RaceFree answers q events) (hsole : Sole answers q events)
    (h : Registered answers q) : (machine answers).trace q events = [] := by
  induction events generalizing q with
  | nil => rfl
  | cons e events ih =>
    rw [Machine.trace_cons]
    have hnone : ((machine answers).step q e).2 = [] := returned_of_registered hsole h
    rw [hnone, List.nil_append]
    exact ih hfree.tail (sole_step hfree hsole) (registered_step h e)

theorem trace_length_le (hfree : RaceFree answers q events) (hsole : Sole answers q events) :
    ((machine answers).trace q events).length ≤ 1 := by
  induction events generalizing q with
  | nil => exact Nat.zero_le 1
  | cons e events ih =>
    rw [Machine.trace_cons, List.length_append]
    obtain hnone | ⟨k, call, u, rfl, hadd, haccepts, hk, hone⟩ :=
      returned_step answers q e
    · have hnone' : ((machine answers).step q e).2 = [] := hnone
      rw [hnone', List.length_nil, Nat.zero_add]
      exact ih hfree.tail (sole_step hfree hsole)
    · have hlt : k < q.frames.length := (List.getElem?_eq_some_iff.mp hk).1
      have hregistered : Registered answers (step answers q (.answer k)).1 := by
        rw [answer_eq hk]
        exact Or.inr ⟨k, call, hadd, haccepts, List.getElem?_set_self hlt⟩
      have hrest : (machine answers).trace ((machine answers).step q (.answer k)).1 events = [] :=
        trace_of_registered hfree.tail (sole_step hfree hsole) hregistered
      have hone' : ((machine answers).step q (.answer k)).2 = [(k, u)] := hone
      rw [hrest, hone']
      exact le_rfl

theorem bound_after_sole {u : rmf.UpdateHandle} (hfree : RaceFree answers q events)
    (hsole : Sole answers q events) (hbound : q.handle.rmfHandle = some u) :
    ((machine answers).after q events).handle.rmfHandle = some u := by
  induction events generalizing q with
  | nil => exact hbound
  | cons e events ih =>
    apply ih hfree.tail (sole_step hfree hsole)
    obtain hsame | ⟨j, hj, -, -⟩ := handle_step answers q e (e :: events)
    · exact hsame.trans hbound
    · exact nomatch (hsole.unbound hj).symm.trans hbound

theorem sole_after {pre post : List (HandleEvent rmf)} (hfree : RaceFree answers q (pre ++ post))
    (hsole : Sole answers q (pre ++ post)) :
    RaceFree answers ((machine answers).after q pre) post ∧
      Sole answers ((machine answers).after q pre) post := by
  induction pre generalizing q with
  | nil => exact ⟨hfree, hsole⟩
  | cons e pre ih => exact ih hfree.tail (sole_step hfree hsole)

/-! ### A race registers the robot twice -/

theorem mem_trace_of_calling {k : ℕ} {call : RmfCall rmf}
    (hk : q.frames[k]? = some (.calling call)) (hadd : call.isAddRobot = true)
    (haccepts : (answers k).Accepts) (hanswer : .answer k ∈ events) :
    ∃ u, (k, u) ∈ (machine answers).trace q events := by
  induction events generalizing q with
  | nil => exact absurd hanswer List.not_mem_nil
  | cons e events ih =>
    rw [Machine.trace_cons]
    by_cases he : e = .answer k
    · subst he
      obtain ⟨u, hu⟩ := isAddRobot_and_accepts_iff.mp ⟨hadd, haccepts⟩
      have hone : ((machine answers).step q (.answer k)).2 = [(k, u)] := by
        change (step answers q (.answer k)).2 = [(k, u)]
        rw [answer_eq hk, hu]
        rfl
      rw [hone]
      exact ⟨u, List.mem_append_left _ (List.mem_singleton_self _)⟩
    · have hlater : .answer k ∈ events := (List.mem_cons.mp hanswer).resolve_left (Ne.symm he)
      obtain ⟨u, hu⟩ := ih (calling_step answers hk he) hlater
      exact ⟨u, List.mem_append_right _ hu⟩

def Known (answers : ℕ → RmfAnswers rmf) (q : HandleThreads rmf)
    (log : List (HandleEvent rmf × List (ℕ × rmf.UpdateHandle))) : Prop :=
  ∀ k call u, q.frames[k]? = some (.settling call) → boundBy (call, answers k) = some u →
    (k, u) ∈ (log.map Prod.snd).flatten

theorem known_step {log : List (HandleEvent rmf × List (ℕ × rmf.UpdateHandle))}
    (h : Known answers q log) (e : HandleEvent rmf) :
    Known answers (step answers q e).1 (log ++ [(e, (step answers q e).2)]) := by
  intro k call u hk hu
  rw [List.map_append, List.flatten_append]
  -- a frame that was about to bind before the section
  have hold : q.frames[k]? = some (.settling call) →
      (k, u) ∈ (log.map Prod.snd).flatten ++ ([(e, (step answers q e).2)].map Prod.snd).flatten :=
    fun hbefore => List.mem_append_left _ (h k call u hbefore hu)
  cases e with
  | receive state =>
    simp only [step] at hk
    by_cases hlt : k < q.frames.length
    · rw [List.getElem?_append_left hlt] at hk
      exact hold hk
    · rw [List.getElem?_append_right (Nat.le_of_not_lt hlt)] at hk
      have hlast := List.mem_singleton.mp (List.mem_of_getElem? hk)
      unfold Stage.received at hlast
      split at hlast <;> cases hlast
  | answer j =>
    by_cases hcalling : ∃ called, q.frames[j]? = some (.calling called)
    · obtain ⟨called, hj⟩ := hcalling
      rw [answer_eq hj] at hk hold ⊢
      by_cases hjk : j = k
      · subst hjk
        have hlt : j < q.frames.length := (List.getElem?_eq_some_iff.mp hj).1
        rw [List.getElem?_set_self hlt] at hk
        obtain rfl := Stage.settling.inj (Option.some.inj hk)
        rw [hu]
        exact List.mem_append_right _ (List.mem_singleton_self _)
      · rw [List.getElem?_set_ne hjk] at hk
        exact hold hk
    · simp only [step] at hk
      split at hk
      · exact absurd ⟨_, ‹_›⟩ hcalling
      · exact hold hk
  | settle j =>
    simp only [step] at hk
    split at hk
    · rename_i called hj
      by_cases hjk : j = k
      · subst hjk
        have hlt : j < q.frames.length := (List.getElem?_eq_some_iff.mp hj).1
        rw [List.getElem?_set_self hlt] at hk
        cases hk
      · rw [List.getElem?_set_ne hjk] at hk
        exact hold hk
    · exact hold hk
  | setCurrentActivity activity => exact hold hk

theorem registration_after (answers : ℕ → RmfAnswers rmf) (q : HandleThreads rmf)
    (events : List (HandleEvent rmf)) :
    ((machine answers).after q events).handle.registration = q.handle.registration := by
  apply Machine.after_invariant
    (P := fun q' : HandleThreads rmf => q'.handle.registration = q.handle.registration)
  · intro q' e h
    change (step answers q' e).1.handle.registration = q.handle.registration
    rw [← h]
    cases e with
    | receive state => exact q'.handle.receive_registration state
    | answer j =>
      simp only [step]
      split <;> rfl
    | settle j =>
      simp only [step]
      split
      · exact q'.handle.settle_registration _ _
      · rfl
    | setCurrentActivity activity => rfl
  · rfl

theorem returned_of_race {h : RobotHandle rmf} {r : Registration rmf}
    {pre post : List (HandleEvent rmf)} {state : Dict}
    (hrace : Races answers ((machine answers).after (preparedHandle h r) pre) state post) :
    2 ≤ ((machine answers).trace (preparedHandle h r) (pre ++ .receive state :: post)).length := by
  obtain ⟨hfree, ⟨s, hstate⟩, haccepts, hanswer, k, call, hadd, haccepts', hstage⟩ := hrace
  have hstart : Known answers (preparedHandle h r) [] := fun _ _ _ hnone => nomatch hnone
  have hknown : Known answers ((machine answers).after (preparedHandle h r) pre)
      ((machine answers).log (preparedHandle h r) pre) :=
    Machine.run_invariant (P := Known answers) (A := fun _ => True)
      (fun _ _ e _ hq => known_step hq e) hstart fun _ _ => trivial
  have hprepared := registration_after answers (preparedHandle h r) pre
  rw [Machine.trace_append, Machine.trace_cons]
  generalize (machine answers).after (preparedHandle h r) pre = q at *
  have hcalled := RobotHandle.receive_addRobot hprepared hfree hstate
  -- the frame received second
  obtain ⟨u, hu⟩ : ∃ u, (q.frames.length, u) ∈
      (machine answers).trace ((machine answers).step q (.receive state)).1 post := by
    have hcalling : ((machine answers).step q (.receive state)).1.frames[q.frames.length]? =
        some (.calling (.addRobot q.handle.robotName s r)) := by
      change (q.frames ++ [Stage.received (q.handle.receive state).2])[q.frames.length]? = _
      rw [hcalled, List.getElem?_concat_length]
    exact mem_trace_of_calling hcalling rfl haccepts hanswer
  -- the frame received first
  obtain ⟨v, hlt, hv⟩ : ∃ v, k < q.frames.length ∧
      ((k, v) ∈ (machine answers).trace (preparedHandle h r) pre ∨
        (k, v) ∈ (machine answers).trace ((machine answers).step q (.receive state)).1 post) := by
    obtain ⟨hcalling, hlater⟩ | hsettling := hstage
    · obtain ⟨v, hv⟩ := mem_trace_of_calling
        (calling_step answers (e := .receive state) hcalling nofun) hadd haccepts' hlater
      exact ⟨v, (List.getElem?_eq_some_iff.mp hcalling).1, Or.inr hv⟩
    · obtain ⟨v, hv⟩ := isAddRobot_and_accepts_iff.mp ⟨hadd, haccepts'⟩
      exact ⟨v, (List.getElem?_eq_some_iff.mp hsettling).1, Or.inl (hknown k call v hsettling hv)⟩
  have hne : (k, v) ≠ (q.frames.length, u) := fun heq => hlt.ne (Prod.mk.inj heq).1
  have htrace : [(k, v), (q.frames.length, u)] ⊆ (machine answers).trace (preparedHandle h r) pre ++
      (((machine answers).step q (.receive state)).2 ++
        (machine answers).trace ((machine answers).step q (.receive state)).1 post) := by
    refine List.cons_subset.mpr ⟨?_, List.cons_subset.mpr ⟨?_, List.nil_subset _⟩⟩
    · obtain hpre | hpost := hv
      · exact List.mem_append_left _ hpre
      · exact List.mem_append_right _ (List.mem_append_right _ hpost)
    · exact List.mem_append_right _ (List.mem_append_right _ hu)
  have hnodup : [(k, v), (q.frames.length, u)].Nodup :=
    List.nodup_cons.mpr ⟨fun hmem => hne (List.mem_singleton.mp hmem), List.nodup_singleton _⟩
  exact (List.subperm_of_subset hnodup htrace).length_le

end Sections

/-! ### The contract -/

theorem sole_preparedHandle (answers : ℕ → RmfAnswers rmf) (h : RobotHandle rmf)
    (r : Registration rmf) (events : List (HandleEvent rmf)) :
    Sole answers (preparedHandle h r) events := by
  have hnone : ∀ {k : ℕ}, ¬ Registering answers (preparedHandle h r) events k := by
    intro k ⟨_, _, _, hstage⟩
    obtain ⟨hcalling, -⟩ | hsettling := hstage
    · exact nomatch hcalling
    · exact nomatch hsettling
  exact ⟨fun hi => absurd hi hnone, fun hi => absurd hi hnone⟩

/-- The robot is registered once in exactly those runs in which no frame arrives unbound, to
be accepted, while an earlier one is about to register the robot. -/
theorem registers_once_iff (answers : ℕ → RmfAnswers rmf) (h : RobotHandle rmf)
    (r : Registration rmf) (events : List (HandleEvent rmf)) :
    RegistersOnce answers (preparedHandle h r) events ↔
      ∀ pre state post, events = pre ++ .receive state :: post →
        ¬ Races answers ((machine answers).after (preparedHandle h r) pre) state post := by
  constructor
  · rintro honce pre state post rfl hrace
    have htwo := returned_of_race hrace
    exact absurd honce.returned (Nat.not_le_of_lt htwo)
  · intro hraces
    have hfree : RaceFree answers (preparedHandle h r) events := fun pre post state => hraces pre state post
    have hsole := sole_preparedHandle answers h r events
    refine ⟨trace_length_le hfree hsole, ?_⟩
    intro pre post u hevents hbound
    subst hevents
    obtain ⟨hfree', hsole'⟩ := sole_after hfree hsole
    rw [Machine.after_append]
    exact bound_after_sole hfree' hsole' hbound

def overlappingFrames : List (HandleEvent plainRmf) :=
  [.receive (originFrame .null), .receive (originFrame .null), .answer 0, .answer 1, .settle 0,
    .settle 1]

theorem overlapping_frames_register_twice :
    ¬ ∀ (rmf : RmfAdapter) (answers : ℕ → RmfAnswers rmf) (h : RobotHandle rmf)
        (r : Registration rmf) (events : List (HandleEvent rmf)),
      RegistersOnce answers (preparedHandle h r) events := by
  intro hall
  let answers : ℕ → RmfAnswers plainRmf := fun _ => ⟨.ok (), .ok (some ())⟩
  let start := preparedHandle (.new plainRmf "r1") ⟨(), (), ()⟩
  have hstate := originFrame_translates .null
  obtain ⟨call, hadd, hfirst⟩ : ∃ call : RmfCall plainRmf, call.isAddRobot = true ∧
      Stage.received (start.handle.receive (originFrame .null)).2 = .calling call :=
    ⟨.addRobot "r1" _ ⟨(), (), ()⟩, rfl, RobotHandle.receive_addRobot rfl rfl hstate⟩
  have hregistering : Registering answers (step answers start (.receive (originFrame .null))).1
      (overlappingFrames.drop 2) 0 := by
    refine ⟨call, hadd, ⟨(), rfl⟩, Or.inl ⟨?_, List.mem_cons_self ..⟩⟩
    exact congrArg some hfirst
  have hrace : Races answers ((machine answers).after start (overlappingFrames.take 1))
      (originFrame .null) (overlappingFrames.drop 2) := by
    refine ⟨start.handle.receive_rmfHandle _, ⟨_, hstate⟩, ⟨(), rfl⟩, ?_, 0, hregistering⟩
    exact List.mem_cons_of_mem _ (List.mem_cons_self ..)
  have htwo := returned_of_race hrace
  have honce := hall plainRmf answers (.new plainRmf "r1") ⟨(), (), ()⟩ overlappingFrames
  exact absurd honce.returned (Nat.not_le_of_lt htwo)

end QuikSync.Fleet
