import QuikSyncAdapters.Pump.StatePump

/-! The tasks of the pumps are subscriptions of the shared client. Every run of pumps is, on
the client and on the subscriptions of its tasks, a run of subscriptions that share a client. -/

namespace QuikSync.Pump

open Client Py

def Below (n : ℕ) : SharedInput → Prop
  | .subscription k _ => k < n
  | .close => True

theorem after_update (q : WsShared) {n : ℕ} (s : Subscription) {js : List SharedInput}
    (hjs : ∀ j ∈ js, Below n j) :
    sharedMachine.after ⟨q.client, Function.update q.subscriptions n s⟩ js =
      ⟨(sharedMachine.after q js).client,
        Function.update (sharedMachine.after q js).subscriptions n s⟩ := by
  induction js generalizing q with
  | nil => rfl
  | cons j js ih =>
    have hrest : ∀ i ∈ js, Below n i := fun i hi => hjs i (List.mem_cons_of_mem _ hi)
    cases j with
    | close => exact ih { q with client := q.client.close } hrest
    | subscription k i =>
      have hk : k ≠ n := (hjs _ List.mem_cons_self).ne
      have hstep : (sharedMachine.step ⟨q.client, Function.update q.subscriptions n s⟩
          (.subscription k i)).1 =
            ⟨(sharedMachine.step q (.subscription k i)).1.client, Function.update
              (sharedMachine.step q (.subscription k i)).1.subscriptions n s⟩ := by
        rw [sharedMachine_step, sharedMachine_step]
        dsimp only
        rw [Function.update_of_ne hk, Function.update_comm hk]
      rw [Machine.after_cons, Machine.after_cons, hstep]
      exact ih (sharedMachine.step q (.subscription k i)).1 hrest

theorem new_update (config : WsConfig) (endpoints : ℕ → String × Option String) (n : ℕ)
    (endpoint : String × Option String) :
    WsShared.new config (Function.update endpoints n endpoint) =
      ⟨(WsShared.new config endpoints).client, Function.update
        (WsShared.new config endpoints).subscriptions n (.new config endpoint.1 endpoint.2)⟩ := by
  have hsubscriptions : (WsShared.new config (Function.update endpoints n endpoint)).subscriptions =
      Function.update (WsShared.new config endpoints).subscriptions n
        (.new config endpoint.1 endpoint.2) := by
    funext k
    by_cases hk : k = n
    · subst hk
      rw [Function.update_self]
      simp only [WsShared.new, Function.update_self]
    · rw [Function.update_of_ne hk]
      simp only [WsShared.new, Function.update_of_ne hk]
  rw [← hsubscriptions]
  rfl

/-- The shared run `js` leaves the client and the subscriptions of the tasks of `w`. -/
structure Realises (config : WsConfig) (endpoints : ℕ → String × Option String)
    (js : List SharedInput) (w : PumpWorld) : Prop where
  configured : w.client.config = config
  client : (sharedMachine.after (.new config endpoints) js).client = w.client
  subscriptions : ∀ t task, w.tasks[t]? = some task →
    (sharedMachine.after (.new config endpoints) js).subscriptions t = task.subscription
  below : ∀ j ∈ js, Below w.tasks.length j

section Step

variable {config : WsConfig} {endpoints : ℕ → String × Option String} {js : List SharedInput}
  {w : PumpWorld}

theorem step_config (c : QuikSyncWsClient) (s : Subscription) (i : WsInput) :
    (s.step c i).client.config = c.config := by
  obtain h | ⟨now, h⟩ := s.step_client c i
  · rw [h]
  · rw [h]
    rfl

theorem Realises.set (h : Realises config endpoints js w) {t : ℕ} {task task' : Task}
    (hget : w.tasks[t]? = some task) (i : WsInput)
    (htask : task'.subscription = (task.subscription.step w.client i).subscription)
    (pumps : ℕ → StatePump) :
    Realises config endpoints (js ++ [.subscription t i])
      ⟨(task.subscription.step w.client i).client, pumps, w.tasks.set t task'⟩ := by
  have hstep : sharedMachine.after (.new config endpoints) (js ++ [.subscription t i]) =
      ⟨(task.subscription.step w.client i).client, Function.update
        (sharedMachine.after (.new config endpoints) js).subscriptions t
          (task.subscription.step w.client i).subscription⟩ := by
    rw [Machine.after_append, Machine.after_cons, Machine.after_nil, sharedMachine_step, h.client,
      h.subscriptions t task hget]
  obtain ⟨ht, -⟩ := List.getElem?_eq_some_iff.mp hget
  refine ⟨(step_config ..).trans h.configured, congrArg WsShared.client hstep, ?_, ?_⟩
  · intro t' other hother
    rw [hstep]
    by_cases hne : t = t'
    · subst hne
      rw [List.getElem?_set_self ht] at hother
      dsimp only
      rw [Function.update_self, ← Option.some.inj hother, htask]
    · rw [List.getElem?_set_ne hne] at hother
      dsimp only
      rw [Function.update_of_ne (Ne.symm hne)]
      exact h.subscriptions t' other hother
  · intro j hj
    rw [List.length_set]
    rcases List.mem_append.mp hj with hj | hj
    · exact h.below j hj
    · rw [List.mem_singleton.mp hj]
      exact ht

theorem Realises.close (h : Realises config endpoints js w) (pumps : ℕ → StatePump) :
    Realises config endpoints (js ++ [.close]) ⟨w.client.close, pumps, w.tasks⟩ := by
  have hstep : sharedMachine.after (.new config endpoints) (js ++ [.close]) =
      ⟨w.client.close, (sharedMachine.after (.new config endpoints) js).subscriptions⟩ := by
    rw [Machine.after_append, ← h.client]
    rfl
  refine ⟨h.configured, congrArg WsShared.client hstep, ?_, ?_⟩
  · rw [hstep]
    exact h.subscriptions
  · intro j hj
    rcases List.mem_append.mp hj with hj | hj
    · exact h.below j hj
    · rw [List.mem_singleton.mp hj]
      exact trivial

theorem Realises.spawn (h : Realises config endpoints js w) (p : ℕ)
    (endpoint : String × Option String) (pumps : ℕ → StatePump) :
    Realises config (Function.update endpoints w.tasks.length endpoint) js
      ⟨w.client, pumps, w.tasks ++ [⟨p, .new w.client.config endpoint.1 endpoint.2, false⟩]⟩ := by
  have hrun : sharedMachine.after
      (.new config (Function.update endpoints w.tasks.length endpoint)) js =
        ⟨w.client, Function.update (sharedMachine.after (.new config endpoints) js).subscriptions
          w.tasks.length (.new config endpoint.1 endpoint.2)⟩ := by
    rw [new_update, after_update _ _ h.below, h.client]
  refine ⟨h.configured, congrArg WsShared.client hrun, ?_, ?_⟩
  · intro t task hget
    rw [hrun]
    dsimp only at hget ⊢
    by_cases ht : t = w.tasks.length
    · subst ht
      rw [List.getElem?_concat_length] at hget
      rw [Function.update_self, ← Option.some.inj hget, h.configured]
    · obtain ⟨hlt, -⟩ := List.getElem?_eq_some_iff.mp hget
      rw [List.length_append, List.length_singleton] at hlt
      have hold : t < w.tasks.length := by omega
      rw [List.getElem?_append_left hold] at hget
      rw [Function.update_of_ne ht]
      exact h.subscriptions t task hget
  · intro j hj
    have hbelow := h.below j hj
    rw [List.length_append]
    cases j with
    | close => exact trivial
    | subscription k i => exact Nat.lt_add_right _ hbelow

theorem progress_eq_set (configs : ℕ → PumpConfig) (w : PumpWorld) (t : ℕ) (task : Task)
    (i : WsInput) (accepts : Json × Dict → Bool) :
    ∃ pumps left, (w.progress configs t task i accepts).1 =
      ⟨(task.subscription.step w.client i).client, pumps, w.tasks.set t
        ⟨task.pump, (task.subscription.step w.client i).subscription, left⟩⟩ := by
  unfold PumpWorld.progress
  dsimp only
  split
  · exact ⟨w.pumps, task.left, rfl⟩
  · split
    · refine ⟨w.pumps, true, ?_⟩
      rw [List.set_set]
    · exact ⟨_, task.left, rfl⟩

theorem step_cancel_client (c : QuikSyncWsClient) (s : Subscription) :
    (s.step c .cancel).client = c := by
  show (if s.phase.finished then (⟨c, s, []⟩ : WsStep) else _).client = c
  split <;> rfl

theorem realises_stop (h : Realises config endpoints js w) (p : ℕ) :
    ∃ js', Realises config endpoints js' (w.stop p) := by
  unfold PumpWorld.stop
  generalize Function.update w.pumps p _ = pumps
  have hclosed := h.close pumps
  cases htask : (w.pumps p).task with
  | none => exact ⟨_, hclosed⟩
  | some t =>
    dsimp only
    rw [List.modify_eq_set_getElem?]
    cases hget : w.tasks[t]? with
    | none => exact ⟨_, hclosed⟩
    | some task =>
      dsimp only [Option.map_eq_map, Option.map_some, Option.getD_some]
      unfold PumpWorld.cancel
      cases hdone : task.done with
      | true =>
        obtain ⟨ht, rfl⟩ := List.getElem?_eq_some_iff.mp hget
        rw [if_pos rfl, List.set_getElem_self]
        exact ⟨_, hclosed⟩
      | false =>
        have hcancelled : Realises config endpoints _ ⟨_, pumps, w.tasks.set t { task with
            subscription := (task.subscription.step w.client.close .cancel).subscription }⟩ :=
          hclosed.set hget .cancel rfl pumps
        rw [step_cancel_client] at hcancelled
        exact ⟨_, hcancelled⟩

theorem realises_step (configs : ℕ → PumpConfig) (h : Realises config endpoints js w)
    (i : PumpInput) :
    ∃ endpoints' js', Realises config endpoints' js' ((pumpMachine configs).step w i).1 := by
  cases i with
  | start p =>
    show ∃ endpoints' js', Realises config endpoints' js' (w.start configs p)
    unfold PumpWorld.start
    split
    · exact ⟨_, _, h⟩
    · exact ⟨_, _, h.spawn p ((configs p).path, (configs p).scope) _⟩
  | stop p =>
    obtain ⟨js', hstopped⟩ := realises_stop h p
    exact ⟨_, js', hstopped⟩
  | progress t i accepts =>
    dsimp only [pumpMachine]
    split
    · exact ⟨_, _, h⟩
    · rename_i task hget
      split
      · exact ⟨_, _, h⟩
      · obtain ⟨pumps, left, hset⟩ := progress_eq_set configs w t task i accepts
        rw [hset]
        exact ⟨_, _, h.set hget i rfl pumps⟩

end Step

/-- After any run of the pumps, the client and the subscriptions of the tasks are as some run
of subscriptions that share a client leaves them. -/
theorem pumps_run_subscriptions (configs : ℕ → PumpConfig) (config : WsConfig)
    (is : List PumpInput) :
    ∃ endpoints js, Realises config endpoints js
      ((pumpMachine configs).after (.new config) is) := by
  have hnew : ∃ endpoints js, Realises config endpoints js (.new config) :=
    ⟨fun _ => ("", none), [], {
      configured := rfl
      client := rfl
      subscriptions := fun _ _ hget => nomatch hget
      below := fun _ hj => nomatch hj }⟩
  apply Machine.after_invariant (P := fun w => ∃ endpoints js, Realises config endpoints js w) _ hnew
  rintro w i ⟨endpoints, js, h⟩
  exact realises_step configs h i

end QuikSync.Pump
