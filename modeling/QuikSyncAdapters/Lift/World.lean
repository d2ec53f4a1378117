import QuikSyncAdapters.Lift.MutualExclusion

/-! The lift adapter with its surroundings: the server, which grants and clears sessions
one request at a time, the requests on their way to it and the state frames on their way
back. Requests may arrive late and in any order; the frames of a lift arrive in order. -/

namespace QuikSync.Lift

open Client Py LeaseLock LiftSessionManager

/-- The holder of every lift at the server, empty for a free lift. -/
abbrev Holders := String → String

/-- The server grants a lift that is free or held by the same session, and clears it on a
release by its holder. -/
def LiftPost.process (p : LiftPost) (holder : Holders) : Holders :=
  if p.requestType = .agvMode then
    if holder p.lift = "" ∨ holder p.lift = p.sessionId then
      Function.update holder p.lift p.sessionId
    else holder
  else if holder p.lift = p.sessionId then Function.update holder p.lift ""
  else holder

structure LiftWorld where
  system : LiftSystem
  network : List LiftPost
  holder : Holders
  emitted : String → List LiftStateFrame
  delivered : String → ℕ

inductive WorldEvent where
  | dispatch (owner : String) (r : LiftRequest) (executionId : Option String) (fresh : String)
      (now stamp : ℚ)
  | response (i : ℕ) (outcome : Except Exc Json)
  | process (i : ℕ)
  | emit (lift : String) (f : LiftStateFrame)
  | deliver (lift : String) (now : ℚ) (published : Bool)

def LiftAction.post? : LiftAction → Option LiftPost
  | .posted p => some p
  | _ => none

namespace LiftWorld

def new (liftNames : List String) (scope : Option String) (ttlSeconds : ℚ) : LiftWorld :=
  ⟨.new liftNames scope ttlSeconds, [], fun _ => "", fun _ => [], fun _ => 0⟩

def Emits (w : LiftWorld) (lift : String) (f : LiftStateFrame) : Prop :=
  f.sessionId = w.holder lift ∧ (translateState f).isOk = true

instance (w : LiftWorld) (lift : String) (f : LiftStateFrame) : Decidable (w.Emits lift f) :=
  inferInstanceAs (Decidable (_ ∧ _))

def step (w : LiftWorld) : WorldEvent → LiftWorld × List LiftAction
  | .dispatch owner r executionId fresh now stamp =>
    let (system, actions) := w.system.dispatch owner r executionId fresh now stamp
    ({ w with system, network := w.network ++ actions.filterMap LiftAction.post? }, actions)
  | .response i outcome =>
    let (system, actions) := w.system.response i outcome
    ({ w with system }, actions)
  | .process i =>
    match w.network[i]? with
    | none => (w, [])
    | some p => ({ w with network := w.network.eraseIdx i, holder := p.process w.holder }, [])
  | .emit lift f =>
    if w.Emits lift f then
      ({ w with emitted := Function.update w.emitted lift (w.emitted lift ++ [f]) }, [])
    else (w, [])
  | .deliver lift now published =>
    match (w.emitted lift)[w.delivered lift]? with
    | none => (w, [])
    | some f =>
      let (system, actions) := w.system.frame lift f now published
      ({ w with system, delivered := Function.update w.delivered lift (w.delivered lift + 1) },
        actions)

def machine : Machine LiftWorld WorldEvent (List LiftAction) := ⟨step⟩

theorem contains : LiftSystem.Contains machine LiftWorld.system := by
  have hquiet : ∀ q : LiftSystem, ∃ c, LiftSystem.Effect q c (q, []) :=
    fun q => ⟨.dispatch, .quiet rfl fun _ => id⟩
  intro w e
  cases e with
  | dispatch owner r executionId fresh now stamp =>
    exact ⟨_, LiftSystem.dispatch_effect w.system owner r executionId fresh now stamp⟩
  | response i outcome => exact ⟨_, LiftSystem.response_effect w.system i outcome⟩
  | process i =>
    simp only [machine, step]
    cases w.network[i]? <;> exact hquiet w.system
  | emit lift f =>
    simp only [machine, step]
    split_ifs <;> exact hquiet w.system
  | deliver lift now published =>
    simp only [machine, step]
    cases (w.emitted lift)[w.delivered lift]? with
    | none => exact hquiet w.system
    | some f => exact ⟨_, LiftSystem.frame_effect w.system lift f now published⟩

theorem emitted_step (w : LiftWorld) (e : WorldEvent) (lift : String) :
    (machine.step w e).1.emitted lift = w.emitted lift ∨
      ∃ f, (machine.step w e).1.emitted lift = w.emitted lift ++ [f] ∧ w.Emits lift f := by
  cases e with
  | dispatch owner r executionId fresh now stamp => exact Or.inl rfl
  | response i outcome => exact Or.inl rfl
  | process i =>
    simp only [machine, step]
    cases w.network[i]? <;> exact Or.inl rfl
  | emit other f =>
    simp only [machine, step]
    split_ifs with hemits
    · by_cases hlift : lift = other
      · subst hlift
        exact Or.inr ⟨f, Function.update_self .., hemits⟩
      · exact Or.inl (Function.update_of_ne hlift _ _)
    · exact Or.inl rfl
  | deliver other now published =>
    simp only [machine, step]
    cases (w.emitted other)[w.delivered other]? <;> exact Or.inl rfl

theorem emitted_prefix (w : LiftWorld) (es : List WorldEvent) (lift : String) :
    w.emitted lift <+: (machine.after w es).emitted lift := by
  induction es generalizing w with
  | nil => exact List.prefix_refl _
  | cons e es ih =>
    refine List.IsPrefix.trans ?_ (ih (machine.step w e).1)
    rcases emitted_step w e lift with h | ⟨f, h, -⟩
    · exact ⟨[], (List.append_nil _).trans h.symm⟩
    · exact ⟨[f], h.symm⟩

theorem emitted_getElem? {w : LiftWorld} {es : List WorldEvent} {lift : String} {k : ℕ}
    (hk : k < (w.emitted lift).length) :
    ((machine.after w es).emitted lift)[k]? = (w.emitted lift)[k]? := by
  obtain ⟨rest, hrest⟩ := emitted_prefix w es lift
  rw [← hrest, List.getElem?_append_left hk]

theorem emitted_names_holder {lift s : String} {w : LiftWorld} {es : List WorldEvent}
    (hheld : machine.Throughout (fun w => w.holder lift = s) w es) {k : ℕ} {f : LiftStateFrame}
    (hk : (w.emitted lift).length ≤ k) (hf : ((machine.after w es).emitted lift)[k]? = some f) :
    f.sessionId = s := by
  induction es generalizing w with
  | nil =>
    rw [Machine.after_nil, List.getElem?_eq_none hk] at hf
    cases hf
  | cons e es ih =>
    obtain ⟨hnow, hlater⟩ := hheld
    -- the frame comes later in the run, or it is the one that this event emits
    by_cases hnext : ((machine.step w e).1.emitted lift).length ≤ k
    · exact ih hlater hnext hf
    · have hlt : k < ((machine.step w e).1.emitted lift).length := not_le.mp hnext
      rw [Machine.after_cons, emitted_getElem? hlt] at hf
      rcases emitted_step w e lift with hsame | ⟨g, hg, hemits⟩
      · rw [hsame] at hlt
        exact absurd hk (not_le.mpr hlt)
      · have hkw : k = (w.emitted lift).length := by
          rw [hg, List.length_append, List.length_singleton] at hlt
          omega
        rw [hg, hkw, List.getElem?_concat_length] at hf
        obtain rfl := Option.some.inj hf
        exact hemits.1.trans hnow

theorem delivered_step (w : LiftWorld) (e : WorldEvent) (lift : String) :
    (machine.step w e).1.delivered lift = w.delivered lift ∧
        (∀ s t, .observed lift s t ∉ (machine.step w e).2) ∨
      ∃ f now published, (w.emitted lift)[w.delivered lift]? = some f ∧
        (machine.step w e).1.delivered lift = w.delivered lift + 1 ∧
        (machine.step w e).1.emitted = w.emitted ∧
        (machine.step w e).1.system = (w.system.frame lift f now published).1 ∧
        (machine.step w e).2 = (w.system.frame lift f now published).2 := by
  have hother : ∀ {q q' : LiftSystem} {c : LiftSystem.Cause} {actions : List LiftAction},
      LiftSystem.Effect q c (q', actions) → (∀ f, c ≠ .frame lift f) →
      ∀ s t, .observed lift s t ∉ actions := by
    intro q q' c actions heffect hc s t hmem
    obtain ⟨f, hcause, -⟩ := heffect.of_observed hmem
    exact hc f hcause
  cases e with
  | dispatch owner r executionId fresh now stamp =>
    have heffect := LiftSystem.dispatch_effect w.system owner r executionId fresh now stamp
    exact Or.inl ⟨rfl, hother heffect nofun⟩
  | response i outcome =>
    exact Or.inl ⟨rfl, hother (LiftSystem.response_effect w.system i outcome) nofun⟩
  | process i =>
    simp only [machine, step]
    cases w.network[i]? <;> exact Or.inl ⟨rfl, fun _ _ => List.not_mem_nil⟩
  | emit other f =>
    simp only [machine, step]
    split_ifs <;> exact Or.inl ⟨rfl, fun _ _ => List.not_mem_nil⟩
  | deliver other now published =>
    simp only [machine, step]
    cases hf : (w.emitted other)[w.delivered other]? with
    | none => exact Or.inl ⟨rfl, fun _ _ => List.not_mem_nil⟩
    | some f =>
      by_cases hlift : other = lift
      · subst hlift
        exact Or.inr ⟨f, now, published, hf, Function.update_self .., rfl, rfl, rfl⟩
      · refine Or.inl ⟨Function.update_of_ne (Ne.symm hlift) _ _, ?_⟩
        refine hother (LiftSystem.frame_effect w.system other f now published) ?_
        rintro g hcause
        exact hlift (LiftSystem.Cause.frame.inj hcause).1

/-- The manager's view of a managed lift is what the last delivered frame said. -/
structure Tracks (lift : String) (w : LiftWorld) : Prop where
  managed : lift ∈ w.system.node.handles.keys
  wellFormed : ∀ f ∈ w.emitted lift, (translateState f).isOk = true
  bounded : w.delivered lift ≤ (w.emitted lift).length
  view : w.system.node.sessionManager.server lift =
    ((w.emitted lift).take (w.delivered lift)).getLast?.map LiftStateFrame.sessionId

theorem tracks_new {liftNames : List String} {scope : Option String} {ttlSeconds : ℚ}
    {lift : String} (hlift : lift ∈ (new liftNames scope ttlSeconds).system.node.handles.keys) :
    Tracks lift (new liftNames scope ttlSeconds) :=
  ⟨hlift, fun _ hf => absurd hf List.not_mem_nil, le_rfl, rfl⟩

theorem keys_step (w : LiftWorld) (e : WorldEvent) :
    (machine.step w e).1.system.node.handles.keys = w.system.node.handles.keys := by
  cases e with
  | dispatch owner r executionId fresh now stamp =>
    exact LiftSystem.dispatch_keys w.system owner r executionId fresh now stamp
  | response i outcome => exact LiftSystem.response_keys w.system i outcome
  | process i =>
    simp only [machine, step]
    cases w.network[i]? <;> rfl
  | emit lift f =>
    simp only [machine, step]
    split_ifs <;> rfl
  | deliver lift now published =>
    simp only [machine, step]
    cases (w.emitted lift)[w.delivered lift]? with
    | none => rfl
    | some f => exact LiftSystem.frame_keys w.system lift f now published

theorem keys_after (w : LiftWorld) (es : List WorldEvent) :
    (machine.after w es).system.node.handles.keys = w.system.node.handles.keys := by
  have hstep : ∀ w' e, w'.system.node.handles.keys = w.system.node.handles.keys →
      (machine.step w' e).1.system.node.handles.keys = w.system.node.handles.keys :=
    fun w' e hw => (keys_step w' e).trans hw
  exact Machine.after_invariant hstep rfl es

theorem tracks_step {lift : String} {w : LiftWorld} (h : Tracks lift w) (e : WorldEvent) :
    Tracks lift (machine.step w e).1 := by
  have hmanaged : lift ∈ (machine.step w e).1.system.node.handles.keys := by
    rw [keys_step]
    exact h.managed
  have hwellFormed : ∀ f ∈ (machine.step w e).1.emitted lift, (translateState f).isOk = true := by
    intro f hf
    rcases emitted_step w e lift with hsame | ⟨g, hg, hemits⟩
    · rw [hsame] at hf
      exact h.wellFormed f hf
    · rw [hg] at hf
      rcases List.mem_append.mp hf with hold | hnew
      · exact h.wellFormed f hold
      · rw [List.mem_singleton.mp hnew]
        exact hemits.2
  rcases delivered_step w e lift with ⟨hdel, hnone⟩ | ⟨f, now, published, hf, hdel, hem, hsys, -⟩
  · -- nothing is delivered: the view stays, and frames are only added behind the delivered ones
    obtain ⟨c, heffect⟩ := contains w e
    have hview := heffect.server hnone
    have hkept : w.delivered lift ≤ ((machine.step w e).1.emitted lift).length ∧
        ((machine.step w e).1.emitted lift).take (w.delivered lift) =
          (w.emitted lift).take (w.delivered lift) := by
      rcases emitted_step w e lift with hsame | ⟨g, hg, -⟩
      · rw [hsame]
        exact ⟨h.bounded, rfl⟩
      · rw [hg, List.take_append_of_le_length h.bounded, List.length_append]
        exact ⟨h.bounded.trans (Nat.le_add_right _ _), rfl⟩
    refine ⟨hmanaged, hwellFormed, ?_, ?_⟩
    · rw [hdel]
      exact hkept.1
    · rw [hview, hdel, hkept.2]
      exact h.view
  · have hlt : w.delivered lift < (w.emitted lift).length := (List.getElem?_eq_some_iff.mp hf).1
    have hok : (translateState f).isOk = true := h.wellFormed f (List.mem_of_getElem? hf)
    refine ⟨hmanaged, hwellFormed, ?_, ?_⟩
    · rw [hdel, hem]
      exact hlt
    · rw [hsys, (LiftSystem.frame_of_managed h.managed hok now published).1,
        observeServerState_server, Function.update_self, hdel, hem, List.take_add_one, hf]
      simp

theorem tracks_after {lift : String} {w : LiftWorld} (h : Tracks lift w) (es : List WorldEvent) :
    Tracks lift (machine.after w es) :=
  Machine.after_invariant (P := Tracks lift) (fun _ e hw => tracks_step hw e) h es

end LiftWorld

end QuikSync.Lift
