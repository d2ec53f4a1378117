import QuikSyncAdapters.Adapters
import QuikSyncAdapters.ReconnectBase

/-! The namespace of a configuration on its way to the server: which of the calls and
subscriptions of an adapter carry it. -/

namespace QuikSync

open Client Py Pump Fallible

/-- A REST call has the namespace as its one parameter, a subscription after its token; without
a namespace there is nothing in either place. -/
def Issued.Carries (baseUrl : String) (scope : Option NonEmpty) : Issued → Prop
  | .rest call => call.params = scope.map fun name => [("namespace", name.val)]
  | .wss path token url =>
    url = baseUrl ++ path ++ "?access_token=" ++ token ++
      (scope.map fun name => "&namespace=" ++ name.val).getD ""

def Issued.SentWith (config : WsConfig) (scope : Option String) : Issued → Prop
  | .rest call => call.params = nsParams scope
  | .wss path token url => url = QuikSyncWsClient.subscribeUrl config path token scope

theorem carries_iff_sentWith {config : WsConfig} {scope : Option NonEmpty} {x : Issued} :
    x.Carries config.baseUrl scope ↔ x.SentWith config (scope.map (·.val)) := by
  cases scope with
  | none =>
    cases x with
    | rest call => exact Iff.rfl
    | wss path token url =>
      unfold Issued.Carries Issued.SentWith QuikSyncWsClient.subscribeUrl
      simp only [Option.map_none, Option.getD_none, String.append_empty]
      exact Iff.rfl
  | some name =>
    obtain ⟨name, hname⟩ := name
    cases x with
    | rest call =>
      unfold Issued.Carries Issued.SentWith nsParams
      simp only [Option.map_some, if_neg hname]
    | wss path token url =>
      unfold Issued.Carries Issued.SentWith QuikSyncWsClient.subscribeUrl
      simp only [Option.map_some, Option.getD_some, if_neg hname]
      exact Iff.rfl

/-! ### The URL of a connection -/

section Subscription

variable {c : QuikSyncWsClient} {s : Subscription}

theorem not_connect_of_backOff {random : Draw} {effects : List WsEffect} {url : String}
    (h : ∀ a ∈ effects, a ≠ .connect url) :
    ∀ a ∈ (s.backOff c random effects).effects, a ≠ .connect url := by
  unfold Subscription.backOff
  split
  · exact h
  · intro a ha
    rcases List.mem_append.mp ha with ha | ha
    · exact h a ha
    · rw [List.mem_singleton.mp ha]
      exact nofun

theorem not_connect_of_invalidStatus (status : ℕ) (now : ℚ) (refresh : Except Exc String)
    (random : Draw) (url : String) :
    ∀ a ∈ (s.invalidStatus c status now refresh random).effects, a ≠ .connect url := by
  unfold Subscription.invalidStatus
  dsimp only
  split
  · split
    · simp
    · cases refresh <;> exact not_connect_of_backOff (by simp)
  · exact not_connect_of_backOff (by simp)

theorem connect_effect {token : Except Exc String} {url : String}
    (h : .connect url ∈ (s.connect c token).effects) :
    ∃ t, token = .ok t ∧ url = QuikSyncWsClient.subscribeUrl c.config s.path t s.scope := by
  unfold Subscription.connect at h
  split at h
  · exact absurd h List.not_mem_nil
  · cases token with
    | error e => simp at h
    | ok t =>
      refine ⟨t, rfl, ?_⟩
      simpa using h

theorem step_connect {i : WsInput} {url : String} (h : .connect url ∈ (s.step c i).effects) :
    url = QuikSyncWsClient.subscribeUrl c.config s.path (tokenOf i) s.scope := by
  have hnone : ∀ {effects : List WsEffect}, (∀ a ∈ effects, a ≠ .connect url) →
      WsEffect.connect url ∈ effects → False := fun hall hmem => hall _ hmem rfl
  unfold Subscription.step at h
  split at h
  · obtain ⟨t, rfl, hurl⟩ := connect_effect h
    exact hurl
  · obtain ⟨t, rfl, hurl⟩ := connect_effect h
    exact hurl
  · simp at h
  · exact (hnone (not_connect_of_invalidStatus _ _ _ _ url) h).elim
  · exact (hnone (not_connect_of_backOff (by simp)) h).elim
  · exact (hnone (not_connect_of_backOff (by simp)) h).elim
  · unfold Subscription.receive at h
    split at h
    · exact absurd h List.not_mem_nil
    · split at h <;> simp at h
  · exact (hnone (not_connect_of_backOff (by simp)) h).elim
  · split at h <;> simp at h
  · exact absurd h List.not_mem_nil

theorem connects_sentWith (i : WsInput) :
    ∀ x ∈ connects c s i, x.SentWith c.config s.scope := by
  intro x hx
  obtain ⟨a, ha, hax⟩ := List.mem_filterMap.mp hx
  cases a with
  | connect url =>
    obtain rfl := Option.some.inj hax
    exact step_connect ha
  | _ => exact nomatch hax

end Subscription

/-! ### The pumps -/

structure Scoped (config : WsConfig) (scope : Option String) (w : PumpWorld) : Prop where
  configured : w.client.config = config
  tasks : ∀ task ∈ w.tasks, task.subscription.scope = scope

section Pumps

variable {config : WsConfig} {scope : Option String} {w : PumpWorld} {names : List String}
  {pump : String → PumpConfig}

theorem cancel_scope (task : Task) (c : QuikSyncWsClient) :
    (PumpWorld.cancel c task).subscription.scope = task.subscription.scope := by
  unfold PumpWorld.cancel
  split
  · rfl
  · exact Subscription.step_scope ..

theorem Scoped.start (h : Scoped config scope w) (hpump : ∀ name, (pump name).scope = scope)
    (p : ℕ) : Scoped config scope (w.start (pumpFor names pump) p) := by
  unfold PumpWorld.start
  split
  · exact h
  · refine ⟨h.configured, ?_⟩
    show ∀ task ∈ w.tasks ++ [_], task.subscription.scope = scope
    rw [List.forall_mem_append, List.forall_mem_singleton]
    exact ⟨h.tasks, hpump _⟩

theorem Scoped.stop (h : Scoped config scope w) (p : ℕ) : Scoped config scope (w.stop p) := by
  refine ⟨h.configured, ?_⟩
  unfold PumpWorld.stop
  dsimp only
  split
  · rename_i t ht
    intro task htask
    obtain ⟨r, hr⟩ := List.mem_iff_getElem?.mp htask
    rw [List.getElem?_modify] at hr
    obtain ⟨old, hold, hcancelled⟩ := Option.map_eq_some_iff.mp hr
    have hscope := h.tasks old (List.mem_of_getElem? hold)
    rw [← hcancelled]
    split
    · rw [cancel_scope, hscope]
    · exact hscope
  · exact h.tasks

theorem Scoped.set (h : Scoped config scope w) {c : QuikSyncWsClient} (hc : c.config = config)
    (pumps : ℕ → StatePump) (t : ℕ) {task : Task} (htask : task.subscription.scope = scope) :
    Scoped config scope ⟨c, pumps, w.tasks.set t task⟩ := by
  refine ⟨hc, fun other hother => ?_⟩
  rcases List.mem_or_eq_of_mem_set hother with hold | rfl
  · exact h.tasks other hold
  · exact htask

theorem Scoped.progress (h : Scoped config scope w) {configs : ℕ → PumpConfig} {t : ℕ}
    {task : Task} (htask : w.tasks[t]? = some task) (i : WsInput)
    (accepts : Json × Dict → Bool) :
    Scoped config scope (w.progress configs t task i accepts).1 := by
  have hscope : (task.subscription.step w.client i).subscription.scope = scope :=
    (Subscription.step_scope ..).trans (h.tasks task (List.mem_of_getElem? htask))
  have hconfig : (task.subscription.step w.client i).client.config = config :=
    (step_config ..).trans h.configured
  unfold PumpWorld.progress
  dsimp only
  split
  · exact h.set hconfig _ t hscope
  · split
    · rw [List.set_set]
      exact h.set hconfig _ t hscope
    · exact h.set hconfig _ t hscope

theorem Scoped.step (h : Scoped config scope w) (hpump : ∀ name, (pump name).scope = scope)
    (i : PumpInput) :
    Scoped config scope ((pumpMachine (pumpFor names pump)).step w i).1 := by
  cases i with
  | start p => exact h.start hpump p
  | stop p => exact h.stop p
  | progress t i accepts =>
    dsimp only [pumpMachine]
    split
    · exact h
    · split
      · exact h
      · exact h.progress ‹_› i accepts

theorem Scoped.connects (h : Scoped config scope w) (i : PumpInput) :
    ∀ x ∈ w.connects i, x.SentWith config scope := by
  unfold PumpWorld.connects
  split
  · split
    · exact List.forall_mem_nil _
    · rename_i task htask
      split
      · exact List.forall_mem_nil _
      · rw [← h.configured, ← h.tasks task (List.mem_of_getElem? htask)]
        exact connects_sentWith _
  · exact List.forall_mem_nil _

theorem subscriptions_always (names : List String) (pump : String → PumpConfig)
    (hpump : ∀ name, (pump name).scope = scope) (config : WsConfig) :
    (subscriptions names pump).Always (·.SentWith config scope) (.new config) := by
  have hstep : ∀ w i, Scoped config scope w →
      Scoped config scope ((subscriptions names pump).step w i).1 ∧
        ∀ x ∈ ((subscriptions names pump).step w i).2, x.SentWith config scope := by
    intro w i h
    dsimp only [subscriptions]
    split
    · exact ⟨h.step hpump i, h.connects i⟩
    · exact ⟨h, List.forall_mem_nil _⟩
  exact Machine.always_of_invariant hstep ⟨rfl, List.forall_mem_nil _⟩

end Pumps

/-! ### The nodes of the door and the lift adapter -/

namespace Door

variable {config : WsConfig} {scope : Option String}

theorem dispatchRequest_scope (h : DoorHandle) (r : DoorRequest) (executionId : Option String)
    (fresh : String) (outcome : Except Exc Json) :
    (h.dispatchRequest r executionId fresh outcome).handle.scope = h.scope ∧
      ∀ p ∈ (h.dispatchRequest r executionId fresh outcome).posts, p.scope = h.scope := by
  unfold DoorHandle.dispatchRequest
  cases hscreen : h.screen r executionId fresh with
  | error why => exact ⟨rfl, List.forall_mem_nil _⟩
  | ok p =>
    obtain ⟨-, -, -, -, -, -, hscope⟩ := DoorHandle.screen_eq_ok.mp hscreen
    cases outcome with
    | error e => exact ⟨rfl, List.forall_mem_singleton.mpr hscope⟩
    | ok body => exact ⟨rfl, List.forall_mem_singleton.mpr hscope⟩

theorem onStateFrame_scope (h : DoorHandle) (frame : Dict) (published : Bool) :
    (h.onStateFrame frame published).1.scope = h.scope := by
  unfold DoorHandle.onStateFrame
  split
  · rfl
  · split <;> rfl

theorem nodeMachine_step {n : DoorAdapterNode} (h : n.handles.Forall (·.scope = scope))
    (e : DoorEvent) :
    (nodeMachine.step n e).1.handles.Forall (·.scope = scope) ∧
      ∀ x ∈ (nodeMachine.step n e).2, x.SentWith config scope := by
  cases e with
  | request r fresh outcome =>
    dsimp only [nodeMachine]
    unfold DoorAdapterNode.routeRequest
    split
    · exact ⟨h, List.forall_mem_nil _⟩
    split
    · exact ⟨h, List.forall_mem_nil _⟩
    · rename_i handle hget
      have hscope : handle.scope = scope := h.get hget
      obtain ⟨hkept, hposts⟩ := dispatchRequest_scope handle r none fresh outcome
      refine ⟨h.set (hkept.trans hscope), List.forall_mem_map.mpr fun p hp => ?_⟩
      show nsParams p.scope = nsParams scope
      rw [hposts p hp, hscope]
  | frame door frame published =>
    dsimp only [nodeMachine]
    unfold DoorAdapterNode.onStateFrame
    split
    · exact ⟨h, List.forall_mem_nil _⟩
    · rename_i handle hget
      have hkept := onStateFrame_scope handle frame published
      exact ⟨h.set (hkept.trans (h.get hget)), List.forall_mem_nil _⟩

theorem nodeMachine_always (doors : List String) :
    nodeMachine.Always (·.SentWith config scope) (.new doors scope) := by
  have hnew : (DoorAdapterNode.new doors scope).handles.Forall (·.scope = scope) :=
    fun _ => rfl
  exact Machine.always_of_invariant (P := fun n => n.handles.Forall (·.scope = scope))
    (fun _ e h => nodeMachine_step h e) hnew

end Door

namespace Lift

open LiftSystem

variable {config : WsConfig} {scope : Option String} {q : LiftSystem}

theorem dispatch_scope (h : q.node.handles.Forall (·.scope = scope)) (owner : String)
    (r : LiftRequest) (executionId : Option String) (fresh : String) (now stamp : ℚ) :
    (q.dispatch owner r executionId fresh now stamp).1.node.handles.Forall (·.scope = scope) ∧
      ∀ p, .posted p ∈ (q.dispatch owner r executionId fresh now stamp).2 → p.scope = scope := by
  unfold dispatch
  split
  · exact ⟨h, nofun⟩
  · rename_i handle hget
    have hscope : handle.scope = scope := h.get hget
    split
    · exact ⟨h, nofun⟩
    · exact ⟨h.set hscope, nofun⟩
    · rename_i p hscreen
      obtain ⟨-, -, -, -, -, -, -, -, hp⟩ := LiftHandle.screen_eq_request.mp hscreen
      dsimp only
      split_ifs
      · refine ⟨h.set hscope, fun posted hposted => ?_⟩
        exact nomatch (eq_of_mem_tries hposted).1
      · refine ⟨h, fun posted hposted => ?_⟩
        rcases List.mem_append.mp hposted with hposted | hposted
        · exact nomatch (eq_of_mem_tries hposted).1
        · obtain rfl := LiftAction.posted.inj (List.mem_singleton.mp hposted)
          exact hp.trans hscope

theorem response_scope (h : q.node.handles.Forall (·.scope = scope)) (i : ℕ)
    (outcome : Except Exc Json) :
    (q.response i outcome).1.node.handles.Forall (·.scope = scope) ∧
      ∀ p, .posted p ∈ (q.response i outcome).2 → p.scope = scope := by
  unfold response
  split
  · exact ⟨h, nofun⟩
  split
  · exact ⟨h, nofun⟩
  · dsimp only
    refine ⟨?_, fun p hp => ?_⟩
    · split
      · exact h
      · rename_i handle hget
        have hscope : handle.scope = scope := h.get hget
        exact h.set (a := handle.dispatched) hscope
    · split at hp
      · exact absurd hp List.not_mem_nil
      · exact nomatch List.mem_singleton.mp hp

theorem frame_scope (h : q.node.handles.Forall (·.scope = scope)) (lift : String)
    (f : LiftStateFrame) (now : ℚ) (published : Bool) :
    (q.frame lift f now published).1.node.handles.Forall (·.scope = scope) ∧
      ∀ p, .posted p ∈ (q.frame lift f now published).2 → p.scope = scope := by
  unfold frame
  split
  · exact ⟨h, fun p hp => absurd hp List.not_mem_nil⟩
  · rename_i handle hget
    refine ⟨?_, fun p hp => ?_⟩
    · have hkept : (handle.onStateFrame q.node.sessionManager f now published).1.scope =
          handle.scope := by
        unfold LiftHandle.onStateFrame
        split
        · rfl
        · dsimp only
          split <;> rfl
      dsimp only [LiftAdapterNode.onStateFrame]
      rw [hget]
      exact h.set (hkept.trans (h.get hget))
    · split at hp
      · exact absurd hp List.not_mem_nil
      · cases List.mem_singleton.mp hp

theorem nodeMachine_step (h : q.node.handles.Forall (·.scope = scope)) (e : LiftEvent) :
    (nodeMachine.step q e).1.node.handles.Forall (·.scope = scope) ∧
      ∀ x ∈ (nodeMachine.step q e).2, x.SentWith config scope := by
  have hstep : (q.step e).1.node.handles.Forall (·.scope = scope) ∧
      ∀ p, .posted p ∈ (q.step e).2 → p.scope = scope := by
    cases e with
    | dispatch owner r executionId fresh now stamp => exact dispatch_scope h ..
    | response i outcome => exact response_scope h i outcome
    | frame lift f now published => exact frame_scope h lift f now published
  refine ⟨hstep.1, fun x hx => ?_⟩
  obtain ⟨action, haction, hposted⟩ := List.mem_filterMap.mp hx
  cases action with
  | posted p =>
    obtain rfl := Option.some.inj hposted
    show nsParams p.scope = nsParams scope
    rw [hstep.2 p haction]
  | _ => exact nomatch hposted

theorem nodeMachine_always (lifts : List String) (ttl : ℚ) :
    nodeMachine.Always (·.SentWith config scope) (.new lifts scope ttl) := by
  have hnew : (LiftSystem.new lifts scope ttl).node.handles.Forall (·.scope = scope) :=
    fun _ => rfl
  exact Machine.always_of_invariant (P := fun q => q.node.handles.Forall (·.scope = scope))
    (fun _ e h => nodeMachine_step h e) hnew

end Lift

/-! ### The robots of the fleet adapter -/

namespace Fleet

variable {rmf : RmfAdapter} {m : RmfModule rmf} {repr : Json → String} {config : WsConfig}
  {scope : Option String} {handles : Handles rmf}

/-- Whatever Open-RMF calls through the callbacks of the handle POSTs with `scope`. -/
def ClosureScoped (m : RmfModule rmf) (scope : Option String) (h : RobotHandle rmf) : Prop :=
  ∀ {registration : Registration rmf}, h.registration = some registration →
    ∀ (e : RobotEvent rmf) (c : Closure),
      (m.closures registration.callbacks).called e = some c → c.scope.scope = scope

theorem closureScoped_new (robot : String) : ClosureScoped m scope (.new rmf robot) := nofun

theorem called_robotClosures {fleet robot : String} {r : ℕ} {e : RobotEvent rmf} {c : Closure}
    (h : (robotClosures fleet robot r scope).called e = some c) : c.scope.scope = scope := by
  cases e with
  | frame state answers => exact nomatch h
  | _ =>
    obtain rfl := Option.some.inj h
    rfl

theorem prepareRobot_scoped {fleet robot : String} {fleetHandle : rmf.FleetHandle}
    {robotConfig : Except Exc rmf.RobotConfiguration} {r : ℕ} {bound : Handles rmf}
    (hscoped : handles.Forall (ClosureScoped m scope))
    (h : prepareRobot m fleet robot scope fleetHandle robotConfig handles r = .ok bound) :
    bound.Forall (ClosureScoped m scope) := by
  obtain ⟨registration, rfl, hclosures⟩ := prepareRobot_ok h
  refine hscoped.modify r fun object _ => ?_
  intro registration' hregistration e c hc
  obtain rfl := Option.some.inj hregistration
  rw [hclosures] at hc
  exact called_robotClosures hc

theorem prepareKnownRobots_scoped {fleet robot : String} {fleetConfig : m.FleetConfiguration}
    {fleetHandle : rmf.FleetHandle} {next : Handles rmf}
    (hscoped : handles.Forall (ClosureScoped m scope))
    (h : prepareKnownRobots m fleetConfig fleet scope fleetHandle handles robot = .ok next) :
    next.Forall (ClosureScoped m scope) := by
  unfold prepareKnownRobots at h
  dsimp only at h
  split at h
  · exact prepareRobot_scoped hscoped h
  · exact prepareRobot_scoped (hscoped.create _ (closureScoped_new robot)) h

theorem prepareListedRobots_scoped {fleet : String} {fleetHandle : rmf.FleetHandle} {robot : Json}
    {next : Handles rmf} (hscoped : handles.Forall (ClosureScoped m scope))
    (h : prepareListedRobots m repr fleet scope fleetHandle handles robot = .ok next) :
    next.Forall (ClosureScoped m scope) := by
  unfold prepareListedRobots at h
  split at h
  · dsimp only at h
    split at h
    · split at h
      · exact nomatch h
      · split at h
        · exact prepareRobot_scoped hscoped h
        · obtain rfl := Except.ok.inj h
          exact hscoped
    · obtain rfl := Except.ok.inj h
      exact hscoped
  · exact nomatch h

theorem buildRobotHandles_scoped {entry : Dict}
    (h : buildRobotHandles rmf repr entry = .ok handles) :
    handles.Forall (ClosureScoped m scope) := by
  unfold buildRobotHandles at h
  obtain ⟨robots, -, h⟩ := bind_eq_ok.mp h
  have hstep : ∀ {now : Handles rmf} {robot : Json} {next : Handles rmf},
      now.Forall (ClosureScoped m scope) → addRobotHandle repr now robot = .ok next →
        next.Forall (ClosureScoped m scope) := by
    intro now robot next hnow hnext
    unfold addRobotHandle at hnext
    split at hnext
    · dsimp only at hnext
      split at hnext
      · obtain ⟨key, -, rfl⟩ := map_eq_ok.mp hnext
        exact hnow.create key (closureScoped_new _)
      · obtain rfl := Except.ok.inj hnext
        exact hnow
    · obtain rfl := Except.ok.inj hnext
      exact hnow
  exact foldlM_keeps hstep ObjectStore.forall_empty h

/-! ### Work on the robots -/

theorem SameWiring.closureScoped {now : Handles rmf} (hsame : SameWiring handles now)
    (hscoped : handles.Forall (ClosureScoped m scope)) : now.Forall (ClosureScoped m scope) := by
  intro r h hobject registration hregistration
  have hwiring := hsame.2 r
  rw [hobject] at hwiring
  obtain ⟨old, hold, heq⟩ := Option.map_eq_some_iff.mp hwiring.symm
  exact hscoped r old hold ((Prod.mk.inj heq).2.trans hregistration)

theorem forall_mem_runOn {P : RobotAction rmf → Prop} {r : ℕ}
    {f : RobotHandle rmf → RobotHandle rmf × List (RobotAction rmf)}
    (hf : ∀ h, ∀ action ∈ (f h).2, P action) : ∀ action ∈ (runOn handles r f).2, P action := by
  unfold runOn
  split
  · exact hf _
  · exact List.forall_mem_nil _

theorem fleetStep_posts (hscoped : handles.Forall (ClosureScoped m scope)) (key : Key)
    (e : RobotEvent rmf) :
    ∀ action ∈ (fleetStep m handles key e).2, ∀ p, action = .posted p → p.scope.scope = scope := by
  unfold fleetStep
  split
  · split
    · -- a frame leads to calls of Open-RMF only
      refine forall_mem_runOn fun h action haction p hp => ?_
      obtain ⟨call, -, rfl⟩ := List.mem_map.mp haction
      cases hp
    · exact List.forall_mem_nil _
  · rename_i hcommand
    split
    · rename_i registration hregistration
      obtain ⟨object, hobject, hregistered⟩ := Option.bind_eq_some_iff.mp hregistration
      obtain ⟨r, -, hr⟩ := ObjectStore.get_eq_some.mp hobject
      split
      · rename_i c hc
        refine forall_mem_runOn fun h action haction p hp => ?_
        obtain ⟨post, hpost, hscope⟩ :=
          posts_of_command c.scope h (isCommand_of_ne hcommand) action haction
        obtain rfl := RobotAction.posted.inj (hp.symm.trans hpost)
        rw [hscope]
        exact hscoped r object hr hregistered _ c hc
      · exact List.forall_mem_nil _
    · exact List.forall_mem_nil _

theorem CommandPost.call_params (p : CommandPost) : p.call.params = nsParams p.scope.scope := by
  cases p <;> rfl

theorem robotMachine_always (hscoped : handles.Forall (ClosureScoped m scope)) :
    (robotMachine m).Always (·.SentWith config scope) handles := by
  refine Machine.always_of_invariant (P := fun now => now.Forall (ClosureScoped m scope)) ?_ hscoped
  rintro now ⟨key, e⟩ hnow
  refine ⟨(sameWiring_step now key e).closureScoped hnow, fun x hx => ?_⟩
  obtain ⟨action, haction, hposted⟩ := List.mem_filterMap.mp hx
  cases action with
  | posted p =>
    obtain rfl := Option.some.inj hposted
    show p.call.params = nsParams scope
    rw [p.call_params, fleetStep_posts hnow key e _ haction p rfl]
  | called c => exact nomatch hposted

/-! ### The start of the fleet adapter -/

theorem fetchFleetEntry_scoped {fleetName : Json} {discovery : Except Exc Json} {entry : Dict}
    (h : fetchFleetEntry rmf repr fleetName discovery = some (entry, handles)) :
    handles.Forall (ClosureScoped m scope) := by
  unfold fetchFleetEntry at h
  split at h
  · exact nomatch h
  split at h
  · obtain ⟨built, hbuilt, heq⟩ := Option.map_eq_some_iff.mp h
    obtain ⟨rfl, rfl⟩ := Prod.mk.inj heq
    exact buildRobotHandles_scoped (ok_of_toOption hbuilt)
  · exact nomatch h

open FleetAdapterConfig

theorem bindDynamic_scoped {args : Args} {entry : Dict} {buildingMap : Except Exc Json}
    {bound : Handles rmf} (hscoped : handles.Forall (ClosureScoped m scope))
    (h : bindDynamic m repr scope args entry handles buildingMap = some bound) :
    bound.Forall (ClosureScoped m scope) := by
  unfold bindDynamic at h
  split at h
  · exact nomatch h
  · obtain ⟨b, hb, rfl⟩ := Option.map_eq_some_iff.mp h
    obtain ⟨_, -, hloop⟩ := bindEasyFullControl_ok (ok_of_toOption hb)
    exact foldlM_keeps (P := fun now : Handles rmf => now.Forall (ClosureScoped m scope))
      prepareListedRobots_scoped hscoped hloop

theorem bindYaml_scoped {fleetConfig : FleetAdapterConfig} {args : Args} {bound : Handles rmf}
    (h : fleetConfig.bindYaml m repr scope args = some bound) :
    bound.Forall (ClosureScoped m scope) := by
  unfold bindYaml at h
  obtain ⟨b, hb, rfl⟩ := Option.map_eq_some_iff.mp h
  obtain ⟨_, -, hloop⟩ := bindFromYaml_ok (ok_of_toOption hb)
  exact foldlM_keeps (P := fun now : Handles rmf => now.Forall (ClosureScoped m scope))
    prepareKnownRobots_scoped ObjectStore.forall_empty hloop

theorem launch_scoped (m : RmfModule rmf) (repr : Json → String) (scope : Option String)
    (fleetConfig : FleetAdapterConfig) (mode : Mode) (args : Args)
    (discovery buildingMap : Except Exc Json) :
    (∀ call ∈ (fleetConfig.launch m repr scope mode args discovery buildingMap).calls,
        call.params = nsParams scope) ∧
      ∀ handles, (fleetConfig.launch m repr scope mode args discovery buildingMap).handles =
        some handles → handles.Forall (ClosureScoped m scope) := by
  have hdiscovery : (getDiscovery scope).params = nsParams scope := rfl
  have hmap : (getBuildingMap scope).params = nsParams scope := rfl
  unfold launch
  split
  · split
    · exact ⟨List.forall_mem_singleton.mpr hdiscovery, nofun⟩
    · rename_i entry handles hfetch
      have hscoped : handles.Forall (ClosureScoped m scope) := fetchFleetEntry_scoped hfetch
      split
      · refine ⟨List.forall_mem_singleton.mpr hdiscovery, fun started hstarted => ?_⟩
        obtain rfl := Option.some.inj hstarted
        exact hscoped
      · refine ⟨?_, fun bound hbound => bindDynamic_scoped hscoped hbound⟩
        exact List.forall_mem_cons.mpr ⟨hdiscovery, List.forall_mem_singleton.mpr hmap⟩
  · exact ⟨List.forall_mem_nil _, fun bound hbound => bindYaml_scoped hbound⟩

theorem run_sentWith (fleetConfig : FleetAdapterConfig) (mode : Mode) (args : Args)
    (discovery buildingMap : Except Exc Json)
    (events : List ((Key × RobotEvent rmf) ⊕ PumpInput)) :
    ∀ x ∈ fleetConfig.run m repr scope config mode args discovery buildingMap events,
      x.SentWith config scope := by
  obtain ⟨hcalls, hhandles⟩ :=
    launch_scoped m repr scope fleetConfig mode args discovery buildingMap
  have hpumps := subscriptions_always [fleetConfig.fleetName.text repr]
    (fun fleet => fleetStatePump fleet scope) (fun _ => rfl) config
  intro x hx
  unfold FleetAdapterConfig.run at hx
  rcases List.mem_append.mp hx with hx | hx
  · obtain ⟨call, hcall, rfl⟩ := List.mem_map.mp hx
    exact hcalls call hcall
  · cases hstart : (fleetConfig.launch m repr scope mode args discovery buildingMap).handles with
    | none =>
      rw [hstart] at hx
      exact absurd hx List.not_mem_nil
    | some handles =>
      rw [hstart] at hx
      exact (robotMachine_always (hhandles handles hstart)).beside hpumps events x hx

end Fleet

/-! ### What the configuration decides -/

theorem namespaceValue_injective : Function.Injective namespaceValue := by
  intro scope scope' h
  cases scope with
  | none =>
    cases scope' with
    | none => rfl
    | some name => exact nomatch h
  | some name =>
    cases scope' with
    | none => exact nomatch h
    | some name' => exact congrArg some (Json.str.inj h)

def Adapter.handedOn (mode : Mode) (scope : Option String) : Adapter → Option String
  | .fleet => scope
  | .door | .lift =>
    match mode with
    | .full => scope
    | .dryRun => none

section Issues

variable {env : LoadEnv} {data : Dict} {a : Adapter} {mode : Mode} {x : Issued}
  {config : ConnectionConfig} {clients : Clients} {scope : Option String}

theorem startUp_eq {α : Type} {loaded : Except LoadError α} (shared : α → ConnectionConfig)
    {own : α} {clients' : Clients} (hload : loaded = .ok own)
    (hclients : (shared own).buildClients env = .ok clients')
    (hloaded : loaded.map shared = .ok config) (hbuilt : config.buildClients env = .ok clients) :
    config = shared own ∧ clients = clients' := by
  rw [hload] at hloaded
  obtain rfl := Except.ok.inj hloaded
  exact ⟨rfl, Except.ok.inj (hbuilt.symm.trans hclients)⟩

theorem issues_sentWith (h : Issues env data a mode x)
    (hstart : a.startUp env data = .ok (config, clients))
    (hscope : config.scope = namespaceValue scope) :
    x.SentWith clients.ws.config (a.handedOn mode scope) := by
  obtain ⟨hloaded, hbuilt⟩ := startUp_ok hstart
  cases h with
  | @doorFull own _ _ events _ hload hclients hown hx =>
    obtain ⟨rfl, rfl⟩ := startUp_eq DoorAdapterConfig.toConnectionConfig hload
      hclients hloaded hbuilt
    obtain rfl := namespaceValue_injective (hscope.symm.trans hown)
    have hpumps := subscriptions_always own.doors (fun door => doorStatePump door scope)
      (fun _ => rfl) clients.ws.config
    exact ((Door.nodeMachine_always own.doors).beside hpumps) events x hx
  | @doorDry own _ events _ hload hclients hx =>
    obtain ⟨rfl, rfl⟩ := startUp_eq DoorAdapterConfig.toConnectionConfig hload
      hclients hloaded hbuilt
    have hpumps := subscriptions_always own.doors (fun door => doorStatePump door none)
      (fun _ => rfl) clients.ws.config
    exact hpumps events x hx
  | @liftFull own _ _ events _ hload hclients hown hx =>
    obtain ⟨rfl, rfl⟩ := startUp_eq LiftAdapterConfig.toConnectionConfig hload
      hclients hloaded hbuilt
    obtain rfl := namespaceValue_injective (hscope.symm.trans hown)
    have hpumps := subscriptions_always own.lifts (fun lift => liftStatePump lift scope)
      (fun _ => rfl) clients.ws.config
    unfold LiftAdapterConfig.runFull at hx
    split at hx
    · exact absurd hx List.not_mem_nil
    · exact ((Lift.nodeMachine_always own.lifts _).beside hpumps) events x hx
  | @liftDry own _ events _ hload hclients hx =>
    obtain ⟨rfl, rfl⟩ := startUp_eq LiftAdapterConfig.toConnectionConfig hload
      hclients hloaded hbuilt
    have hpumps := subscriptions_always own.lifts (fun lift => liftStatePump lift none)
      (fun _ => rfl) clients.ws.config
    exact hpumps events x hx
  | fleet hload hclients hown hx =>
    obtain ⟨rfl, rfl⟩ := startUp_eq FleetAdapterConfig.toConnectionConfig hload
      hclients hloaded hbuilt
    obtain rfl := namespaceValue_injective (hscope.symm.trans hown)
    exact Fleet.run_sentWith _ _ _ _ _ _ x hx

end Issues

/-! ### The dry run of the door and the lift adapter -/

theorem subscriptions_connect {names : List String} (hne : names ≠ [])
    (pump : String → PumpConfig) (config : WsConfig) :
    ∃ path, .wss path "" (QuikSyncWsClient.subscribeUrl config path ""
      (pumpFor names pump 0).scope) ∈ (subscriptions names pump).trace (.new config)
        [.start 0, .progress 0 (.resume (.ok "")) fun _ => true] := by
  cases names with
  | nil => exact absurd rfl hne
  | cons name names => exact ⟨_, List.mem_singleton.mpr rfl⟩

theorem dryRun_issues {env : LoadEnv} {data : Dict} {a : Adapter} {config : ConnectionConfig}
    {clients : Clients} (hstart : a.startUp env data = .ok (config, clients))
    (ha : a ≠ .fleet) :
    ∃ path, Issues env data a .dryRun
      (.wss path "" (QuikSyncWsClient.subscribeUrl clients.ws.config path "" none)) := by
  obtain ⟨hloaded, hbuilt⟩ := startUp_ok hstart
  cases a with
  | fleet => exact absurd rfl ha
  | door =>
    obtain ⟨own, hload, rfl⟩ := map_eq_ok.mp hloaded
    obtain ⟨path, hpath⟩ := subscriptions_connect (doors_ne_nil hload)
      (fun door => doorStatePump door none) clients.ws.config
    exact ⟨path, .doorDry hload hbuilt hpath⟩
  | lift =>
    obtain ⟨own, hload, rfl⟩ := map_eq_ok.mp hloaded
    obtain ⟨path, hpath⟩ := subscriptions_connect (lifts_ne_nil hload)
      (fun lift => liftStatePump lift none) clients.ws.config
    exact ⟨path, .liftDry hload hbuilt hpath⟩

theorem not_carries_of_unscoped (config : WsConfig) (path token : String) (name : NonEmpty) :
    ¬ (Issued.wss path token (QuikSyncWsClient.subscribeUrl config path token none)).Carries
      config.baseUrl (some name) := by
  intro h
  have hurl : config.baseUrl ++ path ++ "?access_token=" ++ token =
      config.baseUrl ++ path ++ "?access_token=" ++ token ++ ("&namespace=" ++ name.val) := h
  have hlength := congrArg String.length hurl
  have hword : "&namespace=".length = 11 := by decide
  simp only [String.length_append] at hlength
  omega

/-- Every call and subscription carries the namespace of the configuration, in every run,
exactly in the modes that hand it on, or if there is none. -/
theorem namespace_scoping_iff (a : Adapter) (mode : Mode) (env : LoadEnv) (data : Dict)
    (config : ConnectionConfig) (clients : Clients) (scope : Option NonEmpty)
    (hstart : a.startUp env data = .ok (config, clients))
    (hscope : config.scope = namespaceValue (scope.map (·.val))) :
    (∀ x, Issues env data a mode x → x.Carries clients.ws.config.baseUrl scope) ↔
      mode = .full ∨ a = .fleet ∨ scope = none := by
  constructor
  · intro h
    cases mode with
    | full => exact Or.inl rfl
    | dryRun =>
      refine Or.inr (or_iff_not_imp_left.mpr fun ha => ?_)
      cases scope with
      | none => rfl
      | some name =>
        obtain ⟨path, hpath⟩ := dryRun_issues hstart ha
        exact absurd (h _ hpath) (not_carries_of_unscoped _ path "" name)
  · intro hcases x hx
    rw [carries_iff_sentWith]
    have hsent := issues_sentWith hx hstart hscope
    have hhanded : a.handedOn mode (scope.map (·.val)) = scope.map (·.val) := by
      obtain rfl | rfl | rfl := hcases
      · cases a <;> rfl
      · rfl
      · cases a <;> cases mode <;> rfl
    rwa [hhanded] at hsent

def scopedDoorConfig : Dict := doorConfig (.int 1) ++ [("namespace", .str "north")]

theorem startUp_scopedDoorConfig :
    ∃ config clients, Adapter.door.startUp plainEnv scopedDoorConfig = .ok (config, clients) ∧
      config.scope = .str "north" := by
  refine ⟨_, _, rfl, rfl⟩

theorem namespace_scoping_iff_witness :
    ∃ config clients, Adapter.door.startUp plainEnv scopedDoorConfig = .ok (config, clients) ∧
      ((∀ x, Issues plainEnv scopedDoorConfig .door .full x →
          x.Carries clients.ws.config.baseUrl (some ⟨"north", by decide⟩)) ↔
        Mode.full = .full ∨ Adapter.door = .fleet ∨
          (some ⟨"north", by decide⟩ : Option NonEmpty) = none) := by
  obtain ⟨config, clients, hstart, hscope⟩ := startUp_scopedDoorConfig
  exact ⟨config, clients, hstart, namespace_scoping_iff .door .full plainEnv scopedDoorConfig config
    clients (some ⟨"north", by decide⟩) hstart hscope⟩

/-- The dry run of a door adapter subscribes across all namespaces. -/
theorem dry_run_drops_namespace :
    ¬ ∀ (a : Adapter) (mode : Mode) (env : LoadEnv) (data : Dict) (config : ConnectionConfig)
        (clients : Clients) (scope : Option NonEmpty),
      a.startUp env data = .ok (config, clients) →
      config.scope = namespaceValue (scope.map (·.val)) →
      ∀ x, Issues env data a mode x → x.Carries clients.ws.config.baseUrl scope := by
  intro hall
  obtain ⟨config, clients, hstart, hscope⟩ := startUp_scopedDoorConfig
  obtain ⟨path, hpath⟩ := dryRun_issues hstart nofun
  have hcarries := hall .door .dryRun plainEnv scopedDoorConfig config clients
    (some ⟨"north", by decide⟩) hstart hscope _ hpath
  exact absurd hcarries (not_carries_of_unscoped _ path "" _)

end QuikSync
