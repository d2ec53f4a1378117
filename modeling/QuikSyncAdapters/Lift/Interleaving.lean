import QuikSyncAdapters.Lift.Node
import QuikSyncAdapters.Lift.SessionRefinement

/-! The lift adapter in small steps: any number of dispatches are under way at once, and
between the start of one and the return of its POST other dispatches and state frames may
come. The session manager sees the calls one after the other. -/

namespace QuikSync.Lift

open Client Py LeaseLock LiftSessionManager

structure LiftSystem where
  node : LiftAdapterNode
  outstanding : List LiftPost

inductive LiftEvent where
  -- `dispatch_request` of the handle of `owner`, up to the POST
  | dispatch (owner : String) (r : LiftRequest) (executionId : Option String) (fresh : String)
      (now stamp : ℚ)
  -- the POST that is `i`-th among the outstanding ones returns or raises
  | response (i : ℕ) (outcome : Except Exc Json)
  | frame (lift : String) (f : LiftStateFrame) (now : ℚ) (published : Bool)

inductive LiftAction where
  | tried (lift sessionId : String) (now stamp : ℚ) (granted : Bool)
  | posted (p : LiftPost)
  | released (p : LiftPost) (verdict : Bool)
  | observed (lift sessionId : String) (now : ℚ)

namespace LiftSystem

def new (liftNames : List String) (scope : Option String) (ttlSeconds : ℚ) : LiftSystem :=
  ⟨.new liftNames scope (.new ttlSeconds), []⟩

def tries (p : LiftPost) (now stamp : ℚ) (granted : Bool) : List LiftAction :=
  if p.requestType = .agvMode then [.tried p.lift p.sessionId now stamp granted] else []

def dispatch (q : LiftSystem) (owner : String) (r : LiftRequest) (executionId : Option String)
    (fresh : String) (now stamp : ℚ) : LiftSystem × List LiftAction :=
  match q.node.handles.get owner with
  | none => (q, [])
  | some h =>
    match h.screen r executionId fresh with
    | .dropped => (q, [])
    | .rejected _ => ({ q with node := ⟨q.node.handles.set h.reject, q.node.sessionManager⟩ }, [])
    | .request p =>
      let (m, acquired) := p.gate q.node.sessionManager now stamp
      if !acquired then
        ({ q with node := ⟨q.node.handles.set h.reject, m⟩ }, tries p now stamp false)
      else
        ({ node := ⟨q.node.handles, m⟩, outstanding := q.outstanding ++ [p] },
          tries p now stamp true ++ [.posted p])

def response (q : LiftSystem) (i : ℕ) (outcome : Except Exc Json) :
    LiftSystem × List LiftAction :=
  match q.outstanding[i]? with
  | none => (q, [])
  | some p =>
    let outstanding := q.outstanding.eraseIdx i
    match outcome with
    | .error _ => ({ q with outstanding }, [])
    | .ok _ =>
      let handles := match q.node.handles.get p.lift with
        | none => q.node.handles
        | some h => q.node.handles.set h.dispatched
      (⟨⟨handles, p.settle q.node.sessionManager⟩, outstanding⟩,
        if p.requestType = .agvMode then []
        else [.released p (q.node.sessionManager.release p.lift p.sessionId).2])

def frame (q : LiftSystem) (lift : String) (f : LiftStateFrame) (now : ℚ) (published : Bool) :
    LiftSystem × List LiftAction :=
  match q.node.handles.get lift with
  | none => (q, [])
  | some _ =>
    ({ q with node := (q.node.onStateFrame lift f now published).1 },
      match translateState f with
      | .error _ => []
      | .ok fields => [.observed lift fields.sessionId now])

def step (q : LiftSystem) : LiftEvent → LiftSystem × List LiftAction
  | .dispatch owner r executionId fresh now stamp => q.dispatch owner r executionId fresh now stamp
  | .response i outcome => q.response i outcome
  | .frame lift f now published => q.frame lift f now published

def machine : Machine LiftSystem LiftEvent (List LiftAction) := ⟨step⟩

theorem routeRequest_eq_steps (n : LiftAdapterNode) (r : LiftRequest) (fresh : String)
    (now stamp : ℚ) (outcome : Except Exc Json) {name : String} (hname : r.liftName = some name) :
    machine.after ⟨n, []⟩ [.dispatch name r none fresh now stamp, .response 0 outcome] =
      ⟨(n.routeRequest r fresh now stamp outcome).node, []⟩ := by
  have hidle : ∀ n' : LiftAdapterNode, response ⟨n', []⟩ 0 outcome = (⟨n', []⟩, []) := fun _ => rfl
  simp only [Machine.after_cons, Machine.after_nil, machine, step]
  unfold LiftAdapterNode.routeRequest dispatch LiftHandle.dispatchRequest
  rw [hname]
  dsimp only
  cases hget : n.handles.get name with
  | none => rfl
  | some h =>
    dsimp only
    cases hscreen : h.screen r none fresh with
    | dropped => simp only [hidle, Registry.set_of_get hget]
    | rejected why => rfl
    | request p =>
      have hlift : p.lift = name :=
        (LiftHandle.screen_eq_request.mp hscreen).2.2.2.2.2.2.1.trans (Registry.key_of_get hget)
      dsimp only
      cases (p.gate n.sessionManager now stamp).2 with
      | false => rfl
      | true =>
        cases outcome with
        | error e => simp [response, Registry.set_of_get hget]
        | ok body => simp [response, hlift, hget]

/-! ### What a step can do -/

inductive Cause where
  | dispatch
  | response
  | frame (lift : String) (f : LiftStateFrame)

/-- Everything that one event can do to the lock and the outstanding POSTs. -/
inductive Effect (q : LiftSystem) : Cause → LiftSystem × List LiftAction → Prop where
  | quiet {c : Cause} {q' : LiftSystem} :
    q'.node.sessionManager = q.node.sessionManager →
    (∀ p ∈ q'.outstanding, p ∈ q.outstanding) → Effect q c (q', [])
  | refused {q' : LiftSystem} (p : LiftPost) (now stamp : ℚ) :
    p.gate q.node.sessionManager now stamp = (q'.node.sessionManager, false) →
    q'.outstanding = q.outstanding → Effect q .dispatch (q', tries p now stamp false)
  | posted {q' : LiftSystem} (p : LiftPost) (now stamp : ℚ) :
    p.gate q.node.sessionManager now stamp = (q'.node.sessionManager, true) →
    q'.outstanding = q.outstanding ++ [p] →
    Effect q .dispatch (q', tries p now stamp true ++ [.posted p])
  | released {q' : LiftSystem} (p : LiftPost) (verdict : Bool) :
    p ∈ q.outstanding → p.requestType = .endSession ∨ p.requestType = .humanMode →
    q.node.sessionManager.release p.lift p.sessionId = (q'.node.sessionManager, verdict) →
    (∀ p' ∈ q'.outstanding, p' ∈ q.outstanding) →
    Effect q .response (q', [.released p verdict])
  | observed {q' : LiftSystem} (lift : String) (f : LiftStateFrame) (now : ℚ) :
    q'.node.sessionManager = q.node.sessionManager.observeServerState lift f.sessionId now →
    q'.outstanding = q.outstanding →
    Effect q (.frame lift f) (q', [.observed lift f.sessionId now])

theorem dispatch_effect (q : LiftSystem) (owner : String) (r : LiftRequest)
    (executionId : Option String) (fresh : String) (now stamp : ℚ) :
    Effect q .dispatch (q.dispatch owner r executionId fresh now stamp) := by
  unfold dispatch
  cases q.node.handles.get owner with
  | none => exact .quiet rfl fun _ => id
  | some h =>
    dsimp only
    cases h.screen r executionId fresh with
    | dropped => exact .quiet rfl fun _ => id
    | rejected why => exact .quiet rfl fun _ => id
    | request p =>
      dsimp only
      cases hverdict : (p.gate q.node.sessionManager now stamp).2 with
      | false => exact .refused p now stamp (Prod.ext rfl hverdict) rfl
      | true => exact .posted p now stamp (Prod.ext rfl hverdict) rfl

theorem response_effect (q : LiftSystem) (i : ℕ) (outcome : Except Exc Json) :
    Effect q .response (q.response i outcome) := by
  have hrest : ∀ p ∈ q.outstanding.eraseIdx i, p ∈ q.outstanding :=
    fun _ => List.mem_of_mem_eraseIdx
  unfold response
  cases hp : q.outstanding[i]? with
  | none => exact .quiet rfl fun _ => id
  | some p =>
    have hmem : p ∈ q.outstanding := List.mem_of_getElem? hp
    cases outcome with
    | error e => exact .quiet rfl hrest
    | ok body =>
      dsimp only [LiftPost.settle]
      cases htype : p.requestType with
      | agvMode => exact .quiet rfl hrest
      | endSession => exact .released p _ hmem (Or.inl htype) rfl hrest
      | humanMode => exact .released p _ hmem (Or.inr htype) rfl hrest

theorem frame_effect (q : LiftSystem) (lift : String) (f : LiftStateFrame) (now : ℚ)
    (published : Bool) : Effect q (.frame lift f) (q.frame lift f now published) := by
  unfold frame
  cases hget : q.node.handles.get lift with
  | none => exact .quiet rfl fun _ => id
  | some h =>
    have hname : h.liftName = lift := Registry.key_of_get hget
    dsimp only [LiftAdapterNode.onStateFrame]
    rw [hget]
    dsimp only [LiftHandle.onStateFrame]
    cases hfields : translateState f with
    | error e => exact .quiet rfl fun _ => id
    | ok fields =>
      dsimp only
      rw [hname, translateState_sessionId hfields]
      cases published with
      | false => exact .observed lift f now rfl rfl
      | true => exact .observed lift f now rfl rfl

theorem frame_of_managed {q : LiftSystem} {lift : String} (hlift : lift ∈ q.node.handles.keys)
    {f : LiftStateFrame} (hf : (translateState f).isOk = true) (now : ℚ) (published : Bool) :
    (q.frame lift f now published).1.node.sessionManager =
        q.node.sessionManager.observeServerState lift f.sessionId now ∧
      (q.frame lift f now published).2 = [.observed lift f.sessionId now] := by
  have hget : q.node.handles.get lift = some (q.node.handles.entry lift) :=
    Registry.get_eq_some.mpr ⟨hlift, rfl⟩
  have heffect := frame_effect q lift f now published
  have hactions : (q.frame lift f now published).2 = [.observed lift f.sessionId now] := by
    unfold frame
    rw [hget]
    cases hfields : translateState f with
    | error e => rw [hfields] at hf; cases hf
    | ok fields => rw [← translateState_sessionId hfields]
  generalize hr : q.frame lift f now published = r at heffect hactions
  refine ⟨?_, hactions⟩
  cases heffect with
  | quiet _ _ => cases hactions
  | observed _ _ now' hm _ =>
    obtain ⟨-, -, rfl⟩ := LiftAction.observed.inj (List.cons.inj hactions).1
    exact hm

theorem dispatch_keys (q : LiftSystem) (owner : String) (r : LiftRequest)
    (executionId : Option String) (fresh : String) (now stamp : ℚ) :
    (q.dispatch owner r executionId fresh now stamp).1.node.handles.keys = q.node.handles.keys := by
  unfold dispatch
  split
  · rfl
  split
  · rfl
  · rfl
  · dsimp only
    split_ifs <;> rfl

theorem response_keys (q : LiftSystem) (i : ℕ) (outcome : Except Exc Json) :
    (q.response i outcome).1.node.handles.keys = q.node.handles.keys := by
  unfold response
  split
  · rfl
  split
  · rfl
  · dsimp only
    split <;> rfl

theorem frame_keys (q : LiftSystem) (lift : String) (f : LiftStateFrame) (now : ℚ)
    (published : Bool) :
    (q.frame lift f now published).1.node.handles.keys = q.node.handles.keys := by
  unfold frame LiftAdapterNode.onStateFrame
  cases hget : q.node.handles.get lift with
  | none => rfl
  | some h => rfl

theorem eq_of_mem_tries {p : LiftPost} {now stamp : ℚ} {granted : Bool} {act : LiftAction}
    (h : act ∈ tries p now stamp granted) :
    act = .tried p.lift p.sessionId now stamp granted ∧ p.requestType = .agvMode := by
  unfold tries at h
  split_ifs at h with hagv
  · exact ⟨List.mem_singleton.mp h, hagv⟩
  · cases h

variable {c : Cause}

theorem Effect.server {q q' : LiftSystem} {actions : List LiftAction} {lift : String}
    (h : Effect q c (q', actions)) (hactions : ∀ s t, .observed lift s t ∉ actions) :
    q'.node.sessionManager.server lift = q.node.sessionManager.server lift := by
  have hgate : ∀ (p : LiftPost) (now stamp : ℚ) (b : Bool),
      p.gate q.node.sessionManager now stamp = (q'.node.sessionManager, b) →
      q'.node.sessionManager.server = q.node.sessionManager.server := by
    intro p now stamp b hp
    unfold LiftPost.gate at hp
    split_ifs at hp
    · have hserver := tryAcquire_server q.node.sessionManager p.lift p.sessionId now stamp
      rwa [hp] at hserver
    · exact congrArg LiftSessionManager.server (Prod.ext_iff.mp hp).1.symm
  cases h with
  | quiet hm _ => rw [hm]
  | refused p now stamp hp _ => rw [hgate p now stamp _ hp]
  | posted p now stamp hp _ => rw [hgate p now stamp _ hp]
  | released p verdict _ _ hrelease _ =>
    have hserver := release_server q.node.sessionManager p.lift p.sessionId
    rw [hrelease] at hserver
    exact congrFun hserver lift
  | observed other f now hm _ =>
    have hne : lift ≠ other := by
      rintro rfl
      exact hactions f.sessionId now (List.mem_singleton_self _)
    rw [hm, observeServerState_server, Function.update_of_ne hne]

theorem Effect.of_observed {q q' : LiftSystem} {actions : List LiftAction}
    (h : Effect q c (q', actions)) {lift s : String} {t : ℚ} (hmem : .observed lift s t ∈ actions) :
    ∃ f, c = .frame lift f ∧ f.sessionId = s := by
  cases h with
  | quiet _ _ => cases hmem
  | refused p now stamp _ _ => exact absurd (eq_of_mem_tries hmem).1 nofun
  | posted p now stamp _ _ =>
    rcases List.mem_append.mp hmem with htried | hposted
    · exact absurd (eq_of_mem_tries htried).1 nofun
    · exact absurd (List.mem_singleton.mp hposted) nofun
  | released p verdict _ _ _ _ => exact absurd (List.mem_singleton.mp hmem) nofun
  | observed other f now _ _ =>
    obtain ⟨rfl, rfl, -⟩ := LiftAction.observed.inj (List.mem_singleton.mp hmem)
    exact ⟨f, rfl, rfl⟩

theorem Effect.outstanding {q q' : LiftSystem} {actions : List LiftAction}
    (h : Effect q c (q', actions)) {p : LiftPost} (hp : p ∈ q'.outstanding) :
    p ∈ q.outstanding ∨ .posted p ∈ actions := by
  cases h with
  | quiet _ hout => exact Or.inl (hout p hp)
  | refused p' now stamp _ hout => exact Or.inl (hout ▸ hp)
  | posted p' now stamp _ hout =>
    rw [hout] at hp
    rcases List.mem_append.mp hp with hold | hnew
    · exact Or.inl hold
    · obtain rfl := List.mem_singleton.mp hnew
      exact Or.inr (List.mem_append_right _ (List.mem_singleton_self _))
  | released p' verdict _ _ _ hout => exact Or.inl (hout p hp)
  | observed lift f now _ hout => exact Or.inl (hout ▸ hp)

theorem Effect.of_released {q : LiftSystem} {r : LiftSystem × List LiftAction} (h : Effect q c r)
    {p : LiftPost} {verdict : Bool} (hmem : .released p verdict ∈ r.2) :
    r.2 = [.released p verdict] ∧ p ∈ q.outstanding ∧
      (p.requestType = .endSession ∨ p.requestType = .humanMode) := by
  cases h with
  | quiet _ _ => cases hmem
  | refused p' now stamp _ _ => exact absurd (eq_of_mem_tries hmem).1 nofun
  | posted p' now stamp _ _ =>
    rcases List.mem_append.mp hmem with htried | hposted
    · exact absurd (eq_of_mem_tries htried).1 nofun
    · exact absurd (List.mem_singleton.mp hposted) nofun
  | released p' verdict' hp htype _ _ =>
    obtain ⟨rfl, rfl⟩ := LiftAction.released.inj (List.mem_singleton.mp hmem)
    exact ⟨rfl, hp, htype⟩
  | observed lift f now _ _ => exact absurd (List.mem_singleton.mp hmem) nofun

theorem Effect.of_posted {q q' : LiftSystem} {actions : List LiftAction}
    (h : Effect q c (q', actions)) {p : LiftPost} (hmem : .posted p ∈ actions) :
    ∃ now stamp, p.gate q.node.sessionManager now stamp = (q'.node.sessionManager, true) ∧
      q'.outstanding = q.outstanding ++ [p] := by
  cases h with
  | quiet _ _ => cases hmem
  | refused p' now stamp _ _ => exact absurd (eq_of_mem_tries hmem).1 nofun
  | posted p' now stamp hgate hout =>
    rcases List.mem_append.mp hmem with htried | hposted
    · exact absurd (eq_of_mem_tries htried).1 nofun
    · obtain rfl := LiftAction.posted.inj (List.mem_singleton.mp hposted)
      exact ⟨now, stamp, hgate, hout⟩
  | released p' verdict _ _ _ _ => exact absurd (List.mem_singleton.mp hmem) nofun
  | observed lift f now _ _ => exact absurd (List.mem_singleton.mp hmem) nofun

theorem Effect.cause_of_posted {q : LiftSystem} {r : LiftSystem × List LiftAction}
    (h : Effect q c r) {p : LiftPost} (hmem : .posted p ∈ r.2) : c = .dispatch := by
  cases h with
  | quiet _ _ => cases hmem
  | refused p' now stamp _ _ => rfl
  | posted p' now stamp _ _ => rfl
  | released p' verdict _ _ _ _ => exact absurd (List.mem_singleton.mp hmem) nofun
  | observed lift f now _ _ => exact absurd (List.mem_singleton.mp hmem) nofun

theorem managed_of_posted {q : LiftSystem} {owner : String} {r : LiftRequest}
    {executionId : Option String} {fresh : String} {now stamp : ℚ} {p : LiftPost}
    (hmem : .posted p ∈ (q.dispatch owner r executionId fresh now stamp).2) :
    p.lift ∈ q.node.handles.keys ∧ p.lift ≠ "" := by
  unfold dispatch at hmem
  cases hget : q.node.handles.get owner with
  | none =>
    rw [hget] at hmem
    cases hmem
  | some h =>
    rw [hget] at hmem
    dsimp only at hmem
    cases hscreen : h.screen r executionId fresh with
    | dropped =>
      rw [hscreen] at hmem
      cases hmem
    | rejected why =>
      rw [hscreen] at hmem
      cases hmem
    | request p' =>
      rw [hscreen] at hmem
      dsimp only at hmem
      split_ifs at hmem
      · exact absurd (eq_of_mem_tries hmem).1 nofun
      · rcases List.mem_append.mp hmem with htried | hposted
        · exact absurd (eq_of_mem_tries htried).1 nofun
        · obtain rfl := LiftAction.posted.inj (List.mem_singleton.mp hposted)
          obtain ⟨-, hne, -, -, -, -, hlift, -, -⟩ := LiftHandle.screen_eq_request.mp hscreen
          have hkey : h.liftName = owner := Registry.key_of_get hget
          rw [hlift]
          exact ⟨hkey ▸ (Registry.get_eq_some.mp hget).1, hne⟩

/-- A machine that contains the adapter and reports what the adapter does. -/
def Contains {σ ι : Type*} (M : Machine σ ι (List LiftAction)) (part : σ → LiftSystem) : Prop :=
  ∀ q i, ∃ c, Effect (part q) c (part (M.step q i).1, (M.step q i).2)

theorem contains_self : Contains machine id := by
  intro q e
  cases e with
  | dispatch owner r executionId fresh now stamp =>
    exact ⟨_, dispatch_effect q owner r executionId fresh now stamp⟩
  | response i outcome => exact ⟨_, response_effect q i outcome⟩
  | frame lift f now published => exact ⟨_, frame_effect q lift f now published⟩

section Contains

variable {σ ι : Type*} {M : Machine σ ι (List LiftAction)} {part : σ → LiftSystem}

theorem Contains.released_after_posted (hM : Contains M part) {q : σ} {inputs : List ι}
    {p : LiftPost} {verdict : Bool} {pre post : List LiftAction}
    (h : M.trace q inputs = pre ++ .released p verdict :: post) :
    (p ∈ (part q).outstanding ∨ .posted p ∈ pre) ∧
      (p.requestType = .endSession ∨ p.requestType = .humanMode) := by
  induction inputs generalizing q pre with
  | nil => exact absurd h.symm (by simp)
  | cons i inputs ih =>
    obtain ⟨c, heffect⟩ := hM q i
    have hlater : ∀ rest, pre = (M.step q i).2 ++ rest →
        M.trace (M.step q i).1 inputs = rest ++ .released p verdict :: post →
        (p ∈ (part q).outstanding ∨ .posted p ∈ pre) ∧
          (p.requestType = .endSession ∨ p.requestType = .humanMode) := by
      rintro rest rfl htail
      obtain ⟨hfrom, htype⟩ := ih htail
      refine ⟨?_, htype⟩
      rcases hfrom with hout | hposted
      · exact (heffect.outstanding hout).imp_right (List.mem_append_left _)
      · exact Or.inr (List.mem_append_right _ hposted)
    rw [Machine.trace_cons] at h
    -- the release stands in the trace of the first event or in that of the rest
    rcases List.append_eq_append_iff.mp h with ⟨rest, hpre, htail⟩ | ⟨rest, hnow, htail⟩
    · exact hlater rest hpre htail
    · cases rest with
      | nil => exact hlater [] (by rw [hnow, List.append_nil, List.append_nil]) htail.symm
      | cons act rest =>
        obtain ⟨rfl, -⟩ := List.cons.inj htail
        have hmem : LiftAction.released p verdict ∈ (M.step q i).2 := by
          rw [hnow]
          exact List.mem_append_right _ (List.mem_cons_self ..)
        obtain ⟨-, hp, htype⟩ := heffect.of_released hmem
        exact ⟨Or.inl hp, htype⟩

end Contains

end LiftSystem

def LiftAction.call : LiftAction → Option (Call × Answer)
  | .tried lift s now stamp granted => some (.tryAcquire lift s now stamp, .verdict granted)
  | .posted _ => none
  | .released p verdict => some (.release p.lift p.sessionId, .verdict verdict)
  | .observed lift s now => some (.observeServerState lift s now, .done)

namespace LiftSystem

theorem gate_calls {p : LiftPost} {m m' : LiftSessionManager} {now stamp : ℚ} {granted : Bool}
    (h : p.gate m now stamp = (m', granted)) :
    (tries p now stamp granted).filterMap LiftAction.call =
        LiftSessionManager.machine.log m
          (((tries p now stamp granted).filterMap LiftAction.call).map Prod.fst) ∧
      m' = LiftSessionManager.machine.after m
        (((tries p now stamp granted).filterMap LiftAction.call).map Prod.fst) := by
  unfold LiftPost.gate at h
  unfold tries
  split_ifs at h ⊢
  · obtain ⟨rfl, rfl⟩ := Prod.ext_iff.mp h
    exact ⟨rfl, rfl⟩
  · obtain ⟨rfl, -⟩ := Prod.ext_iff.mp h
    exact ⟨rfl, rfl⟩

theorem Effect.calls {q q' : LiftSystem} {c : Cause} {actions : List LiftAction}
    (h : Effect q c (q', actions)) :
    actions.filterMap LiftAction.call = LiftSessionManager.machine.log q.node.sessionManager
        ((actions.filterMap LiftAction.call).map Prod.fst) ∧
      q'.node.sessionManager = LiftSessionManager.machine.after q.node.sessionManager
        ((actions.filterMap LiftAction.call).map Prod.fst) := by
  cases h with
  | quiet hm _ => exact ⟨rfl, hm⟩
  | refused p now stamp hgate _ => exact gate_calls hgate
  | posted p now stamp hgate _ =>
    have hposted : (tries p now stamp true ++ [LiftAction.posted p]).filterMap LiftAction.call =
        (tries p now stamp true).filterMap LiftAction.call := by
      rw [List.filterMap_append]
      exact List.append_nil _
    rw [hposted]
    exact gate_calls hgate
  | released p verdict _ _ hrelease _ =>
    obtain ⟨hm, rfl⟩ := Prod.mk.inj hrelease
    exact ⟨rfl, hm.symm⟩
  | observed lift f now hm _ => exact ⟨rfl, hm⟩

theorem Contains.drives {σ ι : Type*} {M : Machine σ ι (List LiftAction)} {part : σ → LiftSystem}
    (hM : Contains M part) :
    Machine.Drives M LiftSessionManager.machine (fun q => (part q).node.sessionManager)
      fun actions => actions.filterMap LiftAction.call :=
  fun q i => (hM q i).choose_spec.calls

end LiftSystem

end QuikSync.Lift
