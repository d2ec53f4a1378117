import QuikSyncAdapters.Lift.Interleaving

/-! Isolation of the lifts of one node: they share the session manager and the clients, and
nothing that happens on the others shows at a lift. -/

namespace QuikSync.Lift

open Client Py

/-! ### Managers that agree at a lift -/

namespace LiftSessionManager

structure SameAt (lift : String) (m m' : LiftSessionManager) : Prop where
  requested : m.requested lift = m'.requested lift
  requestedAt : m.requestedAt lift = m'.requestedAt lift
  server : m.server lift = m'.server lift
  ttlSeconds : m.ttlSeconds = m'.ttlSeconds

variable {lift : String} {m m' m'' : LiftSessionManager}

theorem SameAt.refl (lift : String) (m : LiftSessionManager) : SameAt lift m m :=
  ⟨rfl, rfl, rfl, rfl⟩

theorem SameAt.symm (h : SameAt lift m m') : SameAt lift m' m :=
  ⟨h.requested.symm, h.requestedAt.symm, h.server.symm, h.ttlSeconds.symm⟩

theorem SameAt.trans (h : SameAt lift m m') (h' : SameAt lift m' m'') : SameAt lift m m'' :=
  ⟨h.requested.trans h'.requested, h.requestedAt.trans h'.requestedAt, h.server.trans h'.server,
    h.ttlSeconds.trans h'.ttlSeconds⟩

theorem AgreeOff.sameAt {other : String} (h : AgreeOff other m m') (hne : lift ≠ other) :
    SameAt lift m' m :=
  ⟨(h.2 lift hne).1, (h.2 lift hne).2.1, (h.2 lift hne).2.2, h.1⟩

theorem SameAt.setRequest (h : SameAt lift m m') (s : String) (stamp : ℚ) :
    SameAt lift (m.setRequest lift s stamp) (m'.setRequest lift s stamp) :=
  ⟨by simp, by simp, h.server, h.ttlSeconds⟩

theorem SameAt.setRequestedAt (h : SameAt lift m m') (stamp : ℚ) :
    SameAt lift (m.setRequestedAt lift stamp) (m'.setRequestedAt lift stamp) :=
  ⟨h.requested, by simp, h.server, h.ttlSeconds⟩

theorem SameAt.popRequest (h : SameAt lift m m') :
    SameAt lift (m.popRequest lift) (m'.popRequest lift) :=
  ⟨by simp, by simp, h.server, h.ttlSeconds⟩

theorem SameAt.setServer (h : SameAt lift m m') (s : String) :
    SameAt lift (m.setServer lift s) (m'.setServer lift s) :=
  ⟨h.requested, h.requestedAt, by simp, h.ttlSeconds⟩

theorem SameAt.evictStaleLocked (h : SameAt lift m m') (now : ℚ) :
    SameAt lift (m.evictStaleLocked lift now) (m'.evictStaleLocked lift now) := by
  unfold LiftSessionManager.evictStaleLocked
  rw [h.ttlSeconds, h.requestedAt]
  split
  · exact h
  split
  · exact h
  split
  · exact h.popRequest
  · exact h

theorem SameAt.tryAcquire (h : SameAt lift m m') (s : String) (now stamp : ℚ) :
    (m.tryAcquire lift s now stamp).2 = (m'.tryAcquire lift s now stamp).2 ∧
      SameAt lift (m.tryAcquire lift s now stamp).1 (m'.tryAcquire lift s now stamp).1 := by
  have hevicted := h.evictStaleLocked now
  unfold LiftSessionManager.tryAcquire
  dsimp only
  rw [hevicted.requested, hevicted.server]
  split_ifs
  · exact ⟨rfl, h⟩
  · exact ⟨rfl, hevicted.setRequest s stamp⟩
  · exact ⟨rfl, hevicted.setRequestedAt stamp⟩
  · exact ⟨rfl, hevicted.setRequest s stamp⟩
  · exact ⟨rfl, hevicted⟩

theorem SameAt.release (h : SameAt lift m m') (s : String) :
    SameAt lift (m.release lift s).1 (m'.release lift s).1 := by
  unfold LiftSessionManager.release
  dsimp only
  rw [h.requested, h.server]
  split_ifs
  · exact h
  · exact h.popRequest
  · exact h

theorem SameAt.observeServerState (h : SameAt lift m m') (s : String) (now : ℚ) :
    SameAt lift (m.observeServerState lift s now) (m'.observeServerState lift s now) := by
  have hevicted := (h.setServer s).evictStaleLocked now
  unfold LiftSessionManager.observeServerState
  dsimp only
  rw [hevicted.requested]
  split_ifs
  · exact hevicted.popRequest
  · exact hevicted.popRequest
  · exact hevicted

end LiftSessionManager

/-! ### Posts up to their execution id -/

namespace LiftPost

def withId (p : LiftPost) (executionId : String) : LiftPost := { p with executionId }

def anonymous (p : LiftPost) : LiftPost := p.withId ""

theorem settle_eq_of_anonymous {p p' : LiftPost} (h : p.anonymous = p'.anonymous)
    (m : LiftSessionManager) : p.settle m = p'.settle m := by
  have hsettle := congrArg (fun q : LiftPost => q.settle m) h
  exact hsettle

theorem agreeOff_gate (p : LiftPost) (m : LiftSessionManager) (now stamp : ℚ) :
    LiftSessionManager.AgreeOff p.lift m (p.gate m now stamp).1 := by
  unfold gate
  split_ifs
  · exact LiftSessionManager.agreeOff_tryAcquire ..
  · exact .refl _ _

theorem agreeOff_settle (p : LiftPost) (m : LiftSessionManager) :
    LiftSessionManager.AgreeOff p.lift m (p.settle m) := by
  unfold settle
  split_ifs
  · exact .refl _ _
  · exact LiftSessionManager.agreeOff_release ..

open LiftSessionManager in
theorem sameAt_gate {p : LiftPost} {m m' : LiftSessionManager} (h : SameAt p.lift m m')
    (now stamp : ℚ) : (p.gate m now stamp).2 = (p.gate m' now stamp).2 ∧
      SameAt p.lift (p.gate m now stamp).1 (p.gate m' now stamp).1 := by
  unfold gate
  split_ifs
  · exact h.tryAcquire p.sessionId now stamp
  · exact ⟨rfl, h⟩

open LiftSessionManager in
theorem sameAt_settle {p : LiftPost} {m m' : LiftSessionManager} (h : SameAt p.lift m m') :
    SameAt p.lift (p.settle m) (p.settle m') := by
  unfold settle
  split_ifs
  · exact h
  · exact h.release p.sessionId

end LiftPost

def Screening.withId (executionId : String) : Screening → Screening
  | request p => .request (p.withId executionId)
  | s => s

theorem translateRequest_fresh (r : LiftRequest) (executionId : Option String)
    (fresh fresh' : String) :
    translateRequest r executionId fresh' =
      (translateRequest r executionId fresh).map
        fun t => { t with executionId := orFresh executionId fresh' } := by
  unfold translateRequest
  cases requireStr r.liftName "lift_name" with
  | error why => rfl
  | ok liftName =>
    cases requireStr r.sessionId "session_id" with
    | error why => rfl
    | ok sessionId =>
      cases requireStr r.destinationFloor "destination_floor" with
      | error why => rfl
      | ok floor =>
        generalize asInt "request_type" r.requestType >>= requestTypeOf = type
        generalize requireDoorState r.doorState >>= doorGoalOf = door
        cases type with
        | error why => rfl
        | ok type => cases door <;> rfl

theorem LiftHandle.screen_fresh (h : LiftHandle) (r : LiftRequest) (executionId : Option String)
    (fresh fresh' : String) :
    h.screen r executionId fresh' =
      (h.screen r executionId fresh).withId (orFresh executionId fresh') := by
  have htranslate := translateRequest_fresh r executionId fresh fresh'
  have hscreen : h.screenTranslated r executionId fresh' =
      (h.screenTranslated r executionId fresh).withId (orFresh executionId fresh') := by
    unfold screenTranslated
    rw [htranslate]
    cases translateRequest r executionId fresh with
    | error why => rfl
    | ok t =>
      dsimp only [Except.map]
      split_ifs <;> rfl
  unfold screen
  cases hcode : r.requestType with
  | none => exact hscreen
  | _ =>
    dsimp only
    split
    · rfl
    · split_ifs
      · rfl
      · exact hscreen

/-! ### What shows at one lift -/

inductive LiftOutput where
  | posted (p : LiftPost)
  | returned (result : Except Exc Bool)
  | published (fields : LiftStateFields)

def LiftOutput.anonymous : LiftOutput → LiftOutput
  | posted p => posted p.anonymous
  | o => o

/-- An event as the history of its lift has it, without the fresh id; a response is to one of
the outstanding posts of that lift. -/
inductive LiftShown where
  | dispatch (r : LiftRequest) (executionId : Option String) (now stamp : ℚ)
  | response (i : ℕ) (outcome : Except Exc Json)
  | frame (f : LiftStateFrame) (now : ℚ) (published : Bool)

def isAt (lift : String) (p : LiftPost) : Bool := p.lift == lift

namespace LiftSystem

def outputs (q : LiftSystem) : LiftEvent → List LiftOutput
  | .dispatch owner r executionId fresh now stamp =>
    match q.node.handles.get owner with
    | none => [.returned (.ok false)]
    | some h =>
      match h.screen r executionId fresh with
      | .request p =>
        if (p.gate q.node.sessionManager now stamp).2 then [.posted p] else [.returned (.ok false)]
      | _ => [.returned (.ok false)]
  | .response i outcome =>
    match q.outstanding[i]? with
    | none => []
    | some _ => [.returned (outcome.map fun _ => true)]
  | .frame lift f now published =>
    match (q.node.onStateFrame lift f now published).2 with
    | none => []
    | some fields => [.published fields]

def shownAt (lift : String) (q : LiftSystem) : LiftEvent → Option LiftShown
  | .dispatch owner r executionId _ now stamp =>
    if owner = lift then some (.dispatch r executionId now stamp) else none
  | .response i outcome =>
    match q.outstanding[i]? with
    | none => none
    | some p =>
      if p.lift = lift then
        some (.response ((q.outstanding.take i).countP (isAt lift)) outcome)
      else none
  | .frame name f now published => if name = lift then some (.frame f now published) else none

def outputsAt (q : LiftSystem) (e : LiftEvent) : List LiftOutput :=
  (q.outputs e).map LiftOutput.anonymous

def subHistory (lift : String) (q : LiftSystem) (es : List LiftEvent) : List LiftShown :=
  machine.shown (shownAt lift) q es

def outputHistory (lift : String) (q : LiftSystem) (es : List LiftEvent) : List LiftOutput :=
  machine.observed (shownAt lift) outputsAt q es

theorem routeRequest_outputs (n : LiftAdapterNode) (r : LiftRequest) (fresh : String)
    (now stamp : ℚ) (outcome : Except Exc Json) {name : String} (hname : r.liftName = some name) :
    let q : LiftSystem := ⟨n, []⟩
    let e : LiftEvent := .dispatch name r none fresh now stamp
    q.outputs e ++ (q.step e).1.outputs (.response 0 outcome) =
      (n.routeRequest r fresh now stamp outcome).posts.map .posted ++
        [.returned (n.routeRequest r fresh now stamp outcome).result] := by
  dsimp only [step]
  unfold LiftAdapterNode.routeRequest dispatch LiftHandle.dispatchRequest outputs
  rw [hname]
  dsimp only
  cases n.handles.get name with
  | none => rfl
  | some h =>
    dsimp only
    cases h.screen r none fresh with
    | dropped => rfl
    | rejected why => rfl
    | request p =>
      dsimp only
      cases (p.gate n.sessionManager now stamp).2 with
      | false => rfl
      | true => cases outcome <;> rfl

def outstandingAt (lift : String) (q : LiftSystem) : List LiftPost :=
  (q.outstanding.filter (isAt lift)).map LiftPost.anonymous

structure LooksAlike (lift : String) (q r : LiftSystem) : Prop where
  handle : q.node.handles.get lift = r.node.handles.get lift
  lock : LiftSessionManager.SameAt lift q.node.sessionManager r.node.sessionManager
  outstanding : outstandingAt lift q = outstandingAt lift r

variable {lift : String} {q r q' : LiftSystem}

theorem LooksAlike.refl (lift : String) (q : LiftSystem) : LooksAlike lift q q :=
  ⟨rfl, .refl _ _, rfl⟩

theorem LooksAlike.symm (h : LooksAlike lift q r) : LooksAlike lift r q :=
  ⟨h.handle.symm, h.lock.symm, h.outstanding.symm⟩

theorem LooksAlike.trans (h : LooksAlike lift q r) (h' : LooksAlike lift r q') :
    LooksAlike lift q q' :=
  ⟨h.handle.trans h'.handle, h.lock.trans h'.lock, h.outstanding.trans h'.outstanding⟩

theorem isAt_eq_true {p : LiftPost} : isAt lift p = true ↔ p.lift = lift := by
  simp [isAt]

theorem isAt_eq_false {p : LiftPost} : isAt lift p = false ↔ p.lift ≠ lift := by
  simp [isAt]

/-! #### Events on other lifts -/

theorem outstandingAt_append_off {p : LiftPost} (hp : p.lift ≠ lift) (node : LiftAdapterNode) :
    outstandingAt lift ⟨node, q.outstanding ++ [p]⟩ = outstandingAt lift q := by
  unfold outstandingAt
  rw [List.filter_append, List.filter_cons_of_neg (by simp [isAt, hp]), List.filter_nil,
    List.append_nil]

theorem filter_eraseIdx_of_neg {α : Type*} {P : α → Bool} {l : List α} {i : ℕ} {a : α}
    (h : l[i]? = some a) (ha : P a = false) : (l.eraseIdx i).filter P = l.filter P := by
  induction l generalizing i with
  | nil => rfl
  | cons b rest ih =>
    cases i with
    | zero =>
      obtain rfl : b = a := by simpa using h
      simp [ha]
    | succ i =>
      have hrest := ih (i := i) (by simpa using h)
      simp only [List.eraseIdx_cons_succ, List.filter_cons, hrest]

theorem screen_lift {h : LiftHandle} {r : LiftRequest} {executionId : Option String}
    {fresh : String} {p : LiftPost} (hscreen : h.screen r executionId fresh = .request p) :
    p.lift = h.liftName :=
  (LiftHandle.screen_eq_request.mp hscreen).2.2.2.2.2.2.1

theorem dispatch_off {owner : String} (hne : owner ≠ lift) (r : LiftRequest)
    (executionId : Option String) (fresh : String) (now stamp : ℚ) :
    LooksAlike lift (q.dispatch owner r executionId fresh now stamp).1 q := by
  unfold dispatch
  cases hget : q.node.handles.get owner with
  | none => exact .refl lift q
  | some h =>
    have hkey : h.liftName = owner := Registry.key_of_get hget
    have hother : lift ≠ h.liftName := fun heq => hne (hkey.symm.trans heq.symm)
    have hset : (q.node.handles.set h.reject).get lift = q.node.handles.get lift :=
      Registry.get_set_of_ne hother
    dsimp only
    cases hscreen : h.screen r executionId fresh with
    | dropped => exact .refl lift q
    | rejected why => exact ⟨hset, .refl _ _, rfl⟩
    | request p =>
      have hp : p.lift = h.liftName := screen_lift hscreen
      have hlock := (p.agreeOff_gate q.node.sessionManager now stamp).sameAt
        (fun heq => hother (heq.trans hp))
      dsimp only
      split_ifs
      · exact ⟨hset, hlock, rfl⟩
      · exact ⟨rfl, hlock, outstandingAt_append_off (fun heq => hother (hp.symm.trans heq).symm) _⟩

theorem response_off {i : ℕ} (hother : ∀ p, q.outstanding[i]? = some p → p.lift ≠ lift)
    (outcome : Except Exc Json) : LooksAlike lift (q.response i outcome).1 q := by
  unfold response
  cases hp : q.outstanding[i]? with
  | none => exact .refl lift q
  | some p =>
    have hne : p.lift ≠ lift := hother p hp
    have houtstanding : ∀ node, outstandingAt lift ⟨node, q.outstanding.eraseIdx i⟩ =
        outstandingAt lift q := fun node => by
      unfold outstandingAt
      rw [filter_eraseIdx_of_neg hp (isAt_eq_false.mpr hne)]
    cases outcome with
    | error e => exact ⟨rfl, .refl _ _, houtstanding _⟩
    | ok body =>
      refine ⟨?_, (p.agreeOff_settle _).sameAt (Ne.symm hne), houtstanding _⟩
      dsimp only
      cases hget : q.node.handles.get p.lift with
      | none => rfl
      | some h =>
        have hkey : h.liftName = p.lift := Registry.key_of_get hget
        exact Registry.get_set_of_ne fun heq => hne (hkey.symm.trans heq.symm)

theorem frame_off {name : String} (hne : name ≠ lift) (f : LiftStateFrame) (now : ℚ)
    (published : Bool) : LooksAlike lift (q.frame name f now published).1 q := by
  unfold frame LiftAdapterNode.onStateFrame
  cases hget : q.node.handles.get name with
  | none => exact .refl lift q
  | some h =>
    have hkey : h.liftName = name := Registry.key_of_get hget
    have hother : lift ≠ h.liftName := fun heq => hne (hkey.symm.trans heq.symm)
    dsimp only
    unfold LiftHandle.onStateFrame
    cases translateState f with
    | error e => exact ⟨Registry.get_set_of_ne hother, .refl _ _, rfl⟩
    | ok fields =>
      have hlock := (LiftSessionManager.agreeOff_observeServerState q.node.sessionManager
        h.liftName fields.sessionId now).sameAt hother
      dsimp only
      split
      · exact ⟨Registry.get_set_of_ne hother, hlock, rfl⟩
      · exact ⟨Registry.get_set_of_ne hother, hlock, rfl⟩

theorem step_off {e : LiftEvent} (h : shownAt lift q e = none) :
    LooksAlike lift (machine.step q e).1 q := by
  cases e with
  | dispatch owner r executionId fresh now stamp =>
    simp only [shownAt] at h
    split_ifs at h with hne
    exact dispatch_off hne r executionId fresh now stamp
  | response i outcome =>
    refine response_off (fun p hp heq => ?_) outcome
    simp only [shownAt, hp, if_pos heq] at h
    exact nomatch h
  | frame name f now published =>
    simp only [shownAt] at h
    split_ifs at h with hne
    exact frame_off hne f now published

/-! #### The same event at the lift -/

theorem filter_eraseIdx_of_pos {α : Type*} {P : α → Bool} {l : List α} {i : ℕ} {a : α}
    (h : l[i]? = some a) (ha : P a = true) :
    (l.filter P)[(l.take i).countP P]? = some a ∧
      (l.eraseIdx i).filter P = (l.filter P).eraseIdx ((l.take i).countP P) := by
  induction l generalizing i with
  | nil => exact absurd h (by simp)
  | cons b rest ih =>
    cases i with
    | zero =>
      obtain rfl : b = a := by simpa using h
      simp [ha]
    | succ i =>
      obtain ⟨hget, herase⟩ := ih (i := i) (by simpa using h)
      cases hb : P b with
      | false => simp [hb, hget, herase]
      | true => simp [hb, hget, herase]

theorem outstandingAt_append_on {p : LiftPost} (hp : p.lift = lift) (node : LiftAdapterNode) :
    outstandingAt lift ⟨node, q.outstanding ++ [p]⟩ = outstandingAt lift q ++ [p.anonymous] := by
  unfold outstandingAt
  rw [List.filter_append, List.filter_cons_of_pos (by simp [isAt, hp]), List.filter_nil,
    List.map_append, List.map_singleton]

theorem dispatch_on (h : LooksAlike lift q r) (request : LiftRequest) (executionId : Option String)
    (fresh fresh' : String) (now stamp : ℚ) :
    q.outputsAt (.dispatch lift request executionId fresh now stamp) =
        r.outputsAt (.dispatch lift request executionId fresh' now stamp) ∧
      LooksAlike lift (q.dispatch lift request executionId fresh now stamp).1
        (r.dispatch lift request executionId fresh' now stamp).1 := by
  unfold outputsAt outputs dispatch
  dsimp only
  rw [← h.handle]
  cases hget : q.node.handles.get lift with
  | none => exact ⟨rfl, h⟩
  | some handle =>
    have hkey : handle.liftName = lift := Registry.key_of_get hget
    have hset : ∀ b : LiftHandle, b.liftName = lift →
        (q.node.handles.set b).get lift = (r.node.handles.set b).get lift := fun b hb => by
      rw [Registry.get_set_of_get hget hb, Registry.get_set_of_get (h.handle ▸ hget) hb]
    dsimp only
    rw [handle.screen_fresh request executionId fresh fresh']
    cases hscreen : handle.screen request executionId fresh with
    | dropped => exact ⟨rfl, h⟩
    | rejected why => exact ⟨rfl, hset _ hkey, h.lock, h.outstanding⟩
    | request p =>
      have hp : p.lift = lift := (screen_lift hscreen).trans hkey
      have hlock : LiftSessionManager.SameAt p.lift q.node.sessionManager r.node.sessionManager :=
        hp ▸ h.lock
      obtain ⟨hverdict, hnext⟩ := p.sameAt_gate hlock now stamp
      rw [hp] at hnext
      have hgate : (p.withId (orFresh executionId fresh')).gate r.node.sessionManager now stamp =
          p.gate r.node.sessionManager now stamp := rfl
      simp only [Screening.withId, hgate, ← hverdict]
      cases (p.gate q.node.sessionManager now stamp).2 with
      | false => exact ⟨rfl, hset _ hkey, hnext, h.outstanding⟩
      | true =>
        refine ⟨rfl, h.handle, hnext, ?_⟩
        have hq := outstandingAt_append_on (q := q) hp q.node
        have hr := outstandingAt_append_on (q := r) (p := p.withId (orFresh executionId fresh')) hp
          r.node
        rw [h.outstanding] at hq
        exact hq.trans hr.symm

theorem outputsAt_response {i : ℕ} {p : LiftPost} (hi : q.outstanding[i]? = some p)
    (outcome : Except Exc Json) :
    q.outputsAt (.response i outcome) = [.returned (outcome.map fun _ => true)] := by
  simp only [outputsAt, outputs, hi]
  rfl

theorem response_on (h : LooksAlike lift q r) {i j : ℕ} {p p' : LiftPost} (outcome : Except Exc Json)
    (hi : q.outstanding[i]? = some p) (hp : p.lift = lift) (hj : r.outstanding[j]? = some p')
    (hp' : p'.lift = lift) (hindex : (q.outstanding.take i).countP (isAt lift) =
      (r.outstanding.take j).countP (isAt lift)) :
    q.outputsAt (.response i outcome) = r.outputsAt (.response j outcome) ∧
      LooksAlike lift (q.response i outcome).1 (r.response j outcome).1 := by
  obtain ⟨hget, herase⟩ := filter_eraseIdx_of_pos hi (isAt_eq_true.mpr hp)
  obtain ⟨hget', herase'⟩ := filter_eraseIdx_of_pos hj (isAt_eq_true.mpr hp')
  rw [← hindex] at hget' herase'
  have hsame : p.anonymous = p'.anonymous := by
    have hboth := congrArg (·[(q.outstanding.take i).countP (isAt lift)]?) h.outstanding
    simp only [outstandingAt, List.getElem?_map, hget, hget', Option.map_some] at hboth
    exact Option.some.inj hboth
  have houtstanding : ∀ node node', outstandingAt lift ⟨node, q.outstanding.eraseIdx i⟩ =
      outstandingAt lift ⟨node', r.outstanding.eraseIdx j⟩ := fun node node' => by
    have hboth := congrArg (·.eraseIdx ((q.outstanding.take i).countP (isAt lift))) h.outstanding
    simp only [outstandingAt, herase, herase', List.eraseIdx_map] at hboth ⊢
    exact hboth
  refine ⟨(outputsAt_response hi outcome).trans (outputsAt_response hj outcome).symm, ?_⟩
  unfold response
  simp only [hi, hj]
  cases outcome with
  | error e => exact ⟨h.handle, h.lock, houtstanding _ _⟩
  | ok body =>
    dsimp only
    rw [hp, hp', ← h.handle]
    have hlock : LiftSessionManager.SameAt p.lift q.node.sessionManager r.node.sessionManager :=
      hp ▸ h.lock
    have hsettled := p.sameAt_settle hlock
    rw [LiftPost.settle_eq_of_anonymous hsame r.node.sessionManager, hp] at hsettled
    cases hhandle : q.node.handles.get lift with
    | none => exact ⟨h.handle, hsettled, houtstanding _ _⟩
    | some handle =>
      have hname : handle.liftName = lift := Registry.key_of_get hhandle
      have hkey : handle.dispatched.liftName = lift := hname
      refine ⟨?_, hsettled, houtstanding _ _⟩
      dsimp only
      rw [Registry.get_set_of_get hhandle hkey, Registry.get_set_of_get (h.handle ▸ hhandle) hkey]

theorem frame_on (h : LooksAlike lift q r) (f : LiftStateFrame) (now : ℚ) (published : Bool) :
    q.outputsAt (.frame lift f now published) = r.outputsAt (.frame lift f now published) ∧
      LooksAlike lift (q.frame lift f now published).1 (r.frame lift f now published).1 := by
  unfold outputsAt outputs frame LiftAdapterNode.onStateFrame
  dsimp only
  rw [← h.handle]
  cases hget : q.node.handles.get lift with
  | none => exact ⟨rfl, h⟩
  | some handle =>
    have hkey : handle.liftName = lift := Registry.key_of_get hget
    have hset : ∀ b : LiftHandle, b.liftName = lift →
        (q.node.handles.set b).get lift = (r.node.handles.set b).get lift := fun b hb => by
      rw [Registry.get_set_of_get hget hb, Registry.get_set_of_get (h.handle ▸ hget) hb]
    dsimp only
    unfold LiftHandle.onStateFrame
    cases translateState f with
    | error e => exact ⟨rfl, hset _ hkey, h.lock, h.outstanding⟩
    | ok fields =>
      have hlock := h.lock.observeServerState fields.sessionId now
      rw [← hkey] at hlock
      dsimp only
      cases published with
      | false => exact ⟨rfl, hset _ hkey, hkey ▸ hlock, h.outstanding⟩
      | true => exact ⟨rfl, hset _ hkey, hkey ▸ hlock, h.outstanding⟩

/-! ### Isolation -/

theorem response_of_shownAt {i : ℕ} {outcome : Except Exc Json} {k : LiftShown}
    (h : shownAt lift q (.response i outcome) = some k) :
    ∃ p, q.outstanding[i]? = some p ∧ p.lift = lift ∧
      k = .response ((q.outstanding.take i).countP (isAt lift)) outcome := by
  cases hp : q.outstanding[i]? with
  | none =>
    simp only [shownAt, hp] at h
    exact nomatch h
  | some p =>
    simp only [shownAt, hp] at h
    split_ifs at h with hlift
    exact ⟨p, rfl, hlift, (Option.some.inj h).symm⟩

theorem dispatch_of_shownAt {owner : String} {request : LiftRequest} {executionId : Option String}
    {fresh : String} {now stamp : ℚ} {k : LiftShown}
    (h : shownAt lift q (.dispatch owner request executionId fresh now stamp) = some k) :
    owner = lift ∧ k = .dispatch request executionId now stamp := by
  simp only [shownAt] at h
  split_ifs at h with howner
  exact ⟨howner, (Option.some.inj h).symm⟩

theorem frame_of_shownAt {name : String} {f : LiftStateFrame} {now : ℚ} {published : Bool}
    {k : LiftShown} (h : shownAt lift q (.frame name f now published) = some k) :
    name = lift ∧ k = .frame f now published := by
  simp only [shownAt] at h
  split_ifs at h with hname
  exact ⟨hname, (Option.some.inj h).symm⟩

theorem step_on (h : LooksAlike lift q r) {e e' : LiftEvent} {k : LiftShown}
    (he : shownAt lift q e = some k) (he' : shownAt lift r e' = some k) :
    q.outputsAt e = r.outputsAt e' ∧
      LooksAlike lift (machine.step q e).1 (machine.step r e').1 := by
  cases e with
  | dispatch owner request executionId fresh now stamp =>
    obtain ⟨rfl, rfl⟩ := dispatch_of_shownAt he
    cases e' with
    | dispatch owner' request' executionId' fresh' now' stamp' =>
      obtain ⟨rfl, hk⟩ := dispatch_of_shownAt he'
      obtain ⟨rfl, rfl, rfl, rfl⟩ := LiftShown.dispatch.inj hk
      exact dispatch_on h request executionId fresh fresh' now stamp
    | response j outcome' =>
      obtain ⟨p', -, -, hk⟩ := response_of_shownAt he'
      exact nomatch hk
    | frame name' f' now' published' =>
      obtain ⟨-, hk⟩ := frame_of_shownAt he'
      exact nomatch hk
  | response i outcome =>
    obtain ⟨p, hp, hlift, rfl⟩ := response_of_shownAt he
    cases e' with
    | response j outcome' =>
      obtain ⟨p', hp', hlift', hk⟩ := response_of_shownAt he'
      obtain ⟨hindex, rfl⟩ := LiftShown.response.inj hk
      exact response_on h outcome hp hlift hp' hlift' hindex
    | dispatch owner' request' executionId' fresh' now' stamp' =>
      obtain ⟨-, hk⟩ := dispatch_of_shownAt he'
      exact nomatch hk
    | frame name' f' now' published' =>
      obtain ⟨-, hk⟩ := frame_of_shownAt he'
      exact nomatch hk
  | frame name f now published =>
    obtain ⟨rfl, rfl⟩ := frame_of_shownAt he
    cases e' with
    | frame name' f' now' published' =>
      obtain ⟨rfl, hk⟩ := frame_of_shownAt he'
      obtain ⟨rfl, rfl, rfl⟩ := LiftShown.frame.inj hk
      exact frame_on h f now published
    | dispatch owner' request' executionId' fresh' now' stamp' =>
      obtain ⟨-, hk⟩ := dispatch_of_shownAt he'
      exact nomatch hk
    | response j outcome' =>
      obtain ⟨p', -, -, hk⟩ := response_of_shownAt he'
      exact nomatch hk

theorem unwinds (lift : String) :
    Machine.Unwinds (shownAt lift) outputsAt machine (LooksAlike lift) where
  symm := LooksAlike.symm
  hidden h hv := (step_off hv).trans h
  seen h hv hv' := step_on h hv hv'

/-- Two histories of a node that are the same for a lift send, return and publish the same for
it and leave its counters the same, whatever they are for the other lifts. -/
theorem lift_isolated (lift : String) (q : LiftSystem) (es es' : List LiftEvent)
    (h : subHistory lift q es = subHistory lift q es') :
    outputHistory lift q es = outputHistory lift q es' ∧
      (machine.after q es).node.handles.get lift = (machine.after q es').node.handles.get lift := by
  obtain ⟨houtputs, hend⟩ := (unwinds lift).run (LooksAlike.refl lift q) h
  exact ⟨houtputs, hend.handle⟩

def firstLiftRequest (fresh : String) : LiftEvent :=
  .dispatch "L1" ⟨some "L1", some "a", .int 2, some "G", .bare (.int 0)⟩ none fresh 1 1

theorem lift_isolated_witness :
    outputHistory "L1" (.new ["L1", "L2"] none 5)
        [.dispatch "L2" ⟨some "L2", some "b", .int 2, some "G", .bare (.int 0)⟩ none "x" 0 0,
          firstLiftRequest "y"] =
      outputHistory "L1" (.new ["L1", "L2"] none 5) [firstLiftRequest "z"] ∧
    (machine.after (.new ["L1", "L2"] none 5)
        [.dispatch "L2" ⟨some "L2", some "b", .int 2, some "G", .bare (.int 0)⟩ none "x" 0 0,
          firstLiftRequest "y"]).node.handles.get "L1" =
      (machine.after (.new ["L1", "L2"] none 5) [firstLiftRequest "z"]).node.handles.get "L1" :=
  lift_isolated "L1" (.new ["L1", "L2"] none 5) _ _ rfl

end LiftSystem

end QuikSync.Lift
