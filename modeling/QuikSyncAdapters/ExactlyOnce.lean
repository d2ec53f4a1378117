import QuikSyncAdapters.Adapters
import QuikSyncAdapters.Library.Deduplication

/-! Commands over a network that loses, repeats and reorders requests. Every attempt of a request
carries the execution id of its command, and so a server that knows the ids again carries out each
command at most once, and one whose request returns exactly once. -/

namespace QuikSync

open Client Py Deduplication

/-- The id by which the server knows a command again. -/
def Client.ApiCall.executionId (call : ApiCall) : Option String :=
  match (call.body.getD []).lookup "execution_id" with
  | some (.str id) => some id
  | _ => none

def Fleet.CommandPost.executionId : Fleet.CommandPost → String
  | .navigate _ _ executionId _ _ _ _ => executionId
  | .stop _ _ executionId _ => executionId
  | .performAction _ _ executionId _ _ _ => executionId

theorem fleet_executionId (p : Fleet.CommandPost) : p.call.executionId = some p.executionId := by
  cases p with
  | navigate => rfl
  | stop => rfl
  | performAction => rfl

/-! ### What an adapter draws and what it issues -/

def Issued.call? : Issued → Option ApiCall
  | .rest call => some call
  | .wss .. => none

def Door.DoorEvent.executionIds : Door.DoorEvent → List String
  | .request _ fresh _ => [fresh]
  | .frame .. => []

def Lift.LiftEvent.executionIds : Lift.LiftEvent → List String
  | .dispatch _ _ executionId fresh _ _ => [orFresh executionId fresh]
  | _ => []

def Fleet.RobotEvent.executionIds {rmf : Fleet.RmfAdapter} : Fleet.RobotEvent rmf → List String
  | .navigate _ _ executionId _ => [executionId]
  | .actionExecutor _ _ _ executionId _ => [executionId]
  | .stop executionId _ => [executionId]
  | .frame .. => []

/-- The commands of any number of adapters in any interleaving, and the execution ids that were
drawn for their requests and callbacks, posted or not. -/
inductive Commands : List ApiCall → List String → Prop where
  | door (n : Door.DoorAdapterNode) (events : List Door.DoorEvent) :
    Commands ((Door.nodeMachine.trace n events).filterMap Issued.call?)
      (events.flatMap Door.DoorEvent.executionIds)
  | lift (q : Lift.LiftSystem) (events : List Lift.LiftEvent) :
    Commands ((Lift.nodeMachine.trace q events).filterMap Issued.call?)
      (events.flatMap Lift.LiftEvent.executionIds)
  | fleet {rmf : Fleet.RmfAdapter} (m : Fleet.RmfModule rmf) (handles : Fleet.Handles rmf)
    (events : List (Key × Fleet.RobotEvent rmf)) :
    Commands (((Fleet.robotMachine m).trace handles events).filterMap Issued.call?)
      (events.flatMap fun i => i.2.executionIds)
  | together {calls calls' mixed : List ApiCall} {ids ids' : List String}
    (h : Commands calls ids) (h' : Commands calls' ids') (hmixed : mixed.Perm (calls ++ calls')) :
    Commands mixed (ids ++ ids')

section Drawn

variable {σ ι : Type}

def issuedIds (issued : List Issued) : List (Option String) :=
  (issued.filterMap Issued.call?).map ApiCall.executionId

theorem issuedIds_append (issued issued' : List Issued) :
    issuedIds (issued ++ issued') = issuedIds issued ++ issuedIds issued' := by
  unfold issuedIds
  rw [List.filterMap_append, List.map_append]

theorem trace_sublist {M : Machine σ ι (List Issued)} (ids : ι → List String)
    (hstep : ∀ q i, (issuedIds (M.step q i).2).Sublist ((ids i).map some)) (q : σ)
    (is : List ι) : (issuedIds (M.trace q is)).Sublist ((is.flatMap ids).map some) := by
  induction is generalizing q with
  | nil => exact List.nil_sublist _
  | cons i is ih =>
    rw [Machine.trace_cons, issuedIds_append, List.flatMap_cons, List.map_append]
    exact (hstep q i).append (ih _)

theorem door_step_sublist (n : Door.DoorAdapterNode) (e : Door.DoorEvent) :
    (issuedIds (Door.nodeMachine.step n e).2).Sublist (e.executionIds.map some) := by
  cases e with
  | frame door frame published => exact List.nil_sublist _
  | request r fresh outcome =>
    have hroute : (n.routeRequest r fresh outcome).posts = [] ∨
        ∃ p, (n.routeRequest r fresh outcome).posts = [p] ∧ p.executionId = fresh := by
      unfold Door.DoorAdapterNode.routeRequest
      cases r.doorName with
      | none => exact Or.inl rfl
      | some door =>
        dsimp only
        cases n.handles.get door with
        | none => exact Or.inl rfl
        | some h =>
          dsimp only
          unfold Door.DoorHandle.dispatchRequest
          cases hscreen : h.screen r none fresh with
          | error why => exact Or.inl rfl
          | ok p =>
            obtain ⟨-, -, -, -, -, hid, -⟩ := Door.DoorHandle.screen_eq_ok.mp hscreen
            cases outcome with
            | error e => exact Or.inr ⟨p, rfl, hid⟩
            | ok body => exact Or.inr ⟨p, rfl, hid⟩
    show (issuedIds ((n.routeRequest r fresh outcome).posts.map fun p => .rest p.call)).Sublist _
    obtain hnone | ⟨p, hp, rfl⟩ := hroute
    · rw [hnone]
      exact List.nil_sublist _
    · rw [hp]
      exact List.Sublist.refl _

def Lift.LiftAction.issued? : Lift.LiftAction → Option Issued
  | .posted p => some (.rest p.call)
  | _ => none

theorem tries_issue_nothing (p : Lift.LiftPost) (now stamp : ℚ) (granted : Bool) :
    (Lift.LiftSystem.tries p now stamp granted).filterMap Lift.LiftAction.issued? = [] := by
  unfold Lift.LiftSystem.tries
  split_ifs
  · rfl
  · rfl

theorem lift_step_sublist (q : Lift.LiftSystem) (e : Lift.LiftEvent) :
    (issuedIds (Lift.nodeMachine.step q e).2).Sublist (e.executionIds.map some) := by
  cases e with
  | response i outcome =>
    show (issuedIds ((q.response i outcome).2.filterMap Lift.LiftAction.issued?)).Sublist _
    unfold Lift.LiftSystem.response
    cases q.outstanding[i]? with
    | none => exact List.nil_sublist _
    | some p =>
      cases outcome with
      | error e => exact List.nil_sublist _
      | ok body =>
        dsimp only
        split_ifs
        · exact List.nil_sublist _
        · exact List.nil_sublist _
  | frame lift f now published =>
    show (issuedIds ((q.frame lift f now published).2.filterMap
      Lift.LiftAction.issued?)).Sublist _
    unfold Lift.LiftSystem.frame
    cases q.node.handles.get lift with
    | none => exact List.nil_sublist _
    | some h =>
      dsimp only
      cases Lift.translateState f with
      | error e => exact List.nil_sublist _
      | ok fields => exact List.nil_sublist _
  | dispatch owner r executionId fresh now stamp =>
    show (issuedIds ((q.dispatch owner r executionId fresh now stamp).2.filterMap
      Lift.LiftAction.issued?)).Sublist _
    unfold Lift.LiftSystem.dispatch
    cases q.node.handles.get owner with
    | none => exact List.nil_sublist _
    | some h =>
      dsimp only
      cases hscreen : h.screen r executionId fresh with
      | dropped => exact List.nil_sublist _
      | rejected why => exact List.nil_sublist _
      | request p =>
        dsimp only
        cases (p.gate q.node.sessionManager now stamp).2 with
        | false =>
          show (issuedIds ((Lift.LiftSystem.tries p now stamp false).filterMap _)).Sublist _
          rw [tries_issue_nothing]
          exact List.nil_sublist _
        | true =>
          show (issuedIds ((Lift.LiftSystem.tries p now stamp true ++
            [Lift.LiftAction.posted p]).filterMap _)).Sublist _
          rw [List.filterMap_append, tries_issue_nothing]
          have hid : p.executionId = orFresh executionId fresh :=
            (Lift.LiftHandle.screen_eq_request.mp hscreen).2.2.2.2.2.2.2.1
          exact List.singleton_sublist.mpr (List.mem_singleton.mpr (congrArg some hid))

def Fleet.RobotAction.issued? {rmf : Fleet.RmfAdapter} : Fleet.RobotAction rmf → Option Issued
  | .posted p => some (.rest p.call)
  | .called _ => none

section Fleet

variable {rmf : Fleet.RmfAdapter}

theorem callback_sublist (c : Fleet.CallbackScope) (h : Fleet.RobotHandle rmf)
    (e : Fleet.RobotEvent rmf) :
    (issuedIds ((c.step h e).2.filterMap Fleet.RobotAction.issued?)).Sublist
      (e.executionIds.map some) := by
  have hsend : ∀ (h' accepted : Fleet.RobotHandle rmf) (p : Fleet.CommandPost)
      (outcome : Except Exc Json),
      issuedIds (((Fleet.send h' accepted p outcome).posts.map
        (@Fleet.RobotAction.posted rmf)).filterMap Fleet.RobotAction.issued?) =
          [some p.executionId] := by
    intro h' accepted p outcome
    have hposts : (Fleet.send h' accepted p outcome).posts = [p] := by
      cases outcome with
      | error e => rfl
      | ok body => rfl
    rw [hposts]
    exact congrArg (fun id => [id]) (fleet_executionId p)
  cases e with
  | frame state answers =>
    show (issuedIds (((h.onState state answers).calls.map _).filterMap _)).Sublist _
    have hcalls : ((h.onState state answers).calls.map
        (@Fleet.RobotAction.called rmf)).filterMap Fleet.RobotAction.issued? = [] := by
      rw [List.filterMap_map]
      exact List.filterMap_eq_nil_iff.mpr fun _ _ => rfl
    rw [hcalls]
    exact List.nil_sublist _
  | navigate destination execution executionId outcome =>
    show (issuedIds (((c.navigate h destination execution executionId outcome).posts.map
      _).filterMap _)).Sublist _
    unfold Fleet.CallbackScope.navigate
    obtain e | (_ | body) := Fleet.extractDestination destination
    · exact List.nil_sublist _
    · exact List.nil_sublist _
    · obtain e | limit := Fleet.speedLimit destination
      · exact List.nil_sublist _
      · dsimp only
        rw [hsend]
        exact List.Sublist.refl _
  | actionExecutor category description execution executionId outcome =>
    show (issuedIds (((c.actionExecutor h category description execution executionId
      outcome).posts.map _).filterMap _)).Sublist _
    unfold Fleet.CallbackScope.actionExecutor
    rw [hsend]
    exact List.Sublist.refl _
  | stop executionId outcome =>
    show (issuedIds (((c.stop h executionId outcome).posts.map _).filterMap _)).Sublist _
    unfold Fleet.CallbackScope.stop
    rw [hsend]
    exact List.Sublist.refl _

theorem fleet_step_sublist (m : Fleet.RmfModule rmf) (handles : Fleet.Handles rmf)
    (i : Key × Fleet.RobotEvent rmf) :
    (issuedIds ((Fleet.robotMachine m).step handles i).2).Sublist (i.2.executionIds.map some) := by
  obtain ⟨robot, e⟩ := i
  have hrun : ∀ (r : ℕ) (c : Fleet.CallbackScope),
      (issuedIds ((Fleet.runOn handles r fun h => c.step h e).2.filterMap
        Fleet.RobotAction.issued?)).Sublist (e.executionIds.map some) := by
    intro r c
    unfold Fleet.runOn
    cases handles.objects[r]? with
    | none => exact List.nil_sublist _
    | some h => exact callback_sublist c h e
  have hissued : ((Fleet.robotMachine m).step handles (robot, e)).2 =
      (Fleet.fleetStep m handles robot e).2.filterMap Fleet.RobotAction.issued? := by
    refine List.filterMap_congr fun a _ => ?_
    cases a with
    | posted p => rfl
    | called c => rfl
  rw [hissued]
  cases e with
  | frame state answers =>
    unfold Fleet.fleetStep
    dsimp only
    cases handles.ref robot with
    | none => exact List.nil_sublist _
    | some r => exact hrun r ⟨"", "", none⟩
  | _ =>
    unfold Fleet.fleetStep
    dsimp only
    cases (handles.get robot).bind Fleet.RobotHandle.registration with
    | none => exact List.nil_sublist _
    | some registration => exact hrun _ _

end Fleet

end Drawn

theorem Commands.subperm {calls : List ApiCall} {ids : List String} (h : Commands calls ids) :
    (calls.map ApiCall.executionId).Subperm (ids.map some) := by
  induction h with
  | door n events => exact (trace_sublist _ door_step_sublist n events).subperm
  | lift q events => exact (trace_sublist _ lift_step_sublist q events).subperm
  | fleet m handles events =>
    exact (trace_sublist (fun i => i.2.executionIds) (fleet_step_sublist m) handles
      events).subperm
  | together h h' hmixed ih ih' =>
    have hperm := hmixed.map ApiCall.executionId
    rw [List.map_append] at hperm
    rw [List.map_append]
    exact hperm.subperm.trans (ih.append ih')

/-! ### Requests and their copies -/

section Attempts

variable {T : TokenClient} {config : HttpConfig} {call : ApiCall} {world : ℕ → AttemptWorld T}
  {auth : T.State}

theorem call_of_sent {a : AttemptRecord} (ha : a ∈ (requestJson config call world auth).records)
    {r : HttpRequest} (hsent : a.sent = some r) : r.call = call := by
  obtain ⟨k, hrecords, -, -⟩ := requestJson_stops config call world auth
  rw [hrecords] at ha
  obtain ⟨b, -, rfl⟩ := List.mem_map.mp ha
  have hsent' : (tokenAt world auth b).toOption.map call.request = some r := hsent
  obtain ⟨token, -, rfl⟩ := Option.map_eq_some_iff.mp hsent'
  rfl

theorem exists_response {v : Json} (h : (requestJson config call world auth).result = .ok v) :
    ∃ a ∈ (requestJson config call world auth).records, ∃ s r,
      a.status = some s ∧ a.sent = some r := by
  obtain ⟨i, hi, hpass, r, hr⟩ | ⟨-, hexhausted⟩ := requestJson_cases config call world auth
  · obtain ⟨hresult, hrecords⟩ := requestJson_of_verdict config call world auth hi hpass hr
    obtain rfl : r = .ok v := hresult.symm.trans h
    obtain ⟨resp, hresp, -⟩ := (verdictOf_eq_ok_iff config call).mp hr
    obtain ⟨token, htoken⟩ : ∃ token, tokenAt world auth i = .ok token := by
      unfold outcomeAt outcome at hresp
      split at hresp
      · cases hresp
      · cases hresp
      · rename_i token htoken
        exact ⟨token, htoken⟩
    refine ⟨recordAt config call world auth i, ?_, resp.statusCode, call.request token, ?_, ?_⟩
    · rw [hrecords]
      exact List.mem_map.mpr ⟨i, List.mem_range.mpr (Nat.lt_succ_self i), rfl⟩
    · show (outcomeAt world auth i).status = some resp.statusCode
      rw [hresp]
      rfl
    · show (tokenAt world auth i).toOption.map call.request = some (call.request token)
      rw [htoken]
      rfl
  · rw [h] at hexhausted
    cases hexhausted

end Attempts

structure Posting where
  call : ApiCall
  http : Fleet.RestClient

namespace Posting

def result (p : Posting) : Except Exc Json := (p.http.request p.call).result

def copies (p : Posting) : List HttpRequest :=
  (p.http.request p.call).records.filterMap (·.sent)

def answered (p : Posting) : List HttpRequest :=
  (p.http.request p.call).records.filterMap fun a => a.status.bind fun _ => a.sent

theorem call_of_mem_copies {p : Posting} {r : HttpRequest} (h : r ∈ p.copies) :
    r.call = p.call := by
  obtain ⟨a, ha, hsent⟩ := List.mem_filterMap.mp h
  exact call_of_sent ha hsent

theorem exists_answered {p : Posting} {v : Json} (h : p.result = .ok v) :
    ∃ r ∈ p.answered, r.call = p.call := by
  obtain ⟨a, ha, s, r, hstatus, hsent⟩ := exists_response h
  refine ⟨r, List.mem_filterMap.mpr ⟨a, ha, ?_⟩, call_of_sent ha hsent⟩
  rw [hstatus]
  exact hsent

end Posting

/-! ### A server that knows the ids again -/

/-- The server carries out a request with an id that it has not seen; what a call does to it is its
own matter. -/
def serve {S : Type} (perform : S → ApiCall → S) (start : S) (arrivals : List HttpRequest) : S :=
  ((⟨start, []⟩ : Receiver S String).receiveAll (fun r => r.call.executionId)
    (fun s r => perform s r.call) arrivals).state

/-- What the server has done with the commands, once these requests have arrived. -/
structure DoneOnce (postings : List Posting) (arrivals : List HttpRequest)
    (done : List ApiCall) : Prop where
  nodup : done.Nodup
  -- nothing is done but commands of the adapters, those of which some request has arrived
  mem_iff : ∀ call, call ∈ done ↔
    call ∈ postings.map Posting.call ∧ ∃ r ∈ arrivals, r.call = call
  -- if every answer comes from the server, a command whose request returns has been done
  returned : (∀ p ∈ postings, ∀ r ∈ p.answered, r ∈ arrivals) →
    ∀ p ∈ postings, (∃ v, p.result = .ok v) → p.call ∈ done
  -- where no request overtakes another, the commands are done in the order of the adapters
  ordered : arrivals.Sublist (postings.flatMap Posting.copies) →
    done.Sublist (postings.map Posting.call)

/-- Whatever the responses, the token client and the network do, a server that knows the execution
ids again comes to where it would be if each command that reaches it came once. -/
theorem commands_done_once {S : Type} (perform : S → ApiCall → S) (start : S)
    {postings : List Posting} {ids : List String} {arrivals : List HttpRequest}
    (hcommands : Commands (postings.map Posting.call) ids) (hfresh : ids.Nodup)
    (hsent : ∀ r ∈ arrivals, ∃ p ∈ postings, r ∈ p.copies) :
    ∃ done, serve perform start arrivals = done.foldl perform start ∧
      DoneOnce postings arrivals done := by
  have hdrawn := hcommands.subperm
  have hnodup : ((postings.map Posting.call).map ApiCall.executionId).Nodup := by
    obtain ⟨l, hperm, hsub⟩ := hdrawn
    exact (hperm.nodup_iff).mp (hsub.nodup (hfresh.map (Option.some_injective _)))
  have hcopies : AreCopies (fun r : HttpRequest => r.call.executionId) HttpRequest.call
      ApiCall.executionId (postings.map Posting.call) arrivals := by
    refine ⟨fun _ => rfl, fun c hc => ?_, hnodup, fun r hr => ?_⟩
    · obtain ⟨id, -, hid⟩ := List.mem_map.mp
        (hdrawn.subset (List.mem_map_of_mem (f := ApiCall.executionId) hc))
      rw [← hid]
      rfl
    · obtain ⟨p, hp, hr⟩ := hsent r hr
      exact List.mem_map.mpr ⟨p, hp, (Posting.call_of_mem_copies hr).symm⟩
  refine ⟨(accepted (fun r : HttpRequest => r.call.executionId) [] arrivals).map
    HttpRequest.call, ?_, hcopies.nodup, ?_, ?_, ?_⟩
  · unfold serve
    rw [receiveAll_state, List.foldl_map]
  · intro call
    constructor
    · intro hmem
      obtain ⟨r, hr, rfl⟩ := List.mem_map.mp hmem
      have harrived := (accepted_sublist [] arrivals).subset hr
      exact ⟨hcopies.issued r harrived, r, harrived, rfl⟩
    · rintro ⟨hcall, harrived⟩
      exact (hcopies.mem_iff hcall).mpr harrived
  · intro hanswered p hp hreturns
    obtain ⟨v, hv⟩ := hreturns
    obtain ⟨r, hr, hcall⟩ := Posting.exists_answered hv
    refine (hcopies.mem_iff (List.mem_map_of_mem hp)).mpr ⟨r, hanswered p hp r hr, hcall⟩
  · intro hordered
    exact hcopies.sublist (fun p r hr => Posting.call_of_mem_copies hr) hordered

def lostAnswer : Fleet.RestClient where
  config := Fleet.idleRest.config
  authConfig := Fleet.idleRest.authConfig
  auth := (some ⟨.str "t", 1000⟩, 0)
  world attempt :=
    { Fleet.idleRest.world attempt with
      exchange := if attempt = 0 then .error "closed" else .ok (plainResponse 200) }

def opening : Posting where
  call := Door.DoorPost.call ⟨"D1", ⟨"core", by decide⟩, .opened, "x1", none⟩
  http := lostAnswer

def calling : Posting where
  call := Lift.LiftPost.call
    ⟨"L1", ⟨"visitor", by decide⟩, .agvMode, ⟨"mezzanine", by decide⟩, .closed, "x2", none⟩
  http := lostAnswer

/-- A door and a lift adapter: all attempts of the second request arrive before those of the first,
and again after them. -/
theorem commands_done_once_overtaken :
    ∃ done, serve (fun calls call => calls ++ [call]) []
          (calling.copies ++ opening.copies ++ calling.copies) =
        done.foldl (fun calls call => calls ++ [call]) [] ∧
      DoneOnce [opening, calling] (calling.copies ++ opening.copies ++ calling.copies) done := by
  have hopening : Commands ([opening].map Posting.call) ["x1"] :=
    Commands.door (.new ["D1"] none)
      [.request ⟨some "D1", some "core", some (.int 2)⟩ "x1" (.ok .null)]
  have hcalling : Commands ([calling].map Posting.call) ["x2"] :=
    Commands.lift (.new ["L1"] none 0)
      [.dispatch "L1" ⟨some "L1", some "visitor", .int 2, some "mezzanine", .bare (.int 0)⟩ none
        "x2" 0 0]
  have hcommands := Commands.together hopening hcalling (List.Perm.refl _)
  refine commands_done_once _ _ hcommands (by decide) fun r hr => ?_
  obtain hcalled | hcalled := List.mem_append.mp hr
  · obtain hcalled | hopened := List.mem_append.mp hcalled
    · exact ⟨calling, by simp, hcalled⟩
    · exact ⟨opening, by simp, hopened⟩
  · exact ⟨calling, by simp, hcalled⟩

end QuikSync
