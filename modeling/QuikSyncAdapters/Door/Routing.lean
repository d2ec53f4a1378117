import QuikSyncAdapters.Door.Node
import QuikSyncAdapters.Library.Machine

/-! Whole runs of the door node: what each routed request sends, and the totals of the
counters against the requests so far. -/

namespace QuikSync.Door

open Client Py

namespace DoorHandle

variable {h : DoorHandle} {r : DoorRequest} {executionId : Option String} {fresh : String}

def postOf (h : DoorHandle) (t : TranslatedDoorRequest) : DoorPost :=
  ⟨h.doorName, t.requesterId, t.requestedMode, t.executionId, h.scope⟩

theorem dispatchRequest_of_refused {why : String} (outcome : Except Exc Json)
    (hrefused : translateRequest r executionId fresh = .error why) :
    h.dispatchRequest r executionId fresh outcome = ⟨h.reject, [], .ok false⟩ := by
  unfold dispatchRequest screen
  rw [hrefused]

theorem dispatchRequest_of_translated {t : TranslatedDoorRequest} (outcome : Except Exc Json)
    (ht : translateRequest r executionId fresh = .ok t) (hname : t.doorName.val = h.doorName) :
    h.dispatchRequest r executionId fresh outcome =
      match outcome with
      | .error e => ⟨h, [h.postOf t], .error e⟩
      | .ok _ => ⟨h.dispatched, [h.postOf t], .ok true⟩ := by
  have hscreen : h.screen r executionId fresh = .ok (h.postOf t) := by
    unfold screen
    rw [ht]
    exact if_neg (not_not.mpr hname)
  cases outcome with
  | error e => simp only [dispatchRequest, hscreen]
  | ok body => simp only [dispatchRequest, hscreen]

end DoorHandle

structure DoorCall where
  door : String
  requester : String
  mode : ℤ
  fresh : String
  outcome : Except Exc Json

structure DoorAnswer where
  posts : List DoorPost
  result : Except Exc Bool

namespace DoorCall

def request (c : DoorCall) : DoorRequest := ⟨some c.door, some c.requester, some (.int c.mode)⟩

def refused (c : DoorCall) : Bool := !(translateRequest c.request none c.fresh).isOk

end DoorCall

namespace DoorAdapterNode

def requestsDispatchedTotal (n : DoorAdapterNode) : ℕ := n.handles.total (·.requestsDispatched)

def requestsRejectedTotal (n : DoorAdapterNode) : ℕ := n.handles.total (·.requestsRejected)

def routing : Machine DoorAdapterNode DoorCall DoorAnswer where
  step n c :=
    let routed := n.routeRequest c.request c.fresh c.outcome
    (routed.node, ⟨routed.posts, routed.result⟩)

inductive Routes (n : DoorAdapterNode) (c : DoorCall) : DoorAdapterNode → DoorAnswer → Prop where
  | unmanaged (hdoor : c.door ∉ n.handles.keys) : Routes n c n ⟨[], .ok false⟩
  | refused {h : DoorHandle} (hget : n.handles.get c.door = some h) (hrefused : c.refused = true) :
      Routes n c ⟨n.handles.set h.reject⟩ ⟨[], .ok false⟩
  | raised {h : DoorHandle} {t : TranslatedDoorRequest} {e : Exc}
      (hget : n.handles.get c.door = some h)
      (htranslated : translateRequest c.request none c.fresh = .ok t)
      (houtcome : c.outcome = .error e) : Routes n c n ⟨[h.postOf t], .error e⟩
  | returned {h : DoorHandle} {t : TranslatedDoorRequest} {body : Json}
      (hget : n.handles.get c.door = some h)
      (htranslated : translateRequest c.request none c.fresh = .ok t)
      (houtcome : c.outcome = .ok body) :
      Routes n c ⟨n.handles.set h.dispatched⟩ ⟨[h.postOf t], .ok true⟩

theorem routing_step_of_get {n : DoorAdapterNode} {c : DoorCall} {h : DoorHandle}
    (hget : n.handles.get c.door = some h) :
    routing.step n c =
      let d := h.dispatchRequest c.request none c.fresh c.outcome
      (⟨n.handles.set d.handle⟩, ⟨d.posts, d.result⟩) := by
  unfold routing routeRequest
  dsimp only [DoorCall.request]
  rw [hget]

theorem routing_step (n : DoorAdapterNode) (c : DoorCall) :
    n.Routes c (routing.step n c).1 (routing.step n c).2 := by
  cases hget : n.handles.get c.door with
  | none =>
    have hstep : routing.step n c = (n, ⟨[], .ok false⟩) := by
      unfold routing routeRequest
      dsimp only [DoorCall.request]
      rw [hget]
    rw [hstep]
    exact .unmanaged (Registry.get_eq_none.mp hget)
  | some h =>
    rw [routing_step_of_get hget]
    cases ht : translateRequest c.request none c.fresh with
    | error why =>
      rw [DoorHandle.dispatchRequest_of_refused c.outcome ht]
      refine .refused hget ?_
      unfold DoorCall.refused
      rw [ht]
      rfl
    | ok t =>
      have hname : t.doorName.val = h.doorName := by
        rw [Registry.key_of_get hget]
        exact (Option.some.inj (translateRequest_eq_ok.mp ht).1).symm
      rw [DoorHandle.dispatchRequest_of_translated c.outcome ht hname]
      cases houtcome : c.outcome with
      | error e =>
        dsimp only
        rw [Registry.set_of_get (Registry.get_key hget)]
        exact .raised hget ht houtcome
      | ok body => exact .returned hget ht houtcome

/-! ### One request -/

/-- One request of a run whose node serves the doors `Served`: it sends at most one POST, for
its own managed door, to open on 2 and to close on 0. -/
structure CallSafe (doorNames : List String) (Served : String → Prop) (c : DoorCall)
    (a : DoorAnswer) : Prop where
  single : a.posts.length ≤ 1
  named : ∀ p ∈ a.posts, p.door = c.door ∧ c.door ∈ doorNames
  opens : (∃ p ∈ a.posts, p.requestedMode = .opened) ↔
    Served c.door ∧ c.mode = 2 ∧ c.requester ≠ ""
  closes : (∃ p ∈ a.posts, p.requestedMode = .closed) ↔
    Served c.door ∧ c.mode = 0 ∧ c.requester ≠ ""

theorem requestedModeOf_int (n : ℤ) (g : DoorGoal) :
    requestedModeOf (some (.int n)) = .ok g ↔ n = 2 ∧ g = .opened ∨ n = 0 ∧ g = .closed := by
  unfold requestedModeOf
  simp only [Code.equals?, Option.some.injEq]
  by_cases hopen : n = 2
  · subst hopen
    simp [eq_comm]
  · by_cases hclosed : n = 0
    · subst hclosed
      simp [eq_comm]
    · by_cases hmoving : n = 1 <;> simp [hopen, hclosed, hmoving]

theorem translates_iff (c : DoorCall) (g : DoorGoal) :
    (∃ t, translateRequest c.request none c.fresh = .ok t ∧ t.requestedMode = g) ↔
      c.door ≠ "" ∧ c.requester ≠ "" ∧ (c.mode = 2 ∧ g = .opened ∨ c.mode = 0 ∧ g = .closed) := by
  constructor
  · rintro ⟨t, ht, rfl⟩
    obtain ⟨hdoor, hrequester, hmode, -⟩ := translateRequest_eq_ok.mp ht
    rw [Option.some.inj hdoor, Option.some.inj hrequester]
    exact ⟨t.doorName.2, t.requesterId.2, (requestedModeOf_int _ _).mp hmode⟩
  · rintro ⟨hdoor, hrequester, hmode⟩
    refine ⟨⟨⟨c.door, hdoor⟩, ⟨c.requester, hrequester⟩, g, orFresh none c.fresh⟩, ?_, rfl⟩
    exact translateRequest_eq_ok.mpr ⟨rfl, rfl, (requestedModeOf_int _ _).mpr hmode, rfl⟩

/-- The doors that the node opens and closes: the managed ones that have a name. -/
def Served (doorNames : List String) (door : String) : Prop := door ∈ doorNames ∧ door ≠ ""

theorem exists_mem_posts {p : DoorPost} {P : DoorPost → Prop} : (∃ q ∈ [p], P q) ↔ P p := by
  simp

theorem callSafe_of_silent {doorNames : List String} {c : DoorCall}
    (hstop : Served doorNames c.door → c.refused = true) :
    CallSafe doorNames (Served doorNames) c ⟨[], .ok false⟩ := by
  have hnone : ∀ g, ¬ (Served doorNames c.door ∧ c.requester ≠ "" ∧
      (c.mode = 2 ∧ g = DoorGoal.opened ∨ c.mode = 0 ∧ g = .closed)) := by
    rintro g ⟨hserved, hrequester, hmode⟩
    obtain ⟨t, ht, -⟩ := (translates_iff c g).mpr ⟨hserved.2, hrequester, hmode⟩
    have hrefused := hstop hserved
    unfold DoorCall.refused at hrefused
    rw [ht] at hrefused
    exact Bool.false_ne_true hrefused
  refine ⟨Nat.zero_le _, nofun, iff_of_false nofun ?_, iff_of_false nofun ?_⟩
  · rintro ⟨hserved, hmode, hrequester⟩
    exact hnone .opened ⟨hserved, hrequester, Or.inl ⟨hmode, rfl⟩⟩
  · rintro ⟨hserved, hmode, hrequester⟩
    exact hnone .closed ⟨hserved, hrequester, Or.inr ⟨hmode, rfl⟩⟩

theorem callSafe_of_posted {doorNames : List String} {c : DoorCall} {h : DoorHandle}
    {t : TranslatedDoorRequest} (result : Except Exc Bool) (hkey : h.doorName = c.door)
    (hmem : c.door ∈ doorNames) (ht : translateRequest c.request none c.fresh = .ok t) :
    CallSafe doorNames (Served doorNames) c ⟨[h.postOf t], result⟩ := by
  have hgoal : ∀ g, t.requestedMode = g ↔ c.door ≠ "" ∧ c.requester ≠ "" ∧
      (c.mode = 2 ∧ g = .opened ∨ c.mode = 0 ∧ g = .closed) := by
    intro g
    rw [← translates_iff]
    refine ⟨fun hmode => ⟨t, ht, hmode⟩, ?_⟩
    rintro ⟨t', ht', hmode⟩
    obtain rfl := Except.ok.inj (ht.symm.trans ht')
    exact hmode
  refine ⟨le_rfl, ?_, ?_, ?_⟩
  · rw [List.forall_mem_singleton]
    exact ⟨hkey, hmem⟩
  · rw [exists_mem_posts, show (h.postOf t).requestedMode = t.requestedMode from rfl,
      hgoal]
    simp [Served, hmem, and_comm]
  · rw [exists_mem_posts, show (h.postOf t).requestedMode = t.requestedMode from rfl,
      hgoal]
    simp [Served, hmem, and_comm]

theorem Routes.callSafe {n n' : DoorAdapterNode} {c : DoorCall} {a : DoorAnswer}
    (hroutes : n.Routes c n' a) {doorNames : List String}
    (hkeys : ∀ d, d ∈ n.handles.keys ↔ d ∈ doorNames) :
    CallSafe doorNames (Served doorNames) c a := by
  cases hroutes with
  | unmanaged hdoor =>
    exact callSafe_of_silent fun hserved => absurd ((hkeys c.door).mpr hserved.1) hdoor
  | refused hget hrefused => exact callSafe_of_silent fun _ => hrefused
  | raised hget ht houtcome =>
    have hmem := (hkeys c.door).mp (Registry.get_eq_some.mp hget).1
    exact callSafe_of_posted _ (Registry.key_of_get hget) hmem ht
  | returned hget ht houtcome =>
    have hmem := (hkeys c.door).mp (Registry.get_eq_some.mp hget).1
    exact callSafe_of_posted _ (Registry.key_of_get hget) hmem ht

/-! ### The counters over a run -/

def returnedPosts (entry : DoorCall × DoorAnswer) : ℕ :=
  if entry.1.outcome.isOk then entry.2.posts.length else 0

def isRejected (doorNames : List String) (entry : DoorCall × DoorAnswer) : Bool :=
  decide (entry.1.door ∈ doorNames) && entry.1.refused

def Raises (a : DoorAnswer) : Prop := ∃ e, a.result = .error e

structure Accounts (doorNames : List String) (n : DoorAdapterNode)
    (past : List (DoorCall × DoorAnswer)) : Prop where
  keys : ∀ d, d ∈ n.handles.keys ↔ d ∈ doorNames
  dispatched : n.requestsDispatchedTotal = (past.map returnedPosts).sum
  rejected : n.requestsRejectedTotal = past.countP (isRejected doorNames)

theorem not_refused {c : DoorCall} {t : TranslatedDoorRequest}
    (ht : translateRequest c.request none c.fresh = .ok t) : c.refused = false := by
  unfold DoorCall.refused
  rw [ht]
  rfl

section Totals

variable {doorNames : List String} {n n' : DoorAdapterNode} {c : DoorCall} {a : DoorAnswer}

theorem Routes.keys (hroutes : n.Routes c n' a) : n'.handles.keys = n.handles.keys := by
  cases hroutes <;> rfl

theorem dispatchedTotal_set {h : DoorHandle} (h' : DoorHandle) {door : String}
    (hget : n.handles.get door = some h) (hkey : h'.doorName = h.doorName) :
    requestsDispatchedTotal ⟨n.handles.set h'⟩ + h.requestsDispatched =
      n.requestsDispatchedTotal + h'.requestsDispatched :=
  Registry.total_set hget hkey _

theorem rejectedTotal_set {h : DoorHandle} (h' : DoorHandle) {door : String}
    (hget : n.handles.get door = some h) (hkey : h'.doorName = h.doorName) :
    requestsRejectedTotal ⟨n.handles.set h'⟩ + h.requestsRejected =
      n.requestsRejectedTotal + h'.requestsRejected :=
  Registry.total_set hget hkey _

theorem Routes.dispatchedTotal (hroutes : n.Routes c n' a) :
    n'.requestsDispatchedTotal = n.requestsDispatchedTotal + returnedPosts (c, a) := by
  cases hroutes with
  | unmanaged hdoor => simp [returnedPosts]
  | @refused h hget hrefused =>
    have htotal := dispatchedTotal_set h.reject hget rfl
    have hsame : h.reject.requestsDispatched = h.requestsDispatched := rfl
    have hnone : returnedPosts (c, ⟨[], .ok false⟩) = 0 := ite_self 0
    omega
  | raised hget ht houtcome =>
    have hfailed : c.outcome.isOk = false := by
      rw [houtcome]
      rfl
    simp [returnedPosts, hfailed]
  | @returned h t body hget ht houtcome =>
    have htotal := dispatchedTotal_set h.dispatched hget rfl
    have hcounter : h.dispatched.requestsDispatched = h.requestsDispatched + 1 := rfl
    have hreturned : c.outcome.isOk = true := by
      rw [houtcome]
      rfl
    have hposts : returnedPosts (c, ⟨[h.postOf t], .ok true⟩) = 1 := if_pos hreturned
    omega

theorem Routes.rejectedTotal (hroutes : n.Routes c n' a)
    (hkeys : ∀ d, d ∈ n.handles.keys ↔ d ∈ doorNames) :
    n'.requestsRejectedTotal =
      n.requestsRejectedTotal + if isRejected doorNames (c, a) then 1 else 0 := by
  unfold isRejected
  cases hroutes with
  | unmanaged hdoor =>
    have hno : c.door ∉ doorNames := fun hmem => hdoor ((hkeys c.door).mpr hmem)
    simp [hno]
  | @refused h hget hrefused =>
    have htotal := rejectedTotal_set h.reject hget rfl
    have hcounter : h.reject.requestsRejected = h.requestsRejected + 1 := rfl
    have hmem := (hkeys c.door).mp (Registry.get_eq_some.mp hget).1
    simp only [hmem, hrefused, decide_true, Bool.and_self, if_true]
    omega
  | raised hget ht houtcome => simp [not_refused ht]
  | @returned h t body hget ht houtcome =>
    have htotal := rejectedTotal_set h.dispatched hget rfl
    have hsame : h.dispatched.requestsRejected = h.requestsRejected := rfl
    simp only [not_refused ht, Bool.and_false, Bool.false_eq_true, if_false]
    omega

end Totals

theorem accounts_new (doorNames : List String) (scope : Option String) :
    Accounts doorNames (new doorNames scope) [] where
  keys _ := Registry.mem_ofKeys
  dispatched := Registry.total_ofKeys (fun name => DoorHandle.new name scope)
    (·.requestsDispatched) (fun _ => rfl) doorNames
  rejected := Registry.total_ofKeys (fun name => DoorHandle.new name scope)
    (·.requestsRejected) (fun _ => rfl) doorNames

theorem accounts_step {doorNames : List String} {n : DoorAdapterNode}
    {past : List (DoorCall × DoorAnswer)} (h : Accounts doorNames n past) (c : DoorCall) :
    Accounts doorNames (routing.step n c).1 (past ++ [(c, (routing.step n c).2)]) := by
  have hroutes := routing_step n c
  refine ⟨fun d => ?_, ?_, ?_⟩
  · rw [hroutes.keys]
    exact h.keys d
  · rw [hroutes.dispatchedTotal, h.dispatched, List.map_append, List.sum_append]
    simp
  · rw [hroutes.rejectedTotal h.keys, h.rejected, List.countP_append, List.countP_singleton]

theorem accounts_run (doorNames : List String) (scope : Option String) (calls : List DoorCall) :
    Accounts doorNames (routing.after (new doorNames scope) calls)
      (routing.log (new doorNames scope) calls) :=
  Machine.run_invariant (P := Accounts doorNames) (A := fun _ => True)
    (fun _ _ c _ h => accounts_step h c)
    (accounts_new doorNames scope) fun _ _ => trivial

theorem Routes.node_of_raises {n n' : DoorAdapterNode} {c : DoorCall} {a : DoorAnswer}
    (hroutes : n.Routes c n' a) (hraises : Raises a) : n' = n := by
  obtain ⟨e, he⟩ := hraises
  cases hroutes with
  | raised hget ht houtcome => rfl
  | _ => exact nomatch he

/-- A run of the node over its door names: every request is safe, the totals count the POSTs
that returned and the refused requests, and a POST that raises moves neither. -/
structure RoutesSafely (doorNames : List String) (scope : Option String) (calls : List DoorCall)
    (Served : String → Prop) : Prop where
  each : ∀ c a, (c, a) ∈ routing.log (new doorNames scope) calls → CallSafe doorNames Served c a
  dispatched : (routing.after (new doorNames scope) calls).requestsDispatchedTotal =
    ((routing.log (new doorNames scope) calls).map returnedPosts).sum
  rejected : (routing.after (new doorNames scope) calls).requestsRejectedTotal =
    (routing.log (new doorNames scope) calls).countP (isRejected doorNames)
  raising : ∀ pre c post, calls = pre ++ c :: post →
    Raises (routing.step (routing.after (new doorNames scope) pre) c).2 →
    (routing.after (new doorNames scope) (pre ++ [c])).requestsDispatchedTotal =
        (routing.after (new doorNames scope) pre).requestsDispatchedTotal ∧
      (routing.after (new doorNames scope) (pre ++ [c])).requestsRejectedTotal =
        (routing.after (new doorNames scope) pre).requestsRejectedTotal

theorem mem_log {n : DoorAdapterNode} {calls : List DoorCall} {c : DoorCall} {a : DoorAnswer}
    (h : (c, a) ∈ routing.log n calls) :
    ∃ pre, a = (routing.step (routing.after n pre) c).2 := by
  obtain ⟨pre, post, hlog⟩ := List.append_of_mem h
  obtain ⟨-, ha, -⟩ := Machine.log_eq_append hlog
  exact ⟨pre.map Prod.fst, ha⟩

/-- Every run of the node is safe and accounted for, with the doors that have a name served. -/
theorem routes_safely (doorNames : List String) (scope : Option String) (calls : List DoorCall) :
    RoutesSafely doorNames scope calls (Served doorNames) where
  each c a hmem := by
    obtain ⟨pre, rfl⟩ := mem_log hmem
    exact (routing_step _ c).callSafe (accounts_run doorNames scope pre).keys
  dispatched := (accounts_run doorNames scope calls).dispatched
  rejected := (accounts_run doorNames scope calls).rejected
  raising pre c post hcalls hraises := by
    have hsame := (routing_step (routing.after (new doorNames scope) pre) c).node_of_raises hraises
    rw [Machine.after_append, Machine.after_cons, Machine.after_nil, hsame]
    exact ⟨rfl, rfl⟩

/-- A managed door without a name is not opened. -/
theorem nameless_door_refused :
    ¬ ∀ (doorNames : List String) (scope : Option String) (calls : List DoorCall),
      RoutesSafely doorNames scope calls (· ∈ doorNames) := by
  intro h
  have hsafe := (h [""] none [⟨"", "r", 2, "x", .ok .null⟩]).each ⟨"", "r", 2, "x", .ok .null⟩
    ⟨[], .ok false⟩ (List.mem_singleton.mpr rfl)
  obtain ⟨p, hp, -⟩ := hsafe.opens.mpr ⟨List.mem_singleton.mpr rfl, rfl, by decide⟩
  exact absurd hp List.not_mem_nil

end DoorAdapterNode

end QuikSync.Door
