import QuikSyncAdapters.Client.MintOutcomes
import QuikSyncAdapters.Client.RefreshThreshold
import QuikSyncAdapters.Fleet.Completion
import QuikSyncAdapters.Library.Fallible

/-! What leaves the callbacks of Open-RMF when something goes wrong: the destination, the
request loop and the token client each have exceptions of their own. -/

namespace QuikSync.Fleet

open Client Py

variable {rmf : RmfAdapter}

/-! ### The callbacks over the REST client -/

def WireDestination.wire (d : WireDestination) : Dict :=
  [("x", .float d.x), ("y", .float d.y), ("yaw", .float d.yaw), ("map_name", .str d.mapName.val)]

def CommandPost.call : CommandPost → ApiCall
  | navigate fleet robot executionId destination dockName speedLimit scope =>
    postNavigate fleet robot executionId destination.wire (dockName.map (·.val)) speedLimit none scope
  | stop fleet robot executionId scope => postStop fleet robot executionId scope
  | performAction fleet robot executionId category description scope =>
    postPerformAction fleet robot executionId category description none scope

/-- The REST client of a callback, with what its next request finds outside. -/
structure RestClient where
  config : HttpConfig
  authConfig : AuthConfig
  auth : Option CachedToken × ℕ
  world : ℕ → AttemptWorld (.auth0 authConfig)

def RestClient.post (http : RestClient) (p : CommandPost) : Except Exc Json :=
  (requestJson (T := .auth0 http.authConfig) http.config p.call http.world http.auth).result

namespace CallbackScope

def navigatePost (c : CallbackScope) (destination : Destination) (executionId : String) :
    Except Py.Error (Option CommandPost) := do
  match ← extractDestination destination with
  | none => pure none
  | some body => do
    let limit ← speedLimit destination
    pure (some (.navigate c.fleet c.robot executionId body (dockName destination) limit c.scope))

def navigateOver (c : CallbackScope) (http : RestClient) (h : RobotHandle rmf)
    (destination : Destination) (execution : Execution rmf) (executionId : String) :
    CallbackRun rmf :=
  match c.navigatePost destination executionId with
  | .error e => ⟨h, [], .error (.builtin e)⟩
  | .ok none => ⟨h, [], .ok ()⟩
  | .ok (some p) => send h (h.setCurrentActivity (activityIdentifier execution)) p (http.post p)

def stopOver (c : CallbackScope) (http : RestClient) (h : RobotHandle rmf) (executionId : String) :
    CallbackRun rmf :=
  c.stop h executionId (http.post (.stop c.fleet c.robot executionId c.scope))

def actionExecutorOver (c : CallbackScope) (http : RestClient) (h : RobotHandle rmf)
    (category : String) (description : Json) (execution : Execution rmf) (executionId : String) :
    CallbackRun rmf :=
  c.actionExecutor h category description execution executionId
    (http.post (.performAction c.fleet c.robot executionId category description c.scope))

theorem navigateOver_eq (c : CallbackScope) (http : RestClient) (h : RobotHandle rmf)
    (destination : Destination) (execution : Execution rmf) (executionId : String) :
    ∃ outcome, c.navigateOver http h destination execution executionId =
        c.navigate h destination execution executionId outcome ∧
      ∀ p ∈ (c.navigate h destination execution executionId outcome).posts,
        outcome = http.post p := by
  unfold navigateOver navigatePost navigate
  rcases extractDestination destination with e | (_ | body)
  · exact ⟨.ok .null, rfl, fun p hp => absurd hp (List.not_mem_nil)⟩
  · exact ⟨.ok .null, rfl, fun p hp => absurd hp (List.not_mem_nil)⟩
  · rcases speedLimit destination with e | limit
    · exact ⟨.ok .null, rfl, fun p hp => absurd hp (List.not_mem_nil)⟩
    · refine ⟨http.post
        (.navigate c.fleet c.robot executionId body (dockName destination) limit c.scope), rfl, ?_⟩
      intro p hp
      dsimp only [send] at hp
      split at hp <;> rw [List.mem_singleton.mp hp]

end CallbackScope

/-! ### Coordinates and limits that raise -/

def IsHuge (n : ℤ) : Prop := ∃ negative, Double.round n = .inf negative

def coordinate (position : Position) (name : String) (index : ℕ) : Except Py.Error Json :=
  match position.attr name with
  | some v => .ok v
  | none => position.item index

/-- The exceptions of a read that `_extract_destination` does not catch. -/
inductive Uncaught : Except Py.Error Json → Prop where
  | keyError : Uncaught (.error .keyError)
  | overflowError : Uncaught (.error .overflowError)
  | huge {n : ℤ} (h : IsHuge n) : Uncaught (.ok (.int n))

def Escaping (e : Py.Error) : Prop := e = .keyError ∨ e = .overflowError

theorem toFloat_escapes_iff (v : Json) :
    (∃ e, v.toFloat = .error e ∧ Escaping e) ↔ ∃ n, v = .int n ∧ IsHuge n := by
  cases v with
  | int n =>
    have hnan := round_ne_nan (n : ℚ)
    unfold Json.toFloat IsHuge
    cases hround : Double.round (n : ℚ) with
    | nan => exact absurd hround hnan
    | inf negative => simp [hround, Escaping]
    | finite q => simp [hround]
  | str s =>
    refine iff_of_false ?_ (by simp)
    rintro ⟨e, he, hescape⟩
    rw [floatOfString_error he] at hescape
    rcases hescape with h | h <;> cases h
  | _ => simp [Json.toFloat, Escaping]

theorem uncaught_iff (c : Except Py.Error Json) :
    Uncaught c ↔ ∃ e, c >>= Json.toFloat = .error e ∧ Escaping e := by
  rw [Fallible.bind_error_iff]
  constructor
  · rintro (_ | _ | hhuge)
    · exact Or.inl ⟨_, rfl, Or.inl rfl⟩
    · exact Or.inl ⟨_, rfl, Or.inr rfl⟩
    · exact Or.inr ⟨_, rfl, (toFloat_escapes_iff _).mpr ⟨_, rfl, hhuge⟩⟩
  · rintro (⟨e, rfl, rfl | rfl⟩ | ⟨v, rfl, hv⟩)
    · exact .keyError
    · exact .overflowError
    · obtain ⟨n, rfl, hhuge⟩ := (toFloat_escapes_iff v).mp hv
      exact .huge hhuge

theorem readCoordinate_eq (p : Position) (name : String) (index : ℕ) :
    readCoordinate p name index = coordinate p name index >>= Json.toFloat := by
  unfold readCoordinate coordinate
  cases p.attr name <;> rfl

theorem readYaw_escapes_iff (p : Position) :
    (∃ e, readYaw p = .error e ∧ Escaping e) ↔ Uncaught (coordinate p "yaw" 2) := by
  rw [uncaught_iff]
  unfold readYaw coordinate
  cases p.attr "yaw" with
  | some v => rfl
  | none =>
    -- the inner handler takes an `IndexError` or a `TypeError` only
    generalize p.item 2 >>= Json.toFloat = r
    cases r with
    | ok d => simp [catching, Except.map]
    | error e => cases e <;> simp [catching, Except.map, Escaping]

def Reads (c : Except Py.Error Json) : Prop := ∃ d, c >>= Json.toFloat = .ok d

/-- Reading stops at the first coordinate that cannot be read, and that one is caught. -/
def Position.Readable (p : Position) : Prop :=
  ¬ Uncaught (coordinate p "x" 0) ∧
    (Reads (coordinate p "x" 0) → ¬ Uncaught (coordinate p "y" 1) ∧
      (Reads (coordinate p "y" 1) → ¬ Uncaught (coordinate p "yaw" 2)))

theorem readPosition_escapes_iff (p : Position) (mapName : NonEmpty) :
    (∃ e, readPosition p mapName = .error e ∧ Escaping e) ↔ ¬ p.Readable := by
  have hyaw : ∀ x y, (∃ e, (do let yaw ← readYaw p; pure (⟨x, y, yaw, mapName⟩ : WireDestination)) =
      .error e ∧ Escaping e) ↔ Uncaught (coordinate p "yaw" 2) := by
    intro x y
    rw [Fallible.bind_error_iff, readYaw_escapes_iff, or_iff_left]
    rintro ⟨d, -, e, he, -⟩
    cases he
  have hrest : ∀ x, (∃ e, (do
        let y ← readCoordinate p "y" 1
        let yaw ← readYaw p
        pure (⟨x, y, yaw, mapName⟩ : WireDestination)) = .error e ∧ Escaping e) ↔
      Uncaught (coordinate p "y" 1) ∨ ∃ y, coordinate p "y" 1 >>= Json.toFloat = .ok y ∧
        Uncaught (coordinate p "yaw" 2) := by
    intro x
    rw [Fallible.bind_error_iff, readCoordinate_eq, ← uncaught_iff]
    simp only [hyaw]
  unfold readPosition Position.Readable Reads
  rw [Fallible.bind_error_iff, readCoordinate_eq, ← uncaught_iff]
  simp only [hrest]
  constructor
  · rintro (h | ⟨x, hx, h | ⟨y, hy, h⟩⟩) ⟨h1, h2⟩
    · exact h1 h
    · exact (h2 ⟨x, hx⟩).1 h
    · exact (h2 ⟨x, hx⟩).2 ⟨y, hy⟩ h
  · intro h
    by_contra hno
    refine h ⟨fun hbad => hno (Or.inl hbad), fun ⟨x, hx⟩ => ⟨fun hbad => ?_, fun ⟨y, hy⟩ hbad => ?_⟩⟩
    · exact hno (Or.inr ⟨x, hx, Or.inl hbad⟩)
    · exact hno (Or.inr ⟨x, hx, Or.inr ⟨y, hy, hbad⟩⟩)

theorem escaping_iff (e : Py.Error) :
    e ∉ [Py.Error.attributeError, .indexError, .typeError, .valueError] ↔ Escaping e := by
  cases e <;> simp [Escaping]

def Destination.Readable (d : Destination) : Prop :=
  ∀ mapName p, d.map = .str mapName → mapName ≠ "" → d.position = some p → p.Readable

theorem extractDestination_error_iff (d : Destination) :
    (∃ e, extractDestination d = .error e) ↔ ¬ d.Readable := by
  unfold extractDestination Destination.Readable
  cases d.map with
  | str mapName =>
    by_cases hempty : mapName = ""
    · simp [hempty]
    · cases d.position with
      | none => simp [hempty]
      | some p =>
        simp only [dif_neg hempty, catching_eq_error_iff, escaping_iff, readPosition_escapes_iff]
        simp [hempty]
  | _ => simp

def Destination.HugeLimit (d : Destination) : Prop :=
  ∃ n, d.speedLimit = .int n ∧ 0 < n ∧ IsHuge n

theorem speedLimit_error_iff (d : Destination) :
    (∃ e, speedLimit d = .error e) ↔ d.HugeLimit := by
  unfold speedLimit Destination.HugeLimit
  cases d.speedLimit with
  | int n =>
    have hnan := round_ne_nan (n : ℚ)
    by_cases hpos : 0 < n
    · unfold IsHuge
      cases hround : Double.round (n : ℚ) with
      | nan => exact absurd hround hnan
      | inf negative => simp [Json.isNumber, Json.isPositive, Json.toFloat, hpos, hround, Except.map]
      | finite q => simp [Json.isNumber, Json.isPositive, Json.toFloat, hpos, hround, Except.map]
    · simp [Json.isNumber, Json.isPositive, hpos]
  | float x => cases h : (Json.float x).isPositive <;> simp [Json.isNumber, Json.toFloat, Except.map, h]
  | bool b => cases b <;> simp [Json.isNumber, Json.isPositive, Json.toFloat, Except.map]
  | _ => simp [Json.isNumber]

/-! ### Which callbacks return -/

theorem send_returns_iff (h accepted : RobotHandle rmf) (p : CommandPost)
    (outcome : Except Exc Json) :
    (send h accepted p outcome).result = .ok () ↔ ∀ e, outcome = .error e → e.isQuikSync = true := by
  cases outcome with
  | ok body => exact iff_of_true rfl fun e he => nomatch he
  | error e =>
    cases hkind : e.isQuikSync <;> simp [send, hkind]

theorem navigatePost_of_error {c : CallbackScope} {d : Destination} {executionId : String}
    {e : Py.Error} (h : extractDestination d = .error e) :
    c.navigatePost d executionId = .error e := by
  unfold CallbackScope.navigatePost
  rw [h]
  rfl

theorem navigatePost_of_none {c : CallbackScope} {d : Destination} {executionId : String}
    (h : extractDestination d = .ok none) : c.navigatePost d executionId = .ok none := by
  unfold CallbackScope.navigatePost
  rw [h]
  rfl

theorem navigatePost_of_some {c : CallbackScope} {d : Destination} {executionId : String}
    {body : WireDestination} (h : extractDestination d = .ok (some body)) :
    c.navigatePost d executionId = (speedLimit d).map fun limit =>
      some (.navigate c.fleet c.robot executionId body (dockName d) limit c.scope) := by
  unfold CallbackScope.navigatePost
  rw [h]
  rfl

/-- Each callback returns exactly when the destination can be read, its speed limit is a
double, and the request it sends is contained. -/
theorem callbacks_return_iff (c : CallbackScope) (http : RestClient) (h : RobotHandle rmf)
    (destination : Destination) (execution : Execution rmf) (executionId category : String)
    (description : Json) :
    ((c.navigateOver http h destination execution executionId).result = .ok () ↔
        destination.Readable ∧ ∀ body, extractDestination destination = .ok (some body) →
          ¬ destination.HugeLimit ∧ RequestContained http.config http.world http.auth) ∧
      ((c.stopOver http h executionId).result = .ok () ↔
        RequestContained http.config http.world http.auth) ∧
      ((c.actionExecutorOver http h category description execution executionId).result = .ok () ↔
        RequestContained http.config http.world http.auth) := by
  have hpost : ∀ accepted p, (send h accepted p (http.post p)).result = .ok () ↔
      RequestContained http.config http.world http.auth := fun accepted p =>
    (send_returns_iff h accepted p _).trans (requestContained_iff http.config http.world http.auth _)
  refine ⟨?_, hpost _ _, hpost _ _⟩
  unfold CallbackScope.navigateOver
  cases hread : extractDestination destination with
  | error e =>
    have hbad := (extractDestination_error_iff destination).mp ⟨e, hread⟩
    rw [navigatePost_of_error hread]
    exact iff_of_false (fun hres => nomatch hres) fun hgood => hbad hgood.1
  | ok o =>
    have hgood : destination.Readable := by
      by_contra hbad
      obtain ⟨e, he⟩ := (extractDestination_error_iff destination).mpr hbad
      exact absurd (hread.symm.trans he) (by simp)
    cases o with
    | none =>
      rw [navigatePost_of_none hread]
      exact iff_of_true rfl ⟨hgood, fun body hbody => by simp at hbody⟩
    | some body =>
      have hlimit := speedLimit_error_iff destination
      rw [navigatePost_of_some hread]
      cases hspeed : speedLimit destination with
      | error e =>
        have hhuge := hlimit.mp ⟨e, hspeed⟩
        exact iff_of_false (fun hres => nomatch hres) fun hall => (hall.2 body rfl).1 hhuge
      | ok limit =>
        have hfine : ¬ destination.HugeLimit := fun hhuge => by
          obtain ⟨e, he⟩ := hlimit.mpr hhuge
          exact absurd (hspeed.symm.trans he) (by simp)
        refine (hpost _ _).trans ⟨fun hc => ⟨hgood, fun _ _ => ⟨hfine, hc⟩⟩, fun hall => ?_⟩
        exact (hall.2 body rfl).2

def mappingPosition : Position where
  attr _ := none
  item _ := .error .keyError

def idleRest : RestClient where
  config := { baseUrl := "u" }
  authConfig := Auth0M2MClient.oneDayClient.config
  auth := (none, 0)
  world _ := ⟨⟨0, 0, ⟨0, by decide⟩, .httpError "down", 0⟩, .error "down",
    ⟨0, 0, ⟨0, by decide⟩, .httpError "down", 0⟩, default⟩

/-- A `KeyError` leaves `navigate` for a destination whose position is a mapping. -/
theorem mapping_position_escapes :
    ¬ ∀ (rmf : RmfAdapter) (c : CallbackScope) (http : RestClient) (h : RobotHandle rmf)
        (destination : Destination) (execution : Execution rmf)
        (executionId category : String) (description : Json),
      (c.navigateOver http h destination execution executionId).result = .ok () ∧
        (c.stopOver http h executionId).result = .ok () ∧
        (c.actionExecutorOver http h category description execution executionId).result = .ok () := by
  intro h
  have hnavigate := (h plainRmf ⟨"fleet", "r1", none⟩ idleRest (.new plainRmf "r1")
    ⟨.str "L1", some mappingPosition, .null, .null⟩ ⟨none, none, none⟩ "x" "clean" .null).1
  have hread : extractDestination ⟨.str "L1", some mappingPosition, .null, .null⟩ =
      .error .keyError := rfl
  unfold CallbackScope.navigateOver at hnavigate
  rw [navigatePost_of_error hread] at hnavigate
  cases hnavigate

/-! ### What becomes of a command -/

inductive ExecutionUse where
  | read (name : String)
  | call (method : String)

/-- The attributes that `_activity_identifier` reads, up to the first that is set. -/
def activityIdentifierUses (execution : Execution rmf) : List ExecutionUse :=
  .read "identifier" ::
    if execution.identifier.isSome then []
    else .read "activity" ::
      if execution.activity.isSome then [] else [.read "activity_identifier"]

/-- The execution is looked at only once the POST has been accepted. -/
def sendUses (execution : Execution rmf) (outcome : Except Exc Json) : List ExecutionUse :=
  match outcome with
  | .ok _ => activityIdentifierUses execution
  | .error _ => []

namespace CallbackScope

def navigateUses (c : CallbackScope) (destination : Destination) (execution : Execution rmf)
    (executionId : String) (outcome : Except Exc Json) : List ExecutionUse :=
  match c.navigatePost destination executionId with
  | .ok (some _) => sendUses execution outcome
  | _ => []

def actionExecutorUses (execution : Execution rmf) (outcome : Except Exc Json) :
    List ExecutionUse :=
  sendUses execution outcome

end CallbackScope

structure Accepted (run : CallbackRun rmf) (execution : Execution rmf)
    (outcome : Except Exc Json) : Prop where
  posted : run.posts ≠ []
  accepted : outcome.isOk = true
  activity : run.handle.currentActivity = activityIdentifier execution

def Reported (uses : List ExecutionUse) : Prop := ∃ method, .call method ∈ uses

/-- Exactly one of the two has happened to the command of a callback that returns. -/
def Settles (run : CallbackRun rmf) (execution : Execution rmf) (outcome : Except Exc Json)
    (uses : List ExecutionUse) : Prop :=
  run.result = .ok () → Xor (Accepted run execution outcome) (Reported uses)

theorem not_reported_sendUses (execution : Execution rmf) (outcome : Except Exc Json) :
    ¬ Reported (sendUses execution outcome) := by
  rintro ⟨method, hcall⟩
  cases outcome with
  | error e => exact absurd hcall List.not_mem_nil
  | ok body =>
    unfold sendUses activityIdentifierUses at hcall
    dsimp only at hcall
    split_ifs at hcall <;> simp at hcall

theorem send_settles_iff (h : RobotHandle rmf) (p : CommandPost) (execution : Execution rmf)
    (outcome : Except Exc Json) :
    Settles (send h (h.setCurrentActivity (activityIdentifier execution)) p outcome) execution
        outcome (sendUses execution outcome) ↔
      ∀ e, outcome = .error e → e.isQuikSync = false := by
  have hsilent := not_reported_sendUses execution outcome
  cases outcome with
  | ok body =>
    refine iff_of_true (fun _ => Or.inl ⟨⟨?_, rfl, rfl⟩, hsilent⟩) fun e he => nomatch he
    exact List.cons_ne_nil p []
  | error e =>
    constructor
    · intro hsettles e' he'
      obtain rfl := Except.error.inj he'
      by_contra hkind
      have hreturns := (send_returns_iff h (h.setCurrentActivity (activityIdentifier execution)) p
        (.error e)).mpr fun e' he' => by
          obtain rfl := Except.error.inj he'
          exact Bool.eq_true_of_not_eq_false hkind
      rcases hsettles hreturns with ⟨haccepted, -⟩ | ⟨hreported, -⟩
      · exact Bool.false_ne_true haccepted.accepted
      · exact hsilent hreported
    · intro hother hreturns
      have hkind := (send_returns_iff h _ p (.error e)).mp hreturns e rfl
      rw [hother e rfl] at hkind
      exact absurd hkind Bool.false_ne_true

/-- A returning callback has its command accepted or reported exactly when the destination is
not refused and the POST does not end in one of the three caught exceptions. -/
theorem commands_settle_iff (c : CallbackScope) (h : RobotHandle rmf) (destination : Destination)
    (execution : Execution rmf) (executionId category : String) (description : Json)
    (outcome : Except Exc Json) :
    (Settles (c.navigate h destination execution executionId outcome) execution outcome
        (c.navigateUses destination execution executionId outcome) ↔
      extractDestination destination ≠ .ok none ∧
        ∀ p, c.navigatePost destination executionId = .ok (some p) →
          ∀ e, outcome = .error e → e.isQuikSync = false) ∧
    (Settles (c.actionExecutor h category description execution executionId outcome) execution
        outcome (CallbackScope.actionExecutorUses execution outcome) ↔
      ∀ e, outcome = .error e → e.isQuikSync = false) := by
  refine ⟨?_, send_settles_iff h _ execution outcome⟩
  unfold CallbackScope.navigateUses CallbackScope.navigate
  cases hread : extractDestination destination with
  | error e =>
    rw [navigatePost_of_error hread]
    exact iff_of_true (fun hres => by simp at hres) ⟨by simp, fun p hp => by simp at hp⟩
  | ok o =>
    cases o with
    | none =>
      refine iff_of_false (fun hsettles => ?_) fun hgood => hgood.1 rfl
      rw [navigatePost_of_none hread] at hsettles
      rcases hsettles rfl with ⟨haccepted, -⟩ | ⟨⟨method, hcall⟩, -⟩
      · exact haccepted.posted rfl
      · exact absurd hcall List.not_mem_nil
    | some body =>
      rw [navigatePost_of_some hread]
      cases hspeed : speedLimit destination with
      | error e =>
        exact iff_of_true (fun hres => by simp at hres)
          ⟨by simp, fun p hp => by simp [Except.map] at hp⟩
      | ok limit =>
        refine (send_settles_iff h _ execution outcome).trans ⟨fun hall => ?_, fun hall => ?_⟩
        · exact ⟨fun hno => by simp at hno, fun p _ => hall⟩
        · exact hall.2 _ rfl

/-- A 400 with its diagnostic is neither accepted nor reported. -/
theorem rejected_command_lost :
    ¬ ∀ (rmf : RmfAdapter) (c : CallbackScope) (h : RobotHandle rmf) (destination : Destination)
        (execution : Execution rmf) (executionId category : String) (description : Json)
        (outcome : Except Exc Json),
      Settles (c.navigate h destination execution executionId outcome) execution outcome
          (c.navigateUses destination execution executionId outcome) ∧
        Settles (c.actionExecutor h category description execution executionId outcome) execution
          outcome (CallbackScope.actionExecutorUses execution outcome) := by
  intro h
  have haction := (h plainRmf ⟨"fleet", "r1", none⟩ (.new plainRmf "r1")
    ⟨.null, none, .null, .null⟩ ⟨some "clean-1", none, none⟩ "x" "clean" (.obj [])
    (.error (.quikSyncClientError 400 (.str "unknown_category") .null))).2
  have hkind := (send_settles_iff _ _ _ _).mp haction _ rfl
  exact Bool.false_ne_true hkind.symm

end QuikSync.Fleet
