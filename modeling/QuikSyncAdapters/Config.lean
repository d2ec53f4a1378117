import QuikSyncAdapters.Client.Ws
import QuikSyncAdapters.Library.Fallible
import Mathlib.Data.List.Nodup

/-! The configuration of the three adapters: what `from_dict` accepts, and the clients that are
built from an accepted configuration. -/

namespace QuikSync

open Client Py Fallible

inductive LoadError where
  | configError (message : String)
  | builtin (e : Py.Error)
  | osError
  -- `httpx` refuses the base URL
  | invalidUrl

/-- What the path of a secret file leads to; `shown` is the path as `Path` prints it. -/
inductive SecretFile where
  | missing (shown : String)
  | unreadable
  | text (content : String)

/-- What loading finds outside the configuration. -/
structure LoadEnv where
  secretFile : String → SecretFile
  repr : Json → String
  acceptsUrl : String → Bool

/-! ### Python strings -/

/-- The characters that `str.strip` removes. -/
def isSpace (c : Char) : Bool := isNumericSpace c || decide (0x1c ≤ c.toNat ∧ c.toNat ≤ 0x1f)

def strip (s : String) : String :=
  String.ofList ((s.toList.dropWhile isSpace).reverse.dropWhile isSpace).reverse

def LoadEnv.reprSorted (env : LoadEnv) (keys : List String) : String :=
  env.repr (.arr ((keys.mergeSort fun a b => decide (a ≤ b)).map .str))

def setItem (d : Dict) (key : String) (v : Json) : Dict :=
  if (d.lookup key).isSome then d.map fun p => if p.1 = key then (key, v) else p
  else d ++ [(key, v)]

def getOr (d : Dict) (key : String) (default : Json) : Json := (d.lookup key).getD default

theorem lookup_cons_ne {d : Dict} {k other : String} (w : Json) (h : other ≠ k) :
    List.lookup other ((k, w) :: d) = d.lookup other := by
  rw [List.lookup_cons, beq_eq_false_iff_ne.mpr h]

theorem lookup_map_key (d : Dict) (key : String) (v : Json) (other : String) :
    (d.map fun p => if p.1 = key then (key, v) else p).lookup other =
      if other = key then (d.lookup other).map fun _ => v else d.lookup other := by
  induction d with
  | nil => simp
  | cons p d ih =>
    obtain ⟨k, w⟩ := p
    rw [List.map_cons]
    by_cases hother : other = k
    · subst hother
      by_cases hk : other = key
      · simp [hk]
      · simp [hk]
    · rw [lookup_cons_ne w hother, ← ih]
      by_cases hk : k = key
      · subst hk
        rw [if_pos rfl, lookup_cons_ne v hother]
      · rw [if_neg hk, lookup_cons_ne w hother]

theorem lookup_setItem (d : Dict) (key : String) (v : Json) (other : String) :
    (setItem d key v).lookup other = if other = key then some v else d.lookup other := by
  unfold setItem
  by_cases hthere : (d.lookup key).isSome = true
  · rw [if_pos hthere, lookup_map_key]
    by_cases hother : other = key
    · obtain ⟨w, hw⟩ := Option.isSome_iff_exists.mp hthere
      rw [if_pos hother, if_pos hother, hother, hw, Option.map_some]
    · rw [if_neg hother, if_neg hother]
  · have hnone : d.lookup key = none := Option.not_isSome_iff_eq_none.mp hthere
    rw [if_neg hthere, List.lookup_append]
    by_cases hother : other = key
    · rw [if_pos hother, hother, hnone, List.lookup_cons_self, Option.none_or]
    · rw [if_neg hother, lookup_cons_ne v hother, List.lookup_nil, Option.or_none]

theorem lookup_remove (d : Dict) (key other : String) :
    (d.filter fun p => p.1 != key).lookup other = if other = key then none else d.lookup other := by
  induction d with
  | nil => simp
  | cons p d ih =>
    obtain ⟨k, w⟩ := p
    rw [List.filter_cons]
    by_cases hk : k = key
    · subst hk
      rw [if_neg (by simp), ih]
      by_cases hother : other = k
      · rw [if_pos hother, if_pos hother]
      · rw [if_neg hother, if_neg hother, lookup_cons_ne w hother]
    · rw [if_pos (by simpa using hk)]
      by_cases hother : other = k
      · subst hother
        rw [if_neg hk, List.lookup_cons_self, List.lookup_cons_self]
      · rw [lookup_cons_ne w hother, lookup_cons_ne w hother, ih]

def resolveSecret (env : LoadEnv) (data : Dict) : Except LoadError Dict :=
  match data.lookup "auth0_client_secret_file" with
  | none => .ok data
  | some (.str path) =>
    match env.secretFile path with
    | .missing shown => .error (.configError s!"auth0_client_secret_file not found: {shown}")
    | .unreadable => .error .osError
    | .text content =>
      .ok (setItem (data.filter fun p => p.1 != "auth0_client_secret_file") "auth0_client_secret"
        (.str (strip content)))
  | some _ => .error (.builtin .typeError)

def rejectUnknown (env : LoadEnv) (known : List String) (data : Dict) : Except LoadError Unit :=
  let unknown := (data.map Prod.fst).filter fun key => !known.contains key
  if unknown = [] then .ok ()
  else .error (.configError s!"unknown config keys: {env.reprSorted unknown}")

def coerceNumeric (env : LoadEnv) (data : Dict) (numeric : String) : Except LoadError Dict :=
  match data.lookup numeric with
  | some (.str s) =>
    match floatOfString s with
    | .ok x => .ok (setItem data numeric (.float x))
    | .error _ => .error (.configError s!"{numeric} must be a number; got {env.repr (.str s)}")
  | _ => .ok data

def requireFields (env : LoadEnv) (required : List String) (data : Dict) : Except LoadError Unit :=
  let missing := required.filter fun key => (data.lookup key).isNone
  if missing = [] then .ok ()
  else .error (.configError s!"missing required config fields: {env.reprSorted missing}")

/-! ### Lists of identifiers -/

def firstDuplicate (seen : List String) : List String → Option String
  | [] => none
  | s :: rest => if s ∈ seen then some s else firstDuplicate (s :: seen) rest

theorem firstDuplicate_eq_none {seen items : List String} :
    firstDuplicate seen items = none ↔ items.Nodup ∧ ∀ s ∈ items, s ∉ seen := by
  induction items generalizing seen with
  | nil => simp [firstDuplicate]
  | cons s rest ih =>
    unfold firstDuplicate
    split_ifs with hseen
    · simp [hseen]
    · rw [ih, List.nodup_cons, List.forall_mem_cons]
      simp only [List.mem_cons, not_or]
      constructor
      · rintro ⟨hnodup, hrest⟩
        exact ⟨⟨fun hs => (hrest s hs).1 rfl, hnodup⟩, hseen, fun t ht => (hrest t ht).2⟩
      · rintro ⟨⟨hs, hnodup⟩, -, hrest⟩
        exact ⟨hnodup, fun t ht => ⟨fun hts => hs (hts ▸ ht), hrest t ht⟩⟩

structure IdList where
  ids : List String
  nonempty : ids ≠ []
  named : "" ∉ ids
  nodup : ids.Nodup

/-- `type(v).__name__`. -/
def typeName : Json → String
  | .null => "NoneType"
  | .bool _ => "bool"
  | .int _ => "int"
  | .float _ => "float"
  | .str _ => "str"
  | .arr _ => "list"
  | .obj _ => "dict"

def idEntries (env : LoadEnv) (fieldName : String) : Json → Except LoadError (List String)
  | .str s =>
    .ok (((s.toList.splitOn ',').map fun piece => strip (String.ofList piece)).filter (· != ""))
  | .arr items => .ok (items.map fun item => strip (item.text env.repr))
  | raw =>
    .error (.configError
      s!"{fieldName} must be a list or comma-separated string; got {typeName raw}")

def normaliseIdList (env : LoadEnv) (fieldName : String) (raw : Json) : Except LoadError IdList :=
  match idEntries env fieldName raw with
  | .error e => .error e
  | .ok items =>
    if hempty : items = [] then
      .error (.configError s!"{fieldName} must contain at least one entry")
    else if hblank : "" ∈ items then
      .error (.configError s!"{fieldName} contains an empty entry")
    else
      match hduplicate : firstDuplicate [] items with
      | some s =>
        .error (.configError s!"{fieldName} contains duplicate entry: {env.repr (.str s)}")
      | none => .ok ⟨items, hempty, hblank, (firstDuplicate_eq_none.mp hduplicate).1⟩

/-! ### The dataclasses -/

/-- The fields that the three adapters share; `scope` is the `namespace`. The dataclasses do
not check the types of their fields. -/
structure ConnectionConfig where
  baseUrl : Json
  auth0Tenant : Json
  auth0Audience : Json
  auth0ClientId : Json
  auth0ClientSecret : Json
  auth0Organization : Json
  stateSubscribeReconnectSeconds : Json
  scope : Json

def connectionFields : List String :=
  ["base_url", "auth0_tenant", "auth0_audience", "auth0_client_id", "auth0_client_secret",
    "auth0_organization", "state_subscribe_reconnect_seconds", "namespace"]

def requiredFields : List String :=
  ["base_url", "auth0_tenant", "auth0_audience", "auth0_client_id", "auth0_client_secret",
    "auth0_organization"]

def ConnectionConfig.ofFields (data : Dict) : ConnectionConfig where
  baseUrl := Dict.get data "base_url"
  auth0Tenant := Dict.get data "auth0_tenant"
  auth0Audience := Dict.get data "auth0_audience"
  auth0ClientId := Dict.get data "auth0_client_id"
  auth0ClientSecret := Dict.get data "auth0_client_secret"
  auth0Organization := Dict.get data "auth0_organization"
  stateSubscribeReconnectSeconds :=
    getOr data "state_subscribe_reconnect_seconds" (.float (.finite 1))
  scope := Dict.get data "namespace"

structure FleetAdapterConfig extends ConnectionConfig where
  fleetName : Json
  updateIntervalSeconds : Json
  dynamicMode : Json

structure DoorAdapterConfig extends ConnectionConfig where
  doors : List String
  doorStatesTopic : Json
  doorRequestsTopic : Json

structure LiftAdapterConfig extends ConnectionConfig where
  lifts : List String
  sessionTtlSeconds : Json
  liftStatesTopic : Json
  liftRequestsTopic : Json

/-- What the three `from_dict` do alike: the class has `fieldNames`, of which `required` have
no default, coerces `numeric`, and coerces or reads further fields with `own`. -/
def checkedFields {α : Type} (env : LoadEnv) (fieldNames numeric required : List String)
    (own : Dict → Except LoadError α) (data : Dict) : Except LoadError (Dict × α) := do
  let data ← resolveSecret env data
  rejectUnknown env fieldNames data
  let data ← numeric.foldlM (coerceNumeric env) data
  let a ← own data
  requireFields env required data
  pure (data, a)

theorem checkedFields_ok {α : Type} {env : LoadEnv} {fieldNames numeric required : List String}
    {own : Dict → Except LoadError α} {data data' : Dict} {a : α}
    (h : checkedFields env fieldNames numeric required own data = .ok (data', a)) :
    own data' = .ok a ∧ ∀ key ∈ required, (data'.lookup key).isSome = true := by
  unfold checkedFields at h
  obtain ⟨_, -, h⟩ := bind_eq_ok.mp h
  obtain ⟨_, -, h⟩ := bind_eq_ok.mp h
  obtain ⟨checked, -, h⟩ := bind_eq_ok.mp h
  obtain ⟨b, hown, h⟩ := bind_eq_ok.mp h
  obtain ⟨_, hrequired, h⟩ := bind_eq_ok.mp h
  obtain ⟨rfl, rfl⟩ := Prod.mk.inj (Except.ok.inj h)
  refine ⟨hown, fun key hkey => ?_⟩
  unfold requireFields at hrequired
  dsimp only at hrequired
  split at hrequired
  · rename_i hmissing
    have hpresent := List.filter_eq_nil_iff.mp hmissing key hkey
    simpa using hpresent
  · exact nomatch hrequired

def coerceDynamicMode (data : Dict) : Json :=
  match getOr data "dynamic_mode" (.bool false) with
  | .str s =>
    let word := String.ofList ((strip s).toList.map Char.toLower)
    .bool (["1", "true", "yes", "on"].contains word)
  | v => v

def FleetAdapterConfig.fromDict (env : LoadEnv) (data : Dict) :
    Except LoadError FleetAdapterConfig := do
  let (data, dynamicMode) ← checkedFields env
    (connectionFields ++ ["fleet_name", "update_interval_seconds", "dynamic_mode"])
    ["update_interval_seconds", "state_subscribe_reconnect_seconds"]
    (requiredFields ++ ["fleet_name"]) (fun data => pure (coerceDynamicMode data)) data
  pure {
    ConnectionConfig.ofFields data with
    fleetName := Dict.get data "fleet_name"
    updateIntervalSeconds := getOr data "update_interval_seconds" (.float (.finite (1 / 2)))
    dynamicMode }

def readIdList (env : LoadEnv) (fieldName : String) (data : Dict) :
    Except LoadError (List String) :=
  match data.lookup fieldName with
  | some raw => (normaliseIdList env fieldName raw).map IdList.ids
  | none => pure []

theorem readIdList_ne_nil {env : LoadEnv} {fieldName : String} {data : Dict} {ids : List String}
    (h : readIdList env fieldName data = .ok ids) (hthere : (data.lookup fieldName).isSome = true) :
    ids ≠ [] := by
  unfold readIdList at h
  split at h
  · obtain ⟨list, -, rfl⟩ := map_eq_ok.mp h
    exact list.nonempty
  · rename_i hnone
    rw [hnone] at hthere
    exact nomatch hthere

def DoorAdapterConfig.fromDict (env : LoadEnv) (data : Dict) :
    Except LoadError DoorAdapterConfig := do
  let (data, doors) ← checkedFields env
    (connectionFields ++ ["doors", "door_states_topic", "door_requests_topic"])
    ["state_subscribe_reconnect_seconds"] (requiredFields ++ ["doors"]) (readIdList env "doors")
    data
  pure {
    ConnectionConfig.ofFields data with
    doors
    doorStatesTopic := getOr data "door_states_topic" (.str "door_states")
    doorRequestsTopic := getOr data "door_requests_topic" (.str "door_requests") }

theorem doors_ne_nil {env : LoadEnv} {data : Dict} {config : DoorAdapterConfig}
    (h : DoorAdapterConfig.fromDict env data = .ok config) : config.doors ≠ [] := by
  unfold DoorAdapterConfig.fromDict at h
  obtain ⟨⟨checked, doors⟩, hchecked, h⟩ := bind_eq_ok.mp h
  obtain rfl := Except.ok.inj h
  obtain ⟨hdoors, hrequired⟩ := checkedFields_ok hchecked
  exact readIdList_ne_nil hdoors (hrequired "doors" (by decide))

def LiftAdapterConfig.fromDict (env : LoadEnv) (data : Dict) :
    Except LoadError LiftAdapterConfig := do
  let (data, lifts) ← checkedFields env
    (connectionFields ++ ["lifts", "session_ttl_seconds", "lift_states_topic",
      "lift_requests_topic"])
    ["state_subscribe_reconnect_seconds", "session_ttl_seconds"] (requiredFields ++ ["lifts"])
    (readIdList env "lifts") data
  pure {
    ConnectionConfig.ofFields data with
    lifts
    sessionTtlSeconds := getOr data "session_ttl_seconds" (.float (.finite 3600))
    liftStatesTopic := getOr data "lift_states_topic" (.str "lift_states")
    liftRequestsTopic := getOr data "lift_requests_topic" (.str "lift_requests") }

theorem lifts_ne_nil {env : LoadEnv} {data : Dict} {config : LiftAdapterConfig}
    (h : LiftAdapterConfig.fromDict env data = .ok config) : config.lifts ≠ [] := by
  unfold LiftAdapterConfig.fromDict at h
  obtain ⟨⟨checked, lifts⟩, hchecked, h⟩ := bind_eq_ok.mp h
  obtain rfl := Except.ok.inj h
  obtain ⟨hlifts, hrequired⟩ := checkedFields_ok hchecked
  exact readIdList_ne_nil hlifts (hrequired "lifts" (by decide))

/-! ### Clients -/

/-- What `AuthConfig` is called with, the values as they stand in the configuration. -/
structure AuthSettings where
  tenant : Json
  audience : Json
  clientId : Json
  clientSecret : Json
  organization : Json

structure Clients where
  auth : AuthSettings
  http : HttpConfig
  ws : QuikSyncWsClient

namespace ConnectionConfig

def afterPrefix (text start : String) : Option String :=
  if start.toList.isPrefixOf text.toList then
    some (String.ofList (text.toList.drop start.toList.length))
  else none

def wsBaseUrl (env : LoadEnv) (config : ConnectionConfig) : Except LoadError String :=
  match config.baseUrl with
  | .str baseUrl =>
    match afterPrefix baseUrl "https://", afterPrefix baseUrl "http://" with
    | some rest, _ => .ok ("wss://" ++ rest)
    | none, some rest => .ok ("ws://" ++ rest)
    | none, none =>
      .error (.configError s!"base_url must start with http(s)://; got {env.repr config.baseUrl}")
  | _ => .error (.builtin .attributeError)

def buildHttp (env : LoadEnv) (config : ConnectionConfig) : Except LoadError HttpConfig :=
  match config.baseUrl with
  | .str baseUrl => if env.acceptsUrl baseUrl then .ok { baseUrl } else .error .invalidUrl
  | _ => .error (.builtin .typeError)

/-- `build_clients`, which is the same in the three adapters. -/
def buildClients (env : LoadEnv) (config : ConnectionConfig) : Except LoadError Clients := do
  let auth := ⟨config.auth0Tenant, config.auth0Audience, config.auth0ClientId,
    config.auth0ClientSecret, config.auth0Organization⟩
  let http ← config.buildHttp env
  let baseUrl ← config.wsBaseUrl env
  pure ⟨auth, http, .new { baseUrl }⟩

end ConnectionConfig

inductive Adapter where
  | fleet
  | door
  | lift

def Adapter.load (env : LoadEnv) (data : Dict) : Adapter → Except LoadError ConnectionConfig
  | fleet => (FleetAdapterConfig.fromDict env data).map (·.toConnectionConfig)
  | door => (DoorAdapterConfig.fromDict env data).map (·.toConnectionConfig)
  | lift => (LiftAdapterConfig.fromDict env data).map (·.toConnectionConfig)

/-- `main` up to the clients. -/
def Adapter.startUp (a : Adapter) (env : LoadEnv) (data : Dict) :
    Except LoadError (ConnectionConfig × Clients) := do
  let config ← a.load env data
  let clients ← config.buildClients env
  pure (config, clients)

theorem startUp_ok {a : Adapter} {env : LoadEnv} {data : Dict} {config : ConnectionConfig}
    {clients : Clients} (h : a.startUp env data = .ok (config, clients)) :
    a.load env data = .ok config ∧ config.buildClients env = .ok clients := by
  unfold Adapter.startUp at h
  obtain ⟨loaded, hload, h⟩ := bind_eq_ok.mp h
  obtain ⟨built, hbuilt, h⟩ := bind_eq_ok.mp h
  obtain ⟨rfl, rfl⟩ := Prod.mk.inj (Except.ok.inj h)
  exact ⟨hload, hbuilt⟩

end QuikSync
