import QuikSyncAdapters.Config

/-! The fleet configuration that a YAML file gives: the nested and the flat form, which blocks
`from_dict` accepts, and when the mode that is read agrees with the blocks that are there. -/

namespace QuikSync

open Py Fallible

inductive KeyKind where
  | text
  | null
  | number
  | date
  | localTime
  | zonedTime
  | binary
  deriving DecidableEq

def fleetFields : List String :=
  connectionFields ++ ["fleet_name", "update_interval_seconds", "dynamic_mode"]

def fleetNumbers : List String := ["update_interval_seconds", "state_subscribe_reconnect_seconds"]

/-- Loading a YAML file. A document is the JSON value of its shape: a timestamp, a set and binary
data stand as lists, from which the loader does not tell them, and a key that is no string stands
under a name of its own, whose kind is `keyKind`, the names in the order of the keys. -/
structure YamlEnv extends LoadEnv where
  keyKind : String → KeyKind
  keyKind_read :
    ∀ key ∈ ["quiksync", "rmf_fleet", "name", "auth0_client_secret_file"] ++ fleetFields,
      keyKind key = .text

/-- `sorted` compares keys of one kind only. -/
def YamlEnv.sorts (env : YamlEnv) (keys : List String) : Bool :=
  keys.all fun key => keys.all fun other => env.keyKind key = env.keyKind other

def unknownKeys (known : List String) (data : Dict) : List String :=
  (data.map Prod.fst).filter fun key => !known.contains key

/-- `from_dict` of a mapping from YAML, whose unknown keys may be of kinds that cannot be sorted
for the message. -/
def FleetAdapterConfig.fromMapping (env : YamlEnv) (data : Dict) :
    Except LoadError FleetAdapterConfig := do
  let resolved ← resolveSecret env.toLoadEnv data
  if env.sorts (unknownKeys fleetFields resolved) then
    FleetAdapterConfig.fromDict env.toLoadEnv data
  else .error (.builtin .typeError)

def nameMismatch (rmfFleet : Json) (block : Dict) : Option (String × String) :=
  match rmfFleet with
  | .obj fleet =>
    match Dict.get fleet "name", Dict.get block "fleet_name" with
    | .str rmfName, .str quiksyncName =>
      if rmfName = quiksyncName then none else some (rmfName, quiksyncName)
    | _, _ => none
  | _ => none

def isNone : Json → Bool
  | .null => true
  | _ => false

/-- `d.setdefault(key, v)`. -/
def setDefault (d : Dict) (key : String) (v : Json) : Dict :=
  if (d.lookup key).isSome then d else d ++ [(key, v)]

/-- The YAML mode is asked for and there is nothing to feed it with. -/
def lacksFleet (rmfFleet : Json) (block : Dict) : Bool :=
  !(getOr block "dynamic_mode" (.bool false)).truthy && isNone rmfFleet

def FleetAdapterConfig.fromNested (env : YamlEnv) (rmfFleet : Json) (block : Dict) :
    Except LoadError FleetAdapterConfig :=
  if lacksFleet rmfFleet block then
    .error (.configError ("YAML mode (dynamic_mode=false) requires an `rmf_fleet:` block alongside " ++
      "`quiksync:` in the config file. Either add the block or set `quiksync.dynamic_mode: true`."))
  else
    match nameMismatch rmfFleet block with
    | some (rmfName, quiksyncName) =>
      .error (.configError (s!"fleet identifier mismatch: rmf_fleet.name={env.repr (.str rmfName)} vs " ++
        s!"quiksync.fleet_name={env.repr (.str quiksyncName)}. These must be equal so the adapter " ++
        "registers the same fleet it subscribes to."))
    | none => fromMapping env block

def FleetAdapterConfig.fromYaml (env : YamlEnv) (parsed : Json) :
    Except LoadError FleetAdapterConfig :=
  match parsed.orElse (.obj []) with
  | .obj data =>
    match data.lookup "quiksync" with
    | some (.obj block) => fromNested env (Dict.get data "rmf_fleet") block
    | _ => fromMapping env (setDefault data "dynamic_mode" (.bool true))
  | v => .error (.configError s!"config root must be a dict; got {typeName v}")

/-! ### What `from_dict` accepts -/

def SecretReadable (env : LoadEnv) (data : Dict) : Prop :=
  ∀ v, data.lookup "auth0_client_secret_file" = some v →
    ∃ path content, v = .str path ∧ env.secretFile path = .text content

def SecretBreaks (env : LoadEnv) (data : Dict) : Prop :=
  ∃ v, data.lookup "auth0_client_secret_file" = some v ∧
    ∀ path, v = .str path → env.secretFile path = .unreadable

structure Accepts (env : LoadEnv) (data : Dict) : Prop where
  secret : SecretReadable env data
  known : ∀ key, (data.lookup key).isSome = true → key ∈ "auth0_client_secret_file" :: fleetFields
  numbers : ∀ key ∈ fleetNumbers, ∀ s, data.lookup key = some (.str s) →
    ∃ x, floatOfString s = .ok x
  required : ∀ key ∈ requiredFields ++ ["fleet_name"], (data.lookup key).isSome = true ∨
    key = "auth0_client_secret" ∧ (data.lookup "auth0_client_secret_file").isSome = true

theorem resolveSecret_cases {env : LoadEnv} {data resolved : Dict}
    (h : resolveSecret env data = .ok resolved) :
    (data.lookup "auth0_client_secret_file" = none ∧ resolved = data) ∨
    ∃ path content, data.lookup "auth0_client_secret_file" = some (.str path) ∧
      env.secretFile path = .text content ∧
      resolved = setItem (data.filter fun p => p.1 != "auth0_client_secret_file")
        "auth0_client_secret" (.str (strip content)) := by
  unfold resolveSecret at h
  split at h
  · rename_i hfile
    exact .inl ⟨hfile, (Except.ok.inj h).symm⟩
  · rename_i path hfile
    split at h
    · cases h
    · cases h
    · rename_i content hcontent
      exact .inr ⟨path, content, hfile, hcontent, (Except.ok.inj h).symm⟩
  · cases h

theorem resolveSecret_lookup {env : LoadEnv} {data resolved : Dict}
    (h : resolveSecret env data = .ok resolved) {key : String}
    (hfile : key ≠ "auth0_client_secret_file") (hsecret : key ≠ "auth0_client_secret") :
    resolved.lookup key = data.lookup key := by
  rcases resolveSecret_cases h with ⟨-, rfl⟩ | ⟨path, content, -, -, rfl⟩
  · rfl
  · rw [lookup_setItem, if_neg hsecret, lookup_remove, if_neg hfile]

theorem resolveSecret_file {env : LoadEnv} {data resolved : Dict}
    (h : resolveSecret env data = .ok resolved) :
    resolved.lookup "auth0_client_secret_file" = none := by
  rcases resolveSecret_cases h with ⟨hfile, rfl⟩ | ⟨path, content, -, -, rfl⟩
  · exact hfile
  · rw [lookup_setItem, if_neg (by decide), lookup_remove, if_pos rfl]

theorem resolveSecret_secret {env : LoadEnv} {data resolved : Dict}
    (h : resolveSecret env data = .ok resolved) :
    (resolved.lookup "auth0_client_secret").isSome = true ↔
      (data.lookup "auth0_client_secret").isSome = true ∨
        (data.lookup "auth0_client_secret_file").isSome = true := by
  rcases resolveSecret_cases h with ⟨hfile, rfl⟩ | ⟨path, content, hfile, -, rfl⟩
  · simp [hfile]
  · rw [lookup_setItem, if_pos rfl, hfile]
    simp

theorem resolveSecret_ok_iff {env : LoadEnv} {data : Dict} :
    (∃ resolved, resolveSecret env data = .ok resolved) ↔ SecretReadable env data := by
  constructor
  · rintro ⟨resolved, h⟩ v hv
    rcases resolveSecret_cases h with ⟨hfile, -⟩ | ⟨path, content, hfile, hcontent, -⟩
    · rw [hfile] at hv
      cases hv
    · rw [hfile] at hv
      exact ⟨path, content, (Option.some.inj hv).symm, hcontent⟩
  · intro h
    unfold resolveSecret
    cases hfile : data.lookup "auth0_client_secret_file" with
    | none => exact ⟨data, rfl⟩
    | some v =>
      obtain ⟨path, content, rfl, hcontent⟩ := h v hfile
      dsimp only
      rw [hcontent]
      exact ⟨_, rfl⟩

/-- The errors of the configuration; the others leave `from_yaml` as they are. -/
def LoadError.IsConfigError (e : LoadError) : Prop := ∃ message, e = .configError message

theorem resolveSecret_error {env : LoadEnv} {data : Dict} {e : LoadError}
    (h : resolveSecret env data = .error e) : ¬ e.IsConfigError ↔ SecretBreaks env data := by
  unfold resolveSecret at h
  split at h
  · cases h
  · rename_i path hfile
    split at h
    · rename_i shown hmissing
      obtain rfl := Except.error.inj h
      constructor
      · intro hnot
        exact absurd ⟨_, rfl⟩ hnot
      · rintro ⟨v, hv, hpath⟩
        rw [hfile] at hv
        have hunreadable := hpath path (Option.some.inj hv).symm
        rw [hmissing] at hunreadable
        cases hunreadable
    · rename_i hunreadable
      obtain rfl := Except.error.inj h
      constructor
      · intro _
        refine ⟨_, hfile, fun other hother => ?_⟩
        rw [← Json.str.inj hother, hunreadable]
      · rintro - ⟨message, hmessage⟩
        cases hmessage
    · cases h
  · rename_i v hnopath hfile
    obtain rfl := Except.error.inj h
    constructor
    · intro _
      refine ⟨v, hfile, fun path hpath => ?_⟩
      exact absurd hpath (hnopath path)
    · rintro - ⟨message, hmessage⟩
      cases hmessage

theorem rejectUnknown_ok_iff {env : LoadEnv} {known : List String} {data : Dict} :
    rejectUnknown env known data = .ok () ↔ unknownKeys known data = [] := by
  unfold rejectUnknown unknownKeys
  dsimp only
  split_ifs with hunknown
  · exact iff_of_true rfl hunknown
  · exact iff_of_false (fun h => by cases h) hunknown

theorem requireFields_ok_iff {env : LoadEnv} {required : List String} {data : Dict} :
    requireFields env required data = .ok () ↔
      ∀ key ∈ required, (data.lookup key).isSome = true := by
  unfold requireFields
  dsimp only
  split_ifs with hmissing
  · rw [List.filter_eq_nil_iff] at hmissing
    simpa using hmissing
  · rw [List.filter_eq_nil_iff] at hmissing
    simpa using hmissing

theorem coerceNumeric_ok_iff {env : LoadEnv} {data : Dict} {numeric : String} :
    (∃ coerced, coerceNumeric env data numeric = .ok coerced) ↔
      ∀ s, data.lookup numeric = some (.str s) → ∃ x, floatOfString s = .ok x := by
  unfold coerceNumeric
  split
  · rename_i s hs
    split
    · rename_i x hx
      refine ⟨fun _ t ht => ?_, fun _ => ⟨_, rfl⟩⟩
      rw [hs] at ht
      rw [← Json.str.inj (Option.some.inj ht)]
      exact ⟨x, hx⟩
    · rename_i e he
      constructor
      · rintro ⟨coerced, h⟩
        cases h
      · intro h
        obtain ⟨x, hx⟩ := h s hs
        rw [he] at hx
        cases hx
  · rename_i hno
    exact ⟨fun _ s hs => absurd hs (hno s), fun _ => ⟨data, rfl⟩⟩

theorem coerceNumeric_lookup {env : LoadEnv} {data coerced : Dict} {numeric : String}
    (h : coerceNumeric env data numeric = .ok coerced) (key : String) :
    (key ≠ numeric → coerced.lookup key = data.lookup key) ∧
      (coerced.lookup key).isSome = (data.lookup key).isSome := by
  unfold coerceNumeric at h
  split at h
  · rename_i s hs
    split at h
    · obtain rfl := Except.ok.inj h
      rw [lookup_setItem]
      by_cases hkey : key = numeric
      · rw [if_pos hkey, hkey, hs]
        exact ⟨fun hne => absurd rfl hne, rfl⟩
      · rw [if_neg hkey]
        exact ⟨fun _ => rfl, rfl⟩
    · cases h
  · obtain rfl := Except.ok.inj h
    exact ⟨fun _ => rfl, rfl⟩

theorem coerceNumbers_lookup {env : LoadEnv} {numbers : List String} {data coerced : Dict}
    (h : numbers.foldlM (coerceNumeric env) data = .ok coerced) (key : String) :
    (key ∉ numbers → coerced.lookup key = data.lookup key) ∧
      (coerced.lookup key).isSome = (data.lookup key).isSome := by
  induction numbers generalizing data with
  | nil =>
    obtain rfl := Except.ok.inj h
    exact ⟨fun _ => rfl, rfl⟩
  | cons numeric numbers ih =>
    obtain ⟨next, hnext, hrest⟩ := bind_eq_ok.mp h
    have hstep := coerceNumeric_lookup hnext key
    have hrun := ih hrest
    constructor
    · intro hkey
      rw [List.mem_cons, not_or] at hkey
      exact (hrun.1 hkey.2).trans (hstep.1 hkey.1)
    · exact hrun.2.trans hstep.2

theorem coerceNumbers_ok_iff {env : LoadEnv} {numbers : List String} (hnodup : numbers.Nodup)
    {data : Dict} :
    (∃ coerced, numbers.foldlM (coerceNumeric env) data = .ok coerced) ↔
      ∀ key ∈ numbers, ∀ s, data.lookup key = some (.str s) → ∃ x, floatOfString s = .ok x := by
  induction numbers generalizing data with
  | nil => exact ⟨fun _ key hkey => absurd hkey List.not_mem_nil, fun _ => ⟨data, rfl⟩⟩
  | cons numeric numbers ih =>
    obtain ⟨hnew, hnodup⟩ := List.nodup_cons.mp hnodup
    have hlater : ∀ {next : Dict}, coerceNumeric env data numeric = .ok next →
        ∀ key ∈ numbers, next.lookup key = data.lookup key := by
      intro next hnext key hkey
      exact (coerceNumeric_lookup hnext key).1 fun heq => hnew (heq ▸ hkey)
    rw [List.forall_mem_cons, ← @coerceNumeric_ok_iff env]
    constructor
    · rintro ⟨coerced, h⟩
      obtain ⟨next, hnext, hrest⟩ := bind_eq_ok.mp h
      refine ⟨⟨next, hnext⟩, fun key hkey => ?_⟩
      rw [← hlater hnext key hkey]
      exact (ih hnodup).mp ⟨coerced, hrest⟩ key hkey
    · rintro ⟨⟨next, hnext⟩, hrest⟩
      have hnumbers : ∀ key ∈ numbers, ∀ s, next.lookup key = some (.str s) →
          ∃ x, floatOfString s = .ok x := by
        intro key hkey
        rw [hlater hnext key hkey]
        exact hrest key hkey
      obtain ⟨coerced, hcoerced⟩ := (ih hnodup).mpr hnumbers
      exact ⟨coerced, bind_eq_ok.mpr ⟨next, hnext, hcoerced⟩⟩

theorem mem_unknownKeys {known : List String} {data : Dict} {key : String} :
    key ∈ unknownKeys known data ↔ (data.lookup key).isSome = true ∧ key ∉ known := by
  unfold unknownKeys
  rw [List.mem_filter, List.lookup_isSome_iff, List.mem_map]
  constructor
  · rintro ⟨⟨p, hp, rfl⟩, hknown⟩
    exact ⟨⟨p, hp, beq_self_eq_true p.1⟩, by simpa using hknown⟩
  · rintro ⟨⟨p, hp, hkey⟩, hknown⟩
    exact ⟨⟨p, hp, (eq_of_beq hkey).symm⟩, by simpa using hknown⟩

theorem fromDict_ok_iff {env : LoadEnv} {data : Dict} {config : FleetAdapterConfig} :
    FleetAdapterConfig.fromDict env data = .ok config ↔
      ∃ resolved coerced, resolveSecret env data = .ok resolved ∧
        unknownKeys fleetFields resolved = [] ∧
        fleetNumbers.foldlM (coerceNumeric env) resolved = .ok coerced ∧
        (∀ key ∈ requiredFields ++ ["fleet_name"], (coerced.lookup key).isSome = true) ∧
        config = { ConnectionConfig.ofFields coerced with
          fleetName := Dict.get coerced "fleet_name"
          updateIntervalSeconds :=
            getOr coerced "update_interval_seconds" (.float (.finite (1 / 2)))
          dynamicMode := coerceDynamicMode coerced } := by
  unfold FleetAdapterConfig.fromDict checkedFields
  rw [bind_eq_ok]
  constructor
  · rintro ⟨⟨checked, mode⟩, hchecked, h⟩
    obtain ⟨resolved, hresolved, hchecked⟩ := bind_eq_ok.mp hchecked
    obtain ⟨⟨⟩, hknown, hchecked⟩ := bind_eq_ok.mp hchecked
    obtain ⟨coerced, hcoerced, hchecked⟩ := bind_eq_ok.mp hchecked
    obtain ⟨own, hown, hchecked⟩ := bind_eq_ok.mp hchecked
    obtain ⟨⟨⟩, hrequired, hchecked⟩ := bind_eq_ok.mp hchecked
    obtain ⟨rfl, rfl⟩ := Prod.mk.inj (Except.ok.inj hchecked)
    obtain rfl := Except.ok.inj hown
    exact ⟨resolved, coerced, hresolved, rejectUnknown_ok_iff.mp hknown, hcoerced,
      requireFields_ok_iff.mp hrequired, (Except.ok.inj h).symm⟩
  · rintro ⟨resolved, coerced, hresolved, hknown, hcoerced, hrequired, rfl⟩
    refine ⟨(coerced, coerceDynamicMode coerced), ?_, rfl⟩
    refine bind_eq_ok.mpr ⟨resolved, hresolved, ?_⟩
    refine bind_eq_ok.mpr ⟨(), rejectUnknown_ok_iff.mpr hknown, ?_⟩
    refine bind_eq_ok.mpr ⟨coerced, hcoerced, ?_⟩
    refine bind_eq_ok.mpr ⟨coerceDynamicMode coerced, rfl, ?_⟩
    exact bind_eq_ok.mpr ⟨(), requireFields_ok_iff.mpr hrequired, rfl⟩

section Resolved

variable {env : LoadEnv} {data resolved : Dict} (hresolved : resolveSecret env data = .ok resolved)

include hresolved

theorem mem_unknownKeys_resolved {key : String} :
    key ∈ unknownKeys fleetFields resolved ↔
      (data.lookup key).isSome = true ∧ key ∉ "auth0_client_secret_file" :: fleetFields := by
  rw [mem_unknownKeys, List.mem_cons, not_or]
  by_cases hfile : key = "auth0_client_secret_file"
  · rw [hfile, resolveSecret_file hresolved]
    simp
  · by_cases hsecret : key = "auth0_client_secret"
    · have hknown : key ∈ fleetFields := by
        rw [hsecret]
        decide
      simp [hknown]
    · rw [resolveSecret_lookup hresolved hfile hsecret]
      simp [hfile]

theorem unknownKeys_resolved :
    unknownKeys fleetFields resolved = [] ↔ ∀ key, (data.lookup key).isSome = true →
      key ∈ "auth0_client_secret_file" :: fleetFields := by
  rw [List.eq_nil_iff_forall_not_mem]
  apply forall_congr'
  intro key
  rw [mem_unknownKeys_resolved hresolved, not_and, not_not]

theorem numbers_resolved :
    (∃ coerced, fleetNumbers.foldlM (coerceNumeric env) resolved = .ok coerced) ↔
      ∀ key ∈ fleetNumbers, ∀ s, data.lookup key = some (.str s) →
        ∃ x, floatOfString s = .ok x := by
  have hother : ∀ key ∈ fleetNumbers,
      key ≠ "auth0_client_secret_file" ∧ key ≠ "auth0_client_secret" := by decide
  rw [coerceNumbers_ok_iff (by decide)]
  apply forall₂_congr
  intro key hkey
  rw [resolveSecret_lookup hresolved (hother key hkey).1 (hother key hkey).2]

theorem required_resolved {coerced : Dict}
    (hcoerced : fleetNumbers.foldlM (coerceNumeric env) resolved = .ok coerced) :
    (∀ key ∈ requiredFields ++ ["fleet_name"], (coerced.lookup key).isSome = true) ↔
      ∀ key ∈ requiredFields ++ ["fleet_name"], (data.lookup key).isSome = true ∨
        key = "auth0_client_secret" ∧
          (data.lookup "auth0_client_secret_file").isSome = true := by
  have hother : ∀ key ∈ requiredFields ++ ["fleet_name"], key ≠ "auth0_client_secret_file" := by
    decide
  apply forall₂_congr
  intro key hkey
  rw [(coerceNumbers_lookup hcoerced key).2]
  by_cases hsecret : key = "auth0_client_secret"
  · rw [hsecret, resolveSecret_secret hresolved]
    simp
  · rw [resolveSecret_lookup hresolved (hother key hkey) hsecret]
    simp [hsecret]

theorem lookup_coerced {coerced : Dict}
    (hcoerced : fleetNumbers.foldlM (coerceNumeric env) resolved = .ok coerced) {key : String}
    (hkey : key ∉ "auth0_client_secret_file" :: "auth0_client_secret" :: fleetNumbers) :
    coerced.lookup key = data.lookup key := by
  simp only [List.mem_cons, not_or] at hkey
  obtain ⟨hfile, hsecret, hnumbers⟩ := hkey
  have hcoerce := (coerceNumbers_lookup hcoerced key).1 hnumbers
  exact hcoerce.trans (resolveSecret_lookup hresolved hfile hsecret)

end Resolved

theorem fromDict_accepts {env : LoadEnv} {data : Dict} :
    (∃ config, FleetAdapterConfig.fromDict env data = .ok config) ↔ Accepts env data := by
  constructor
  · rintro ⟨config, h⟩
    obtain ⟨resolved, coerced, hresolved, hknown, hcoerced, hrequired, -⟩ := fromDict_ok_iff.mp h
    exact {
      secret := resolveSecret_ok_iff.mp ⟨resolved, hresolved⟩
      known := (unknownKeys_resolved hresolved).mp hknown
      numbers := (numbers_resolved hresolved).mp ⟨coerced, hcoerced⟩
      required := (required_resolved hresolved hcoerced).mp hrequired }
  · intro h
    obtain ⟨resolved, hresolved⟩ := resolveSecret_ok_iff.mpr h.secret
    obtain ⟨coerced, hcoerced⟩ := (numbers_resolved hresolved).mpr h.numbers
    have hknown := (unknownKeys_resolved hresolved).mpr h.known
    have hrequired := (required_resolved hresolved hcoerced).mpr h.required
    exact ⟨_, fromDict_ok_iff.mpr ⟨resolved, coerced, hresolved, hknown, hcoerced, hrequired, rfl⟩⟩

theorem fromDict_fields {env : LoadEnv} {data : Dict} {config : FleetAdapterConfig}
    (h : FleetAdapterConfig.fromDict env data = .ok config) :
    config.dynamicMode = coerceDynamicMode data ∧
      config.fleetName = Dict.get data "fleet_name" := by
  obtain ⟨resolved, coerced, hresolved, -, hcoerced, -, rfl⟩ := fromDict_ok_iff.mp h
  have hmode : coerced.lookup "dynamic_mode" = data.lookup "dynamic_mode" :=
    lookup_coerced hresolved hcoerced (by decide)
  have hname : coerced.lookup "fleet_name" = data.lookup "fleet_name" :=
    lookup_coerced hresolved hcoerced (by decide)
  constructor
  · show coerceDynamicMode coerced = coerceDynamicMode data
    unfold coerceDynamicMode getOr
    rw [hmode]
  · show Dict.get coerced "fleet_name" = Dict.get data "fleet_name"
    unfold Dict.get
    rw [hname]

/-! ### Errors that are none of the configuration -/

def OnlyConfigErrors {α : Type} (x : Except LoadError α) : Prop :=
  ∀ e, x = .error e → e.IsConfigError

theorem onlyConfigErrors_ok {α : Type} (a : α) :
    OnlyConfigErrors (.ok a : Except LoadError α) := by
  intro e h
  cases h

theorem onlyConfigErrors_configError {α : Type} (message : String) :
    OnlyConfigErrors (.error (.configError message) : Except LoadError α) := by
  intro e h
  obtain rfl := Except.error.inj h
  exact ⟨message, rfl⟩

theorem OnlyConfigErrors.bind {α β : Type} {x : Except LoadError α} {f : α → Except LoadError β}
    (hx : OnlyConfigErrors x) (hf : ∀ a, OnlyConfigErrors (f a)) : OnlyConfigErrors (x >>= f) := by
  cases x with
  | error e =>
    intro e' h
    obtain rfl := Except.error.inj h
    exact hx e rfl
  | ok a => exact hf a

theorem rejectUnknown_errors (env : LoadEnv) (known : List String) (data : Dict) :
    OnlyConfigErrors (rejectUnknown env known data) := by
  unfold rejectUnknown
  dsimp only
  split_ifs
  · exact onlyConfigErrors_ok ()
  · exact onlyConfigErrors_configError _

theorem requireFields_errors (env : LoadEnv) (required : List String) (data : Dict) :
    OnlyConfigErrors (requireFields env required data) := by
  unfold requireFields
  dsimp only
  split_ifs
  · exact onlyConfigErrors_ok ()
  · exact onlyConfigErrors_configError _

theorem coerceNumeric_errors (env : LoadEnv) (data : Dict) (numeric : String) :
    OnlyConfigErrors (coerceNumeric env data numeric) := by
  unfold coerceNumeric
  split
  · split
    · exact onlyConfigErrors_ok _
    · exact onlyConfigErrors_configError _
  · exact onlyConfigErrors_ok _

theorem coerceNumbers_errors (env : LoadEnv) (numbers : List String) (data : Dict) :
    OnlyConfigErrors (numbers.foldlM (coerceNumeric env) data) := by
  induction numbers generalizing data with
  | nil => exact onlyConfigErrors_ok data
  | cons numeric numbers ih =>
    rw [List.foldlM_cons]
    exact (coerceNumeric_errors env data numeric).bind ih

theorem fromDict_errors {env : LoadEnv} {data resolved : Dict}
    (hresolved : resolveSecret env data = .ok resolved) :
    OnlyConfigErrors (FleetAdapterConfig.fromDict env data) := by
  unfold FleetAdapterConfig.fromDict checkedFields
  rw [hresolved]
  refine OnlyConfigErrors.bind ?_ fun _ => onlyConfigErrors_ok _
  show OnlyConfigErrors (rejectUnknown env _ resolved >>= _)
  refine (rejectUnknown_errors env _ resolved).bind fun _ => ?_
  refine (coerceNumbers_errors env _ resolved).bind fun coerced => ?_
  show OnlyConfigErrors (requireFields env _ coerced >>= _)
  exact (requireFields_errors env _ coerced).bind fun _ => onlyConfigErrors_ok _

def MixesKeys (env : YamlEnv) (data : Dict) : Prop :=
  ∃ key other, (data.lookup key).isSome = true ∧ (data.lookup other).isSome = true ∧
    key ∉ "auth0_client_secret_file" :: fleetFields ∧
    other ∉ "auth0_client_secret_file" :: fleetFields ∧ env.keyKind key ≠ env.keyKind other

theorem sorts_iff {env : YamlEnv} {keys : List String} :
    env.sorts keys = true ↔
      ∀ key ∈ keys, ∀ other ∈ keys, env.keyKind key = env.keyKind other := by
  unfold YamlEnv.sorts
  simp only [List.all_eq_true, decide_eq_true_eq]

theorem not_sorts_iff {env : YamlEnv} {data resolved : Dict}
    (hresolved : resolveSecret env.toLoadEnv data = .ok resolved) :
    ¬ env.sorts (unknownKeys fleetFields resolved) = true ↔ MixesKeys env data := by
  rw [sorts_iff]
  push Not
  constructor
  · rintro ⟨key, hkey, other, hother, hkinds⟩
    obtain ⟨hthere, hunknown⟩ := (mem_unknownKeys_resolved hresolved).mp hkey
    obtain ⟨hthere', hunknown'⟩ := (mem_unknownKeys_resolved hresolved).mp hother
    exact ⟨key, other, hthere, hthere', hunknown, hunknown', hkinds⟩
  · rintro ⟨key, other, hthere, hthere', hunknown, hunknown', hkinds⟩
    exact ⟨key, (mem_unknownKeys_resolved hresolved).mpr ⟨hthere, hunknown⟩, other,
      (mem_unknownKeys_resolved hresolved).mpr ⟨hthere', hunknown'⟩, hkinds⟩

def Breaks (env : YamlEnv) (data : Dict) : Prop :=
  SecretBreaks env.toLoadEnv data ∨ SecretReadable env.toLoadEnv data ∧ MixesKeys env data

theorem fromMapping_ok_iff {env : YamlEnv} {data : Dict} {config : FleetAdapterConfig} :
    FleetAdapterConfig.fromMapping env data = .ok config ↔
      FleetAdapterConfig.fromDict env.toLoadEnv data = .ok config := by
  unfold FleetAdapterConfig.fromMapping
  rw [bind_eq_ok]
  constructor
  · rintro ⟨resolved, -, h⟩
    split at h
    · exact h
    · cases h
  · intro h
    obtain ⟨resolved, -, hresolved, hknown, -⟩ := fromDict_ok_iff.mp h
    refine ⟨resolved, hresolved, ?_⟩
    have hsorts : env.sorts [] = true := rfl
    rw [hknown, if_pos hsorts]
    exact h

theorem fromMapping_errors_iff {env : YamlEnv} {data : Dict} :
    OnlyConfigErrors (FleetAdapterConfig.fromMapping env data) ↔ ¬ Breaks env data := by
  unfold FleetAdapterConfig.fromMapping Breaks
  cases hresolved : resolveSecret env.toLoadEnv data with
  | error e =>
    have hbreaks := resolveSecret_error hresolved
    have hunreadable : ¬ SecretReadable env.toLoadEnv data := by
      intro hreadable
      obtain ⟨resolved, h⟩ := resolveSecret_ok_iff.mpr hreadable
      rw [hresolved] at h
      cases h
    have hfails : OnlyConfigErrors (Except.error e : Except LoadError FleetAdapterConfig) ↔
        e.IsConfigError :=
      ⟨fun h => h e rfl, fun h e' he' => (Except.error.inj he') ▸ h⟩
    show OnlyConfigErrors (Except.error e : Except LoadError FleetAdapterConfig) ↔ _
    rw [hfails, ← hbreaks]
    simp [hunreadable]
  | ok resolved =>
    have hreadable : SecretReadable env.toLoadEnv data :=
      resolveSecret_ok_iff.mp ⟨resolved, hresolved⟩
    have hsecret : ¬ SecretBreaks env.toLoadEnv data := by
      rintro ⟨v, hv, hpath⟩
      obtain ⟨path, content, rfl, hcontent⟩ := hreadable v hv
      rw [hpath path rfl] at hcontent
      cases hcontent
    rw [← not_sorts_iff hresolved]
    show OnlyConfigErrors (if env.sorts (unknownKeys fleetFields resolved) = true then _ else _) ↔ _
    split_ifs with hsorts
    · exact iff_of_true (fromDict_errors hresolved) (by simp [hsecret, hsorts])
    · refine iff_of_false (fun h => ?_) (by simp [hreadable, hsorts])
      obtain ⟨message, hmessage⟩ := h _ rfl
      cases hmessage

/-! ### The two forms -/

def NamesFleet (parsed fleetName : Json) : Prop :=
  ∃ data fleet name, parsed = .obj data ∧ Dict.get data "rmf_fleet" = .obj fleet ∧
    fleet.lookup "name" = some name ∧ name.eq fleetName = true

/-- What a document promises: a configuration of the YAML mode, as the adapter tests it, is backed
by a block of its own, and only errors of the configuration are raised. -/
structure SelfConsistent (env : YamlEnv) (parsed : Json) : Prop where
  yamlMode : ∀ config, FleetAdapterConfig.fromYaml env parsed = .ok config →
    config.dynamicMode.truthy = false → NamesFleet parsed config.fleetName
  errors : OnlyConfigErrors (FleetAdapterConfig.fromYaml env parsed)

def YamlMode (env : YamlEnv) (data : Dict) : Prop :=
  Accepts env.toLoadEnv data ∧ (coerceDynamicMode data).truthy = false

inductive NestedSlips (env : YamlEnv) (rmfFleet : Json) (block : Dict) : Prop
  -- the value of `dynamic_mode` is truthy as it stands and false when it is read as a word
  | word (hnone : isNone rmfFleet = true)
      (htruthy : (getOr block "dynamic_mode" (.bool false)).truthy = true)
      (hmode : YamlMode env block)
  | notMapping (hthere : isNone rmfFleet = false) (hother : ∀ fleet, rmfFleet ≠ .obj fleet)
      (hmode : YamlMode env block)
  -- the names are not both strings, and they are not equal either
  | unnamed (fleet : Dict) (hmapping : rmfFleet = .obj fleet)
      (htypes : ∀ rmfName quiksyncName, Dict.get fleet "name" = .str rmfName →
        Dict.get block "fleet_name" ≠ .str quiksyncName)
      (hname : ∀ name, fleet.lookup "name" = some name →
        name.eq (Dict.get block "fleet_name") = false)
      (hmode : YamlMode env block)
  | breaks (hfleet : lacksFleet rmfFleet block = false)
      (hnames : nameMismatch rmfFleet block = none) (hbreaks : Breaks env block)

inductive FlatSlips (env : YamlEnv) (data : Dict) : Prop
  | yamlMode (hthere : (data.lookup "dynamic_mode").isSome = true) (hmode : YamlMode env data)
  | breaks (hbreaks : Breaks env data)

def Slips (env : YamlEnv) : Json → Prop
  | .obj data =>
    match data.lookup "quiksync" with
    | some (.obj block) => NestedSlips env (Dict.get data "rmf_fleet") block
    | _ => FlatSlips env data
  | _ => False

theorem selfConsistent_of_fromMapping {env : YamlEnv} {parsed : Json} {block : Dict}
    (h : FleetAdapterConfig.fromYaml env parsed = FleetAdapterConfig.fromMapping env block) :
    SelfConsistent env parsed ↔
      (YamlMode env block → NamesFleet parsed (Dict.get block "fleet_name")) ∧
        ¬ Breaks env block := by
  constructor
  · rintro ⟨hmode, herrors⟩
    rw [h] at hmode herrors
    refine ⟨fun ⟨haccepts, hfalsy⟩ => ?_, fromMapping_errors_iff.mp herrors⟩
    obtain ⟨config, hconfig⟩ := fromDict_accepts.mpr haccepts
    obtain ⟨hdynamic, hname⟩ := fromDict_fields hconfig
    rw [← hname]
    exact hmode config (fromMapping_ok_iff.mpr hconfig) (hdynamic ▸ hfalsy)
  · rintro ⟨hmode, hbreaks⟩
    constructor
    · intro config hconfig hfalsy
      rw [h] at hconfig
      have hdict := fromMapping_ok_iff.mp hconfig
      obtain ⟨hdynamic, hname⟩ := fromDict_fields hdict
      rw [hname]
      exact hmode ⟨fromDict_accepts.mp ⟨config, hdict⟩, hdynamic ▸ hfalsy⟩
    · rw [h]
      exact fromMapping_errors_iff.mpr hbreaks

theorem selfConsistent_of_configError {env : YamlEnv} {parsed : Json} {message : String}
    (h : FleetAdapterConfig.fromYaml env parsed = .error (.configError message)) :
    SelfConsistent env parsed := by
  constructor
  · intro config hconfig
    rw [h] at hconfig
    cases hconfig
  · rw [h]
    exact onlyConfigErrors_configError message

theorem orElse_obj (data : Dict) : (Json.obj data).orElse (.obj []) = .obj data := by
  cases data with
  | nil => rfl
  | cons p data => rfl

theorem fromYaml_nested {env : YamlEnv} {data block : Dict}
    (hblock : data.lookup "quiksync" = some (.obj block)) :
    FleetAdapterConfig.fromYaml env (.obj data) =
      FleetAdapterConfig.fromNested env (Dict.get data "rmf_fleet") block := by
  unfold FleetAdapterConfig.fromYaml
  rw [orElse_obj]
  dsimp only
  rw [hblock]

theorem fromYaml_flat {env : YamlEnv} {data : Dict}
    (hblock : ∀ block, data.lookup "quiksync" ≠ some (.obj block)) :
    FleetAdapterConfig.fromYaml env (.obj data) =
      FleetAdapterConfig.fromMapping env (setDefault data "dynamic_mode" (.bool true)) := by
  unfold FleetAdapterConfig.fromYaml
  rw [orElse_obj]
  dsimp only
  split
  · rename_i block h
    exact absurd h (hblock block)
  · rfl

section Nested

variable {env : YamlEnv} {data block : Dict} (hblock : data.lookup "quiksync" = some (.obj block))

include hblock

theorem selfConsistent_of_lacksFleet
    (hfleet : lacksFleet (Dict.get data "rmf_fleet") block = true) :
    SelfConsistent env (.obj data) := by
  apply selfConsistent_of_configError
  rw [fromYaml_nested hblock]
  unfold FleetAdapterConfig.fromNested
  rw [if_pos hfleet]

theorem selfConsistent_of_mismatch {names : String × String}
    (hfleet : lacksFleet (Dict.get data "rmf_fleet") block = false)
    (hnames : nameMismatch (Dict.get data "rmf_fleet") block = some names) :
    SelfConsistent env (.obj data) := by
  apply selfConsistent_of_configError
  rw [fromYaml_nested hblock]
  unfold FleetAdapterConfig.fromNested
  rw [if_neg (Bool.eq_false_iff.mp hfleet), hnames]

theorem fromYaml_reaches (hfleet : lacksFleet (Dict.get data "rmf_fleet") block = false)
    (hnames : nameMismatch (Dict.get data "rmf_fleet") block = none) :
    FleetAdapterConfig.fromYaml env (.obj data) = FleetAdapterConfig.fromMapping env block := by
  rw [fromYaml_nested hblock]
  unfold FleetAdapterConfig.fromNested
  rw [if_neg (Bool.eq_false_iff.mp hfleet), hnames]

end Nested

theorem nameMismatch_eq_none {fleet block : Dict} :
    nameMismatch (.obj fleet) block = none ↔
      ∀ rmfName quiksyncName, Dict.get fleet "name" = .str rmfName →
        Dict.get block "fleet_name" = .str quiksyncName → rmfName = quiksyncName := by
  unfold nameMismatch
  dsimp only
  split
  · rename_i rmfName quiksyncName hrmf hquiksync
    split_ifs with heq
    · refine iff_of_true rfl fun a b ha hb => ?_
      rw [hrmf] at ha
      rw [hquiksync] at hb
      rw [← Json.str.inj ha, ← Json.str.inj hb, heq]
    · refine iff_of_false (fun h => by cases h) fun h => heq (h _ _ hrmf hquiksync)
  · rename_i hno
    exact iff_of_true rfl fun a b ha hb => absurd hb (hno a b ha)

theorem lookup_of_get {d : Dict} {key : String} {v : Json} (h : Dict.get d key = v)
    (hv : v ≠ .null) : d.lookup key = some v := by
  unfold Dict.get at h
  cases hlookup : d.lookup key with
  | none =>
    rw [hlookup] at h
    exact absurd h.symm hv
  | some w =>
    rw [hlookup] at h
    exact congrArg some h

theorem str_eq_self (s : String) : (Json.str s).eq (.str s) = true := by
  simp [Json.eq]

theorem namesFleet_iff {data : Dict} {fleetName : Json} :
    NamesFleet (.obj data) fleetName ↔ ∃ fleet name, Dict.get data "rmf_fleet" = .obj fleet ∧
      fleet.lookup "name" = some name ∧ name.eq fleetName = true := by
  constructor
  · rintro ⟨data', fleet, name, hdata, hfleet, hname, heq⟩
    obtain rfl := Json.obj.inj hdata
    exact ⟨fleet, name, hfleet, hname, heq⟩
  · rintro ⟨fleet, name, hfleet, hname, heq⟩
    exact ⟨data, fleet, name, rfl, hfleet, hname, heq⟩

theorem nestedSlips_of_unbacked {env : YamlEnv} {data block : Dict}
    (hfleet : lacksFleet (Dict.get data "rmf_fleet") block = false)
    (hnames : nameMismatch (Dict.get data "rmf_fleet") block = none) (hmode : YamlMode env block)
    (hunbacked : ¬ NamesFleet (.obj data) (Dict.get block "fleet_name")) :
    NestedSlips env (Dict.get data "rmf_fleet") block := by
  rw [namesFleet_iff] at hunbacked
  by_cases hnone : isNone (Dict.get data "rmf_fleet") = true
  · have htruthy : (getOr block "dynamic_mode" (.bool false)).truthy = true := by
      simpa [lacksFleet, hnone] using hfleet
    exact .word hnone htruthy hmode
  · by_cases hmapping : ∃ fleet, Dict.get data "rmf_fleet" = .obj fleet
    · obtain ⟨fleet, hmapping⟩ := hmapping
      rw [hmapping] at hnames
      refine .unnamed fleet hmapping (fun rmfName quiksyncName hrmf hquiksync => ?_)
        (fun name hname => ?_) hmode
      · have hsame := nameMismatch_eq_none.mp hnames rmfName quiksyncName hrmf hquiksync
        have hname : fleet.lookup "name" = some (.str rmfName) :=
          lookup_of_get hrmf fun h => by cases h
        apply hunbacked
        rw [hquiksync, ← hsame]
        exact ⟨fleet, .str rmfName, hmapping, hname, str_eq_self rmfName⟩
      · rw [Bool.eq_false_iff]
        exact fun heq => hunbacked ⟨fleet, name, hmapping, hname, heq⟩
    · push Not at hmapping
      exact .notMapping (Bool.eq_false_iff.mpr hnone) hmapping hmode

theorem nestedSlips_reaches {env : YamlEnv} {rmfFleet : Json} {block : Dict}
    (h : NestedSlips env rmfFleet block) :
    lacksFleet rmfFleet block = false ∧ nameMismatch rmfFleet block = none := by
  cases h with
  | word hnone htruthy hmode =>
    refine ⟨by simp [lacksFleet, htruthy], ?_⟩
    cases rmfFleet with
    | null => rfl
    | _ => cases hnone
  | notMapping hthere hother hmode =>
    refine ⟨by simp [lacksFleet, hthere], ?_⟩
    cases rmfFleet with
    | obj fleet => exact absurd rfl (hother fleet)
    | _ => rfl
  | unnamed fleet hmapping htypes hname hmode =>
    rw [hmapping]
    refine ⟨by simp [lacksFleet, isNone], ?_⟩
    exact nameMismatch_eq_none.mpr fun a b ha hb => absurd hb (htypes a b ha)
  | breaks hfleet hnames hbreaks => exact ⟨hfleet, hnames⟩

theorem unbacked_of_nestedSlips {env : YamlEnv} {data block : Dict}
    (h : NestedSlips env (Dict.get data "rmf_fleet") block) :
    Breaks env block ∨
      YamlMode env block ∧ ¬ NamesFleet (.obj data) (Dict.get block "fleet_name") := by
  rw [namesFleet_iff]
  cases h with
  | word hnone htruthy hmode =>
    refine .inr ⟨hmode, ?_⟩
    rintro ⟨fleet, name, hmapping, -⟩
    rw [hmapping] at hnone
    cases hnone
  | notMapping hthere hother hmode =>
    refine .inr ⟨hmode, ?_⟩
    rintro ⟨fleet, name, hmapping, -⟩
    exact hother fleet hmapping
  | unnamed fleet hmapping htypes hname hmode =>
    refine .inr ⟨hmode, ?_⟩
    rintro ⟨fleet', name, hmapping', hlookup, heq⟩
    rw [hmapping] at hmapping'
    obtain rfl := Json.obj.inj hmapping'
    rw [hname name hlookup] at heq
    cases heq
  | breaks hfleet hnames hbreaks => exact .inl hbreaks

theorem selfConsistent_nested {env : YamlEnv} {data block : Dict}
    (hblock : data.lookup "quiksync" = some (.obj block)) :
    SelfConsistent env (.obj data) ↔ ¬ NestedSlips env (Dict.get data "rmf_fleet") block := by
  by_cases hfleet : lacksFleet (Dict.get data "rmf_fleet") block = true
  · refine iff_of_true (selfConsistent_of_lacksFleet hblock hfleet) fun hslips => ?_
    rw [(nestedSlips_reaches hslips).1] at hfleet
    cases hfleet
  · rw [Bool.not_eq_true] at hfleet
    cases hnames : nameMismatch (Dict.get data "rmf_fleet") block with
    | some names =>
      refine iff_of_true (selfConsistent_of_mismatch hblock hfleet hnames) fun hslips => ?_
      rw [(nestedSlips_reaches hslips).2] at hnames
      cases hnames
    | none =>
      rw [selfConsistent_of_fromMapping (fromYaml_reaches hblock hfleet hnames)]
      constructor
      · rintro ⟨hbacked, hbreaks⟩ hslips
        rcases unbacked_of_nestedSlips hslips with h | ⟨hmode, hunbacked⟩
        · exact hbreaks h
        · exact hunbacked (hbacked hmode)
      · intro hslips
        refine ⟨fun hmode => ?_, fun hbreaks => hslips (.breaks hfleet hnames hbreaks)⟩
        by_contra hunbacked
        exact hslips (nestedSlips_of_unbacked hfleet hnames hmode hunbacked)

theorem lookup_setDefault (d : Dict) (key : String) (v : Json) {other : String}
    (h : other ≠ key) : (setDefault d key v).lookup other = d.lookup other := by
  unfold setDefault
  split_ifs
  · rfl
  · rw [List.lookup_append, lookup_cons_ne v h, List.lookup_nil, Option.or_none]

theorem breaks_setDefault {env : YamlEnv} {data : Dict} :
    Breaks env (setDefault data "dynamic_mode" (.bool true)) ↔ Breaks env data := by
  have hfile : (setDefault data "dynamic_mode" (.bool true)).lookup "auth0_client_secret_file" =
      data.lookup "auth0_client_secret_file" := lookup_setDefault _ _ _ (by decide)
  have hknown : "dynamic_mode" ∈ "auth0_client_secret_file" :: fleetFields := by decide
  have hunknown : ∀ {key : String}, key ∉ "auth0_client_secret_file" :: fleetFields →
      (setDefault data "dynamic_mode" (.bool true)).lookup key = data.lookup key := by
    intro key hkey
    apply lookup_setDefault
    rintro rfl
    exact hkey hknown
  have hmixes : MixesKeys env (setDefault data "dynamic_mode" (.bool true)) ↔
      MixesKeys env data := by
    constructor
    · rintro ⟨key, other, hthere, hthere', hkey, hother, hkinds⟩
      rw [hunknown hkey] at hthere
      rw [hunknown hother] at hthere'
      exact ⟨key, other, hthere, hthere', hkey, hother, hkinds⟩
    · rintro ⟨key, other, hthere, hthere', hkey, hother, hkinds⟩
      rw [← hunknown hkey] at hthere
      rw [← hunknown hother] at hthere'
      exact ⟨key, other, hthere, hthere', hkey, hother, hkinds⟩
  unfold Breaks SecretBreaks SecretReadable
  rw [hfile, hmixes]

theorem yamlMode_setDefault {env : YamlEnv} {data : Dict} :
    YamlMode env (setDefault data "dynamic_mode" (.bool true)) ↔
      (data.lookup "dynamic_mode").isSome = true ∧ YamlMode env data := by
  by_cases hthere : (data.lookup "dynamic_mode").isSome = true
  · have hsame : setDefault data "dynamic_mode" (.bool true) = data := if_pos hthere
    rw [hsame]
    simp [hthere]
  · refine iff_of_false (fun ⟨_, hfalsy⟩ => ?_) (fun h => hthere h.1)
    have hmode : coerceDynamicMode (setDefault data "dynamic_mode" (.bool true)) = .bool true := by
      have hnone : data.lookup "dynamic_mode" = none := Option.not_isSome_iff_eq_none.mp hthere
      unfold coerceDynamicMode getOr setDefault
      rw [if_neg hthere, List.lookup_append, hnone, List.lookup_cons_self]
      rfl
    rw [hmode] at hfalsy
    cases hfalsy

theorem selfConsistent_flat {env : YamlEnv} {data : Dict}
    (hblock : ∀ block, data.lookup "quiksync" ≠ some (.obj block)) :
    SelfConsistent env (.obj data) ↔ ¬ FlatSlips env data := by
  rw [selfConsistent_of_fromMapping (fromYaml_flat hblock), yamlMode_setDefault, breaks_setDefault]
  constructor
  · rintro ⟨hbacked, hbreaks⟩ (⟨hthere, hmode⟩ | h)
    · -- The flat form has no place for an `rmf_fleet` block: `from_dict` does not know the key.
      obtain ⟨fleet, name, hfleet, -⟩ := namesFleet_iff.mp (hbacked ⟨hthere, hmode⟩)
      have hlookup : data.lookup "rmf_fleet" = some (.obj fleet) :=
        lookup_of_get hfleet fun h => by cases h
      have hknown := hmode.1.known "rmf_fleet" (by rw [hlookup]; rfl)
      exact absurd hknown (by decide)
    · exact hbreaks h
  · intro hslips
    refine ⟨fun ⟨hthere, hmode⟩ => absurd (.yamlMode hthere hmode) hslips, fun hbreaks => ?_⟩
    exact hslips (.breaks hbreaks)

theorem selfConsistent_other {env : YamlEnv} {parsed : Json}
    (hparsed : ∀ data, parsed ≠ .obj data) : SelfConsistent env parsed := by
  by_cases htruthy : parsed.truthy = true
  · have herror : FleetAdapterConfig.fromYaml env parsed =
        .error (.configError s!"config root must be a dict; got {typeName parsed}") := by
      unfold FleetAdapterConfig.fromYaml Json.orElse
      rw [if_pos htruthy]
      split
      · rename_i data
        exact absurd rfl (hparsed data)
      · rfl
    exact selfConsistent_of_configError herror
  · have hempty : FleetAdapterConfig.fromYaml env parsed =
        FleetAdapterConfig.fromMapping env (setDefault [] "dynamic_mode" (.bool true)) := by
      unfold FleetAdapterConfig.fromYaml Json.orElse
      rw [if_neg htruthy]
      rfl
    rw [selfConsistent_of_fromMapping hempty, yamlMode_setDefault, breaks_setDefault]
    constructor
    · rintro ⟨hthere, -⟩
      cases hthere
    · rintro (⟨v, hv, -⟩ | ⟨-, key, other, hthere, -⟩)
      · cases hv
      · cases hthere

theorem self_consistent_iff (env : YamlEnv) (parsed : Json) :
    SelfConsistent env parsed ↔ ¬ Slips env parsed := by
  cases parsed with
  | obj data =>
    show SelfConsistent env (.obj data) ↔ ¬ (match data.lookup "quiksync" with
      | some (.obj block) => NestedSlips env (Dict.get data "rmf_fleet") block
      | _ => FlatSlips env data)
    split
    · rename_i block hblock
      exact selfConsistent_nested hblock
    · rename_i hblock
      exact selfConsistent_flat hblock
  | _ => exact iff_of_true (selfConsistent_other fun data h => by cases h) fun h => h

def sampleYamlEnv : YamlEnv where
  secretFile _ := .missing ""
  repr _ := ""
  acceptsUrl _ := true
  keyKind _ := .text
  keyKind_read _ _ := rfl

def sampleBlock (mode : Json) : Dict :=
  [("base_url", .str "https://quiksync.example"), ("auth0_tenant", .str "tenant"),
    ("auth0_audience", .str "audience"), ("auth0_client_id", .str "id"),
    ("auth0_client_secret", .str "secret"), ("auth0_organization", .str "org"),
    ("fleet_name", .str "service_robots"), ("dynamic_mode", mode)]

/-- A quoted `dynamic_mode: "false"` passes the check for the missing block. -/
theorem quoted_false_not_consistent :
    ¬ SelfConsistent sampleYamlEnv (.obj [("quiksync", .obj (sampleBlock (.str "false")))]) := by
  intro hconsistent
  have hconfig : ∃ config, FleetAdapterConfig.fromYaml sampleYamlEnv
      (.obj [("quiksync", .obj (sampleBlock (.str "false")))]) = .ok config ∧
      config.dynamicMode.truthy = false := ⟨_, rfl, rfl⟩
  obtain ⟨config, hconfig, hfalsy⟩ := hconfig
  obtain ⟨fleet, name, hfleet, -⟩ := namesFleet_iff.mp (hconsistent.yamlMode config hconfig hfalsy)
  cases hfleet

end QuikSync
