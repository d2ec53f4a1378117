import QuikSyncAdapters.IdLists
import QuikSyncAdapters.YamlConfig

/-! The configurations of the adapters from the environment and from a YAML file: what is written
in both ways is read as the same configuration, or refused with the same message. -/

namespace QuikSync

open Py Fallible

/-- `os.environ`. -/
abbrev Environ := String → Option String

def envKey (start fieldName : String) : String :=
  start ++ String.ofList (fieldName.toList.map Char.toUpper)

/-- The loop of the three `from_env`. -/
def collectFields (start : String) (fieldNames : List String) (environ : Environ) : Dict :=
  fieldNames.filterMap fun name => (environ (envKey start name)).map fun v => (name, .str v)

def doorFields : List String :=
  connectionFields ++ ["doors", "door_states_topic", "door_requests_topic"]

def liftFields : List String :=
  connectionFields ++ ["lifts", "session_ttl_seconds", "lift_states_topic", "lift_requests_topic"]

def liftNumbers : List String := ["state_subscribe_reconnect_seconds", "session_ttl_seconds"]

def DoorAdapterConfig.fromEnv (env : LoadEnv) (environ : Environ) :
    Except LoadError DoorAdapterConfig :=
  fromDict env (collectFields "DOOR_ADAPTER_" doorFields environ)

def LiftAdapterConfig.fromEnv (env : LoadEnv) (environ : Environ) :
    Except LoadError LiftAdapterConfig :=
  fromDict env (collectFields "LIFT_ADAPTER_" liftFields environ)

def FleetAdapterConfig.fromEnv (env : LoadEnv) (environ : Environ) :
    Except LoadError FleetAdapterConfig :=
  fromDict env
    (setDefault (collectFields "FLEET_ADAPTER_" fleetFields environ) "dynamic_mode" (.bool true))

def yamlMapping (parsed : Json) : Except LoadError Dict :=
  match parsed.orElse (.obj []) with
  | .obj data =>
    match data.lookup "quiksync" with
    | some (.obj block) => .ok block
    | _ => .ok data
  | v => .error (.configError s!"config root must be a dict; got {typeName v}")

def ofMapping {α : Type} (env : YamlEnv) (fieldNames : List String)
    (fromDict : LoadEnv → Dict → Except LoadError α) (data : Dict) : Except LoadError α := do
  let resolved ← resolveSecret env.toLoadEnv data
  if env.sorts (unknownKeys fieldNames resolved) then fromDict env.toLoadEnv data
  else .error (.builtin .typeError)

def DoorAdapterConfig.fromYaml (env : YamlEnv) (parsed : Json) :
    Except LoadError DoorAdapterConfig := do
  ofMapping env doorFields fromDict (← yamlMapping parsed)

def LiftAdapterConfig.fromYaml (env : YamlEnv) (parsed : Json) :
    Except LoadError LiftAdapterConfig := do
  ofMapping env liftFields fromDict (← yamlMapping parsed)

/-- A value of a mapping and the text of a variable: a number may be written as the float that
the text reads as. -/
def Reads (numbers : List String) (key : String) (written text : Option Json) : Prop :=
  written = text ∨ key ∈ numbers ∧
    ∃ s x, text = some (.str s) ∧ floatOfString s = .ok x ∧ written = some (.float x)

/-- The mapping has the fields of the environment; `same` compares the values of `special`. -/
structure Writes (start : String) (fieldNames numbers : List String) (special : String)
    (same : Json → String → Prop) (environ : Environ) (data : Dict) : Prop where
  known : ∀ key, (data.lookup key).isSome = true → key ∈ fieldNames
  fields : ∀ key ∈ fieldNames, key ≠ special →
    Reads numbers key (data.lookup key) ((environ (envKey start key)).map .str)
  special : (data.lookup special = none ∧ environ (envKey start special) = none) ∨
    ∃ v s, data.lookup special = some v ∧ environ (envKey start special) = some s ∧ same v s

def SameIds (v : Json) (s : String) : Prop :=
  v = .str s ∨ ∃ ids : List String, v = .arr (ids.map .str) ∧ s = ",".intercalate ids ∧
    ∀ id ∈ ids, ',' ∉ id.toList ∧ strip id ≠ ""

def SameMode (v : Json) (s : String) : Prop :=
  v = .str s ∨ v = coerceDynamicMode [("dynamic_mode", .str s)]

/-! ### Fields that agree -/

theorem lookup_collectFields (start : String) (fieldNames : List String) (environ : Environ)
    (key : String) :
    (collectFields start fieldNames environ).lookup key =
      if key ∈ fieldNames then (environ (envKey start key)).map .str else none := by
  induction fieldNames with
  | nil => rfl
  | cons name names ih =>
    unfold collectFields at ih ⊢
    rw [List.filterMap_cons]
    by_cases hkey : key = name
    · subst hkey
      cases henv : environ (envKey start key) with
      | none =>
        rw [henv] at ih
        simpa using ih
      | some v => simp
    · have hmem : key ∈ name :: names ↔ key ∈ names := by simp [hkey]
      cases henv : environ (envKey start name) with
      | none => simpa only [hmem, Option.map_none] using ih
      | some v =>
        simp only [Option.map_some, hmem]
        rw [lookup_cons_ne _ hkey]
        exact ih

section Agreement

variable {env : LoadEnv} {special : String} {data other : Dict}

def AgreeOff (special : String) (data other : Dict) : Prop :=
  ∀ key, key ≠ special → data.lookup key = other.lookup key

theorem coerceNumeric_related {numeric : String} {numbers : List String}
    (h : Reads numbers numeric (data.lookup numeric) (other.lookup numeric)) :
    Related (fun data' other' => data'.lookup numeric = other'.lookup numeric)
      (coerceNumeric env data numeric) (coerceNumeric env other numeric) := by
  obtain heq | ⟨-, s, x, htext, hx, hwritten⟩ := h
  · unfold coerceNumeric
    rw [heq]
    split
    · split
      · apply Related.ok
        rw [lookup_setItem, lookup_setItem, if_pos rfl, if_pos rfl]
      · exact .error _
    · exact .ok heq
  · unfold coerceNumeric
    rw [hwritten, htext]
    dsimp only
    rw [hx]
    apply Related.ok
    rw [hwritten, lookup_setItem, if_pos rfl]

structure Coerced (special : String) (data other data' other' : Dict) : Prop where
  agree : AgreeOff special data' other'
  left : data'.lookup special = data.lookup special
  right : other'.lookup special = other.lookup special

theorem coerceNumbers_related {numbers : List String} (hspecial : special ∉ numbers)
    (h : ∀ key, key ≠ special → Reads numbers key (data.lookup key) (other.lookup key)) :
    Related (Coerced special data other) (numbers.foldlM (coerceNumeric env) data)
      (numbers.foldlM (coerceNumeric env) other) := by
  induction numbers generalizing data other with
  | nil =>
    refine .ok ⟨fun key hkey => ?_, rfl, rfl⟩
    obtain heq | ⟨hmem, -⟩ := h key hkey
    · exact heq
    · exact absurd hmem List.not_mem_nil
  | cons numeric numbers ih =>
    obtain ⟨hne, hspecial⟩ := not_or.mp (mt List.mem_cons.mpr hspecial)
    rw [List.foldlM_cons, List.foldlM_cons]
    have hfirst := @coerceNumeric_related env data other numeric (numeric :: numbers)
      (h numeric fun heq => hne heq.symm)
    -- After the first number the others are still as they were, in both.
    refine hfirst.results.bind ?_
    rintro next next' ⟨hnumeric, hdata, hother⟩
    have hkept := fun key => (coerceNumeric_lookup hdata key).1
    have hkept' := fun key => (coerceNumeric_lookup hother key).1
    have hnext : ∀ key, key ≠ special →
        Reads numbers key (next.lookup key) (next'.lookup key) := by
      intro key hkey
      by_cases heq : key = numeric
      · subst heq
        exact Or.inl hnumeric
      · rw [hkept key heq, hkept' key heq]
        obtain hsame | ⟨hmem, hread⟩ := h key hkey
        · exact Or.inl hsame
        · exact Or.inr ⟨(List.mem_cons.mp hmem).resolve_left heq, hread⟩
    refine (ih hspecial hnext).mono fun data' other' hcoerced => ⟨hcoerced.agree, ?_, ?_⟩
    · exact hcoerced.left.trans (hkept special hne)
    · exact hcoerced.right.trans (hkept' special hne)

theorem requireFields_congr {required : List String}
    (h : ∀ key, (data.lookup key).isSome = (other.lookup key).isSome) :
    requireFields env required data = requireFields env required other := by
  have hmissing : (required.filter fun key => (data.lookup key).isNone) =
      required.filter fun key => (other.lookup key).isNone := by
    apply List.filter_congr
    intro key _
    rw [← Option.not_isSome, ← Option.not_isSome, h key]
  unfold requireFields
  rw [hmissing]

structure Comparable (fieldNames numbers : List String) (special : String)
    (data other : Dict) : Prop where
  secret : data.lookup "auth0_client_secret_file" = none
  otherSecret : other.lookup "auth0_client_secret_file" = none
  known : unknownKeys fieldNames data = []
  otherKnown : unknownKeys fieldNames other = []
  reads : ∀ key, key ≠ special → Reads numbers key (data.lookup key) (other.lookup key)
  there : (data.lookup special).isSome = (other.lookup special).isSome

theorem resolveSecret_none (h : data.lookup "auth0_client_secret_file" = none) :
    resolveSecret env data = .ok data := by
  unfold resolveSecret
  rw [h]

theorem checkedFields_related {α : Type} {own : Dict → Except LoadError α}
    {fieldNames numbers required : List String}
    (h : Comparable fieldNames numbers special data other) (hspecial : special ∉ numbers)
    (hown : ∀ data' other', data'.lookup special = data.lookup special →
      other'.lookup special = other.lookup special → own data' = own other') :
    Related (fun r r' => AgreeOff special r.1 r'.1 ∧ r.2 = r'.2)
      (checkedFields env fieldNames numbers required own data)
      (checkedFields env fieldNames numbers required own other) := by
  unfold checkedFields
  rw [resolveSecret_none h.secret, resolveSecret_none h.otherSecret]
  show Related _ (rejectUnknown env fieldNames data >>= _)
    (rejectUnknown env fieldNames other >>= _)
  rw [rejectUnknown_ok_iff.mpr h.known, rejectUnknown_ok_iff.mpr h.otherKnown]
  refine (coerceNumbers_related hspecial h.reads).bind fun data' other' hcoerced => ?_
  have hread := hown data' other' hcoerced.left hcoerced.right
  refine (Related.of_eq (R := Eq) (fun _ => rfl) hread).bind fun a b hab => ?_
  have hthere : ∀ key, (data'.lookup key).isSome = (other'.lookup key).isSome := by
    intro key
    by_cases hkey : key = special
    · rw [hkey, hcoerced.left, hcoerced.right]
      exact h.there
    · rw [hcoerced.agree key hkey]
  have hrequire := @requireFields_congr env data' other' required hthere
  refine (Related.of_eq (R := Eq) (fun _ => rfl) hrequire).bind fun _ _ _ => ?_
  exact .ok ⟨hcoerced.agree, hab⟩

theorem AgreeOff.get_eq (h : AgreeOff special data other) {key : String} (hkey : key ≠ special) :
    Dict.get data key = Dict.get other key := by
  unfold Dict.get
  rw [h key hkey]

theorem AgreeOff.getOr_eq (h : AgreeOff special data other) {key : String} (hkey : key ≠ special)
    (default : Json) : getOr data key default = getOr other key default := by
  unfold getOr
  rw [h key hkey]

theorem ofFields_congr (h : AgreeOff special data other) (hspecial : special ∉ connectionFields) :
    ConnectionConfig.ofFields data = ConnectionConfig.ofFields other := by
  have hne : ∀ key ∈ connectionFields, key ≠ special := by
    rintro key hkey rfl
    exact hspecial hkey
  unfold ConnectionConfig.ofFields
  rw [h.get_eq (hne "base_url" (by decide)), h.get_eq (hne "auth0_tenant" (by decide)),
    h.get_eq (hne "auth0_audience" (by decide)), h.get_eq (hne "auth0_client_id" (by decide)),
    h.get_eq (hne "auth0_client_secret" (by decide)),
    h.get_eq (hne "auth0_organization" (by decide)),
    h.getOr_eq (hne "state_subscribe_reconnect_seconds" (by decide)),
    h.get_eq (hne "namespace" (by decide))]

theorem readIdList_congr {fieldName : String} (h : data.lookup fieldName = other.lookup fieldName) :
    readIdList env fieldName data = readIdList env fieldName other := by
  unfold readIdList
  rw [h]

theorem readIdList_same {fieldName : String} {v : Json} {s : String} (hv : SameIds v s)
    (hdata : data.lookup fieldName = some v) (hother : other.lookup fieldName = some (.str s)) :
    readIdList env fieldName data = readIdList env fieldName other := by
  unfold readIdList
  rw [hdata, hother]
  obtain rfl | ⟨ids, rfl, rfl, hids⟩ := hv
  · rfl
  · have hentries := entries_joined_intercalate (fun id hid => (hids id hid).1)
      (fun id hid => (hids id hid).2)
    exact congrArg (Except.map IdList.ids) (normaliseIdList_congr hentries.symm)

theorem coerceDynamicMode_congr (h : data.lookup "dynamic_mode" = other.lookup "dynamic_mode") :
    coerceDynamicMode data = coerceDynamicMode other := by
  unfold coerceDynamicMode getOr
  rw [h]

theorem coerceDynamicMode_same {v : Json} {s : String} (hv : SameMode v s)
    (hdata : data.lookup "dynamic_mode" = some v)
    (hother : other.lookup "dynamic_mode" = some (.str s)) :
    coerceDynamicMode data = coerceDynamicMode other := by
  obtain rfl | rfl := hv
  · exact coerceDynamicMode_congr (hdata.trans hother.symm)
  · have hword : coerceDynamicMode other = coerceDynamicMode [("dynamic_mode", .str s)] :=
      coerceDynamicMode_congr (hother.trans List.lookup_cons_self.symm)
    rw [hword]
    -- A word is read as a truth value, which is left as it is.
    unfold coerceDynamicMode getOr at hdata ⊢
    rw [hdata]
    rfl

end Agreement

/-! ### Mappings of one configuration -/

section Writes

variable {env : LoadEnv} {start special : String} {fieldNames numbers : List String}
  {same : Json → String → Prop} {environ : Environ} {data other : Dict}

theorem Writes.comparable (h : Writes start fieldNames numbers special same environ data)
    (hfile : "auth0_client_secret_file" ∉ fieldNames) (hspecial : special ∈ fieldNames) :
    Comparable fieldNames numbers special data (collectFields start fieldNames environ) := by
  have hnone : ∀ key, key ∉ fieldNames → data.lookup key = none := by
    intro key hkey
    exact Option.not_isSome_iff_eq_none.mp fun hsome => hkey (h.known key hsome)
  refine ⟨hnone _ hfile, ?_, ?_, ?_, ?_, ?_⟩
  · rw [lookup_collectFields, if_neg hfile]
  · apply List.eq_nil_iff_forall_not_mem.mpr
    intro key hkey
    obtain ⟨hsome, hunknown⟩ := mem_unknownKeys.mp hkey
    exact hunknown (h.known key hsome)
  · apply List.eq_nil_iff_forall_not_mem.mpr
    intro key hkey
    obtain ⟨hsome, hunknown⟩ := mem_unknownKeys.mp hkey
    rw [lookup_collectFields, if_neg hunknown] at hsome
    cases hsome
  · intro key hkey
    rw [lookup_collectFields]
    by_cases hmem : key ∈ fieldNames
    · rw [if_pos hmem]
      exact h.fields key hmem hkey
    · rw [if_neg hmem]
      exact Or.inl (hnone key hmem)
  · rw [lookup_collectFields, if_pos hspecial]
    obtain ⟨hdata, henv⟩ | ⟨v, s, hdata, henv, -⟩ := h.special
    · rw [hdata, henv]
      rfl
    · rw [hdata, henv]
      rfl

theorem Writes.ids (h : Writes start fieldNames numbers special SameIds environ data)
    (hspecial : special ∈ fieldNames) :
    readIdList env special data =
      readIdList env special (collectFields start fieldNames environ) := by
  have hother := lookup_collectFields start fieldNames environ special
  rw [if_pos hspecial] at hother
  obtain ⟨hdata, henv⟩ | ⟨v, s, hdata, henv, hv⟩ := h.special
  · rw [henv] at hother
    exact readIdList_congr (hdata.trans hother.symm)
  · rw [henv] at hother
    exact readIdList_same hv hdata hother

theorem door_fromDict_eq (h : Comparable doorFields ["state_subscribe_reconnect_seconds"] "doors"
      data other) (hids : readIdList env "doors" data = readIdList env "doors" other) :
    DoorAdapterConfig.fromDict env data = DoorAdapterConfig.fromDict env other := by
  unfold DoorAdapterConfig.fromDict
  -- Once both pass the checks, every field but the identifiers has the same value.
  apply Related.eq
  refine (checkedFields_related h (by decide) fun data' other' hdata hother => ?_).bind ?_
  · rw [readIdList_congr hdata, hids, readIdList_congr hother]
  · rintro ⟨data', doors⟩ ⟨other', doors'⟩ ⟨hagree, hdoors⟩
    dsimp only at hagree hdoors ⊢
    rw [ofFields_congr hagree (by decide), hagree.getOr_eq (by decide),
      hagree.getOr_eq (by decide), hdoors]
    exact .ok rfl

theorem lift_fromDict_eq (h : Comparable liftFields liftNumbers "lifts" data other)
    (hids : readIdList env "lifts" data = readIdList env "lifts" other) :
    LiftAdapterConfig.fromDict env data = LiftAdapterConfig.fromDict env other := by
  unfold LiftAdapterConfig.fromDict
  apply Related.eq
  refine (checkedFields_related h (by decide) fun data' other' hdata hother => ?_).bind ?_
  · rw [readIdList_congr hdata, hids, readIdList_congr hother]
  · rintro ⟨data', lifts⟩ ⟨other', lifts'⟩ ⟨hagree, hlifts⟩
    dsimp only at hagree hlifts ⊢
    rw [ofFields_congr hagree (by decide), hagree.getOr_eq (by decide),
      hagree.getOr_eq (by decide), hagree.getOr_eq (by decide), hlifts]
    exact .ok rfl

theorem fleet_fromDict_eq (h : Comparable fleetFields fleetNumbers "dynamic_mode" data other)
    (hmode : coerceDynamicMode data = coerceDynamicMode other) :
    FleetAdapterConfig.fromDict env data = FleetAdapterConfig.fromDict env other := by
  unfold FleetAdapterConfig.fromDict
  apply Related.eq
  refine (checkedFields_related h (by decide) fun data' other' hdata hother => ?_).bind ?_
  · rw [coerceDynamicMode_congr hdata, hmode, coerceDynamicMode_congr hother]
  · rintro ⟨data', mode⟩ ⟨other', mode'⟩ ⟨hagree, hmodes⟩
    dsimp only at hagree hmodes ⊢
    rw [ofFields_congr hagree (by decide), hagree.get_eq (by decide),
      hagree.getOr_eq (by decide), hmodes]
    exact .ok rfl

end Writes

theorem lookup_setDefault_self (d : Dict) (key : String) (v : Json) :
    (setDefault d key v).lookup key = some ((d.lookup key).getD v) := by
  unfold setDefault
  cases hd : d.lookup key with
  | some w => simpa using hd
  | none =>
    show (d ++ [(key, v)]).lookup key = some v
    rw [List.lookup_append, hd, List.lookup_cons_self]
    rfl

theorem setDefault_of_some {d : Dict} {key : String} (v : Json)
    (h : (d.lookup key).isSome = true) : setDefault d key v = d := if_pos h

section Default

variable {special : String} {fieldNames numbers : List String} {data other : Dict}

theorem unknownKeys_setDefault (hspecial : special ∈ fieldNames) (v : Json)
    (h : unknownKeys fieldNames data = []) :
    unknownKeys fieldNames (setDefault data special v) = [] := by
  apply List.eq_nil_iff_forall_not_mem.mpr
  intro key hkey
  obtain ⟨hsome, hunknown⟩ := mem_unknownKeys.mp hkey
  have hne : key ≠ special := by
    rintro rfl
    exact hunknown hspecial
  rw [lookup_setDefault data special v hne] at hsome
  have hmem : key ∈ unknownKeys fieldNames data := mem_unknownKeys.mpr ⟨hsome, hunknown⟩
  rw [h] at hmem
  exact List.not_mem_nil hmem

theorem Comparable.withDefault (h : Comparable fieldNames numbers special data other)
    (hspecial : special ∈ fieldNames) (hfile : "auth0_client_secret_file" ≠ special) (v : Json) :
    Comparable fieldNames numbers special (setDefault data special v)
      (setDefault other special v) where
  secret := (lookup_setDefault data special v hfile).trans h.secret
  otherSecret := (lookup_setDefault other special v hfile).trans h.otherSecret
  known := unknownKeys_setDefault hspecial v h.known
  otherKnown := unknownKeys_setDefault hspecial v h.otherKnown
  reads := by
    intro key hkey
    rw [lookup_setDefault data special v hkey, lookup_setDefault other special v hkey]
    exact h.reads key hkey
  there := by
    rw [lookup_setDefault_self, lookup_setDefault_self]
    rfl

end Default

/-! ### Both sources -/

abbrev DoorWrites : Environ → Dict → Prop :=
  Writes "DOOR_ADAPTER_" doorFields ["state_subscribe_reconnect_seconds"] "doors" SameIds

abbrev LiftWrites : Environ → Dict → Prop :=
  Writes "LIFT_ADAPTER_" liftFields liftNumbers "lifts" SameIds

abbrev FleetWrites : Environ → Dict → Prop :=
  Writes "FLEET_ADAPTER_" fleetFields fleetNumbers "dynamic_mode" SameMode

/-- The document is the mapping, or has it under `quiksync`. -/
inductive Presents (data : Dict) : Json → Prop where
  | flat : Presents data (.obj data)
  | nested {members : Dict} (h : members.lookup "quiksync" = some (.obj data)) :
    Presents data (.obj members)

theorem obj_orElse_nil (members : Dict) : (Json.obj members).orElse (.obj []) = .obj members := by
  cases members with
  | nil => rfl
  | cons p members => rfl

theorem yamlMapping_eq {data : Dict} {parsed : Json} (h : Presents data parsed)
    (hflat : data.lookup "quiksync" = none) : yamlMapping parsed = .ok data := by
  unfold yamlMapping
  cases h with
  | flat =>
    rw [obj_orElse_nil]
    dsimp only
    rw [hflat]
  | nested hblock =>
    rw [obj_orElse_nil]
    dsimp only
    rw [hblock]

theorem ofMapping_eq {α : Type} (env : YamlEnv) {fieldNames : List String}
    (fromDict : LoadEnv → Dict → Except LoadError α) {data : Dict}
    (hsecret : data.lookup "auth0_client_secret_file" = none)
    (hknown : unknownKeys fieldNames data = []) :
    ofMapping env fieldNames fromDict data = fromDict env.toLoadEnv data := by
  unfold ofMapping
  rw [resolveSecret_none hsecret]
  show (if env.sorts (unknownKeys fieldNames data) = true then _ else _) = _
  rw [hknown]
  exact if_pos rfl

theorem fromMapping_eq (env : YamlEnv) {data : Dict}
    (hsecret : data.lookup "auth0_client_secret_file" = none)
    (hknown : unknownKeys fleetFields data = []) :
    FleetAdapterConfig.fromMapping env data = FleetAdapterConfig.fromDict env.toLoadEnv data :=
  ofMapping_eq env FleetAdapterConfig.fromDict hsecret hknown

theorem Writes.not_quiksync {start special : String} {fieldNames numbers : List String}
    {same : Json → String → Prop} {environ : Environ} {data : Dict}
    (h : Writes start fieldNames numbers special same environ data)
    (hfields : "quiksync" ∉ fieldNames) : data.lookup "quiksync" = none :=
  Option.not_isSome_iff_eq_none.mp fun hsome => hfields (h.known _ hsome)

theorem checkedFields_errors {α : Type} {env : LoadEnv} {own : Dict → Except LoadError α}
    (fieldNames numbers required : List String) {data : Dict}
    (hsecret : data.lookup "auth0_client_secret_file" = none)
    (hown : ∀ coerced, OnlyConfigErrors (own coerced)) :
    OnlyConfigErrors (checkedFields env fieldNames numbers required own data) := by
  unfold checkedFields
  rw [resolveSecret_none hsecret]
  show OnlyConfigErrors (rejectUnknown env fieldNames data >>= _)
  refine (rejectUnknown_errors env _ data).bind fun _ => ?_
  refine (coerceNumbers_errors env _ data).bind fun coerced => ?_
  refine (hown coerced).bind fun _ => ?_
  exact (requireFields_errors env _ coerced).bind fun _ => onlyConfigErrors_ok _

theorem normaliseIdList_errors (env : LoadEnv) (fieldName : String) (raw : Json) :
    OnlyConfigErrors (normaliseIdList env fieldName raw) := by
  unfold normaliseIdList
  split
  · rename_i e herror
    intro e' h
    obtain rfl := Except.error.inj h
    unfold idEntries at herror
    split at herror
    · cases herror
    · cases herror
    · exact onlyConfigErrors_configError _ e herror
  split_ifs
  · exact onlyConfigErrors_configError _
  · exact onlyConfigErrors_configError _
  · split
    · exact onlyConfigErrors_configError _
    · exact onlyConfigErrors_ok _

theorem readIdList_errors (env : LoadEnv) (fieldName : String) (data : Dict) :
    OnlyConfigErrors (readIdList env fieldName data) := by
  unfold readIdList
  cases data.lookup fieldName with
  | none => exact onlyConfigErrors_ok _
  | some raw =>
    intro e h
    dsimp only at h
    cases hlist : normaliseIdList env fieldName raw with
    | ok list =>
      rw [hlist] at h
      cases h
    | error e' =>
      rw [hlist] at h
      obtain rfl := Except.error.inj h
      exact normaliseIdList_errors env fieldName raw e' hlist

theorem collectFields_file (start : String) {fieldNames : List String} (environ : Environ)
    (hfile : "auth0_client_secret_file" ∉ fieldNames) :
    (collectFields start fieldNames environ).lookup "auth0_client_secret_file" = none := by
  rw [lookup_collectFields, if_neg hfile]

/-- What the loaders make of one configuration in the environment and in a YAML file. -/
structure SourcesAgree (env : YamlEnv) : Prop where
  door : ∀ environ data parsed, DoorWrites environ data → Presents data parsed →
    DoorAdapterConfig.fromYaml env parsed = DoorAdapterConfig.fromEnv env.toLoadEnv environ
  lift : ∀ environ data parsed, LiftWrites environ data → Presents data parsed →
    LiftAdapterConfig.fromYaml env parsed = LiftAdapterConfig.fromEnv env.toLoadEnv environ
  fleetFlat : ∀ environ data, FleetWrites environ data →
    FleetAdapterConfig.fromYaml env (.obj data) =
      FleetAdapterConfig.fromEnv env.toLoadEnv environ
  -- the nested form gives the mode no default, and compares the names of the fleet
  fleetNested : ∀ environ data members, FleetWrites environ data →
    members.lookup "quiksync" = some (.obj data) →
    (data.lookup "dynamic_mode").isSome = true →
    lacksFleet (Dict.get members "rmf_fleet") data = false →
    nameMismatch (Dict.get members "rmf_fleet") data = none →
    FleetAdapterConfig.fromYaml env (.obj members) =
      FleetAdapterConfig.fromEnv env.toLoadEnv environ
  -- the environment names no file, so nothing but errors of the configuration is raised
  errors : ∀ environ,
    OnlyConfigErrors (DoorAdapterConfig.fromEnv env.toLoadEnv environ) ∧
      OnlyConfigErrors (LiftAdapterConfig.fromEnv env.toLoadEnv environ) ∧
      OnlyConfigErrors (FleetAdapterConfig.fromEnv env.toLoadEnv environ)

section Agree

variable {env : YamlEnv} {environ : Environ} {data : Dict}

theorem ofMapping_agree {α : Type} {start special : String} {fieldNames numbers : List String}
    (fromDict : LoadEnv → Dict → Except LoadError α) {parsed : Json}
    (h : Writes start fieldNames numbers special SameIds environ data)
    (hfile : "auth0_client_secret_file" ∉ fieldNames) (hquiksync : "quiksync" ∉ fieldNames)
    (hspecial : special ∈ fieldNames) (hparsed : Presents data parsed)
    (hcongr : ∀ other, Comparable fieldNames numbers special data other →
      readIdList env.toLoadEnv special data = readIdList env.toLoadEnv special other →
        fromDict env.toLoadEnv data = fromDict env.toLoadEnv other) :
    (yamlMapping parsed >>= ofMapping env fieldNames fromDict) =
      fromDict env.toLoadEnv (collectFields start fieldNames environ) := by
  have hcomparable := h.comparable hfile hspecial
  rw [yamlMapping_eq hparsed (h.not_quiksync hquiksync)]
  show ofMapping env fieldNames fromDict data = _
  rw [ofMapping_eq env fromDict hcomparable.secret hcomparable.known]
  exact hcongr _ hcomparable (h.ids hspecial)

theorem door_sources_agree {parsed : Json} (h : DoorWrites environ data)
    (hparsed : Presents data parsed) :
    DoorAdapterConfig.fromYaml env parsed = DoorAdapterConfig.fromEnv env.toLoadEnv environ :=
  ofMapping_agree DoorAdapterConfig.fromDict h (by decide) (by decide) (by decide) hparsed
    fun _ => door_fromDict_eq

theorem lift_sources_agree {parsed : Json} (h : LiftWrites environ data)
    (hparsed : Presents data parsed) :
    LiftAdapterConfig.fromYaml env parsed = LiftAdapterConfig.fromEnv env.toLoadEnv environ :=
  ofMapping_agree LiftAdapterConfig.fromDict h (by decide) (by decide) (by decide) hparsed
    fun _ => lift_fromDict_eq

theorem Writes.modes (h : FleetWrites environ data) :
    coerceDynamicMode (setDefault data "dynamic_mode" (.bool true)) =
      coerceDynamicMode (setDefault (collectFields "FLEET_ADAPTER_" fleetFields environ)
        "dynamic_mode" (.bool true)) := by
  have hother := lookup_collectFields "FLEET_ADAPTER_" fleetFields environ "dynamic_mode"
  rw [if_pos (by decide)] at hother
  have hleft := lookup_setDefault_self data "dynamic_mode" (.bool true)
  have hright := lookup_setDefault_self (collectFields "FLEET_ADAPTER_" fleetFields environ)
    "dynamic_mode" (.bool true)
  rw [hother] at hright
  obtain ⟨hdata, henv⟩ | ⟨v, s, hdata, henv, hv⟩ := h.special
  · rw [hdata] at hleft
    rw [henv] at hright
    exact coerceDynamicMode_congr (hleft.trans hright.symm)
  · rw [hdata] at hleft
    rw [henv] at hright
    exact coerceDynamicMode_same hv hleft hright

theorem fleet_default_agree (h : FleetWrites environ data) :
    FleetAdapterConfig.fromMapping env (setDefault data "dynamic_mode" (.bool true)) =
      FleetAdapterConfig.fromEnv env.toLoadEnv environ := by
  have hdefault := (h.comparable (by decide) (by decide)).withDefault (by decide) (by decide)
    (.bool true)
  rw [fromMapping_eq env hdefault.secret hdefault.known]
  exact fleet_fromDict_eq hdefault h.modes

theorem fleet_flat_agree (h : FleetWrites environ data) :
    FleetAdapterConfig.fromYaml env (.obj data) =
      FleetAdapterConfig.fromEnv env.toLoadEnv environ := by
  rw [← fleet_default_agree h]
  unfold FleetAdapterConfig.fromYaml
  rw [obj_orElse_nil]
  dsimp only
  rw [h.not_quiksync (by decide)]

theorem fleet_nested_agree {members : Dict} (h : FleetWrites environ data)
    (hblock : members.lookup "quiksync" = some (.obj data))
    (hmode : (data.lookup "dynamic_mode").isSome = true)
    (hfleet : lacksFleet (Dict.get members "rmf_fleet") data = false)
    (hname : nameMismatch (Dict.get members "rmf_fleet") data = none) :
    FleetAdapterConfig.fromYaml env (.obj members) =
      FleetAdapterConfig.fromEnv env.toLoadEnv environ := by
  rw [← fleet_default_agree h, setDefault_of_some _ hmode]
  unfold FleetAdapterConfig.fromYaml
  rw [obj_orElse_nil]
  dsimp only
  rw [hblock]
  show FleetAdapterConfig.fromNested env (Dict.get members "rmf_fleet") data = _
  unfold FleetAdapterConfig.fromNested
  rw [hfleet, hname]
  rfl

end Agree

theorem door_env_errors (env : LoadEnv) (environ : Environ) :
    OnlyConfigErrors (DoorAdapterConfig.fromEnv env environ) := by
  unfold DoorAdapterConfig.fromEnv DoorAdapterConfig.fromDict
  refine OnlyConfigErrors.bind ?_ fun _ => onlyConfigErrors_ok _
  exact checkedFields_errors _ _ _ (collectFields_file _ environ (by decide))
    (readIdList_errors env "doors")

theorem lift_env_errors (env : LoadEnv) (environ : Environ) :
    OnlyConfigErrors (LiftAdapterConfig.fromEnv env environ) := by
  unfold LiftAdapterConfig.fromEnv LiftAdapterConfig.fromDict
  refine OnlyConfigErrors.bind ?_ fun _ => onlyConfigErrors_ok _
  exact checkedFields_errors _ _ _ (collectFields_file _ environ (by decide))
    (readIdList_errors env "lifts")

theorem fleet_env_errors (env : LoadEnv) (environ : Environ) :
    OnlyConfigErrors (FleetAdapterConfig.fromEnv env environ) := by
  have hfile := collectFields_file "FLEET_ADAPTER_" environ
    (show "auth0_client_secret_file" ∉ fleetFields by decide)
  exact fromDict_errors (resolveSecret_none ((lookup_setDefault _ _ _ (by decide)).trans hfile))

theorem sources_agree (env : YamlEnv) : SourcesAgree env where
  door _ _ _ h hparsed := door_sources_agree h hparsed
  lift _ _ _ h hparsed := lift_sources_agree h hparsed
  fleetFlat _ _ h := fleet_flat_agree h
  fleetNested _ _ _ h hblock hmode hfleet hname := fleet_nested_agree h hblock hmode hfleet hname
  errors environ := ⟨door_env_errors _ environ, lift_env_errors _ environ,
    fleet_env_errors _ environ⟩

/-! ### A door adapter in both -/

def doorTexts : List (String × String) :=
  [("base_url", "https://host"), ("auth0_tenant", "tenant"), ("auth0_audience", "audience"),
    ("auth0_client_id", "id"), ("auth0_client_secret", "secret"), ("auth0_organization", "org")]

def doorVariables : List (String × String) :=
  ("state_subscribe_reconnect_seconds", "2.0") :: ("doors", "lobby,gate") :: doorTexts

def doorEnviron : Environ := fun key =>
  (doorVariables.find? fun p => envKey "DOOR_ADAPTER_" p.1 == key).map Prod.snd

def doorMapping : Dict :=
  ("state_subscribe_reconnect_seconds", .float (.finite 2)) ::
    ("doors", .arr [.str "lobby", .str "gate"]) :: doorTexts.map fun p => (p.1, .str p.2)

theorem lookup_texts (texts : List (String × String)) (key : String) :
    (texts.map fun p => (p.1, Json.str p.2)).lookup key = (texts.lookup key).map .str := by
  induction texts with
  | nil => rfl
  | cons p texts ih =>
    by_cases hkey : key = p.1
    · subst hkey
      rw [List.map_cons, List.lookup_cons_self, List.lookup_cons, beq_self_eq_true]
      rfl
    · rw [List.map_cons, lookup_cons_ne _ hkey, ih, List.lookup_cons,
        beq_eq_false_iff_ne.mpr hkey]

theorem doorEnviron_eq : ∀ key ∈ doorFields,
    doorEnviron (envKey "DOOR_ADAPTER_" key) = doorVariables.lookup key := by decide +kernel

theorem doorMapping_writes : DoorWrites doorEnviron doorMapping where
  known := by
    intro key hkey
    by_contra hunknown
    have hmem : key ∈ unknownKeys doorFields doorMapping := mem_unknownKeys.mpr ⟨hkey, hunknown⟩
    have hknown : unknownKeys doorFields doorMapping = [] := by decide +kernel
    rw [hknown] at hmem
    exact List.not_mem_nil hmem
  fields := by
    intro key hkey hdoors
    rw [doorEnviron_eq key hkey]
    unfold doorMapping doorVariables
    by_cases hnumber : key = "state_subscribe_reconnect_seconds"
    · subst hnumber
      have htwo : floatOfString "2.0" = .ok (.finite 2) := ok_of_toOption (by decide +kernel)
      exact Or.inr ⟨List.mem_cons_self, "2.0", .finite 2, rfl, htwo, rfl⟩
    · left
      rw [lookup_cons_ne _ hnumber, lookup_cons_ne _ hdoors, lookup_texts, List.lookup_cons,
        beq_eq_false_iff_ne.mpr hnumber, List.lookup_cons, beq_eq_false_iff_ne.mpr hdoors]
  special := by
    refine Or.inr ⟨.arr [.str "lobby", .str "gate"], "lobby,gate", rfl, by decide +kernel, ?_⟩
    exact Or.inr ⟨["lobby", "gate"], rfl, by decide +kernel, by decide +kernel⟩

theorem sources_agree_lobby :
    DoorAdapterConfig.fromYaml sampleYamlEnv (.obj [("quiksync", .obj doorMapping)]) =
        DoorAdapterConfig.fromEnv sampleYamlEnv.toLoadEnv doorEnviron ∧
      ∃ config, DoorAdapterConfig.fromEnv sampleYamlEnv.toLoadEnv doorEnviron = .ok config ∧
        config.doors = ["lobby", "gate"] := by
  refine ⟨(sources_agree sampleYamlEnv).door _ _ _ doorMapping_writes (.nested rfl), ?_⟩
  have hread : (DoorAdapterConfig.fromEnv sampleYamlEnv.toLoadEnv doorEnviron).toOption.map
      DoorAdapterConfig.doors = some ["lobby", "gate"] := by decide +kernel
  obtain ⟨config, hconfig, hdoors⟩ := Option.map_eq_some_iff.mp hread
  exact ⟨config, ok_of_toOption hconfig, hdoors⟩

end QuikSync
