import QuikSyncAdapters.Client.WsBackoff
import QuikSyncAdapters.Config

/-! The configured reconnect base from the configuration to the sleeps of the subscriptions:
the clients are built without it, and back off from the base of the library. -/

namespace QuikSync

open Client Py Fallible

def numberOf : Json → Option ℚ
  | .bool b => some b.toNat
  | .int n => some n
  | .float (.finite q) => some q
  | _ => none

def freshSubscriptions (ws : QuikSyncWsClient) (endpoints : ℕ → String × Option String) :
    WsShared :=
  ⟨ws, fun j => .new ws.config (endpoints j).1 (endpoints j).2⟩

/-- Right before its `k`-th reconnect in a row, every subscription of the client sleeps the base `r`
doubled `k - 1` times and capped at 30 seconds, up to the jitter. -/
structure HonoursBase (r : ℚ) (ws : QuikSyncWsClient) : Prop where
  paced : ∀ endpoints is k,
    PacedBySleeps (ownEffects k (sharedMachine.log (freshSubscriptions ws endpoints) is))
  within : ∀ endpoints is k pre post d,
    ownEffects k (sharedMachine.log (freshSubscriptions ws endpoints) is) =
      pre ++ .sleep d :: post →
    WithinJitter (min (r * 2 ^ sleepsSince pre) 30) d

theorem startUp_ws {a : Adapter} {env : LoadEnv} {data : Dict} {config : ConnectionConfig}
    {clients : Clients} (h : a.startUp env data = .ok (config, clients)) :
    ∃ baseUrl, clients.ws = .new { baseUrl } := by
  obtain ⟨-, hbuilt⟩ := startUp_ok h
  unfold ConnectionConfig.buildClients at hbuilt
  obtain ⟨_, -, hbuilt⟩ := bind_eq_ok.mp hbuilt
  obtain ⟨baseUrl, -, hbuilt⟩ := bind_eq_ok.mp hbuilt
  obtain rfl := Except.ok.inj hbuilt
  exact ⟨baseUrl, rfl⟩

theorem honoursBase_one (baseUrl : String) : HonoursBase 1 (.new { baseUrl }) where
  paced := fun _ is k => pacedBySleeps (fun _ => rfl) is k
  within := by
    intro endpoints is k pre post d hown
    have hzero : 0 ≤ ({ baseUrl } : WsConfig).backoffBaseSeconds := zero_le_one
    have hbase : ({ baseUrl } : WsConfig).backoffBaseSeconds ≤
        ({ baseUrl } : WsConfig).backoffMaxSeconds := by norm_num
    obtain ⟨random, rfl⟩ := sleep_eq_delay hzero hbase hown
    apply jitteredBackoff_within
    exact le_min (by positivity) (by norm_num)

def firstFailure (random : Draw) : List SharedInput :=
  [.subscription 0 (.resume (.ok "token")), .subscription 0 (.failed random)]

theorem firstFailure_effects (baseUrl : String) (random : Draw) :
    ∃ pre, sleepsSince pre = 0 ∧
      ownEffects 0 (sharedMachine.log
          (freshSubscriptions (.new { baseUrl }) fun _ => ("/state", none)) (firstFailure random)) =
        pre ++ [.sleep (QuikSyncWsClient.jitteredBackoff 1 random)] := by
  refine ⟨[.getToken false, .connect _, .attempted .failed], rfl, rfl⟩

theorem jitteredBackoff_one (random : Draw) :
    QuikSyncWsClient.jitteredBackoff 1 random = 3 / 4 + random.val / 2 := by
  have hrandom := random.property.1
  have hjitter : 1 + 1 * (1 / 4) * (random.val * 2 - 1) = 3 / 4 + random.val / 2 := by ring
  have hfloor : 1 / 10 ≤ 3 / 4 + random.val / 2 := by linarith
  unfold QuikSyncWsClient.jitteredBackoff
  dsimp only
  rw [hjitter, max_eq_left hfloor]

section Base

variable {r : ℚ} {baseUrl : String} (h : HonoursBase r (.new { baseUrl })) (hhigh : r ≤ 30)

include h hhigh

theorem HonoursBase.first (random : Draw) : WithinJitter r (3 / 4 + random.val / 2) := by
  obtain ⟨pre, hpre, hown⟩ := firstFailure_effects baseUrl random
  have hwithin := h.within (fun _ => ("/state", none)) (firstFailure random) 0 pre [] _ hown
  rwa [hpre, pow_zero, mul_one, min_eq_left hhigh, jitteredBackoff_one] at hwithin

theorem HonoursBase.le_one : r ≤ 1 := by
  have hfirst := (h.first hhigh default).1
  have hdraw : (default : Draw).val = 0 := rfl
  rw [hdraw] at hfirst
  linarith [(le_max_left (3 / 4 * r) (1 / 10)).trans hfirst]

theorem HonoursBase.one_le (hlow : 1 / 5 ≤ r) : 1 ≤ r := by
  by_contra hlt
  rw [not_le] at hlt
  -- a draw between the one that reaches `5 / 4 * r` and 1
  have hdraw : max 0 ((5 * r - 1) / 4) < 1 := max_lt zero_lt_one (by linarith)
  have hfirst := (h.first hhigh ⟨max 0 ((5 * r - 1) / 4), le_max_left _ _, hdraw⟩).2
  have hbound : max (5 / 4 * r) (1 / 10) = 5 / 4 * r := max_eq_left (by linarith)
  rw [hbound] at hfirst
  linarith [le_max_right 0 ((5 * r - 1) / 4)]

end Base

/-- The sleeps honour the configured base only if it is the one that the clients are built
with anyway. -/
theorem honours_base_iff (a : Adapter) (env : LoadEnv) (data : Dict) (config : ConnectionConfig)
    (clients : Clients) (r : ℚ) (hstart : a.startUp env data = .ok (config, clients))
    (hbase : numberOf config.stateSubscribeReconnectSeconds = some r) (hlow : 1 / 5 ≤ r)
    (hhigh : r ≤ 30) : HonoursBase r clients.ws ↔ r = 1 := by
  obtain ⟨baseUrl, hws⟩ := startUp_ws hstart
  rw [hws]
  constructor
  · intro h
    exact le_antisymm (h.le_one hhigh) (h.one_le hhigh hlow)
  · rintro rfl
    exact honoursBase_one baseUrl

def plainEnv : LoadEnv := ⟨fun path => .missing path, fun _ => "", fun _ => true⟩

def doorConfig (seconds : Json) : Dict :=
  [("base_url", .str "https://host"), ("auth0_tenant", .str "t"), ("auth0_audience", .str "a"),
    ("auth0_client_id", .str "c"), ("auth0_client_secret", .str "s"),
    ("auth0_organization", .str "o"), ("doors", .arr [.str "front", .str "back"]),
    ("state_subscribe_reconnect_seconds", seconds)]

theorem startUp_doorConfig (n : ℤ) :
    ∃ config clients, Adapter.door.startUp plainEnv (doorConfig (.int n)) = .ok (config, clients) ∧
      config.stateSubscribeReconnectSeconds = .int n := by
  refine ⟨_, _, rfl, rfl⟩

theorem honours_base_iff_witness :
    ∃ config clients, Adapter.door.startUp plainEnv (doorConfig (.int 5)) = .ok (config, clients) ∧
      (HonoursBase 5 clients.ws ↔ (5 : ℚ) = 1) := by
  obtain ⟨config, clients, hstart, hseconds⟩ := startUp_doorConfig 5
  have hbase : numberOf config.stateSubscribeReconnectSeconds = some 5 := by
    rw [hseconds]
    rfl
  exact ⟨config, clients, hstart, honours_base_iff .door plainEnv _ config clients 5 hstart hbase
    (by norm_num) (by norm_num)⟩

/-- A door adapter told to wait five seconds waits one. -/
theorem configured_base_ignored :
    ¬ ∀ (a : Adapter) (env : LoadEnv) (data : Dict) (config : ConnectionConfig)
        (clients : Clients) (r : ℚ), a.startUp env data = .ok (config, clients) →
      numberOf config.stateSubscribeReconnectSeconds = some r → 1 / 5 ≤ r → r ≤ 30 →
      HonoursBase r clients.ws := by
  intro hall
  obtain ⟨config, clients, hstart, hseconds⟩ := startUp_doorConfig 5
  have hbase : numberOf config.stateSubscribeReconnectSeconds = some 5 := by
    rw [hseconds]
    rfl
  have hhonours := hall .door plainEnv _ config clients 5 hstart hbase (by norm_num) (by norm_num)
  obtain ⟨baseUrl, hws⟩ := startUp_ws hstart
  rw [hws] at hhonours
  have hone : (5 : ℚ) ≤ 1 := hhonours.le_one (by norm_num)
  norm_num at hone

end QuikSync
