import QuikSyncAdapters.Client.HttpRetry
import QuikSyncAdapters.Client.TokenRuns

/-! One token client behind the requests of a REST client and the calls of the other threads,
which may come between any two calls of a request: every request carries a token that is current,
and none that was taken before a refused one was renewed. -/

namespace QuikSync.Client

open Py Auth0M2MClient

section Shared

variable {config : AuthConfig}

/-- The state is the calls so far. An event has the calls of other threads that the lock lets in
first. -/
def TokenClient.shared (config : AuthConfig) : TokenClient where
  State := List (TokenCall config)
  Event := List (TokenCall config) × World config
  getToken calls forceRefresh e :=
    let before := calls ++ e.1
    let i : TokenCall config := ⟨forceRefresh, e.2⟩
    (before ++ [i],
      ((tokenMachine config).step ((tokenMachine config).after (fresh config) before) i).2.2)

theorem getToken_shared_alone (calls : List (TokenCall config)) (forceRefresh : Bool)
    (w : World config) :
    (TokenClient.auth0 config).getToken ((tokenMachine config).after (fresh config) calls)
        forceRefresh w =
      let answered := (TokenClient.shared config).getToken calls forceRefresh ([], w)
      ((tokenMachine config).after (fresh config) answered.1, answered.2) := by
  dsimp only [TokenClient.shared]
  rw [List.append_nil, Machine.after_append]
  rfl

abbrev history (calls : List (TokenCall config)) : List (TokenCall config × TokenAnswer) :=
  (tokenMachine config).log (fresh config) calls

/-- The token is minted by the call, or the unexpired one of the last successful mint before. -/
def Current (past : List (TokenCall config × TokenAnswer)) (i : TokenCall config)
    (o : TokenAnswer) (token : Json) : Prop :=
  (o.1.isSome = true ∧ ∃ ttl, Grants i.world.answer token ttl) ∨
    (o.1 = none ∧ ∃ mintedAt ttl, LastMinted past token mintedAt ttl ∧
      i.world.now < mintedAt + ttl)

/-- Among the calls after the first `n`, one minted the token. -/
def MintedFrom (n : ℕ) (log : List (TokenCall config × TokenAnswer)) (token : Json) : Prop :=
  ∃ past i request post, log = past ++ (i, some request, .ok token) :: post ∧ n ≤ past.length

theorem MintedFrom.append {n : ℕ} {log : List (TokenCall config × TokenAnswer)} {token : Json}
    (h : MintedFrom n log token) (more : List (TokenCall config × TokenAnswer)) :
    MintedFrom n (log ++ more) token := by
  obtain ⟨past, i, request, post, rfl, hn⟩ := h
  exact ⟨past, i, request, post ++ more, by simp, hn⟩

theorem length_history (calls : List (TokenCall config)) :
    (history calls).length = calls.length := by
  rw [← List.length_map (f := Prod.fst), Machine.log_map_fst]

theorem history_concat (calls : List (TokenCall config)) (i : TokenCall config) :
    history (calls ++ [i]) = history calls ++
      [(i, ((tokenMachine config).step ((tokenMachine config).after (fresh config) calls) i).2)] := by
  unfold history
  rw [Machine.log_append]
  rfl

theorem shared_answer (calls : List (TokenCall config)) (forceRefresh : Bool)
    (e : (TokenClient.shared config).Event) {token : Json}
    (h : ((TokenClient.shared config).getToken calls forceRefresh e).2 = .ok token) :
    ∃ past i o, history ((TokenClient.shared config).getToken calls forceRefresh e).1 =
        past ++ [(i, o)] ∧
      calls.length ≤ past.length ∧ o.2 = .ok token ∧ Current past i o token := by
  set before := calls ++ e.1 with hbefore
  set i : TokenCall config := ⟨forceRefresh, e.2⟩
  have hstep := token_step ((tokenMachine config).after (fresh config) before) i
  refine ⟨history before, i, _, history_concat before i, ?_, h, ?_⟩
  · rw [length_history, hbefore, List.length_append]
    exact Nat.le_add_right _ _
  · exact returned_sound (remembers_run before) hstep h

/-! ### After a renewal -/

def Renewed (n : ℕ) (calls : List (TokenCall config)) : Prop :=
  ∀ cached, ((tokenMachine config).after (fresh config) calls).1 = some cached →
    MintedFrom n (history calls) cached.accessToken

theorem after_concat (calls : List (TokenCall config)) (i : TokenCall config) :
    (tokenMachine config).after (fresh config) (calls ++ [i]) =
      ((tokenMachine config).step ((tokenMachine config).after (fresh config) calls) i).1 := by
  rw [Machine.after_append]
  rfl

section Step

variable {n : ℕ} {calls : List (TokenCall config)} {i : TokenCall config}

theorem mintedFrom_of_granted (hn : n ≤ calls.length) {q : Memory} {request : MintRequest}
    {token : Json}
    (h : (tokenMachine config).step ((tokenMachine config).after (fresh config) calls) i =
      (q, some request, .ok token)) : MintedFrom n (history (calls ++ [i])) token := by
  rw [history_concat, h]
  exact ⟨history calls, i, request, [], rfl, by rwa [length_history]⟩

theorem renewed_concat (hn : n ≤ calls.length) (h : Renewed n calls) :
    Renewed n (calls ++ [i]) := by
  unfold Renewed
  rw [after_concat]
  have hkept : ∀ cached, ((tokenMachine config).after (fresh config) calls).1 = some cached →
      MintedFrom n (history (calls ++ [i])) cached.accessToken := by
    intro cached hcached
    rw [history_concat]
    exact (h cached hcached).append _
  have hstep := token_step ((tokenMachine config).after (fresh config) calls) i
  generalize hr : (tokenMachine config).step ((tokenMachine config).after (fresh config) calls) i =
    r at hstep
  cases hstep with
  | cached cached hcached hvalid => exact hkept
  | granted request token ttl hgrants haccount =>
    intro cached hcached
    obtain rfl := Option.some.inj hcached
    exact mintedFrom_of_granted hn hr
  | counted request e hfailure haccount => exact hkept
  | uncounted request e n' haccount => exact hkept

theorem renewed_append (hn : n ≤ calls.length) (h : Renewed n calls)
    (more : List (TokenCall config)) : Renewed n (calls ++ more) := by
  induction more generalizing calls with
  | nil => rwa [List.append_nil]
  | cons i more ih =>
    have hstep := ih (Nat.le_trans hn (List.sublist_append_left calls [i]).length_le)
      (renewed_concat hn h)
    rwa [List.append_assoc] at hstep

theorem mintedFrom_of_renewed (hn : n ≤ calls.length) (h : Renewed n calls) {token : Json}
    (htoken : ((tokenMachine config).step
      ((tokenMachine config).after (fresh config) calls) i).2.2 = .ok token) :
    MintedFrom n (history (calls ++ [i])) token := by
  have hstep := token_step ((tokenMachine config).after (fresh config) calls) i
  generalize hr : (tokenMachine config).step ((tokenMachine config).after (fresh config) calls) i =
    r at hstep htoken
  cases hstep with
  | cached cached hcached hvalid =>
    obtain rfl := Except.ok.inj htoken
    rw [history_concat]
    exact (h cached hcached).append _
  | granted request token' ttl hgrants haccount =>
    obtain rfl := Except.ok.inj htoken
    exact mintedFrom_of_granted hn hr
  | counted request e hfailure haccount => cases htoken
  | uncounted request e n' haccount => cases htoken

theorem renewed_of_forced (hn : n ≤ calls.length) (hforced : i.forceRefresh = true) {token : Json}
    (htoken : ((tokenMachine config).step
      ((tokenMachine config).after (fresh config) calls) i).2.2 = .ok token) :
    Renewed n (calls ++ [i]) := by
  unfold Renewed
  rw [after_concat]
  have hmints : ((tokenMachine config).step
      ((tokenMachine config).after (fresh config) calls) i).2.1.isSome = true :=
    sends_of_forced _ hforced
  have hstep := token_step ((tokenMachine config).after (fresh config) calls) i
  generalize hr : (tokenMachine config).step ((tokenMachine config).after (fresh config) calls) i =
    r at hstep htoken hmints
  cases hstep with
  | cached cached hcached hvalid => cases hmints
  | granted request token' ttl hgrants haccount =>
    intro cached hcached
    obtain rfl := Option.some.inj hcached
    exact mintedFrom_of_granted hn hr
  | counted request e hfailure haccount => cases htoken
  | uncounted request e n' haccount => cases htoken

end Step

/-! ### Requests -/

theorem authAt_succ {T : TokenClient} (world : ℕ → AttemptWorld T) (auth : T.State) (a : ℕ) :
    authAt world auth (a + 1) =
      if a = 0 ∧ (outcomeAt world auth a).status = some 401 then
        (T.getToken (T.getToken (authAt world auth a) false (world a).token).1 true
          (world a).refresh).1
      else (T.getToken (authAt world auth a) false (world a).token).1 := rfl

section Requests

variable (http : HttpConfig) (call : ApiCall)
  (world : ℕ → AttemptWorld (TokenClient.shared config)) (calls : List (TokenCall config))

def beforeAt (a : ℕ) : List (TokenCall config) :=
  List.append (authAt world calls a) (world a).token.1

/-- The calls up to the `get_token()` of an attempt. -/
def askedAt (a : ℕ) : List (TokenCall config) :=
  ((TokenClient.shared config).getToken (authAt world calls a) false (world a).token).1

theorem getToken_prefix (forceRefresh : Bool) (e : (TokenClient.shared config).Event) :
    calls.IsPrefix ((TokenClient.shared config).getToken calls forceRefresh e).1 := by
  show calls.IsPrefix (calls ++ e.1 ++ [_])
  rw [List.append_assoc]
  exact List.prefix_append _ _

theorem length_lt_getToken (forceRefresh : Bool) (e : (TokenClient.shared config).Event) :
    calls.length < ((TokenClient.shared config).getToken calls forceRefresh e).1.length := by
  show calls.length < (calls ++ e.1 ++ [_]).length
  rw [List.length_append, List.length_append]
  exact Nat.lt_succ_of_le (Nat.le_add_right _ _)

theorem askedAt_extends (a : ℕ) :
    (askedAt world calls a).IsPrefix (authAt world calls (a + 1)) := by
  rw [authAt_succ (T := .shared config) world calls a]
  split_ifs with hrefused
  · exact getToken_prefix _ true (world a).refresh
  · exact List.prefix_rfl

theorem authAt_extends {a b : ℕ} (h : a ≤ b) :
    (authAt world calls a).IsPrefix (authAt world calls b) := by
  induction b, h using Nat.le_induction with
  | base => exact List.prefix_rfl
  | succ b _ ih =>
    have hasked : (authAt world calls b).IsPrefix (askedAt world calls b) :=
      getToken_prefix _ false (world b).token
    exact ih.trans (hasked.trans (askedAt_extends world calls b))

variable {http call world calls}

theorem token_of_sent {b : ℕ} {r : HttpRequest}
    (h : (recordAt http call world calls b).sent = some r) :
    tokenAt world calls b = .ok r.bearer := by
  have hsent : (tokenAt world calls b).toOption.map call.request = some r := h
  obtain ⟨token, htoken, rfl⟩ := Option.map_eq_some_iff.mp hsent
  exact Fallible.ok_of_toOption htoken

/-- What the requests of a run carry that starts after `start` calls to the token client and whose
first attempt has its token after `asked` of them; `calls'` are those up to the end. -/
structure CarriesTokens (start asked : ℕ) (records : List AttemptRecord)
    (calls' : List (TokenCall config)) : Prop where
  later : start < asked
  -- each request carries what a call since the start of the run has returned, which was current
  -- then
  current : ∀ a ∈ records, ∀ r, a.sent = some r → ∃ past i o post,
    history calls' = past ++ (i, o) :: post ∧ start ≤ past.length ∧ o.2 = .ok r.bearer ∧
      Current past i o r.bearer
  -- once the first attempt is refused, none carries a token minted before its own was taken
  renewed : ∀ first a, records[0]? = some first → first.status = some 401 →
    ∀ b, records[b + 1]? = some a → ∀ r, a.sent = some r →
      MintedFrom asked (history calls') r.bearer

theorem history_append {calls' : List (TokenCall config)} (h : calls.IsPrefix calls') :
    ∃ more, history calls' = history calls ++ more := by
  obtain ⟨rest, rfl⟩ := h
  exact ⟨_, Machine.log_append _ _ calls rest⟩

theorem renewed_of_passes (h401 : (outcomeAt world calls 0).status = some 401)
    (hpass : Passes http 0 (outcomeAt world calls 0) (refreshAt world calls 0)) :
    Renewed (askedAt world calls 0).length (authAt world calls 1) := by
  obtain ⟨htransient, -⟩ | ⟨-, token, htoken⟩ := hpass
  · rw [not_transient_of_status h401 (by norm_num)] at htransient
    cases htransient
  · rw [authAt_succ (T := .shared config) world calls 0, if_pos ⟨rfl, h401⟩]
    refine renewed_of_forced ?_ rfl htoken
    exact (List.sublist_append_left (askedAt world calls 0) (world 0).refresh.1).length_le

theorem record_of_get {α : Type} {f : ℕ → α} {k j : ℕ} {a : α}
    (h : ((List.range k).map f)[j]? = some a) : j < k ∧ a = f j := by
  rw [List.getElem?_map] at h
  obtain ⟨j', hj', rfl⟩ := Option.map_eq_some_iff.mp h
  obtain ⟨hlt, rfl⟩ := List.getElem?_eq_some_iff.mp hj'
  rw [List.length_range] at hlt
  exact ⟨hlt, congrArg f (List.getElem_range _)⟩

/-- Whatever the other threads do between the calls of a request. -/
theorem requests_carry_tokens (http : HttpConfig) (call : ApiCall)
    (world : ℕ → AttemptWorld (TokenClient.shared config)) (calls : List (TokenCall config)) :
    CarriesTokens calls.length (askedAt world calls 0).length
      (requestJson http call world calls).records (requestJson http call world calls).state := by
  obtain ⟨k, hrecords, hstate, hpass⟩ := requestJson_stops http call world calls
  -- every call of an attempt stands in the history at the end
  have hlast : ∀ b < k, (askedAt world calls b).IsPrefix (authAt world calls k) := fun b hb =>
    (askedAt_extends world calls b).trans (authAt_extends world calls hb)
  rw [hrecords, hstate]
  refine ⟨length_lt_getToken calls false (world 0).token, ?_, ?_⟩
  · intro a ha r hr
    obtain ⟨b, hb, rfl⟩ := List.mem_map.mp ha
    obtain ⟨past, i, o, hlog, hn, hanswer, hcurrent⟩ :=
      shared_answer (authAt world calls b) false (world b).token (token_of_sent hr)
    obtain ⟨more, hmore⟩ := history_append (hlast b (List.mem_range.mp hb))
    refine ⟨past, i, o, more, ?_, ?_, hanswer, hcurrent⟩
    · have hasked : history (askedAt world calls b) = past ++ [(i, o)] := hlog
      rw [hmore, hasked, List.append_assoc, List.singleton_append]
    · exact (authAt_extends world calls (Nat.zero_le b)).length_le.trans hn
  · intro first a hfirst h401 b ha r hr
    obtain ⟨-, rfl⟩ := record_of_get hfirst
    obtain ⟨hb, rfl⟩ := record_of_get ha
    have hrenewed := renewed_of_passes h401 (hpass 0 (Nat.lt_of_le_of_lt (Nat.le_add_left 1 b) hb))
    have hn : (askedAt world calls 0).length ≤ (authAt world calls 1).length :=
      (askedAt_extends world calls 0).length_le
    -- the others' calls since the renewal, and those of the attempts between, keep it
    obtain ⟨rest, hrest⟩ := authAt_extends world calls (Nat.le_add_left 1 b)
    have hbefore : beforeAt world calls (b + 1) =
        List.append (authAt world calls 1) (rest ++ (world (b + 1)).token.1) := by
      unfold beforeAt
      rw [← hrest]
      exact List.append_assoc _ _ _
    have hkept : Renewed (askedAt world calls 0).length (beforeAt world calls (b + 1)) := by
      rw [hbefore]
      exact renewed_append hn hrenewed _
    have hn' : (askedAt world calls 0).length ≤ (beforeAt world calls (b + 1)).length := by
      rw [hbefore]
      exact hn.trans (List.sublist_append_left _ _).length_le
    obtain ⟨more, hmore⟩ := history_append (hlast (b + 1) hb)
    rw [hmore]
    exact (mintedFrom_of_renewed hn' hkept (token_of_sent hr)).append more

end Requests

end Shared

end QuikSync.Client
