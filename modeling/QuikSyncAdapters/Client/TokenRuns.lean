import QuikSyncAdapters.Library.Machine
import QuikSyncAdapters.Library.Fallible
import QuikSyncAdapters.Client.MintOutcomes
import Mathlib.Tactic.Linarith
import Mathlib.Tactic.NormNum

/-! The token client over whole runs of `get_token`, forced and unforced, whatever the clock
and the jitter show and whatever Auth0 answers: what the cache holds, what is returned and
what the failure counter counts. -/

namespace QuikSync.Client.Auth0M2MClient

open Py Fallible

/-! ### The client as a machine -/

structure TokenCall (config : AuthConfig) where
  forceRefresh : Bool
  world : World config

abbrev Memory := Option CachedToken × ℕ

/-- The mint that a call sends, if it sends one, and what it returns or raises. -/
abbrev TokenAnswer := Option MintRequest × Except Exc Json

variable {config : AuthConfig}

def clientOf (config : AuthConfig) (q : Memory) : Auth0M2MClient := ⟨config, q.1, q.2⟩

def memory (c : Auth0M2MClient) : Memory := (c.cached, c.consecutiveFailures)

def tokenMachine (config : AuthConfig) : Machine Memory (TokenCall config) TokenAnswer where
  step q i :=
    let r := (clientOf config q).getToken i.forceRefresh i.world
    (r.1.memory, r.2)

def fresh (config : AuthConfig) : Memory := (new config).memory

/-- A call returns the unexpired token it finds, or mints: it stores what it is granted,
counts its failure, or lets an exception through uncounted. -/
inductive TokenStep (q : Memory) (i : TokenCall config) : Memory × TokenAnswer → Prop where
  | cached (cached : CachedToken) (hcached : q.1 = some cached)
      (hvalid : i.world.now < cached.expiresAtUnix) : TokenStep q i
        (q, none, .ok cached.accessToken)
  | granted (request : MintRequest) (token : Json) (ttl : ℤ)
      (hgrants : Grants i.world.answer token ttl) (haccount : Accountable i.world.answer) :
      TokenStep q i ((some ⟨token, i.world.mintedAt + ttl⟩, 0), some request, .ok token)
  | counted (request : MintRequest) (e : Exc) (hfailure : e.isMintFailure = true)
      (haccount : Accountable i.world.answer) :
      TokenStep q i ((q.1, q.2 + 1), some request, .error e)
  | uncounted (request : MintRequest) (e : Py.Error) (n : ℕ)
      (haccount : ¬ Accountable i.world.answer) :
      TokenStep q i ((q.1, n), some request, .error (.builtin e))

theorem unexpired_of_not_refresh {cached : CachedToken} {w : World config}
    (h : shouldRefresh config cached w.now w.now' w.jitter = false) :
    w.now < cached.expiresAtUnix := by
  by_contra hexpired
  have hremaining : cached.expiresAtUnix - w.now ≤ 0 := by linarith
  have hrefresh : shouldRefresh config cached w.now w.now' w.jitter = true := if_pos hremaining
  exact Bool.false_ne_true (h.symm.trans hrefresh)

theorem token_step (q : Memory) (i : TokenCall config) :
    TokenStep q i ((tokenMachine config).step q i) := by
  have hstep : (tokenMachine config).step q i =
      (((clientOf config q).getToken i.forceRefresh i.world).1.memory,
        ((clientOf config q).getToken i.forceRefresh i.world).2) := rfl
  rw [hstep]
  rcases getToken_result (clientOf config q) i.forceRefresh i.world with
    ⟨-, hmint⟩ | ⟨-, cached, hcached, hvalid, hhit⟩
  · rw [hmint]
    have hmintStep := mintLocked_step (clientOf config q) i.world.answer i.world.mintedAt
    generalize (clientOf config q).mintLocked i.world.answer i.world.mintedAt = r at hmintStep
    cases hmintStep with
    | granted token ttl hgrants haccount => exact .granted _ token ttl hgrants haccount
    | counted e hfailure _ _ haccount => exact .counted _ e hfailure haccount
    | uncounted e n _ haccount => exact .uncounted _ e n haccount
  · rw [hhit]
    exact .cached cached hcached (unexpired_of_not_refresh hvalid)

theorem sends_of_forced (q : Memory) {i : TokenCall config} (h : i.forceRefresh = true) :
    ((tokenMachine config).step q i).2.1.isSome = true := by
  obtain ⟨-, hmint⟩ | ⟨hnot, -⟩ := getToken_result (clientOf config q) i.forceRefresh i.world
  · show ((clientOf config q).getToken i.forceRefresh i.world).2.1.isSome = true
    rw [hmint]
    rfl
  · exact absurd (Or.inl h) hnot

/-! ### The cache -/

def Succeeded (p : TokenCall config × TokenAnswer) : Prop :=
  p.2.1.isSome = true ∧ ∃ token, p.2.2 = .ok token

def LastMinted (log : List (TokenCall config × TokenAnswer)) (token : Json) (mintedAt : ℚ)
    (ttl : ℤ) : Prop :=
  ∃ pre i request post, log = pre ++ (i, some request, .ok token) :: post ∧
    (∀ p ∈ post, ¬ Succeeded p) ∧ Grants i.world.answer token ttl ∧ i.world.mintedAt = mintedAt

theorem LastMinted.append {log : List (TokenCall config × TokenAnswer)} {token : Json}
    {mintedAt : ℚ} {ttl : ℤ} (h : LastMinted log token mintedAt ttl)
    {p : TokenCall config × TokenAnswer} (hp : ¬ Succeeded p) :
    LastMinted (log ++ [p]) token mintedAt ttl := by
  obtain ⟨pre, i, request, post, rfl, hpost, hgrants, hminted⟩ := h
  refine ⟨pre, i, request, post ++ [p], by simp, ?_, hgrants, hminted⟩
  intro r hr
  rcases List.mem_append.mp hr with hr | hr
  · exact hpost r hr
  · rw [List.mem_singleton.mp hr]
    exact hp

theorem LastMinted.usable {log : List (TokenCall config × TokenAnswer)} {token : Json}
    {mintedAt : ℚ} {ttl : ℤ} (h : LastMinted log token mintedAt ttl) :
    token.truthy = true ∧ 0 < ttl := by
  obtain ⟨_, _, _, _, _, _, ⟨_, _, _, _, htoken, hpos, _⟩, _⟩ := h
  exact ⟨htoken, hpos⟩

def Remembers (q : Memory) (log : List (TokenCall config × TokenAnswer)) : Prop :=
  ∀ cached, q.1 = some cached → ∃ mintedAt ttl, LastMinted log cached.accessToken mintedAt ttl ∧
    cached.expiresAtUnix = mintedAt + ttl

theorem remembers_step {q : Memory} {past : List (TokenCall config × TokenAnswer)}
    (h : Remembers q past) (i : TokenCall config) :
    Remembers ((tokenMachine config).step q i).1
      (past ++ [(i, ((tokenMachine config).step q i).2)]) := by
  have hstep := token_step q i
  generalize (tokenMachine config).step q i = r at hstep
  -- only a granted mint writes the cache, so every other call carries the memory on
  have hkept {o : TokenAnswer} (hfailed : ¬ Succeeded (i, o)) {n : ℕ} :
      Remembers (q.1, n) (past ++ [(i, o)]) := by
    intro cached hcached
    obtain ⟨mintedAt, ttl, hlast, hexpiry⟩ := h cached hcached
    exact ⟨mintedAt, ttl, hlast.append hfailed, hexpiry⟩
  cases hstep with
  | cached cached hcached hvalid =>
    apply hkept
    rintro ⟨hsent, -⟩
    cases hsent
  | granted request token ttl hgrants haccount =>
    intro cached hcached
    obtain rfl := Option.some.inj hcached
    exact ⟨i.world.mintedAt, ttl, ⟨past, i, request, [], rfl, by simp, hgrants, rfl⟩, rfl⟩
  | counted request e hfailure haccount =>
    apply hkept
    rintro ⟨-, token, htoken⟩
    cases htoken
  | uncounted request e n haccount =>
    apply hkept
    rintro ⟨-, token, htoken⟩
    cases htoken

theorem remembers_run (calls : List (TokenCall config)) :
    Remembers ((tokenMachine config).after (fresh config) calls)
      ((tokenMachine config).log (fresh config) calls) := by
  apply Machine.run_invariant (A := fun _ => True)
  · exact fun q past i _ h => remembers_step h i
  · intro cached hcached
    cases hcached
  · exact fun _ _ => trivial

theorem returned_sound {q q' : Memory} {past : List (TokenCall config × TokenAnswer)}
    {i : TokenCall config} {o : TokenAnswer} (hpast : Remembers q past)
    (hstep : TokenStep q i (q', o)) {token : Json} (htoken : o.2 = .ok token) :
    (o.1.isSome = true ∧ ∃ ttl, Grants i.world.answer token ttl) ∨
      (o.1 = none ∧ ∃ mintedAt ttl, LastMinted past token mintedAt ttl ∧
        i.world.now < mintedAt + ttl) := by
  cases hstep with
  | cached cached hcached hvalid =>
    obtain ⟨mintedAt, ttl, hlast, hexpiry⟩ := hpast cached hcached
    obtain rfl := Except.ok.inj htoken
    rw [hexpiry] at hvalid
    exact .inr ⟨rfl, mintedAt, ttl, hlast, hvalid⟩
  | granted request token' ttl hgrants haccount =>
    obtain rfl := Except.ok.inj htoken
    exact .inl ⟨rfl, ttl, hgrants⟩
  | counted request e hfailure haccount => cases htoken
  | uncounted request e n haccount => cases htoken

theorem cache_kept {q q' : Memory} {i : TokenCall config} {o : TokenAnswer}
    (hstep : TokenStep q i (q', o)) (hsent : o.1.isSome = true) (hraised : ∃ e, o.2 = .error e) :
    q'.1 = q.1 := by
  obtain ⟨e, he⟩ := hraised
  cases hstep with
  | cached cached hcached hvalid => cases hsent
  | granted request token ttl hgrants haccount => cases he
  | counted request e' hfailure haccount => rfl
  | uncounted request e' n haccount => rfl

/-- Whatever the clock and the jitter show: a returned token was minted by the call or is the
unexpired one of the last successful mint, a failed mint leaves the cache alone, and the
cache holds nothing but usable tokens of positive lifetime. -/
theorem token_cache_sound (config : AuthConfig) (calls : List (TokenCall config)) :
    let M := tokenMachine config
    (∀ pre i o post, M.log (fresh config) calls = pre ++ (i, o) :: post →
      (∀ token, o.2 = .ok token →
        (o.1.isSome = true ∧ ∃ ttl, Grants i.world.answer token ttl) ∨
        (o.1 = none ∧ ∃ mintedAt ttl, LastMinted pre token mintedAt ttl ∧
          i.world.now < mintedAt + ttl)) ∧
      (o.1.isSome = true → (∃ e, o.2 = .error e) →
        (M.after (fresh config) (pre.map Prod.fst ++ [i])).1 =
          (M.after (fresh config) (pre.map Prod.fst)).1)) ∧
    ∀ cached, (M.after (fresh config) calls).1 = some cached →
      cached.accessToken.truthy = true ∧ ∃ mintedAt ttl,
        LastMinted (M.log (fresh config) calls) cached.accessToken mintedAt ttl ∧ 0 < ttl ∧
          cached.expiresAtUnix = mintedAt + ttl := by
  intro M
  constructor
  · intro pre i o post hlog
    obtain ⟨hpre, ho, -⟩ := Machine.log_eq_append hlog
    have hpast : Remembers (M.after (fresh config) (pre.map Prod.fst)) pre := by
      have hrun : Remembers (M.after (fresh config) (pre.map Prod.fst))
          (M.log (fresh config) (pre.map Prod.fst)) := remembers_run (pre.map Prod.fst)
      rwa [← hpre] at hrun
    rw [Machine.after_append, Machine.after_cons, Machine.after_nil]
    set q := M.after (fresh config) (pre.map Prod.fst)
    have hstep : TokenStep q i ((M.step q i).1, o) := by
      rw [ho]
      exact token_step q i
    refine ⟨?_, cache_kept hstep⟩
    rintro token htoken
    exact returned_sound hpast hstep htoken
  · intro cached hcached
    obtain ⟨mintedAt, ttl, hlast, hexpiry⟩ := remembers_run calls cached hcached
    obtain ⟨htoken, hpos⟩ := hlast.usable
    exact ⟨htoken, mintedAt, ttl, hlast, hpos, hexpiry⟩

/-! ### The counter -/

def failedSince (log : List (TokenCall config × TokenAnswer)) : ℕ :=
  log.foldl (fun n p => match p.2 with
    | (none, _) => n
    | (some _, .ok _) => 0
    | (some _, .error _) => n + 1) 0

/-- Every call that mints returns a token and resets the counter, or raises what a mint is
documented to fail with and counts it; the counter is then the failures since a success. -/
def CountsExactly (config : AuthConfig) (calls : List (TokenCall config)) : Prop :=
  let M := tokenMachine config
  (∀ pre i post, calls = pre ++ i :: post →
    let q := M.after (fresh config) pre
    (M.step q i).2.1.isSome = true →
      (∃ token, (M.step q i).2.2 = .ok token ∧ token.truthy = true ∧ (M.step q i).1.2 = 0) ∨
      ∃ e, (M.step q i).2.2 = .error e ∧ e.isMintFailure = true ∧ (M.step q i).1.2 = q.2 + 1) ∧
  (M.after (fresh config) calls).2 = failedSince (M.log (fresh config) calls)

def AllAccountable (config : AuthConfig) (calls : List (TokenCall config)) : Prop :=
  ∀ pre i post, calls = pre ++ i :: post →
    ((tokenMachine config).step ((tokenMachine config).after (fresh config) pre) i).2.1.isSome =
      true → Accountable i.world.answer

theorem AllAccountable.of_append {calls later : List (TokenCall config)}
    (h : AllAccountable config (calls ++ later)) : AllAccountable config calls := by
  intro pre i post hsplit
  refine h pre i (post ++ later) ?_
  rw [hsplit, List.append_assoc, List.cons_append]

theorem counter_eq_failedSince {calls : List (TokenCall config)}
    (h : AllAccountable config calls) :
    ((tokenMachine config).after (fresh config) calls).2 =
      failedSince ((tokenMachine config).log (fresh config) calls) := by
  -- from the end of the run, where the counter and the log grow
  induction calls using List.reverseRecOn with
  | nil => rfl
  | append_singleton calls i ih =>
    have hcount := ih h.of_append
    have haccount := h calls i [] rfl
    rw [Machine.after_append, Machine.after_cons, Machine.after_nil, Machine.log_append,
      Machine.log_cons, Machine.log_nil]
    set q := (tokenMachine config).after (fresh config) calls
    have hstep := token_step q i
    generalize (tokenMachine config).step q i = r at hstep haccount
    unfold failedSince at hcount ⊢
    rw [List.foldl_append, ← hcount]
    cases hstep with
    | cached cached hcached hvalid => rfl
    | granted request token ttl hgrants haccount => rfl
    | counted request e hfailure haccount => rfl
    | uncounted request e n hunaccountable => exact absurd (haccount rfl) hunaccountable

theorem counts_exactly_iff (config : AuthConfig) (calls : List (TokenCall config)) :
    CountsExactly config calls ↔ AllAccountable config calls := by
  constructor
  · rintro ⟨hexact, -⟩ pre i post hsplit hmints
    have hcase := hexact pre i post hsplit hmints
    have hstep := token_step ((tokenMachine config).after (fresh config) pre) i
    generalize (tokenMachine config).step ((tokenMachine config).after (fresh config) pre) i = r
      at hstep hcase hmints
    cases hstep with
    | cached cached hcached hvalid => cases hmints
    | granted request token ttl hgrants haccount => exact haccount
    | counted request e hfailure haccount => exact haccount
    | uncounted request e n haccount =>
      rcases hcase with ⟨token, htoken, -⟩ | ⟨e', he', hfailure, -⟩
      · cases htoken
      · obtain rfl := Except.error.inj he'
        cases hfailure
  · intro haccountable
    refine ⟨fun pre i post hsplit hmints => ?_, counter_eq_failedSince haccountable⟩
    have haccount := haccountable pre i post hsplit hmints
    have hstep := token_step ((tokenMachine config).after (fresh config) pre) i
    generalize (tokenMachine config).step ((tokenMachine config).after (fresh config) pre) i = r
      at hstep hmints
    cases hstep with
    | cached cached hcached hvalid => cases hmints
    | granted request token ttl hgrants _ =>
      obtain ⟨-, -, -, -, htoken, -⟩ := hgrants
      exact Or.inl ⟨token, rfl, htoken, rfl⟩
    | counted request e hfailure _ => exact Or.inr ⟨e, rfl, hfailure, rfl⟩
    | uncounted request e n hunaccountable => exact absurd haccount hunaccountable

def sampleCall (now : ℚ) (answer : MintResponse) : TokenCall sampleConfig :=
  ⟨false, now, now, ⟨600, by decide⟩, answer, now⟩

/-- A 200 whose body is a list: `get` is not an attribute of it. -/
theorem list_body_uncounted :
    ¬ ∀ (config : AuthConfig) (calls : List (TokenCall config)), CountsExactly config calls := by
  intro h
  have hexact := (h sampleConfig [sampleCall 0 (.response 200 "[]" (.ok (.arr [])))]).1 [] _ [] rfl
  rcases hexact rfl with ⟨token, htoken, -⟩ | ⟨e, he, hfailure, -⟩
  · cases htoken
  · obtain rfl := Except.error.inj he
    cases hfailure

/-! ### A refresh ahead of the expiry -/

/-- An unforced call with a cached token, expired or not, returns it or a fresh one exactly when
no refresh is due or the mint is served: a failed refresh is raised. -/
theorem unexpired_served_iff (config : AuthConfig) (calls : List (TokenCall config))
    (cached : CachedToken) (w : World config)
    (hcached : ((tokenMachine config).after (fresh config) calls).1 = some cached) :
    (∃ token, ((tokenMachine config).step ((tokenMachine config).after (fresh config) calls)
        ⟨false, w⟩).2.2 = .ok token ∧
        (token = cached.accessToken ∨ ∃ ttl, Grants w.answer token ttl)) ↔
      shouldRefresh config cached w.now w.now' w.jitter = false ∨ Serves w.answer := by
  set q := (tokenMachine config).after (fresh config) calls
  have hstep : ((tokenMachine config).step q ⟨false, w⟩).2.2 =
      ((clientOf config q).getToken false w).2.2 := rfl
  rw [hstep]
  rcases getToken_result (clientOf config q) false w with
    ⟨hmints, hmint⟩ | ⟨-, cached', hcached', hvalid, hhit⟩
  · -- a refresh was due, and the call ends as its mint does
    have hrefresh : ¬ shouldRefresh config cached w.now w.now' w.jitter = false := by
      have hdue : shouldRefresh config cached w.now w.now' w.jitter = true :=
        hmints.resolve_left Bool.false_ne_true cached hcached
      simp [hdue]
    rw [hmint]
    have hmintStep := mintLocked_step (clientOf config q) w.answer w.mintedAt
    generalize (clientOf config q).mintLocked w.answer w.mintedAt = r at hmintStep
    cases hmintStep with
    | granted token ttl hgrants _ =>
      exact iff_of_true ⟨token, rfl, Or.inr ⟨ttl, hgrants⟩⟩
        (Or.inr (serves_iff_grants.mpr ⟨token, ttl, hgrants⟩))
    | counted e _ _ hserves _ =>
      refine iff_of_false ?_ (not_or.mpr ⟨hrefresh, hserves⟩)
      rintro ⟨token, htoken, -⟩
      cases htoken
    | uncounted e n hserves _ =>
      refine iff_of_false ?_ (not_or.mpr ⟨hrefresh, hserves⟩)
      rintro ⟨token, htoken, -⟩
      cases htoken
  · obtain rfl : cached = cached' := Option.some.inj (hcached.symm.trans hcached')
    rw [hhit]
    exact iff_of_true ⟨_, rfl, Or.inl rfl⟩ (Or.inl hvalid)

def hourGrant : MintResponse :=
  .response 200 "" (.ok (.obj [("access_token", .str "token"), ("expires_in", .int 3600)]))

theorem hourGrant_cached :
    ((tokenMachine sampleConfig).after (fresh sampleConfig) [sampleCall 0 hourGrant]).1 =
      some ⟨.str "token", 0 + (3600 : ℤ)⟩ := by
  have hfits : floatOfInt 3600 = .ok 3600 := ok_of_toOption (by decide +kernel)
  have hread : readPayload
      (.ok (.obj [("access_token", .str "token"), ("expires_in", .int 3600)])) =
        .ok (.str "token", 3600) := rfl
  have hmint := mintLocked_serves (clientOf sampleConfig (fresh sampleConfig)) "" 0 hread
    ⟨rfl, by decide, 3600, hfits⟩
  exact congrArg (fun r => r.1.cached) hmint

theorem unexpired_served_iff_witness :
    (∃ token, ((tokenMachine sampleConfig).step
        ((tokenMachine sampleConfig).after (fresh sampleConfig) [sampleCall 0 hourGrant])
        ⟨false, (sampleCall 3500 (.httpError "down")).world⟩).2.2 = .ok token ∧
        (token = .str "token" ∨ ∃ ttl, Grants (.httpError "down") token ttl)) ↔
      shouldRefresh sampleConfig ⟨.str "token", 0 + (3600 : ℤ)⟩ 3500 3500 ⟨600, by decide⟩ = false ∨
        Serves (.httpError "down") :=
  unexpired_served_iff sampleConfig [sampleCall 0 hourGrant] ⟨.str "token", 0 + (3600 : ℤ)⟩
    (sampleCall 3500 (.httpError "down")).world hourGrant_cached

/-- With 100 seconds of an hour left a refresh is due, and its failure is raised. -/
theorem failed_refresh_raised :
    ¬ ∀ (config : AuthConfig) (calls : List (TokenCall config)) (cached : CachedToken)
        (w : World config),
      ((tokenMachine config).after (fresh config) calls).1 = some cached →
      w.now < cached.expiresAtUnix →
      ∃ token, ((tokenMachine config).step ((tokenMachine config).after (fresh config) calls)
        ⟨false, w⟩).2.2 = .ok token := by
  intro h
  obtain ⟨token, htoken⟩ := h sampleConfig [sampleCall 0 hourGrant] _
    (sampleCall 3500 (.httpError "down")).world hourGrant_cached (by norm_num [sampleCall])
  have hdue : shouldRefresh sampleConfig ⟨.str "token", 0 + (3600 : ℤ)⟩ 3500 3500 ⟨600, by decide⟩ =
      true := by decide +kernel
  rcases getToken_result (clientOf sampleConfig ((tokenMachine sampleConfig).after
      (fresh sampleConfig) [sampleCall 0 hourGrant])) false
      (sampleCall 3500 (.httpError "down")).world with ⟨-, hmint⟩ | ⟨-, cached, hcached, hvalid, -⟩
  · have hraised : ((clientOf sampleConfig ((tokenMachine sampleConfig).after (fresh sampleConfig)
        [sampleCall 0 hourGrant])).mintLocked (.httpError "down") 3500).2 = .ok token :=
      (congrArg (fun r => r.2.2) hmint).symm.trans htoken
    rw [mintLocked_httpError] at hraised
    cases hraised
  · obtain rfl := Option.some.inj (hourGrant_cached.symm.trans hcached)
    exact Bool.false_ne_true (hvalid.symm.trans hdue)

end QuikSync.Client.Auth0M2MClient
