import QuikSyncAdapters.Client.WsBreaker
import QuikSyncAdapters.Client.WsSurvival

/-! The pace of a subscription: what one step can do, and from it that every reconnect comes
right after a sleep, the `n`-th in a row after `n` of them. -/

namespace QuikSync.Client

open Py

/-! ### What a step can do -/

def WsInput.draw : WsInput → Option Draw
  | .refused _ _ _ random => some random
  | .failed random => some random
  | .cleanClose random => some random
  | _ => none

def WsEffect.Quiet : WsEffect → Prop
  | .sleep _ | .connect _ | .attempted .connected => False
  | _ => True

inductive StepCase (c : QuikSyncWsClient) (s : Subscription) (i : WsInput) (r : WsStep) : Prop
  | stays (hs : r.subscription = s) (heffects : r.effects = [])
  | receives (hphase : s.phase = .streaming) (hs : r.subscription = s)
      (hquiet : ∀ a ∈ r.effects, a.Quiet)
  | ends (hfinished : r.subscription.phase.finished = true) (hquiet : ∀ a ∈ r.effects, a.Quiet)
  | starts (url : String) (hphase : s.phase = .unstarted)
      (hs : r.subscription = { s with phase := .connecting url })
      (heffects : r.effects = [.getToken false, .connect url])
  | wakes (url : String) (seconds : ℚ) (hphase : s.phase = .sleeping seconds)
      (hs : r.subscription =
        { s with
          backoff := min (s.backoff * 2) c.config.backoffMaxSeconds
          phase := .connecting url })
      (heffects : r.effects = [.getToken false, .connect url])
  | opens (hs : r.subscription =
        { s with backoff := c.config.backoffBaseSeconds, phase := .streaming })
      (heffects : r.effects = [.attempted .connected])
  | sleeps (random : Draw) (more : List WsEffect) (hends : EndsIteration s.phase i)
      (hdraw : i.draw = some random)
      (hs : r.subscription =
        { s with phase := .sleeping (QuikSyncWsClient.jitteredBackoff s.backoff random) })
      (hquiet : ∀ a ∈ more, a.Quiet)
      (heffects : r.effects = more ++ [.sleep (QuikSyncWsClient.jitteredBackoff s.backoff random)])

section Cases

variable {c : QuikSyncWsClient} {s : Subscription} {i : WsInput}

theorem backOff_cases {c' : QuikSyncWsClient} {random : Draw} {more : List WsEffect}
    (hends : EndsIteration s.phase i) (hdraw : i.draw = some random)
    (hquiet : ∀ a ∈ more, a.Quiet) : StepCase c s i (s.backOff c' random more) := by
  unfold Subscription.backOff
  split
  · exact .ends rfl hquiet
  · exact .sleeps random more hends hdraw rfl hquiet rfl

theorem invalidStatus_cases {status : ℕ} {now : ℚ} {refresh : Except Exc String} {random : Draw}
    (hends : EndsIteration s.phase i) (hdraw : i.draw = some random) :
    StepCase c s i (s.invalidStatus c status now refresh random) := by
  unfold Subscription.invalidStatus
  by_cases hstatus : status = 401
  · simp only [if_pos hstatus]
    split
    · exact .ends rfl (by simp [WsEffect.Quiet])
    · cases refresh with
      | ok _ => exact backOff_cases hends hdraw (by simp [WsEffect.Quiet])
      | error e => exact backOff_cases hends hdraw (by simp [WsEffect.Quiet])
  · simp only [if_neg hstatus]
    exact backOff_cases hends hdraw (by simp [WsEffect.Quiet])

theorem receive_cases (hphase : s.phase = .streaming) (decoded : Decoded) :
    StepCase c s i (s.receive c decoded) := by
  unfold Subscription.receive
  split
  · exact .ends rfl (List.forall_mem_nil _)
  · split
    · exact .receives hphase rfl (by simp [WsEffect.Quiet])
    · exact .stays rfl rfl
    · exact .stays rfl rfl
    · exact .ends rfl (by simp [WsEffect.Quiet])

theorem connect_cases (s : Subscription) (token : Except Exc String) :
    ((s.connect c token).subscription.phase.finished = true ∧
        ∀ a ∈ (s.connect c token).effects, a.Quiet) ∨
      ∃ url, (s.connect c token).subscription = { s with phase := .connecting url } ∧
        (s.connect c token).effects = [.getToken false, .connect url] := by
  unfold Subscription.connect
  split
  · exact Or.inl ⟨rfl, List.forall_mem_nil _⟩
  · cases token with
    | error e => exact Or.inl ⟨rfl, by simp [WsEffect.Quiet]⟩
    | ok token => exact Or.inr ⟨_, rfl, rfl⟩

theorem EndsIteration.connected {phase : Phase} (h : EndsIteration phase i) :
    (∃ url, phase = .connecting url) ∨ phase = .streaming := by
  obtain ⟨hconnecting, -⟩ | ⟨hstreaming, -⟩ := h
  · cases phase with
    | connecting url => exact Or.inl ⟨url, rfl⟩
    | _ => cases hconnecting
  · exact Or.inr hstreaming

theorem step_cases (c : QuikSyncWsClient) (s : Subscription) (i : WsInput) :
    StepCase c s i (s.step c i) := by
  unfold Subscription.step
  split
  · rename_i token hphase
    obtain ⟨hfinished, hquiet⟩ | ⟨url, hs, heffects⟩ := connect_cases (c := c) s token
    · exact .ends hfinished hquiet
    · exact .starts url hphase hs heffects
  · rename_i token seconds hphase
    obtain ⟨hfinished, hquiet⟩ | ⟨url, hs, heffects⟩ := connect_cases (c := c)
      { s with backoff := min (s.backoff * 2) c.config.backoffMaxSeconds } token
    · exact .ends hfinished hquiet
    · exact .wakes url seconds hphase hs heffects
  · exact .opens rfl rfl
  · rename_i hphase
    exact invalidStatus_cases (Or.inl ⟨by rw [hphase]; rfl, Or.inl ⟨_, _, _, _, rfl⟩⟩) rfl
  · rename_i hphase
    exact backOff_cases (Or.inl ⟨by rw [hphase]; rfl, Or.inr ⟨_, rfl⟩⟩) rfl
      (by simp [WsEffect.Quiet])
  · rename_i hphase
    exact backOff_cases (Or.inr ⟨hphase, Or.inl ⟨_, rfl⟩⟩) rfl (List.forall_mem_nil _)
  · rename_i hphase
    exact receive_cases hphase _
  · rename_i hphase
    exact backOff_cases (Or.inr ⟨hphase, Or.inr ⟨_, rfl⟩⟩) rfl (List.forall_mem_nil _)
  · split
    · exact .stays rfl rfl
    · exact .ends rfl (by simp [WsEffect.Quiet])
  · exact .stays rfl rfl

end Cases

def ownEffects (k : ℕ) (log : SharedLog) : List WsEffect :=
  log.flatMap fun e =>
    match e.1 with
    | .subscription j _ => if j = k then e.2 else []
    | .close => []

theorem ownEffects_append (k : ℕ) (past : SharedLog) (e : SharedInput × List WsEffect) :
    ownEffects k (past ++ [e]) = ownEffects k past ++ ownEffects k [e] := List.flatMap_append

theorem ownEffects_self (k : ℕ) (i : WsInput) (effects : List WsEffect) :
    ownEffects k [(.subscription k i, effects)] = effects := by
  simp [ownEffects]

theorem ownEffects_of_ne {j k : ℕ} (hne : j ≠ k) (i : WsInput) (effects : List WsEffect) :
    ownEffects k [(.subscription j i, effects)] = [] := by
  simp [ownEffects, hne]

/-- What a step of a subscription keeps of its state and its own effects so far holds all along
the runs of a client, whatever the other subscriptions do. -/
theorem own_invariant {config : WsConfig} {P : Subscription → List WsEffect → Prop}
    (hstep : ∀ c s effects i, c.config = config → P s effects →
      P (s.step c i).subscription (effects ++ (s.step c i).effects))
    {q : WsShared} (hconfig : q.client.config = config) (hstart : ∀ k, P (q.subscriptions k) [])
    (is : List SharedInput) (k : ℕ) :
    P ((sharedMachine.after q is).subscriptions k) (ownEffects k (sharedMachine.log q is)) := by
  suffices hrun : (sharedMachine.after q is).client.config = config ∧
      ∀ k, P ((sharedMachine.after q is).subscriptions k)
        (ownEffects k (sharedMachine.log q is)) from hrun.2 k
  refine Machine.run_invariant (P := fun (q : WsShared) past => q.client.config = config ∧
    ∀ k, P (q.subscriptions k) (ownEffects k past)) (A := fun _ => True) ?_ ⟨hconfig, hstart⟩
    fun _ _ => trivial
  rintro q past (⟨j, i⟩ | _) - ⟨hconfig, hown⟩
  · refine ⟨?_, fun k => ?_⟩
    · obtain h | ⟨now, h⟩ := Subscription.step_client q.client (q.subscriptions j) i
      · exact (congrArg QuikSyncWsClient.config h).trans hconfig
      · exact (congrArg QuikSyncWsClient.config h).trans hconfig
    · rw [ownEffects_append, sharedMachine_step]
      by_cases hjk : j = k
      · subst hjk
        rw [ownEffects_self]
        show P (Function.update q.subscriptions j _ j) _
        rw [Function.update_self]
        exact hstep _ _ _ i hconfig (hown j)
      · rw [ownEffects_of_ne hjk, List.append_nil]
        show P (Function.update q.subscriptions j _ k) _
        rw [Function.update_of_ne (Ne.symm hjk)]
        exact hown k
  · refine ⟨hconfig, fun k => ?_⟩
    rw [ownEffects_append]
    show P (q.subscriptions k) (ownEffects k past ++ [])
    rw [List.append_nil]
    exact hown k

/-! ### Sleeps and reconnects in a row -/

/-- The sleeps in a row after `n` of them and `effects`; a handshake ends the row. -/
def sleepsFrom (n : ℕ) : List WsEffect → ℕ
  | [] => n
  | .sleep _ :: effects => sleepsFrom (n + 1) effects
  | .attempted .connected :: effects => sleepsFrom 0 effects
  | _ :: effects => sleepsFrom n effects

def sleepsSince (effects : List WsEffect) : ℕ := sleepsFrom 0 effects

theorem sleepsFrom_append (n : ℕ) (as bs : List WsEffect) :
    sleepsFrom n (as ++ bs) = sleepsFrom (sleepsFrom n as) bs := by
  induction n, as using sleepsFrom.induct with
  | case1 n => rfl
  | case2 n d as ih => exact ih
  | case3 n as ih => exact ih
  | case4 n a as hsleep hconnected ih => simpa only [List.cons_append, sleepsFrom] using ih

theorem sleepsFrom_of_quiet {more : List WsEffect} (h : ∀ a ∈ more, a.Quiet) (n : ℕ) :
    sleepsFrom n more = n := by
  induction n, more using sleepsFrom.induct with
  | case1 n => rfl
  | case2 n d more ih => exact (h _ List.mem_cons_self).elim
  | case3 n more ih => exact (h _ List.mem_cons_self).elim
  | case4 n a more hsleep hconnected ih =>
    simpa only [sleepsFrom] using ih fun b hb => h b (List.mem_cons_of_mem _ hb)

/-- One more reconnect in the row; the first connection of all is none. -/
def countReconnect : Option ℕ → WsEffect → Option ℕ
  | none, .connect _ => some 0
  | some n, .connect _ => some (n + 1)
  | _, .attempted .connected => some 0
  | n, _ => n

/-- The reconnects since the last handshake, or since the start; `none` before the first
connection. -/
def reconnectsSince (effects : List WsEffect) : Option ℕ := effects.foldl countReconnect none

theorem reconnectsSince_append (as bs : List WsEffect) :
    reconnectsSince (as ++ bs) = bs.foldl countReconnect (reconnectsSince as) :=
  List.foldl_append

theorem countReconnect_of_quiet {a : WsEffect} (h : a.Quiet) (n : Option ℕ) :
    countReconnect n a = n := by
  match n, a with
  | _, .sleep _ | _, .connect _ | _, .attempted .connected => exact h.elim
  | none, .getToken _ | some _, .getToken _ | none, .refreshFailed _ | some _, .refreshFailed _
  | none, .attempted (.refused _ _) | some _, .attempted (.refused _ _)
  | none, .attempted .failed | some _, .attempted .failed
  | none, .yield _ | some _, .yield _ | none, .raise _ | some _, .raise _ => rfl

theorem foldl_countReconnect_of_quiet {more : List WsEffect} (h : ∀ a ∈ more, a.Quiet)
    (n : Option ℕ) : more.foldl countReconnect n = n := by
  induction more with
  | nil => rfl
  | cons a more ih =>
    obtain ⟨ha, hmore⟩ := List.forall_mem_cons.mp h
    rw [List.foldl_cons, countReconnect_of_quiet ha, ih hmore]

/-! ### A sleep before every reconnect -/

/-- The connection to `url` after `before` is the `n`-th reconnect in a row and has `n` sleeps
before it, the last of them right before the token request; or it is the first of all. -/
def PacedAt (before : List WsEffect) (url : String) : Prop :=
  reconnectsSince (before ++ [.connect url]) = some (sleepsSince before) ∧
    (before = [.getToken false] ∨ ∃ earlier d, before = earlier ++ [.sleep d, .getToken false])

def PacedBySleeps (effects : List WsEffect) : Prop :=
  ∀ before url post, effects = before ++ .connect url :: post → PacedAt before url

theorem pacedBySleeps_append {effects more : List WsEffect} (h : PacedBySleeps effects)
    (hmore : ∀ before url post, more = before ++ .connect url :: post →
      PacedAt (effects ++ before) url) : PacedBySleeps (effects ++ more) := by
  intro before url post heq
  obtain ⟨as, hbefore, hsplit⟩ | ⟨as, hbefore, hsplit⟩ := List.append_eq_append_iff.mp heq
  · rw [hbefore]
    exact hmore as url post hsplit
  · obtain ⟨rfl, hnil⟩ | ⟨rest, rfl, -⟩ := List.cons_eq_append_iff.mp hsplit
    · rw [List.append_nil] at hbefore
      rw [← hbefore, ← List.append_nil effects]
      exact hmore [] url post hnil
    · exact h before url rest hbefore

theorem pacedBySleeps_noConnect {effects more : List WsEffect} (h : PacedBySleeps effects)
    (hmore : ∀ url, .connect url ∉ more) : PacedBySleeps (effects ++ more) := by
  apply pacedBySleeps_append h
  rintro before url post rfl
  exact absurd (List.mem_append_right _ List.mem_cons_self) (hmore url)

def Subscription.InStep (s : Subscription) (effects : List WsEffect) : Prop :=
  match s.phase with
  | .unstarted => effects = []
  | .connecting _ | .streaming => reconnectsSince effects = some (sleepsSince effects)
  | .sleeping d => ∃ earlier n, effects = earlier ++ [.sleep d] ∧
      reconnectsSince effects = some n ∧ sleepsSince effects = n + 1
  | .returned | .raised _ => True

theorem Subscription.InStep.of_endsIteration {s : Subscription} {effects : List WsEffect}
    (h : s.InStep effects) {i : WsInput} (hends : EndsIteration s.phase i) :
    reconnectsSince effects = some (sleepsSince effects) := by
  unfold InStep at h
  obtain ⟨url, hphase⟩ | hphase := hends.connected
  · rw [hphase] at h
    exact h
  · rw [hphase] at h
    exact h

structure Paced (s : Subscription) (effects : List WsEffect) : Prop where
  row : s.InStep effects
  paced : PacedBySleeps effects

section Step

variable {c : QuikSyncWsClient} {s s' : Subscription} {effects more : List WsEffect}

theorem quiet_append (effects : List WsEffect) (hquiet : ∀ a ∈ more, a.Quiet) :
    sleepsSince (effects ++ more) = sleepsSince effects ∧
      reconnectsSince (effects ++ more) = reconnectsSince effects := by
  refine ⟨?_, ?_⟩
  · unfold sleepsSince
    rw [sleepsFrom_append, sleepsFrom_of_quiet hquiet]
  · rw [reconnectsSince_append, foldl_countReconnect_of_quiet hquiet]

theorem paced_connect {url : String} (h : PacedBySleeps effects)
    (hat : PacedAt (effects ++ [.getToken false]) url) (hphase : s'.phase = .connecting url) :
    Paced s' (effects ++ [.getToken false, .connect url]) := by
  have hassoc : effects ++ [.getToken false, .connect url] =
      (effects ++ [.getToken false]) ++ [.connect url] := by
    rw [List.append_assoc]
    rfl
  rw [hassoc]
  refine ⟨?_, ?_⟩
  · unfold Subscription.InStep
    rw [hphase]
    show reconnectsSince _ = some (sleepsFrom 0 _)
    rw [sleepsFrom_append]
    exact hat.1
  · apply pacedBySleeps_append (pacedBySleeps_noConnect h (by simp))
    intro before url' post heq
    obtain ⟨rfl, htail⟩ | ⟨rest, rfl, hrest⟩ := List.cons_eq_append_iff.mp heq
    · cases htail
      rw [List.append_nil]
      exact hat
    · cases rest <;> cases hrest

theorem paced_quiet (h : PacedBySleeps effects) (hquiet : ∀ a ∈ more, a.Quiet)
    (hphase : s'.phase.finished = true ∨
      s'.phase = .streaming ∧ reconnectsSince effects = some (sleepsSince effects)) :
    Paced s' (effects ++ more) := by
  refine ⟨?_, pacedBySleeps_noConnect h fun _ hmem => hquiet _ hmem⟩
  unfold Subscription.InStep
  obtain hfinished | ⟨hphase, hrow⟩ := hphase
  · cases hs : s'.phase <;> first | trivial | (rw [hs] at hfinished; cases hfinished)
  · rw [hphase]
    obtain ⟨hsleeps, hreconnects⟩ := quiet_append effects hquiet
    show reconnectsSince _ = some (sleepsSince _)
    rw [hsleeps, hreconnects, hrow]

theorem pacedAt_wakes {earlier : List WsEffect} {d : ℚ} {n : ℕ}
    (heffects : effects = earlier ++ [.sleep d]) (hreconnects : reconnectsSince effects = some n)
    (hsleeps : sleepsSince effects = n + 1) (url : String) :
    PacedAt (effects ++ [.getToken false]) url := by
  refine ⟨?_, Or.inr ⟨earlier, d, ?_⟩⟩
  · rw [reconnectsSince_append, reconnectsSince_append, hreconnects, sleepsSince, sleepsFrom_append]
    show some (n + 1) = some (sleepsSince effects)
    rw [hsleeps]
  · rw [heffects, List.append_assoc]
    rfl

theorem paced_sleeps {d : ℚ} (h : PacedBySleeps effects)
    (hrow : reconnectsSince effects = some (sleepsSince effects))
    (hquiet : ∀ a ∈ more, a.Quiet) (hphase : s'.phase = .sleeping d) :
    Paced s' (effects ++ (more ++ [.sleep d])) := by
  obtain ⟨hsleeps, hreconnects⟩ := quiet_append effects hquiet
  rw [← List.append_assoc]
  refine ⟨?_, ?_⟩
  · unfold Subscription.InStep
    rw [hphase]
    refine ⟨effects ++ more, sleepsSince effects, rfl, ?_, ?_⟩
    · rw [reconnectsSince_append, hreconnects, hrow]
      rfl
    · rw [← hsleeps, sleepsSince, sleepsFrom_append]
      rfl
  · exact pacedBySleeps_noConnect (pacedBySleeps_noConnect h fun _ hmem => hquiet _ hmem) (by simp)

theorem paced_step (h : Paced s effects) (i : WsInput) :
    Paced (s.step c i).subscription (effects ++ (s.step c i).effects) := by
  obtain ⟨hrow, hpaced⟩ := h
  -- the numbers agree while it is connected, and asleep it is one sleep ahead of its reconnects
  cases step_cases c s i with
  | stays hs heffects =>
    rw [hs, heffects, List.append_nil]
    exact ⟨hrow, hpaced⟩
  | receives hphase hs hquiet =>
    unfold Subscription.InStep at hrow
    rw [hphase] at hrow
    rw [hs]
    exact paced_quiet hpaced hquiet (Or.inr ⟨hphase, hrow⟩)
  | ends hfinished hquiet => exact paced_quiet hpaced hquiet (Or.inl hfinished)
  | starts url hphase hs heffects =>
    unfold Subscription.InStep at hrow
    rw [hphase] at hrow
    rw [hs, heffects]
    refine paced_connect hpaced ?_ rfl
    rw [hrow]
    exact ⟨rfl, Or.inl rfl⟩
  | wakes url seconds hphase hs heffects =>
    unfold Subscription.InStep at hrow
    rw [hphase] at hrow
    obtain ⟨earlier, n, heq, hreconnects, hsleeps⟩ := hrow
    rw [hs, heffects]
    exact paced_connect hpaced (pacedAt_wakes heq hreconnects hsleeps url) rfl
  | opens hs heffects =>
    rw [hs, heffects]
    refine ⟨?_, ?_⟩
    · show reconnectsSince _ = some (sleepsFrom 0 _)
      rw [reconnectsSince_append, sleepsFrom_append]
      cases reconnectsSince effects <;> rfl
    · exact pacedBySleeps_noConnect hpaced (by simp)
  | sleeps random more hends hdraw hs hquiet heffects =>
    have hinstep := hrow.of_endsIteration hends
    rw [hs, heffects]
    exact paced_sleeps hpaced hinstep hquiet rfl

end Step

section Run

variable {q : WsShared} (hstart : ∀ k, (q.subscriptions k).phase = .unstarted)

include hstart

theorem paced (is : List SharedInput) (k : ℕ) :
    Paced ((sharedMachine.after q is).subscriptions k) (ownEffects k (sharedMachine.log q is)) := by
  have hnew : ∀ k, Paced (q.subscriptions k) [] := by
    intro k
    refine ⟨?_, fun before url post heq => ?_⟩
    · unfold Subscription.InStep
      rw [hstart k]
    · cases before <;> cases heq
  exact own_invariant (P := Paced) (fun _ _ _ i _ h => paced_step h i) rfl hnew is k

theorem pacedBySleeps (is : List SharedInput) (k : ℕ) :
    PacedBySleeps (ownEffects k (sharedMachine.log q is)) := (paced hstart is k).paced

end Run

def SleepsOnce (effects : List WsEffect) : Prop :=
  ∃ before d, effects = before ++ [.sleep d] ∧ ∀ d', .sleep d' ∉ before

theorem sleepsOnce_of_endsIteration {c : QuikSyncWsClient} {s : Subscription} {i : WsInput}
    (hopen : c.closed = false) (hends : EndsIteration s.phase i)
    (htrip : (s.step c i).subscription.phase ≠ .raised .wsCircuitOpen) :
    SleepsOnce (s.step c i).effects := by
  obtain ⟨seconds, hsleeping, -⟩ := (step_of_endsIteration hopen hends).resolve_right htrip
  have hawake : ∀ seconds, s.phase ≠ .sleeping seconds := by
    rintro seconds hphase
    rw [hphase] at hends
    obtain ⟨url, hconnecting⟩ | hstreaming := hends.connected
    · cases hconnecting
    · cases hstreaming
  -- of the cases only the last one goes to sleep from there
  cases step_cases c s i with
  | stays hs heffects => exact absurd (hs ▸ hsleeping) (hawake seconds)
  | receives hphase hs hquiet => exact absurd (hs ▸ hsleeping) (hawake seconds)
  | ends hfinished hquiet =>
    rw [hsleeping] at hfinished
    cases hfinished
  | starts url hphase hs heffects =>
    rw [hs] at hsleeping
    cases hsleeping
  | wakes url seconds' hphase hs heffects => exact absurd hphase (hawake seconds')
  | opens hs heffects =>
    rw [hs] at hsleeping
    cases hsleeping
  | sleeps random more hends hdraw hs hquiet heffects =>
    exact ⟨more, _, heffects, fun d' hmem => hquiet _ hmem⟩

end QuikSync.Client
