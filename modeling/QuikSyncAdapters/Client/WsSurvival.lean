import QuikSyncAdapters.Client.Ws
import Mathlib.Data.List.Induction

/-! What a subscription survives: it goes on after every failure that its `except` clauses
cover, which leaves out a token request that fails and a message that cannot be decoded. -/

namespace QuikSync.Client

open Py

/-- A failure that no `except` clause of the loop covers. -/
def Uncaught (phase : Phase) (i : WsInput) : Prop :=
  (phase.atHead = true ∧ ∃ e, i = .resume (.error e)) ∨
    (phase = .streaming ∧ ∃ e, i = .message (.raised e))

def EndsIteration (phase : Phase) (i : WsInput) : Prop :=
  (phase.isConnecting = true ∧
      ((∃ status now refresh random, i = .refused status now refresh random) ∨
        ∃ random, i = .failed random)) ∨
    (phase = .streaming ∧ ((∃ random, i = .failed random) ∨ ∃ random, i = .cleanClose random))

/-- Asleep for at least the tenth of a second that the backoff never goes below. -/
def Phase.BacksOff (phase : Phase) : Prop := ∃ seconds, phase = .sleeping seconds ∧ 1 / 10 ≤ seconds

/-! ### One step of an open client -/

section Step

variable {c : QuikSyncWsClient} {s : Subscription}

theorem backOff_backsOff (hopen : c.closed = false) (random : Draw) (effects : List WsEffect) :
    (s.backOff c random effects).subscription.phase.BacksOff := by
  unfold Subscription.backOff
  rw [hopen]
  exact ⟨_, rfl, le_max_right _ _⟩

theorem connect_ok (hopen : c.closed = false) (token : String) :
    (s.connect c (.ok token)).subscription.phase =
      .connecting (QuikSyncWsClient.subscribeUrl c.config s.path token s.scope) := by
  unfold Subscription.connect
  rw [hopen]
  rfl

theorem connect_error (hopen : c.closed = false) (e : Exc) :
    (s.connect c (.error e)).subscription.phase = .raised (.client e) := by
  unfold Subscription.connect
  rw [hopen]
  rfl

theorem invalidStatus_backsOff_or_trips (hopen : c.closed = false) (status : ℕ) (now : ℚ)
    (refresh : Except Exc String) (random : Draw) :
    (s.invalidStatus c status now refresh random).subscription.phase.BacksOff ∨
      (s.invalidStatus c status now refresh random).subscription.phase =
        .raised .wsCircuitOpen := by
  have hrecorded : (c.record401 now).closed = false := hopen
  unfold Subscription.invalidStatus
  by_cases hstatus : status = 401
  · simp only [if_pos hstatus]
    split
    · exact Or.inr rfl
    · cases refresh <;> exact Or.inl (backOff_backsOff hrecorded _ _)
  · simp only [if_neg hstatus]
    exact Or.inl (backOff_backsOff hopen _ _)

theorem step_of_endsIteration (hopen : c.closed = false) {i : WsInput}
    (hends : EndsIteration s.phase i) :
    (s.step c i).subscription.phase.BacksOff ∨
      (s.step c i).subscription.phase = .raised .wsCircuitOpen := by
  unfold Subscription.step
  obtain ⟨hphase, hinput⟩ | ⟨hphase, hinput⟩ := hends
  · obtain ⟨url, hurl⟩ : ∃ url, s.phase = .connecting url := by
      cases hs : s.phase <;> first | exact ⟨_, rfl⟩ | simp [hs, Phase.isConnecting] at hphase
    rw [hurl]
    obtain ⟨status, now, refresh, random, rfl⟩ | ⟨random, rfl⟩ := hinput
    · exact invalidStatus_backsOff_or_trips hopen status now refresh random
    · exact Or.inl (backOff_backsOff hopen _ _)
  · rw [hphase]
    obtain ⟨random, rfl⟩ | ⟨random, rfl⟩ := hinput
    · exact Or.inl (backOff_backsOff hopen _ _)
    · exact Or.inl (backOff_backsOff hopen _ _)

theorem step_resume (hhead : s.phase.atHead = true) (token : Except Exc String) :
    ∃ s', (s.step c (.resume token)) = Subscription.connect c s' token := by
  unfold Subscription.step
  cases hs : s.phase with
  | unstarted => exact ⟨_, rfl⟩
  | sleeping seconds => exact ⟨_, rfl⟩
  | _ => simp [hs, Phase.atHead] at hhead

theorem step_of_uncaught (hopen : c.closed = false) {i : WsInput} (h : Uncaught s.phase i) :
    (s.step c i).subscription.phase.finished = true := by
  obtain ⟨hhead, e, rfl⟩ | ⟨hphase, e, rfl⟩ := h
  · obtain ⟨s', hs'⟩ := step_resume hhead (.error e)
    rw [hs', connect_error hopen]
    rfl
  · unfold Subscription.step
    rw [hphase]
    simp only [Subscription.receive, hopen]
    rfl

theorem Phase.BacksOff.alive {phase : Phase} (h : phase.BacksOff) : phase.finished = false := by
  obtain ⟨_, rfl, -⟩ := h
  rfl

theorem receive_alive (hopen : c.closed = false) (halive : s.phase.finished = false)
    {decoded : Decoded} (hdecoded : ∀ e, decoded ≠ .raised e) :
    (s.receive c decoded).subscription.phase.finished = false := by
  unfold Subscription.receive
  rw [hopen]
  cases decoded with
  | loaded v => cases v <;> exact halive
  | jsonDecodeError => exact halive
  | raised e => exact absurd rfl (hdecoded e)

theorem step_alive (hopen : c.closed = false) (halive : s.phase.finished = false) {i : WsInput}
    (hcaught : ¬ Uncaught s.phase i) (hcancel : i ≠ .cancel)
    (htrip : (s.step c i).subscription.phase ≠ .raised .wsCircuitOpen) :
    (s.step c i).subscription.phase.finished = false := by
  by_cases hends : EndsIteration s.phase i
  · exact ((step_of_endsIteration hopen hends).resolve_right htrip).alive
  by_cases hhead : s.phase.atHead = true ∧ ∃ token, i = .resume token
  · obtain ⟨hhead, token, rfl⟩ := hhead
    obtain ⟨s', hs'⟩ := step_resume hhead token
    rw [hs']
    cases token with
    | error e => exact absurd (Or.inl ⟨hhead, e, rfl⟩) hcaught
    | ok token =>
      rw [connect_ok hopen]
      rfl
  unfold Subscription.step
  split
  · rename_i token hphase
    exact absurd ⟨by rw [hphase]; rfl, token, rfl⟩ hhead
  · rename_i token seconds hphase
    exact absurd ⟨by rw [hphase]; rfl, token, rfl⟩ hhead
  · rfl
  · rename_i status now refresh random url hphase
    exact absurd (Or.inl ⟨by rw [hphase]; rfl, Or.inl ⟨_, _, _, _, rfl⟩⟩) hends
  · rename_i random url hphase
    exact absurd (Or.inl ⟨by rw [hphase]; rfl, Or.inr ⟨_, rfl⟩⟩) hends
  · rename_i random hphase
    exact absurd (Or.inr ⟨hphase, Or.inl ⟨_, rfl⟩⟩) hends
  · rename_i decoded hphase
    apply receive_alive hopen halive
    rintro e rfl
    exact hcaught (Or.inr ⟨hphase, e, rfl⟩)
  · rename_i random hphase
    exact absurd (Or.inr ⟨hphase, Or.inr ⟨_, rfl⟩⟩) hends
  · exact absurd rfl hcancel
  · exact halive

end Step

/-! ### Runs -/

section Run

variable {q : WsShared} {k : ℕ}

theorem after_subscription (pre : List SharedInput) (i : WsInput) :
    (sharedMachine.after q (pre ++ [.subscription k i])).subscriptions k =
      (((sharedMachine.after q pre).subscriptions k).step
        (sharedMachine.after q pre).client i).subscription := by
  rw [Machine.after_append]
  exact Function.update_self ..

theorem after_other (pre : List SharedInput) {j : ℕ} (hj : j ≠ k) (i : WsInput) :
    (sharedMachine.after q (pre ++ [.subscription j i])).subscriptions k =
      (sharedMachine.after q pre).subscriptions k := by
  rw [Machine.after_append]
  exact Function.update_of_ne hj.symm ..

theorem after_open (hopen : q.client.closed = false) {is : List SharedInput}
    (hclose : .close ∉ is) : (sharedMachine.after q is).client.closed = false := by
  have hstep : ∀ q i, i ≠ .close → q.client.closed = false →
      (sharedMachine.step q i).1.client.closed = false := by
    intro q i hi h
    cases i with
    | close => exact absurd rfl hi
    | subscription k i => exact (Subscription.step_closed ..).trans h
  exact Machine.after_allowed (P := fun q : WsShared => q.client.closed = false) hstep hopen
    fun i hi heq => hclose (heq ▸ hi)

end Run

/-- Subscription `k` is alive all along the run, sleeps after each iteration and connects again
when it wakes. -/
structure Survives (q : WsShared) (is : List SharedInput) (k : ℕ) : Prop where
  alive : ∀ pre, pre <+: is →
    ((sharedMachine.after q pre).subscriptions k).phase.finished = false
  backsOff : ∀ pre i, pre ++ [.subscription k i] <+: is →
    EndsIteration ((sharedMachine.after q pre).subscriptions k).phase i →
    ((sharedMachine.after q (pre ++ [.subscription k i])).subscriptions k).phase.BacksOff
  reconnects : ∀ pre token, pre ++ [.subscription k (.resume token)] <+: is →
    ((sharedMachine.after q pre).subscriptions k).phase.atHead = true →
    ((sharedMachine.after q (pre ++ [.subscription k (.resume token)])).subscriptions
      k).phase.isConnecting = true

section Survival

variable {q : WsShared} {is : List SharedInput} {k : ℕ}

theorem alive_of_caught (hopen : q.client.closed = false)
    (halive : (q.subscriptions k).phase.finished = false) (hclose : .close ∉ is)
    (hcancel : .subscription k .cancel ∉ is)
    (htrip : ∀ pre, pre <+: is →
      ((sharedMachine.after q pre).subscriptions k).phase ≠ .raised .wsCircuitOpen)
    (hcaught : ∀ pre i, pre ++ [.subscription k i] <+: is →
      ¬ Uncaught ((sharedMachine.after q pre).subscriptions k).phase i)
    (pre : List SharedInput) (hpre : pre <+: is) :
    ((sharedMachine.after q pre).subscriptions k).phase.finished = false := by
  induction pre using List.reverseRecOn with
  | nil => exact halive
  | append_singleton pre i ih =>
    have hbefore := ih ((List.prefix_append pre [i]).trans hpre)
    have hmem : i ∈ is := hpre.subset (List.mem_append_right _ List.mem_cons_self)
    have hprefix : .close ∉ pre := fun h =>
      hclose (hpre.subset (List.mem_append_left _ h))
    cases i with
    | close => exact absurd hmem hclose
    | subscription j i =>
      by_cases hj : j = k
      · subst hj
        rw [after_subscription]
        apply step_alive (after_open hopen hprefix) hbefore (hcaught pre i hpre)
        · rintro rfl
          exact hcancel hmem
        · rw [← after_subscription]
          exact htrip _ hpre
      · rw [after_other pre hj]
        exact hbefore

end Survival

theorem survives_iff (config : WsConfig) (endpoints : ℕ → String × Option String)
    (is : List SharedInput) (k : ℕ) (hclose : .close ∉ is)
    (hcancel : .subscription k .cancel ∉ is)
    (htrip : ∀ pre, pre <+: is →
      ((sharedMachine.after (.new config endpoints) pre).subscriptions k).phase ≠
        .raised .wsCircuitOpen) :
    Survives (.new config endpoints) is k ↔
      ∀ pre i, pre ++ [.subscription k i] <+: is →
        ¬ Uncaught ((sharedMachine.after (.new config endpoints) pre).subscriptions k).phase i := by
  have hopen : ∀ {pre : List SharedInput} {i : SharedInput}, pre ++ [i] <+: is →
      (sharedMachine.after (.new config endpoints) pre).client.closed = false := fun hpre =>
    after_open rfl fun h => hclose (hpre.subset (List.mem_append_left _ h))
  constructor
  · intro h pre i hpre huncaught
    have halive := h.alive _ hpre
    rw [after_subscription, step_of_uncaught (hopen hpre) huncaught] at halive
    exact absurd halive (by decide)
  · intro hcaught
    have halive := alive_of_caught rfl rfl hclose hcancel htrip hcaught
    refine ⟨halive, ?_, ?_⟩
    · intro pre i hpre hends
      have hstep := htrip _ hpre
      rw [after_subscription] at hstep ⊢
      exact (step_of_endsIteration (hopen hpre) hends).resolve_right hstep
    · intro pre token hpre hhead
      rw [after_subscription]
      obtain ⟨s', hs'⟩ := step_resume hhead token
      rw [hs']
      cases token with
      | error e => exact absurd (Or.inl ⟨hhead, e, rfl⟩) (hcaught pre _ hpre)
      | ok token =>
        rw [connect_ok (hopen hpre)]
        rfl

def oneFleet : WsShared :=
  .new ⟨"wss://host", 1, 30, 3, 60⟩ fun _ => (QuikSyncWsClient.subscribeFleetState "f", none)

def lostConnection : List SharedInput :=
  [.subscription 0 (.resume (.ok "a")), .subscription 0 (.failed default)]

theorem survives_iff_witness :
    Survives oneFleet lostConnection 0 ↔
      ∀ pre i, pre ++ [.subscription 0 i] <+: lostConnection →
        ¬ Uncaught ((sharedMachine.after oneFleet pre).subscriptions 0).phase i :=
  survives_iff ⟨"wss://host", 1, 30, 3, 60⟩
    (fun _ => (QuikSyncWsClient.subscribeFleetState "f", none)) lostConnection 0
    (by simp [lostConnection]) (by simp [lostConnection]) (by
      intro pre hpre hraised
      simp only [lostConnection, List.prefix_cons_iff, List.prefix_nil] at hpre
      obtain rfl | ⟨_, rfl, rfl | ⟨_, rfl, rfl⟩⟩ := hpre <;> exact nomatch hraised)

/-- A timeout of the token request ends the subscription that a lost connection did not end. -/
theorem token_failure_ends_subscription :
    ¬ ∀ (config : WsConfig) (endpoints : ℕ → String × Option String) (is : List SharedInput)
        (k : ℕ), .close ∉ is → .subscription k .cancel ∉ is →
      (∀ pre, pre <+: is →
        ((sharedMachine.after (.new config endpoints) pre).subscriptions k).phase ≠
          .raised .wsCircuitOpen) →
      Survives (.new config endpoints) is k := by
  intro h
  have hsurvives := h ⟨"wss://host", 1, 30, 3, 60⟩
    (fun _ => (QuikSyncWsClient.subscribeFleetState "f", none))
    (lostConnection ++ [.subscription 0 (.resume (.error (.httpError "timed out")))]) 0
    (by simp [lostConnection]) (by simp [lostConnection]) (by
      intro pre hpre hraised
      simp only [lostConnection, List.cons_append, List.nil_append, List.prefix_cons_iff,
        List.prefix_nil] at hpre
      obtain rfl | ⟨_, rfl, rfl | ⟨_, rfl, rfl | ⟨_, rfl, rfl⟩⟩⟩ := hpre <;> exact nomatch hraised)
  exact absurd (hsurvives.alive _ (List.prefix_refl _)) (by decide)

end QuikSync.Client
