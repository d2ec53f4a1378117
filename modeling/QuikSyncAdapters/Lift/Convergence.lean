import QuikSyncAdapters.Library.Schedules
import QuikSyncAdapters.Lift.World

/-! The adapter and the server come to agree on a lift. Once the holder at the server stays the
same and the server has pushed one more frame, the frames on their way catch up, and from then on
the adapter lets through exactly the requests that the server would grant. -/

namespace QuikSync.Lift

open Client Py

namespace LiftSessionManager

/-! ### Nobody but `s` -/

def OnlyFor (m : LiftSessionManager) (lift s : String) : Prop :=
  (m.requested lift).getD "" = "" ∨ (m.requested lift).getD "" = s

variable {m : LiftSessionManager} {lift s : String}

theorem onlyFor_of_requested {m' : LiftSessionManager} (h : m.OnlyFor lift s)
    (hsame : m'.requested lift = m.requested lift) : m'.OnlyFor lift s := by
  unfold OnlyFor
  rw [hsame]
  exact h

theorem onlyFor_popRequest (m : LiftSessionManager) (lift s : String) :
    (m.popRequest lift).OnlyFor lift s := by
  refine Or.inl ?_
  rw [popRequest_requested]
  rfl

theorem onlyFor_evictStaleLocked (h : m.OnlyFor lift s) (now : ℚ) :
    (m.evictStaleLocked lift now).OnlyFor lift s := by
  obtain heq | heq := m.evictStaleLocked_eq lift now
  · rw [heq]
    exact h
  · rw [heq]
    exact onlyFor_popRequest m lift s

theorem onlyFor_tryAcquire (h : m.OnlyFor lift s) (now stamp : ℚ) :
    (m.tryAcquire lift s now stamp).1.OnlyFor lift s := by
  have hevict := onlyFor_evictStaleLocked h now
  have hset : ∀ m' : LiftSessionManager, (m'.setRequest lift s stamp).OnlyFor lift s := by
    intro m'
    refine Or.inr ?_
    rw [setRequest_requested]
    rfl
  unfold tryAcquire
  dsimp only
  split_ifs
  · exact h
  · exact hset _
  · exact onlyFor_of_requested hevict rfl
  · exact hset _
  · exact hevict

theorem onlyFor_release (h : m.OnlyFor lift s) (u : String) :
    (m.release lift u).1.OnlyFor lift s := by
  unfold release
  dsimp only
  split_ifs
  · exact h
  · exact onlyFor_popRequest m lift s
  · exact h

theorem onlyFor_observeServerState (m : LiftSessionManager) (lift s : String) (now : ℚ) :
    (m.observeServerState lift s now).OnlyFor lift s := by
  unfold observeServerState
  dsimp only
  split_ifs with hother hfreed
  · exact onlyFor_popRequest _ lift s
  · exact onlyFor_popRequest _ lift s
  · unfold OnlyFor
    by_cases hnone : ((((m.setServer lift s).evictStaleLocked lift now).requested lift).getD
        "") = ""
    · exact Or.inl hnone
    · refine Or.inr (by_contra fun hne => hother ⟨hnone, fun hs => hfreed ⟨hnone, hs⟩, hne⟩)

def Call.Suits (lift s : String) : Call → Prop
  | .tryAcquire l u _ _ => l = lift → u = s
  | .observeServerState l u _ => l = lift → u = s
  | _ => True

theorem onlyFor_call (h : m.OnlyFor lift s) {c : Call} (hc : c.Suits lift s) :
    (m.call c).1.OnlyFor lift s := by
  by_cases hlift : c.lift = lift
  · cases c with
    | tryAcquire l u now stamp =>
      obtain rfl : l = lift := hlift
      obtain rfl := hc rfl
      exact onlyFor_tryAcquire h now stamp
    | release l u =>
      obtain rfl : l = lift := hlift
      exact onlyFor_release h u
    | observeServerState l u now =>
      obtain rfl : l = lift := hlift
      obtain rfl := hc rfl
      exact onlyFor_observeServerState m l u now
    | currentHolder l now =>
      obtain rfl : l = lift := hlift
      show (m.currentHolder l now).1.OnlyFor l s
      rw [currentHolder_fst]
      exact onlyFor_evictStaleLocked h now
  · exact onlyFor_of_requested h ((agreeOff_call m c).2 lift (Ne.symm hlift)).1

/-! ### What both views decide -/

theorem tryAcquire_iff_of_onlyFor (hview : m.server lift = some s) (h : m.OnlyFor lift s)
    {b : String} (hb : b ≠ "") (now stamp : ℚ) :
    (m.tryAcquire lift b now stamp).2 = true ↔ s = "" ∨ s = b := by
  rw [LiftAdapterNode.tryAcquire_iff_lockOpen stamp hb]
  unfold LiftAdapterNode.LockOpen
  dsimp only
  have hserver : ((m.evictStaleLocked lift now).server lift).getD "" = s := by
    rw [evictStaleLocked_server, hview]
    rfl
  have hrequested := onlyFor_evictStaleLocked h now
  rw [hserver]
  constructor
  · rintro (⟨-, hfree⟩ | hrequest | hheld)
    · exact Or.inl hfree
    · obtain hnone | hsame := hrequested
      · exact absurd (hrequest.symm.trans hnone) hb
      · exact Or.inr (hsame.symm.trans hrequest)
    · exact Or.inr hheld
  · rintro (hfree | hheld)
    · refine Or.inl ⟨?_, hfree⟩
      obtain hnone | hsame := hrequested
      · exact hnone
      · exact hsame.trans hfree
    · exact Or.inr (Or.inr hheld)

theorem currentHolder_of_view (hview : m.server lift = some s) (now : ℚ) :
    (m.currentHolder lift now).2 = if s = "" then none else some s := by
  unfold currentHolder
  dsimp only
  rw [evictStaleLocked_server, hview]

end LiftSessionManager

namespace LiftSystem

open LiftSessionManager

theorem dispatch_manager (q : LiftSystem) (owner : String) (r : LiftRequest)
    (executionId : Option String) (fresh : String) (now stamp : ℚ) :
    (q.dispatch owner r executionId fresh now stamp).1.node.sessionManager =
        q.node.sessionManager ∨
      ∃ lift u, r.liftName = some lift ∧ r.sessionId = some u ∧
        (q.dispatch owner r executionId fresh now stamp).1.node.sessionManager =
          (q.node.sessionManager.call (.tryAcquire lift u now stamp)).1 := by
  unfold dispatch
  cases q.node.handles.get owner with
  | none => exact Or.inl rfl
  | some h =>
    dsimp only
    cases hscreen : h.screen r executionId fresh with
    | dropped => exact Or.inl rfl
    | rejected why => exact Or.inl rfl
    | request p =>
      obtain ⟨hname, -, hsession, -, -, -, hlift, -⟩ :=
        LiftHandle.screen_eq_request.mp hscreen
      have hmanager : (p.gate q.node.sessionManager now stamp).1 = q.node.sessionManager ∨
          (p.gate q.node.sessionManager now stamp).1 =
            (q.node.sessionManager.call (.tryAcquire p.lift p.sessionId now stamp)).1 := by
        unfold LiftPost.gate
        split_ifs
        · exact Or.inr rfl
        · exact Or.inl rfl
      have hnamed : r.liftName = some p.lift := by rw [hlift, hname]
      dsimp only
      cases (p.gate q.node.sessionManager now stamp).2 with
      | false => exact hmanager.imp id fun h => ⟨p.lift, p.sessionId, hnamed, hsession, h⟩
      | true => exact hmanager.imp id fun h => ⟨p.lift, p.sessionId, hnamed, hsession, h⟩

theorem response_manager (q : LiftSystem) (i : ℕ) (outcome : Except Exc Json) :
    (q.response i outcome).1.node.sessionManager = q.node.sessionManager ∨
      ∃ lift u, (q.response i outcome).1.node.sessionManager =
        (q.node.sessionManager.call (.release lift u)).1 := by
  have heffect := response_effect q i outcome
  generalize q.response i outcome = r at heffect
  cases heffect with
  | quiet hm _ => exact Or.inl hm
  | released p verdict _ _ hrelease _ =>
    exact Or.inr ⟨p.lift, p.sessionId, (congrArg Prod.fst hrelease).symm⟩

theorem frame_manager (q : LiftSystem) (lift : String) (f : LiftStateFrame) (now : ℚ)
    (published : Bool) :
    (q.frame lift f now published).1.node.sessionManager = q.node.sessionManager ∨
      ∃ t, (q.frame lift f now published).1.node.sessionManager =
        (q.node.sessionManager.call (.observeServerState lift f.sessionId t)).1 := by
  have heffect := frame_effect q lift f now published
  generalize q.frame lift f now published = r at heffect
  cases heffect with
  | quiet hm _ => exact Or.inl hm
  | observed _ _ t hm _ => exact Or.inr ⟨t, hm⟩

end LiftSystem

def WorldEvent.Spares (lift s : String) : WorldEvent → Prop
  | .dispatch _ r .. => r.liftName = some lift → ∀ u, r.sessionId = some u → u = s
  | _ => True

namespace LiftWorld

open LiftSessionManager

/-! ### Frames that name the holder -/

section Named

variable {lift s : String} {K : ℕ}

structure NamedFrom (lift s : String) (K : ℕ) (w : LiftWorld) : Prop where
  tracks : Tracks lift w
  named : ∀ k f, K ≤ k → (w.emitted lift)[k]? = some f → f.sessionId = s

theorem namedFrom_step {w : LiftWorld} (h : NamedFrom lift s K w) (hheld : w.holder lift = s)
    (e : WorldEvent) : NamedFrom lift s K (machine.step w e).1 := by
  refine ⟨tracks_step h.tracks e, fun k f hk hf => ?_⟩
  obtain hsame | ⟨g, hg, hemits⟩ := emitted_step w e lift
  · rw [hsame] at hf
    exact h.named k f hk hf
  · rw [hg, List.getElem?_append] at hf
    split_ifs at hf with hold
    · exact h.named k f hk hf
    · obtain rfl : f = g := List.mem_singleton.mp (List.mem_of_getElem? hf)
      exact hemits.1.trans hheld

/-- The `K`th frame has been delivered, and nobody else has a request on the lift. -/
structure CaughtUp (lift s : String) (K : ℕ) (w : LiftWorld) : Prop where
  namedFrom : NamedFrom lift s K w
  delivered : K < w.delivered lift
  onlyFor : w.system.node.sessionManager.OnlyFor lift s

theorem CaughtUp.view {w : LiftWorld} (h : CaughtUp lift s K w) :
    w.system.node.sessionManager.server lift = some s := by
  obtain ⟨k, hk⟩ : ∃ k, w.delivered lift = k + 1 :=
    Nat.exists_eq_succ_of_ne_zero (Nat.ne_zero_of_lt h.delivered)
  have hbound : k < (w.emitted lift).length := by
    have hdelivered := h.namedFrom.tracks.bounded
    rwa [hk] at hdelivered
  have hlast := List.getElem?_eq_getElem hbound
  have hnamed : ((w.emitted lift)[k]).sessionId = s := by
    refine h.namedFrom.named k _ ?_ hlast
    have hdelivered := h.delivered
    rw [hk] at hdelivered
    exact Nat.le_of_lt_succ hdelivered
  have htail : ((w.emitted lift).take (k + 1)).getLast? = some (w.emitted lift)[k] := by
    rw [List.take_add_one, hlast]
    exact List.getLast?_concat
  rw [h.namedFrom.tracks.view, hk, htail, ← hnamed]
  rfl

theorem manager_step (w : LiftWorld) {e : WorldEvent} (hspares : e.Spares lift s)
    (hframe : ∀ f, (w.emitted lift)[w.delivered lift]? = some f → f.sessionId = s) :
    (machine.step w e).1.system.node.sessionManager = w.system.node.sessionManager ∨
      ∃ c : Call, c.Suits lift s ∧ (machine.step w e).1.system.node.sessionManager =
        (w.system.node.sessionManager.call c).1 := by
  cases e with
  | dispatch owner r executionId fresh now stamp =>
    obtain hm | ⟨l, u, hl, hu, hm⟩ :=
      LiftSystem.dispatch_manager w.system owner r executionId fresh now stamp
    · exact Or.inl hm
    · refine Or.inr ⟨.tryAcquire l u now stamp, fun hlift => ?_, hm⟩
      exact hspares (hlift ▸ hl) u hu
  | response i outcome =>
    obtain hm | ⟨l, u, hm⟩ := LiftSystem.response_manager w.system i outcome
    · exact Or.inl hm
    · exact Or.inr ⟨.release l u, trivial, hm⟩
  | process i =>
    refine Or.inl ?_
    simp only [machine, step]
    cases w.network[i]? with
    | none => rfl
    | some p => rfl
  | emit other f =>
    refine Or.inl ?_
    simp only [machine, step]
    split_ifs
    · rfl
    · rfl
  | deliver other now published =>
    simp only [machine, step]
    cases hf : (w.emitted other)[w.delivered other]? with
    | none => exact Or.inl rfl
    | some f =>
      obtain hm | ⟨t, hm⟩ := LiftSystem.frame_manager w.system other f now published
      · exact Or.inl hm
      · refine Or.inr ⟨.observeServerState other f.sessionId t, fun hlift => ?_, hm⟩
        exact hframe f (hlift ▸ hf)

theorem CaughtUp.step {w : LiftWorld} (h : CaughtUp lift s K w) (hheld : w.holder lift = s)
    {e : WorldEvent} (hspares : e.Spares lift s) : CaughtUp lift s K (machine.step w e).1 := by
  refine ⟨namedFrom_step h.namedFrom hheld e, ?_, ?_⟩
  · obtain ⟨hdel, -⟩ | ⟨f, now, published, -, hdel, -⟩ := delivered_step w e lift
    · rw [hdel]
      exact h.delivered
    · rw [hdel]
      exact Nat.lt_succ_of_lt h.delivered
  · have hframe : ∀ f, (w.emitted lift)[w.delivered lift]? = some f → f.sessionId = s :=
      fun f hf => h.namedFrom.named _ f h.delivered.le hf
    obtain hm | ⟨c, hc, hm⟩ := manager_step w hspares hframe
    · rw [hm]
      exact h.onlyFor
    · rw [hm]
      exact onlyFor_call h.onlyFor hc

theorem caughtUp_step {w : LiftWorld} (h : NamedFrom lift s K w) (hbehind : w.delivered lift ≤ K)
    (hheld : w.holder lift = s) (e : WorldEvent) :
    (machine.step w e).1.delivered lift = w.delivered lift ∨
      (machine.step w e).1.delivered lift = w.delivered lift + 1 ∧
        (w.delivered lift < K ∨ CaughtUp lift s K (machine.step w e).1) := by
  obtain ⟨hdel, -⟩ | ⟨f, now, published, hf, hdel, -, hsys, -⟩ := delivered_step w e lift
  · exact Or.inl hdel
  · refine Or.inr ⟨hdel, ?_⟩
    obtain hlt | hlast := hbehind.lt_or_eq
    · exact Or.inl hlt
    · have hok : (translateState f).isOk = true :=
        h.tracks.wellFormed f (List.mem_of_getElem? hf)
      have hnamed : f.sessionId = s := h.named _ f hlast.ge hf
      refine Or.inr ⟨namedFrom_step h hheld e, ?_, ?_⟩
      · rw [hdel, hlast]
        exact Nat.lt_succ_self K
      · rw [hsys, (LiftSystem.frame_of_managed h.tracks.managed hok now published).1, hnamed]
        exact onlyFor_observeServerState _ lift s now

theorem emitted_length_step (w : LiftWorld) (e : WorldEvent) (lift : String) :
    (w.emitted lift).length ≤ ((machine.step w e).1.emitted lift).length := by
  obtain ⟨rest, hrest⟩ := emitted_prefix w [e] lift
  have hsame : (machine.step w e).1.emitted lift = w.emitted lift ++ rest := hrest.symm
  rw [hsame, List.length_append]
  exact Nat.le_add_right _ _

theorem emitted_of_emit {w : LiftWorld} {f : LiftStateFrame} (h : w.Emits lift f) :
    (machine.step w (.emit lift f)).1.emitted lift = w.emitted lift ++ [f] := by
  simp only [machine, step, if_pos h]
  exact Function.update_self ..

theorem delivered_of_deliver {w : LiftWorld} (hpending : w.delivered lift < (w.emitted lift).length)
    (now : ℚ) (published : Bool) :
    (machine.step w (.deliver lift now published)).1.delivered lift = w.delivered lift + 1 := by
  have hf := List.getElem?_eq_getElem hpending
  simp only [machine, step, hf]
  exact Function.update_self ..

structure Pending (lift s : String) (K : ℕ) (w : LiftWorld) : Prop where
  namedFrom : NamedFrom lift s K w
  behind : w.delivered lift ≤ K
  emitted : K < (w.emitted lift).length

def Calm (lift s : String) (w : LiftWorld) (e : WorldEvent) : Prop :=
  w.holder lift = s ∧ e.Spares lift s

def Delivers (lift : String) (_ : Unit) (e : WorldEvent) : Prop :=
  ∃ now published, e = .deliver lift now published

theorem nears_caughtUp (w : LiftWorld) (e : WorldEvent) (hcalm : Calm lift s w e)
    (h : Pending lift s K w) :
    Machine.Nears machine (Delivers lift) (fun _ => ()) (fun w => K + 1 - w.delivered lift)
      (Pending lift s K) (CaughtUp lift s K) w e := by
  have hemitted : K < ((machine.step w e).1.emitted lift).length :=
    h.emitted.trans_le (emitted_length_step w e lift)
  have hnamed := namedFrom_step h.namedFrom hcalm.1 e
  obtain hdel | ⟨hdel, hlt | hup⟩ := caughtUp_step h.namedFrom h.behind hcalm.1 e
  · refine .leaves ⟨hnamed, ?_, hemitted⟩ ?_ rfl ?_
    · rw [hdel]
      exact h.behind
    · rw [hdel]
    · rintro ⟨now, published, rfl⟩
      have hnext := delivered_of_deliver (h.behind.trans_lt h.emitted) now published
      exact absurd (hdel.symm.trans hnext) (Nat.ne_of_lt (Nat.lt_succ_self _))
  · refine .lowers ⟨hnamed, ?_, hemitted⟩ ?_
    · rw [hdel]
      exact hlt
    · rw [hdel]
      omega
  · exact .reaches hup

/-- From `w` on the holder of the lift stays `s`, nobody else asks for the lift, the server pushes
one more frame, and the frames of the lift go on being delivered. -/
structure Settles (lift s : String) (w : LiftWorld) (events : ℕ → WorldEvent) : Prop where
  calm : ∀ n, Calm lift s (machine.path w events n) (events n)
  pushes : ∃ n f, events n = .emit lift f ∧ (machine.path w events n).Emits lift f
  delivers : Machine.Fair (Delivers lift) events

theorem namedFrom_start {w : LiftWorld} (h : Tracks lift w) :
    NamedFrom lift s (w.emitted lift).length w := by
  refine ⟨h, fun k f hk hf => ?_⟩
  rw [List.getElem?_eq_none hk] at hf
  cases hf

theorem exists_caughtUp {w : LiftWorld} {events : ℕ → WorldEvent} (htracks : Tracks lift w)
    (h : Settles lift s w events) :
    ∃ n, CaughtUp lift s (w.emitted lift).length (machine.path w events n) := by
  set K := (w.emitted lift).length with hK
  -- up to the push, the adapter is behind or has caught up already
  have hkept : ∀ n, NamedFrom lift s K (machine.path w events n) ∧
      K ≤ ((machine.path w events n).emitted lift).length ∧
      ((machine.path w events n).delivered lift ≤ K ∨
        CaughtUp lift s K (machine.path w events n)) := by
    intro n
    have hstart : NamedFrom lift s K w ∧ K ≤ (w.emitted lift).length ∧
        (w.delivered lift ≤ K ∨ CaughtUp lift s K w) :=
      ⟨namedFrom_start htracks, hK.le, Or.inl htracks.bounded⟩
    refine Machine.path_keeps (n := 0) (P := fun w' => NamedFrom lift s K w' ∧
      K ≤ (w'.emitted lift).length ∧ (w'.delivered lift ≤ K ∨ CaughtUp lift s K w'))
      (fun w' e hcalm hw' => ?_) h.calm hstart (Nat.zero_le n)
    obtain ⟨hnamed, hlength, hwhere⟩ := hw'
    refine ⟨namedFrom_step hnamed hcalm.1 e, hlength.trans (emitted_length_step w' e lift), ?_⟩
    obtain hbehind | hup := hwhere
    · obtain hdel | ⟨hdel, hlt | hup⟩ := caughtUp_step hnamed hbehind hcalm.1 e
      · exact Or.inl (hdel.le.trans hbehind)
      · exact Or.inl (hdel.le.trans hlt)
      · exact Or.inr hup
    · exact Or.inr (hup.step hcalm.1 hcalm.2)
  obtain ⟨n, f, hemit, hemits⟩ := h.pushes
  obtain ⟨hnamed, -, hbehind | hup⟩ := hkept (n + 1)
  · have hpushed : K < ((machine.path w events (n + 1)).emitted lift).length := by
      have hlength := (hkept n).2.1
      rw [Machine.path_succ, hemit, emitted_of_emit hemits, List.length_append]
      exact Nat.lt_succ_of_le hlength
    obtain ⟨k, -, hk⟩ := Machine.eventually_of_nears nears_caughtUp h.calm h.delivers
      (n := n + 1) ⟨hnamed, hbehind, hpushed⟩
    exact ⟨k, hk⟩
  · exact ⟨n + 1, hup⟩

end Named

end LiftWorld

/-! ### Agreement -/

theorem process_grants_iff {p : LiftPost} (hagv : p.requestType = .agvMode) (holder : Holders) :
    p.process holder p.lift = p.sessionId.val ↔
      holder p.lift = "" ∨ holder p.lift = p.sessionId.val := by
  unfold LiftPost.process
  rw [if_pos hagv]
  split_ifs with hgrants
  · exact iff_of_true (Function.update_self ..) hgrants
  · exact iff_of_false (fun hholder => hgrants (Or.inr hholder)) hgrants

/-- On the lift, the adapter takes the server's holder for the holder, and its lock lets exactly
those AGV_MODE requests through that the server would grant. -/
structure Agrees (lift : String) (w : LiftWorld) : Prop where
  holder : ∀ now, (w.system.node.sessionManager.currentHolder lift now).2 =
    if w.holder lift = "" then none else some (w.holder lift)
  lock : ∀ (p : LiftPost) (now stamp : ℚ), p.lift = lift → p.requestType = .agvMode →
    ((p.gate w.system.node.sessionManager now stamp).2 = true ↔
      p.process w.holder lift = p.sessionId.val)

theorem LiftWorld.CaughtUp.agrees {lift s : String} {K : ℕ} {w : LiftWorld}
    (h : LiftWorld.CaughtUp lift s K w) (hheld : w.holder lift = s) : Agrees lift w := by
  constructor
  · intro now
    rw [hheld]
    exact LiftSessionManager.currentHolder_of_view h.view now
  · rintro p now stamp rfl hagv
    rw [process_grants_iff hagv, hheld, LiftPost.gate, if_pos hagv]
    exact LiftSessionManager.tryAcquire_iff_of_onlyFor h.view h.onlyFor p.sessionId.2 now stamp

/-- Wherever a run has led, and whatever was lost of the adapter's own view on the way: once the
server settles on a holder, the adapter comes to agree with it and stays so. -/
theorem views_converge {liftNames : List String} {scope : Option String} {ttlSeconds : ℚ}
    (past : List WorldEvent) {lift s : String} {events : ℕ → WorldEvent}
    (hlift : lift ∈ (LiftWorld.new liftNames scope ttlSeconds).system.node.handles.keys)
    (h : LiftWorld.Settles lift s
      (LiftWorld.machine.after (.new liftNames scope ttlSeconds) past) events) :
    ∃ n, ∀ m, n ≤ m → Agrees lift
      (LiftWorld.machine.path (LiftWorld.machine.after (.new liftNames scope ttlSeconds) past)
        events m) := by
  have htracks := LiftWorld.tracks_after (LiftWorld.tracks_new hlift) past
  obtain ⟨n, hn⟩ := LiftWorld.exists_caughtUp htracks h
  refine ⟨n, fun m hm => ?_⟩
  have hm' := Machine.path_keeps (fun w e hcalm hw => hw.step hcalm.1 hcalm.2) h.calm hn hm
  exact hm'.agrees (h.calm m).1

/-- A session has been granted the lift, and a frame from before it has taken the adapter's view of
that away. -/
def overtakenPast : List WorldEvent :=
  [.emit "L1" (.minimal "L1" ""),
    .dispatch "L1" ⟨some "L1", some "a", .int 2, some "G", .bare (.int 0)⟩ none "x" 0 0,
    .process 0, .deliver "L1" 1 true]

def pushed : ℕ → WorldEvent
  | 0 => .emit "L1" (.minimal "L1" "a")
  | _ + 1 => .deliver "L1" 2 true

theorem pushed_agrees : ∃ n, ∀ m, n ≤ m → Agrees "L1"
    (LiftWorld.machine.path (LiftWorld.machine.after (.new ["L1"] none 0) overtakenPast)
      pushed m) := by
  refine views_converge (s := "a") overtakenPast (List.mem_singleton_self _) ⟨?_, ?_, ?_⟩
  · have hstep : ∀ (w : LiftWorld) (n : ℕ), w.holder "L1" = "a" →
        (LiftWorld.machine.step w (pushed n)).1.holder "L1" = "a" := by
      intro w n hw
      cases n with
      | zero =>
        simp only [LiftWorld.machine, pushed, LiftWorld.step]
        split_ifs
        · exact hw
        · exact hw
      | succ n =>
        simp only [LiftWorld.machine, pushed, LiftWorld.step]
        cases (w.emitted "L1")[w.delivered "L1"]? with
        | none => exact hw
        | some f => exact hw
    intro n
    refine ⟨?_, ?_⟩
    · induction n with
      | zero => rfl
      | succ n ih => exact hstep _ n ih
    · cases n with
      | zero => exact trivial
      | succ n => exact trivial
  · exact ⟨0, _, rfl, rfl, rfl⟩
  · intro _ n
    exact ⟨n + 1, Nat.le_succ n, 2, true, rfl⟩

end QuikSync.Lift
