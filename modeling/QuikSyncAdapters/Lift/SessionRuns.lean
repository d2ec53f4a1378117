import QuikSyncAdapters.Lift.SessionRefinement
import Mathlib.Tactic.Linarith
import Mathlib.Tactic.NormNum

/-! What holds of the session manager in every reachable state and along every run: the
agreement of the two views, the weight of the last frame, and the life of a request. -/

namespace QuikSync.Lift

open LeaseLock hiding machine
open LeaseLock.View LiftSessionManager

/-- In every reachable manager the two request maps have the same keys, no request is
empty and no frame names another session; right after a frame only its session is requested. -/
theorem reachable_views_agree (ttl : ℚ) (calls : List Call) (lift : String) :
    let m := machine.after (new ttl) calls
    (m.requested lift = none ↔ m.requestedAt lift = none) ∧
      (∀ s, m.requested lift = some s →
        s ≠ "" ∧ (m.server lift = none ∨ m.server lift = some "" ∨ m.server lift = some s)) ∧
      ∀ x now, (m.observeServerState lift x now).requested lift = none ∨
        (m.observeServerState lift x now).requested lift = some x := by
  intro m
  have h := reachable_represents ttl calls lift
  set v := (LeaseLock.machine (stale ttl)).after free (opsOn lift calls)
  refine ⟨?_, ?_, ?_⟩
  · rw [h.requested, h.requestedAt, claimant]
    simp only [Option.map_eq_none_iff]
  · intro s hs
    rw [h.requested] at hs
    obtain ⟨c, hc, rfl⟩ := Option.map_eq_some_iff.mp hs
    refine ⟨c.2, ?_⟩
    rw [h.server]
    rcases hrep : v.reported with _ | (_ | o)
    · exact Or.inl rfl
    · exact Or.inr (Or.inl rfl)
    · have ho : o = c := owner_eq_claimant hc (owner_eq_some.mpr hrep)
      exact Or.inr (Or.inr (by rw [ho]; rfl))
  · intro x now
    have hobs := (represents_observeServerState h x now).requested
    have hclaimant : (v.observe (stale ttl now) (sid x)).claimant = none ∨
        (v.observe (stale ttl now) (sid x)).claimant = sid x := claimant_observe
    rcases hclaimant with hc | hc
    · exact Or.inl (by rw [hobs, hc]; rfl)
    · rw [hobs, hc]
      -- a frame of a free lift names nobody
      by_cases hx : x = ""
      · exact Or.inl (by rw [sid_eq_none.mpr hx]; rfl)
      · exact Or.inr (by rw [sid, dif_neg hx]; rfl)

/-- Two managers that no named session can tell apart at `lift`. -/
def Alike (ttl : ℚ) (lift : String) (m m' : LiftSessionManager) : Prop :=
  ∃ v w, Represents ttl m lift v ∧ Represents ttl m' lift w ∧ Coalesced v w

theorem alike_call {ttl : ℚ} {lift : String} {m m' : LiftSessionManager} (h : Alike ttl lift m m')
    {c : Call} (hlift : c.lift = lift) (hc : c ≠ .release lift "") :
    (m.call c).2 = (m'.call c).2 ∧ Alike ttl lift (m.call c).1 (m'.call c).1 := by
  subst hlift
  obtain ⟨v, w, hv, hw, hvw⟩ := h
  have hop : c.op ≠ .release none := by
    cases c with
    | release lift s =>
      intro hs
      have hempty : s = "" := sid_eq_none.mp (Op.release.inj hs)
      exact hc (congrArg (Call.release lift) hempty)
    | _ => exact nofun
  have hstep : (step (stale ttl) v c.op).2 = (step (stale ttl) w c.op).2 ∧
      Coalesced (step (stale ttl) v c.op).1 (step (stale ttl) w c.op).1 := coalesced_step hvw hop
  obtain ⟨hans, hnext⟩ := hstep
  obtain ⟨hansv, hnextv⟩ := call_represents hv
  obtain ⟨hansw, hnextw⟩ := call_represents hw
  exact ⟨by rw [hansv, hansw, hans], _, _, hnextv, hnextw, hnext⟩

/-- After one frame for a lift, the answers of every later run of calls on it by named
sessions are the same whatever happened before the frame. -/
theorem frame_coalescing_harmless (ttl : ℚ) (before before' : List Call) (lift s : String)
    (now : ℚ) (later : List Call) (hlift : ∀ c ∈ later, c.lift = lift)
    (hnamed : ∀ c ∈ later, c ≠ .release lift "") :
    machine.answers ((machine.after (new ttl) before).observeServerState lift s now) later =
      machine.answers ((machine.after (new ttl) before').observeServerState lift s now) later := by
  have hstart : Alike ttl lift ((machine.after (new ttl) before).observeServerState lift s now)
      ((machine.after (new ttl) before').observeServerState lift s now) :=
    ⟨_, _, represents_observeServerState (reachable_represents ttl before lift) s now,
      represents_observeServerState (reachable_represents ttl before' lift) s now,
      coalesced_observe _ _ _ _ _⟩
  refine Machine.answers_eq_of_bisim (R := Alike ttl lift)
    (A := fun c => c.lift = lift ∧ c ≠ .release lift "")
    (fun _ _ _ hc h => alike_call h hc.1 hc.2) hstart ?_
  exact fun c hc => ⟨hlift c hc, hnamed c hc⟩

theorem frame_coalescing_harmless_witness :
    machine.answers
        ((machine.after (new 5) [.tryAcquire "L1" "a" 0 0]).observeServerState "L1" "a" 1)
        [.release "L1" "b", .tryAcquire "L1" "a" 2 2] =
      machine.answers ((machine.after (new 5) []).observeServerState "L1" "a" 1)
        [.release "L1" "b", .tryAcquire "L1" "a" 2 2] :=
  frame_coalescing_harmless 5 [.tryAcquire "L1" "a" 0 0] [] "L1" "a" 1
    [.release "L1" "b", .tryAcquire "L1" "a" 2 2]
    (by simp [Call.lift]) (by simp)

/-! ### A lock-out after a silence -/

/-- No frame for `lift` and no successful acquire on it within the last `ttl` before `now`. -/
def Silent (ttl : ℚ) (lift : String) (now : ℚ) (log : List (Call × Answer)) : Prop :=
  (∀ s t stamp, (.tryAcquire lift s t stamp, .verdict true) ∈ log → ttl < now - stamp) ∧
    ∀ s t, (.observeServerState lift s t, .done) ∈ log → ttl < now - t

def lastFrame (lift : String) (calls : List Call) : Option String :=
  calls.foldl (fun last c => match c with
    | .observeServerState l s _ => if l = lift then some s else last
    | _ => last) none

theorem lastFrame_append (lift : String) (calls : List Call) (c : Call) :
    lastFrame lift (calls ++ [c]) = match c with
      | .observeServerState l s _ => if l = lift then some s else lastFrame lift calls
      | _ => lastFrame lift calls := by
  rw [lastFrame, List.foldl_append]
  rfl

theorem lastReport_opsOn (lift : String) (calls : List Call) :
    lastReport (opsOn lift calls) = (lastFrame lift calls).map sid := by
  induction calls using List.reverseRecOn with
  | nil => rfl
  | append_singleton calls c ih =>
    have hops : opsOn lift (calls ++ [c]) =
        opsOn lift calls ++ if c.lift = lift then [c.op] else [] := by
      rw [opsOn, List.filterMap_append]
      split_ifs with h <;> simp [opsOn, h]
    rw [hops, lastFrame_append]
    by_cases hc : c.lift = lift
    · rw [if_pos hc, lastReport_append]
      cases c with
      | observeServerState l s now => simp [Call.op, show l = lift from hc]
      | _ => exact ih
    · rw [if_neg hc, List.append_nil, ih]
      cases c with
      | observeServerState l s now => simp [show ¬ l = lift from hc]
      | _ => rfl

/-- After a silence longer than the TTL a session acquires the lift exactly when the last
frame before it, if any, named nobody or that session: a server view never expires. -/
theorem tryAcquire_after_silence_iff (ttl : ℚ) (calls : List Call) (lift s : String)
    (now stamp : ℚ) (httl : 0 < ttl) (hs : s ≠ "")
    (hsilent : Silent ttl lift now (machine.log (new ttl) calls)) :
    ((machine.after (new ttl) calls).tryAcquire lift s now stamp).2 = true ↔
      lastFrame lift calls = none ∨ lastFrame lift calls = some "" ∨
        lastFrame lift calls = some s := by
  have hsid : sid s = some ⟨s, hs⟩ := dif_neg hs
  have hquiet : ∀ c n t, (.acquire (some c) n t, .verdict true) ∈
      (LeaseLock.machine (stale ttl)).log free (opsOn lift calls) → stale ttl now t = true := by
    intro c n t hmem
    rw [← log_onLift (represents_new ttl lift), List.mem_filterMap] at hmem
    obtain ⟨⟨call, ans⟩, hlog, hview⟩ := hmem
    obtain ⟨hlift, hpair⟩ := onLift_eq_some.mp hview
    obtain ⟨hop, hreply⟩ := Prod.mk.inj hpair.symm
    rw [stale_eq_true]
    refine ⟨httl, ?_⟩
    cases call with
    | tryAcquire l u t' stamp' =>
      obtain ⟨-, -, rfl⟩ := Op.acquire.inj hop
      cases ans with
      | verdict b =>
        obtain rfl : true = b := Reply.verdict.inj hreply
        exact hsilent.1 u t' t (hlift ▸ hlog)
      | _ => cases hreply
    | _ => cases hop
  rw [(represents_tryAcquire (reachable_represents ttl calls lift) s now stamp).2, hsid,
    acquire_after_silence hquiet, lastReport_opsOn]
  cases lastFrame lift calls with
  | none => simp
  | some x =>
    simp only [Option.map_some, Option.join_some, sid_eq_none, Option.some.injEq, reduceCtorEq,
      false_or]
    rw [← hsid, ← name_eq_iff, name_sid]

theorem tryAcquire_after_silence_iff_witness :
    ((machine.after (new 1) [.observeServerState "L1" "" 0]).tryAcquire "L1" "b" 9 9).2 = true ↔
      lastFrame "L1" [.observeServerState "L1" "" 0] = none ∨
        lastFrame "L1" [.observeServerState "L1" "" 0] = some "" ∨
          lastFrame "L1" [.observeServerState "L1" "" 0] = some "b" :=
  tryAcquire_after_silence_iff 1 [.observeServerState "L1" "" 0] "L1" "b" 9 9 (by norm_num)
    (by decide) ⟨by simp [machine, call], by simp [machine, call]⟩

/-- One frame naming a session, then silence for far longer than the TTL: another session
is still locked out. -/
theorem silence_locks_out :
    ¬ ∀ (ttl : ℚ) (calls : List Call) (lift s : String) (now stamp : ℚ), 0 < ttl → s ≠ "" →
      Silent ttl lift now (machine.log (new ttl) calls) →
        ((machine.after (new ttl) calls).tryAcquire lift s now stamp).2 = true := by
  intro h
  have hacq := h 1 [.observeServerState "L1" "a" 0] "L1" "b" 100 100 (by norm_num) (by decide)
    ⟨by simp [machine, call], by simp [machine, call]⟩
  exact absurd hacq (by decide)

/-! ### The life of a request -/

def Confirms (lift s : String) (c : Call) : Prop :=
  (∃ now stamp, c = .tryAcquire lift s now stamp) ∨ ∃ now, c = .observeServerState lift s now

def lastAcquire (lift : String) (stamp : ℚ) (calls : List Call) : ℚ :=
  calls.foldl (fun t c => match c with
    | .tryAcquire l _ _ stamp => if l = lift then stamp else t
    | _ => t) stamp

theorem renewed_opsOn (lift : String) (stamp : ℚ) (calls : List Call) :
    renewed stamp (opsOn lift calls) = lastAcquire lift stamp calls := by
  induction calls generalizing stamp with
  | nil => rfl
  | cons c calls ih =>
    by_cases hc : c.lift = lift
    · have hops : opsOn lift (c :: calls) = c.op :: opsOn lift calls :=
        List.filterMap_cons_some (if_pos hc)
      rw [hops]
      cases c with
      | tryAcquire l u now stamp' =>
        have hl : l = lift := hc
        refine (ih stamp').trans ?_
        simp only [lastAcquire, List.foldl_cons, if_pos hl]
      | _ => exact ih stamp
    · have hops : opsOn lift (c :: calls) = opsOn lift calls :=
        List.filterMap_cons_none (if_neg hc)
      rw [hops, ih]
      cases c with
      | tryAcquire l u now stamp' =>
        have hl : ¬ l = lift := hc
        simp only [lastAcquire, List.foldl_cons, if_neg hl]
      | _ => rfl

theorem confirms_op {lift s : String} {hs : s ≠ ""} {c : Call} (h : Confirms lift s c) :
    c.op.Confirms (⟨s, hs⟩ : SessionId) := by
  have hsid : sid s = some ⟨s, hs⟩ := dif_neg hs
  rcases h with ⟨now, stamp, rfl⟩ | ⟨now, rfl⟩ <;> exact hsid

theorem opsOn_confirms {lift s : String} {hs : s ≠ ""} {events : List Call}
    (hconf : ∀ c ∈ events, c.lift = lift → Confirms lift s c) :
    ∀ op ∈ opsOn lift events, op.Confirms (⟨s, hs⟩ : SessionId) := by
  intro op hop
  obtain ⟨c, hc, hlift, rfl⟩ := mem_opsOn.mp hop
  exact confirms_op (hconf c hc hlift)

theorem reports_fresh_iff {ttl stamp : ℚ} {lift s : String} {events : List Call} (httl : 0 < ttl)
    (hconf : ∀ c ∈ events, c.lift = lift → Confirms lift s c) :
    (∀ pre x t post, opsOn lift events = pre ++ .observe x t :: post →
        stale ttl t (renewed stamp pre) = false) ↔
      ∀ pre t post, events = pre ++ .observeServerState lift s t :: post →
        t - lastAcquire lift stamp pre ≤ ttl := by
  constructor
  · intro hfresh pre t post hsplit
    have hops : opsOn lift events = opsOn lift pre ++ .observe (sid s) t :: opsOn lift post := by
      rw [hsplit, opsOn_append]
      exact congrArg _ (List.filterMap_cons_some (if_pos rfl))
    rw [← renewed_opsOn, ← stale_eq_false httl]
    exact hfresh _ _ _ _ hops
  · intro htimes pre x t post hops
    obtain ⟨cpre, c, cpost, hevents, rfl, hlift, hop⟩ := exists_of_opsOn_eq_append hops
    have hmem : c ∈ events := by
      rw [hevents]
      exact List.mem_append_right _ (List.mem_cons_self ..)
    rw [renewed_opsOn, stale_eq_false httl]
    -- a retry is no report, so the call is a frame naming the session
    rcases hconf c hmem hlift with ⟨n, st, rfl⟩ | ⟨n, rfl⟩
    · cases hop
    · obtain ⟨-, rfl⟩ := Op.observe.inj hop
      exact htimes cpre n cpost hevents

/-- While every event on the lift confirms `s`, its request entry stays after every event
exactly when each frame comes at most the TTL after the last acquire of `s`: a frame does
not renew the entry. -/
theorem request_kept_iff (ttl : ℚ) (calls : List Call) (lift s : String) (now stamp : ℚ)
    (events : List Call) (httl : 0 < ttl)
    (hacq : ((machine.after (new ttl) calls).tryAcquire lift s now stamp).2 = true)
    (hconf : ∀ c ∈ events, c.lift = lift → Confirms lift s c) :
    (∀ pre post, events = pre ++ post →
        (machine.after ((machine.after (new ttl) calls).tryAcquire lift s now stamp).1
          pre).requested lift = some s) ↔
      ∀ pre t post, events = pre ++ .observeServerState lift s t :: post →
        t - lastAcquire lift stamp pre ≤ ttl := by
  obtain ⟨hrep, hans⟩ := represents_tryAcquire (reachable_represents ttl calls lift) s now stamp
  set v := (LeaseLock.machine (stale ttl)).after free (opsOn lift calls)
  obtain ⟨⟨s', hs⟩, hsid, hopen⟩ := acquire_granted_iff.mp (hans.symm.trans hacq)
  obtain rfl : s' = s := by rw [← name_sid s, hsid]; rfl
  rw [hsid, acquire_of_open hopen] at hrep
  have hrequested : ∀ pre, (machine.after
        ((machine.after (new ttl) calls).tryAcquire lift s' now stamp).1 pre).requested lift =
      some s' ↔
      ((LeaseLock.machine (stale ttl)).after ((v.expire (stale ttl now)).grant ⟨s', hs⟩ stamp hopen)
        (opsOn lift pre)).claimant = some ⟨s', hs⟩ :=
    fun pre => (represents_after hrep pre).requested_eq_some (s := ⟨s', hs⟩)
  have hclaim := (v.expire (stale ttl now)).grant_claim ⟨s', hs⟩ stamp hopen
  have hall := @claimant_all_iff _ _ _ (stale ttl) _ _ _ hclaim _ (opsOn_confirms hconf)
  rw [← reports_fresh_iff httl hconf]
  refine Iff.trans ⟨fun hkept => ?_, fun hfresh => ?_⟩ hall
  · intro opre opost hop
    obtain ⟨cpre, cpost, hevents, rfl, rfl⟩ := List.filterMap_eq_append_iff.mp hop
    exact (hrequested cpre).mp (hkept cpre cpost hevents)
  · intro pre post hsplit
    refine (hrequested pre).mpr (hfresh _ (opsOn lift post) ?_)
    rw [hsplit, opsOn_append]

theorem request_kept_iff_witness :
    (∀ pre post, [Call.observeServerState "L1" "a" 1] = pre ++ post →
        (machine.after ((machine.after (new 2) []).tryAcquire "L1" "a" 0 0).1 pre).requested "L1" =
          some "a") ↔
      ∀ pre t post, [Call.observeServerState "L1" "a" 1] =
          pre ++ .observeServerState "L1" "a" t :: post →
        t - lastAcquire "L1" 0 pre ≤ 2 :=
  request_kept_iff 2 [] "L1" "a" 0 0 [.observeServerState "L1" "a" 1] (by norm_num) (by decide)
    fun c hc _ => Or.inr ⟨1, List.mem_singleton.mp hc⟩

/-- The clock reading of a call, the stored one for an acquire. -/
def Call.time : Call → Option ℚ
  | .tryAcquire _ _ _ stamp => some stamp
  | .release _ _ => none
  | .observeServerState _ _ now => some now
  | .currentHolder _ now => some now

/-- Frames naming the session every three seconds, with a TTL of five: the second one
evicts the request. -/
theorem confirmed_request_evicted :
    ¬ ∀ (ttl : ℚ) (calls : List Call) (lift s : String) (now stamp : ℚ) (events : List Call),
      0 < ttl → ((machine.after (new ttl) calls).tryAcquire lift s now stamp).2 = true →
      (∀ c ∈ events, c.lift = lift ∧ Confirms lift s c) →
      (∀ pre t t' post, some stamp :: events.map Call.time = pre ++ some t :: some t' :: post →
        t' - t ≤ ttl) →
      ∀ pre post, events = pre ++ post →
        (machine.after ((machine.after (new ttl) calls).tryAcquire lift s now stamp).1
          pre).requested lift = some s := by
  intro h
  have hkept := h 5 [] "L1" "a" 0 0
    [.observeServerState "L1" "a" 3, .observeServerState "L1" "a" 6]
    (by norm_num) (by decide) ?_ ?_ _ [] (List.append_nil _).symm
  · exact absurd hkept (by decide +kernel)
  · intro c hc
    simp only [List.mem_cons, List.not_mem_nil, or_false] at hc
    rcases hc with rfl | rfl
    · exact ⟨rfl, Or.inr ⟨_, rfl⟩⟩
    · exact ⟨rfl, Or.inr ⟨_, rfl⟩⟩
  · intro pre t t' post hsplit
    rcases pre with _ | ⟨p, _ | ⟨q, _ | ⟨r, pre⟩⟩⟩ <;>
      simp only [List.map_cons, List.map_nil, Call.time, List.nil_append, List.cons_append,
        List.cons.injEq, Option.some.injEq, reduceCtorEq, and_false] at hsplit
    · obtain ⟨rfl, rfl, -⟩ := hsplit
      norm_num
    · obtain ⟨-, rfl, rfl, -⟩ := hsplit
      norm_num
    · simp at hsplit

end QuikSync.Lift
