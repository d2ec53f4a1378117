import QuikSyncAdapters.Library.LeaseRuns
import QuikSyncAdapters.Lift.SessionManager

/-! The three maps of the session manager represent, at each lift, one view of a lease
lock: the request view is the claim with its time, the server view the last report. The
empty session id stands for nobody. Every call is the matching lock operation at its own
lift and nothing at the others. -/

namespace QuikSync.Lift

open LeaseLock LeaseLock.View LiftSessionManager

abbrev SessionId := { s : String // s ≠ "" }

def sid (s : String) : Option SessionId := if h : s = "" then none else some ⟨s, h⟩

def name (x : Option SessionId) : String := x.elim "" Subtype.val

@[simp] theorem name_sid (s : String) : name (sid s) = s := by
  unfold sid
  split_ifs with h
  · exact h.symm
  · rfl

@[simp] theorem sid_name (x : Option SessionId) : sid (name x) = x := by
  cases x with
  | none => rfl
  | some s => exact dif_neg s.2

@[simp] theorem sid_empty : sid "" = none := rfl

theorem sid_val (s : SessionId) : sid s.val = some s := sid_name (some s)

theorem sid_eq_none {s : String} : sid s = none ↔ s = "" := by
  unfold sid
  split_ifs with h <;> simp [h]

theorem name_eq_iff {x : Option SessionId} {s : String} : name x = s ↔ x = sid s := by
  constructor
  · rintro rfl
    exact (sid_name x).symm
  · rintro rfl
    exact name_sid s

def stale (ttl now stamp : ℚ) : Bool := decide (0 < ttl ∧ ttl < now - stamp)

theorem stale_eq_true {ttl now stamp : ℚ} :
    stale ttl now stamp = true ↔ 0 < ttl ∧ ttl < now - stamp := decide_eq_true_iff

theorem stale_eq_false {ttl now stamp : ℚ} (httl : 0 < ttl) :
    stale ttl now stamp = false ↔ now - stamp ≤ ttl := by
  rw [← Bool.not_eq_true, stale_eq_true, not_and, not_lt]
  exact ⟨fun h => h httl, fun h _ => h⟩

/-- `v` is what the manager's maps say about `lift`. -/
structure Represents (ttl : ℚ) (m : LiftSessionManager) (lift : String) (v : View SessionId ℚ) :
    Prop where
  ttl : m.ttlSeconds = ttl
  requested : m.requested lift = v.claimant.map Subtype.val
  requestedAt : m.requestedAt lift = v.claim.map Prod.snd
  server : m.server lift = v.reported.map name

variable {ttl : ℚ} {m m' : LiftSessionManager} {lift : String} {v : View SessionId ℚ}

theorem represents_new (ttl : ℚ) (lift : String) : Represents ttl (new ttl) lift free :=
  ⟨rfl, rfl, rfl, rfl⟩

theorem Represents.currentRequest (h : Represents ttl m lift v) :
    (m.requested lift).getD "" = name v.claimant := by
  rw [h.requested]
  cases v.claimant <;> rfl

theorem Represents.requested_eq_some (h : Represents ttl m lift v) {s : SessionId} :
    m.requested lift = some s.val ↔ v.claimant = some s := by
  rw [h.requested]
  cases v.claimant with
  | none => simp
  | some c => simp [Subtype.ext_iff]

theorem Represents.currentServer (h : Represents ttl m lift v) :
    (m.server lift).getD "" = name v.owner := by
  rw [h.server, owner]
  cases v.reported <;> rfl

theorem Represents.agreeOff {other : String} (h : Represents ttl m lift v)
    (hm : AgreeOff other m m') (hne : lift ≠ other) : Represents ttl m' lift v := by
  obtain ⟨h1, h2, h3⟩ := hm.2 lift hne
  exact ⟨hm.1.trans h.ttl, h1.trans h.requested, h2.trans h.requestedAt, h3.trans h.server⟩

theorem represents_popRequest (h : Represents ttl m lift v) :
    Represents ttl (m.popRequest lift) lift v.drop := by
  exact ⟨h.ttl, m.popRequest_requested lift, m.popRequest_requestedAt lift, h.server⟩

theorem represents_setRequest (h : Represents ttl m lift v) {s : SessionId} (hopen : v.Open s)
    (stamp : ℚ) :
    Represents ttl (m.setRequest lift s.val stamp) lift (v.grant s stamp hopen) := by
  exact ⟨h.ttl, m.setRequest_requested lift s.val stamp, m.setRequest_requestedAt lift s.val stamp,
    h.server⟩

theorem represents_evictStaleLocked (h : Represents ttl m lift v) (now : ℚ) :
    Represents ttl (m.evictStaleLocked lift now) lift (v.expire (stale ttl now)) := by
  have hclaim : v.claim = none ∨ ∃ c, v.claim = some c := by
    cases v.claim <;> simp
  unfold evictStaleLocked
  rw [h.ttl]
  rcases hclaim with hc | ⟨c, hc⟩
  · have hexp : v.expire (stale ttl now) = v := expire_of_fresh (by simp [hc])
    have hnone : m.requestedAt lift = none := by rw [h.requestedAt, hc]; rfl
    rw [hexp, hnone]
    split_ifs <;> exact h
  · have hat : m.requestedAt lift = some c.2 := by rw [h.requestedAt, hc]; rfl
    have hexp : stale ttl now c.2 = false → v.expire (stale ttl now) = v := by
      intro hf
      refine expire_of_fresh fun d hd => ?_
      rw [hc] at hd
      obtain rfl := Option.some.inj hd
      exact hf
    rw [hat]
    by_cases httl : ttl ≤ 0
    · rw [if_pos httl, hexp (decide_eq_false fun hs => absurd hs.1 (not_lt.mpr httl))]
      exact h
    rw [if_neg httl]
    dsimp only
    by_cases hage : ttl < now - c.2
    · rw [if_pos hage]
      have hdrop : v.expire (stale ttl now) = v.drop := by
        refine View.ext (expire_claim_of_stale fun d hd => ?_) rfl
        rw [hc] at hd
        obtain rfl := Option.some.inj hd
        exact stale_eq_true.mpr ⟨not_le.mp httl, hage⟩
      rw [hdrop]
      exact represents_popRequest h
    · rw [if_neg hage, hexp (decide_eq_false fun hs => hage hs.2)]
      exact h

/-- The three accepting branches of the code are the one condition that nobody else is named. -/
theorem open_iff_branches {s : SessionId} :
    v.Open s ↔ (v.claimant = none ∧ v.owner = none) ∨ v.claimant = some s ∨ v.owner = some s := by
  constructor
  · rintro ⟨hclaim, howner⟩
    cases hc : v.claimant with
    | some c => exact Or.inr (Or.inl (by rw [hclaim c hc]))
    | none =>
      cases ho : v.owner with
      | some o => exact Or.inr (Or.inr (by rw [howner o ho]))
      | none => exact Or.inl ⟨rfl, rfl⟩
  · rintro (⟨hc, ho⟩ | hc | ho)
    · exact ⟨by simp [hc], by simp [ho]⟩
    · exact (open_of_claimant hc).mpr rfl
    · exact (open_of_owner ho).mpr rfl

theorem represents_tryAcquire (h : Represents ttl m lift v) (s : String) (now stamp : ℚ) :
    Represents ttl (m.tryAcquire lift s now stamp).1 lift
        (v.acquire (stale ttl now) (sid s) stamp).1 ∧
      (m.tryAcquire lift s now stamp).2 = (v.acquire (stale ttl now) (sid s) stamp).2 := by
  by_cases hs : s = ""
  · have hsid : sid s = none := sid_eq_none.mpr hs
    rw [hsid]
    unfold tryAcquire
    rw [if_pos hs]
    exact ⟨h, rfl⟩
  have hsid : sid s = some ⟨s, hs⟩ := dif_neg hs
  rw [hsid]
  have hev := represents_evictStaleLocked h now
  set w := v.expire (stale ttl now) with hw
  have hreq := hev.currentRequest
  have hsrv := hev.currentServer
  unfold tryAcquire
  rw [if_neg hs]
  dsimp only
  rw [hreq, hsrv]
  simp only [name_eq_iff, sid_empty, hsid]
  by_cases hfree : w.claimant = none ∧ w.owner = none
  · have hopen : w.Open ⟨s, hs⟩ := open_iff_branches.mpr (Or.inl hfree)
    rw [if_pos hfree, acquire_of_open hopen]
    exact ⟨represents_setRequest hev hopen stamp, rfl⟩
  rw [if_neg hfree]
  by_cases hclaim : w.claimant = some ⟨s, hs⟩
  · have hopen : w.Open ⟨s, hs⟩ := open_iff_branches.mpr (Or.inr (Or.inl hclaim))
    rw [if_pos hclaim, acquire_of_open hopen]
    -- the retry leaves `_requested` alone, where the session already stands
    refine ⟨⟨hev.ttl, ?_, ?_, hev.server⟩, rfl⟩
    · exact hev.requested.trans (by rw [hclaim]; rfl)
    · exact setRequestedAt_requestedAt _ lift stamp
  rw [if_neg hclaim]
  by_cases howner : w.owner = some ⟨s, hs⟩
  · have hopen : w.Open ⟨s, hs⟩ := open_iff_branches.mpr (Or.inr (Or.inr howner))
    rw [if_pos howner, acquire_of_open hopen]
    exact ⟨represents_setRequest hev hopen stamp, rfl⟩
  · have hclosed : ¬ w.Open ⟨s, hs⟩ := by
      rw [open_iff_branches]
      rintro (hb | hb | hb)
      exacts [hfree hb, hclaim hb, howner hb]
    rw [if_neg howner, acquire_of_not_open hclosed]
    exact ⟨hev, rfl⟩

theorem represents_release (h : Represents ttl m lift v) (s : String) :
    Represents ttl (m.release lift s).1 lift (v.release (sid s)).1 ∧
      (m.release lift s).2 = (v.release (sid s)).2 := by
  unfold LiftSessionManager.release View.release
  dsimp only
  rw [h.currentRequest, h.currentServer]
  simp only [name_eq_iff, sid_empty]
  by_cases hfree : v.claimant = none ∧ v.owner = none
  · have hclaim : v.claim = none := Option.map_eq_none_iff.mp hfree.1
    have hdrop : v.drop = v := View.ext hclaim.symm rfl
    rw [if_pos hfree, if_pos (Or.inl hfree), hdrop]
    exact ⟨h, rfl⟩
  rw [if_neg hfree]
  by_cases hnamed : v.claimant = sid s ∨ v.owner = sid s
  · rw [if_pos hnamed, if_pos (Or.inr hnamed)]
    exact ⟨represents_popRequest h, rfl⟩
  · have hkeep : ¬ ((v.claimant = none ∧ v.owner = none) ∨ v.claimant = sid s ∨ v.owner = sid s) :=
      fun hb => hb.elim hfree hnamed
    rw [if_neg hnamed, if_neg hkeep]
    exact ⟨h, rfl⟩

theorem observe_claim (s : String) (now : ℚ) :
    (v.observe (stale ttl now) (sid s)).claim =
      (v.expire (stale ttl now)).claim.filter fun c => decide (sid s = some c.1) := rfl

theorem observe_keeps {s : String} {now : ℚ}
    (h : (v.expire (stale ttl now)).claimant = none ∨
      (v.expire (stale ttl now)).claimant = sid s) :
    (v.observe (stale ttl now) (sid s)).claim = (v.expire (stale ttl now)).claim := by
  rw [observe_claim]
  cases hc : (v.expire (stale ttl now)).claim with
  | none => rfl
  | some c =>
    have hclaimant : (v.expire (stale ttl now)).claimant = some c.1 := by rw [claimant, hc]; rfl
    rw [hclaimant] at h
    have hs : sid s = some c.1 := (h.resolve_left (Option.some_ne_none _)).symm
    simp [Option.filter, hs]

theorem observe_clears {s : String} {now : ℚ}
    (h : (v.expire (stale ttl now)).claimant ≠ sid s) :
    (v.observe (stale ttl now) (sid s)).claim = none := by
  rw [observe_claim]
  cases hc : (v.expire (stale ttl now)).claim with
  | none => rfl
  | some c =>
    have hclaimant : (v.expire (stale ttl now)).claimant = some c.1 := by rw [claimant, hc]; rfl
    have hs : sid s ≠ some c.1 := fun hb => h (hclaimant.trans hb.symm)
    simp [Option.filter, hs]

theorem represents_observeServerState (h : Represents ttl m lift v) (s : String) (now : ℚ) :
    Represents ttl (m.observeServerState lift s now) lift (v.observe (stale ttl now) (sid s)) := by
  -- the code stores the report before it evicts, which the eviction does not see
  have hev := represents_evictStaleLocked h now
  set w := v.expire (stale ttl now) with hw
  set n := (m.evictStaleLocked lift now).setServer lift s with hn
  have hserver : n.server lift = (v.observe (stale ttl now) (sid s)).reported.map name := by
    rw [observe_reported, Option.map_some, name_sid]
    exact setServer_server _ lift s
  have hreq : (n.requested lift).getD "" = name w.claimant := hev.currentRequest
  have hkept (hk : w.claimant = none ∨ w.claimant = sid s) :
      Represents ttl n lift (v.observe (stale ttl now) (sid s)) := by
    have hclaim := observe_keeps hk
    exact ⟨hev.ttl, hev.requested.trans (by rw [claimant, claimant, hclaim]),
      hev.requestedAt.trans (by rw [hclaim]), hserver⟩
  have hpopped (hp : w.claimant ≠ sid s) :
      Represents ttl (n.popRequest lift) lift (v.observe (stale ttl now) (sid s)) := by
    have hclaim := observe_clears hp
    refine ⟨hev.ttl, ?_, ?_, hserver⟩
    · rw [claimant, hclaim]
      exact popRequest_requested n lift
    · rw [hclaim]
      exact popRequest_requestedAt n lift
  unfold observeServerState
  dsimp only
  rw [evictStaleLocked_setServer, ← hn, hreq]
  simp only [ne_eq, name_eq_iff, sid_empty]
  by_cases hnone : w.claimant = none
  · rw [if_neg (fun hb => hb.1 hnone), if_neg (fun hb => hb.1 hnone)]
    exact hkept (Or.inl hnone)
  by_cases hsame : w.claimant = sid s
  · have hs : s ≠ "" := fun hs => hnone (hsame.trans (sid_eq_none.mpr hs))
    rw [if_neg (fun hb => hb.2.2 hsame), if_neg (fun hb => hs hb.2)]
    exact hkept (Or.inr hsame)
  · split_ifs with h₁ h₂
    · exact hpopped hsame
    · exact hpopped hsame
    · exact absurd ⟨hnone, fun hs => h₂ ⟨hnone, hs⟩, hsame⟩ h₁

theorem represents_currentHolder (h : Represents ttl m lift v) (now : ℚ) :
    Represents ttl (m.currentHolder lift now).1 lift (v.expire (stale ttl now)) ∧
      (m.currentHolder lift now).2 =
        (v.expire (stale ttl now)).holder.map Subtype.val := by
  have hev := represents_evictStaleLocked h now
  have hshow : ∀ x : Option SessionId,
      (if name x = "" then none else some (name x)) = x.map Subtype.val := by
    intro x
    cases x with
    | none => rfl
    | some s => exact if_neg s.2
  refine ⟨by rw [currentHolder_fst]; exact hev, ?_⟩
  unfold currentHolder View.holder
  dsimp only
  rw [hev.server, hev.requested]
  cases (v.expire (stale ttl now)).reported with
  | some x => exact hshow x
  | none =>
    cases hc : (v.expire (stale ttl now)).claimant with
    | none => rfl
    | some s => exact hshow (some s)

/-! ### Calls as lock operations -/

def LiftSessionManager.Call.op : Call → Op SessionId ℚ
  | .tryAcquire _ s now stamp => .acquire (sid s) now stamp
  | .release _ s => .release (sid s)
  | .observeServerState _ s now => .observe (sid s) now
  | .currentHolder _ now => .holder now

def LiftSessionManager.Answer.reply : Answer → Reply SessionId
  | .verdict b => .verdict b
  | .done => .done
  | .holder h => .holder (h.bind sid)

def answer : Reply SessionId → Answer
  | .verdict b => .verdict b
  | .done => .done
  | .holder x => .holder (x.map Subtype.val)

theorem reply_answer (r : Reply SessionId) : (answer r).reply = r := by
  rcases r with b | _ | (_ | s)
  · rfl
  · rfl
  · rfl
  · exact congrArg Reply.holder (sid_val s)

theorem call_represents {c : Call} (h : Represents ttl m c.lift v) :
    (m.call c).2 = answer (step (stale ttl) v c.op).2 ∧
      Represents ttl (m.call c).1 c.lift (step (stale ttl) v c.op).1 := by
  cases c with
  | tryAcquire lift s now stamp =>
    obtain ⟨hnext, hans⟩ := represents_tryAcquire h s now stamp
    exact ⟨congrArg Answer.verdict hans, hnext⟩
  | release lift s =>
    obtain ⟨hnext, hans⟩ := represents_release h s
    exact ⟨congrArg Answer.verdict hans, hnext⟩
  | observeServerState lift s now => exact ⟨rfl, represents_observeServerState h s now⟩
  | currentHolder lift now =>
    obtain ⟨hnext, hans⟩ := represents_currentHolder h now
    exact ⟨congrArg Answer.holder hans, hnext⟩

def onLift (lift : String) (p : Call × Answer) : Option (Op SessionId ℚ × Reply SessionId) :=
  if p.1.lift = lift then some (p.1.op, p.2.reply) else none

theorem projects (ttl : ℚ) (lift : String) :
    Machine.Projects LiftSessionManager.machine (LeaseLock.machine (stale ttl))
      (fun m v => Represents ttl m lift v) (onLift lift) where
  hidden m v c h hnone := by
    have hne : lift ≠ c.lift := by
      rintro rfl
      exact Option.some_ne_none _ ((if_pos rfl).symm.trans hnone)
    exact h.agreeOff (agreeOff_call m c) hne
  seen m v c op r h hsome := by
    have hc : c.lift = lift := by
      by_contra hne
      exact Option.some_ne_none _ (hsome.symm.trans (if_neg hne))
    subst hc
    obtain ⟨hans, hnext⟩ := call_represents h
    obtain ⟨rfl, rfl⟩ := Prod.mk.inj (Option.some.inj (hsome.symm.trans (if_pos rfl)))
    refine ⟨hnext, ?_⟩
    change (m.call c).2.reply = _
    rw [hans, reply_answer]
    rfl

def opsOn (lift : String) (calls : List Call) : List (Op SessionId ℚ) :=
  calls.filterMap fun c => if c.lift = lift then some c.op else none

theorem onLift_eq_some {p : Call × Answer} {q : Op SessionId ℚ × Reply SessionId} :
    onLift lift p = some q ↔ p.1.lift = lift ∧ (p.1.op, p.2.reply) = q := by
  unfold onLift
  split_ifs with h <;> simp [h]

theorem mem_opsOn {calls : List Call} {op : Op SessionId ℚ} :
    op ∈ opsOn lift calls ↔ ∃ c ∈ calls, c.lift = lift ∧ c.op = op := by
  simp only [opsOn, List.mem_filterMap, Option.ite_none_right_eq_some, Option.some.injEq]

theorem opsOn_append (lift : String) (pre post : List Call) :
    opsOn lift (pre ++ post) = opsOn lift pre ++ opsOn lift post :=
  List.filterMap_append

theorem exists_of_opsOn_eq_append {calls : List Call} {pre post : List (Op SessionId ℚ)}
    {op : Op SessionId ℚ} (h : opsOn lift calls = pre ++ op :: post) :
    ∃ cpre c cpost, calls = cpre ++ c :: cpost ∧ opsOn lift cpre = pre ∧ c.lift = lift ∧
      c.op = op := by
  obtain ⟨cpre, c, cpost, hcalls, hpre, hc, -⟩ := Machine.exists_of_filterMap_eq_append h
  obtain ⟨hlift, hop⟩ := Option.ite_none_right_eq_some.mp hc
  exact ⟨cpre, c, cpost, hcalls, hpre, hlift, Option.some.inj hop⟩

theorem log_onLift_map_fst (m : LiftSessionManager) (lift : String) (calls : List Call) :
    ((LiftSessionManager.machine.log m calls).filterMap (onLift lift)).map Prod.fst =
      opsOn lift calls := by
  conv_rhs => rw [opsOn, ← LiftSessionManager.machine.log_map_fst m calls]
  rw [List.map_filterMap, List.filterMap_map]
  apply List.filterMap_congr
  intro p _
  simp only [onLift, Function.comp_apply]
  split_ifs <;> rfl

theorem log_onLift (h : Represents ttl m lift v) (calls : List Call) :
    (LiftSessionManager.machine.log m calls).filterMap (onLift lift) =
      (LeaseLock.machine (stale ttl)).log v (opsOn lift calls) := by
  have hrun := ((projects ttl lift).run h calls).1
  rwa [log_onLift_map_fst] at hrun

theorem represents_after (h : Represents ttl m lift v) (calls : List Call) :
    Represents ttl (LiftSessionManager.machine.after m calls) lift
      ((LeaseLock.machine (stale ttl)).after v (opsOn lift calls)) := by
  have hrun := ((projects ttl lift).run h calls).2
  rwa [log_onLift_map_fst] at hrun

theorem reachable_represents (ttl : ℚ) (calls : List Call) (lift : String) :
    Represents ttl (LiftSessionManager.machine.after (new ttl) calls) lift
      ((LeaseLock.machine (stale ttl)).after free (opsOn lift calls)) :=
  represents_after (represents_new ttl lift) calls

end QuikSync.Lift
