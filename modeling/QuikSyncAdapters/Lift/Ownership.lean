import QuikSyncAdapters.Lift.SessionRuns

/-! Who may release a lift, and whether the gate and the reader of the session manager agree
on who holds it. Absent and empty entries read the same in both views, so the empty session
id is named by every view that names nobody. -/

namespace QuikSync.Lift

open LeaseLock hiding machine
open LeaseLock.View LiftSessionManager

variable {m : LiftSessionManager} {lift s : String}

def requestView (m : LiftSessionManager) (lift : String) : String := (m.requested lift).getD ""

def serverView (m : LiftSessionManager) (lift : String) : String := (m.server lift).getD ""

def BothFree (m : LiftSessionManager) (lift : String) : Prop :=
  requestView m lift = "" ∧ serverView m lift = ""

def NamedBy (m : LiftSessionManager) (lift s : String) : Prop :=
  requestView m lift = s ∨ serverView m lift = s

theorem release_granted_iff :
    (m.release lift s).2 = true ↔ BothFree m lift ∨ NamedBy m lift s := by
  unfold LiftSessionManager.release BothFree NamedBy requestView serverView
  dsimp only
  split_ifs with hfree hnamed
  · simp [hfree]
  · simp [hnamed]
  · simp [hfree, hnamed]

theorem release_rejected_unchanged (h : (m.release lift s).2 = false) :
    (m.release lift s).1 = m := by
  unfold LiftSessionManager.release at h ⊢
  dsimp only at h ⊢
  split_ifs at h ⊢
  rfl

theorem release_of_bothFree (h : BothFree m lift) : m.release lift s = (m, true) := if_pos h

theorem release_keeps_request (ttl : ℚ) (calls : List Call) {other r : String}
    (hs : s = "" → serverView (machine.after (new ttl) calls) lift ≠ "")
    (hr : (machine.after (new ttl) calls).requested other = some r) (hne : r ≠ s) :
    ((machine.after (new ttl) calls).release lift s).1.requested other = some r := by
  set m := machine.after (new ttl) calls
  by_cases hlift : other = lift
  · -- on the lift itself the view that the manager represents decides
    subst hlift
    have hrep : Represents ttl m other _ := reachable_represents ttl calls other
    set v := (LeaseLock.machine (stale ttl)).after free (opsOn other calls)
    obtain ⟨c, hc, rfl⟩ := Option.map_eq_some_iff.mp (hrep.requested.symm.trans hr)
    have hx : sid s ≠ some c := fun hx => hne (name_eq_iff (x := some c).mpr hx.symm)
    have hnobody : sid s = none → v.owner ≠ none := by
      intro hsid howner
      refine hs (sid_eq_none.mp hsid) ?_
      rw [serverView, hrep.currentServer, howner]
      rfl
    have hkept := (represents_release hrep s).1
    rw [release_of_other hc hx hnobody] at hkept
    rw [hkept.requested, hc]
    rfl
  · rw [((agreeOff_release m lift s).2 other hlift).1]
    exact hr

structure ReleasesOwnOnly (m : LiftSessionManager) (lift s : String) : Prop where
  granted : (m.release lift s).2 = true ↔ BothFree m lift ∨ (s ≠ "" ∧ NamedBy m lift s)
  rejected : (m.release lift s).2 = false → (m.release lift s).1 = m
  foreign : ∀ other r, m.requested other = some r → r ≠ s →
    (m.release lift s).1.requested other = some r

/-- A release frees the caller's own lift only, exactly when the caller is named or the two
views agree on whether the lift is free. -/
theorem release_own_only_iff (ttl : ℚ) (calls : List Call) (lift s : String) :
    let m := machine.after (new ttl) calls
    ReleasesOwnOnly m lift s ↔ (s = "" → (requestView m lift = "" ↔ serverView m lift = "")) := by
  intro m
  constructor
  · rintro ⟨hgranted, -, -⟩ rfl
    have hverdict := release_granted_iff.symm.trans hgranted
    simp only [ne_eq, not_true_eq_false, false_and, or_false] at hverdict
    constructor
    · exact fun hreq => (hverdict.mp (Or.inr (Or.inl hreq))).2
    · exact fun hsrv => (hverdict.mp (Or.inr (Or.inr hsrv))).1
  · intro hagree
    refine ⟨?_, release_rejected_unchanged, ?_⟩
    · rw [release_granted_iff]
      by_cases hs : s = ""
      · subst hs
        have hiff := hagree rfl
        simp only [BothFree, NamedBy, ne_eq, not_true_eq_false, false_and, or_false]
        tauto
      · simp only [ne_eq, hs, not_false_eq_true, true_and]
    · intro other r hr hne
      by_cases hsrv : s = "" ∧ serverView m lift = ""
      · -- nobody releases a lift that is free on both sides
        obtain ⟨rfl, hsrv⟩ := hsrv
        have hreq := (hagree rfl).mpr hsrv
        have hfree : BothFree m lift := ⟨hreq, hsrv⟩
        rw [release_of_bothFree hfree]
        exact hr
      · exact release_keeps_request ttl calls (fun hs h => hsrv ⟨hs, h⟩) hr hne

/-- An empty session id frees a lift that another session has requested. -/
theorem empty_session_releases_other :
    ¬ ∀ (ttl : ℚ) (calls : List Call) (lift s : String),
      ReleasesOwnOnly (machine.after (new ttl) calls) lift s := by
  intro h
  have hkept := (h 0 [.tryAcquire "L1" "a" 0 0] "L1" "").foreign "L1" "a" (by decide +kernel)
    (by decide)
  exact absurd hkept (by decide +kernel)

/-- What `try_acquire` grants `current_holder` reads back at the same reading of the clock,
and a lift read as free is granted. -/
structure AcquireReadAgree (m : LiftSessionManager) (lift s : String) (t : ℚ) : Prop where
  granted : (m.tryAcquire lift s t t).2 = true →
    ((m.tryAcquire lift s t t).1.currentHolder lift t).2 = some s
  free : (m.currentHolder lift t).2 = none →
    ((m.currentHolder lift t).1.tryAcquire lift s t t).2 = true

section Reading

variable {ttl t : ℚ} {v : View SessionId ℚ}

theorem fresh_of_same_reading (ttl t : ℚ) : stale ttl t t = false := by
  apply decide_eq_false
  rintro ⟨hpos, hold⟩
  rw [sub_self] at hold
  exact lt_asymm hpos hold

theorem tryAcquire_granted_iff (h : Represents ttl m lift v) (hs : s ≠ "") :
    (m.tryAcquire lift s t t).2 = true ↔ (v.expire (stale ttl t)).Open ⟨s, hs⟩ := by
  have hsid : sid s = some ⟨s, hs⟩ := dif_neg hs
  rw [(represents_tryAcquire h s t t).2, hsid, acquire_granted_iff]
  simp only [Option.some.injEq, exists_eq_left']

theorem currentHolder_eq_none_iff (h : Represents ttl m lift v) :
    (m.currentHolder lift t).2 = none ↔ (v.expire (stale ttl t)).holder = none := by
  rw [(represents_currentHolder h t).2, Option.map_eq_none_iff]

theorem holder_after_granted (h : Represents ttl m lift v)
    (hgranted : (m.tryAcquire lift s t t).2 = true) :
    ((m.tryAcquire lift s t t).1.currentHolder lift t).2 = some s ↔ v.reported ≠ some none := by
  obtain ⟨hnext, hans⟩ := represents_tryAcquire h s t t
  obtain ⟨⟨s', hs⟩, hsid, hopen⟩ := acquire_granted_iff.mp (hans.symm.trans hgranted)
  obtain rfl : s' = s := by rw [← name_sid s, hsid]; rfl
  rw [hsid, acquire_of_open hopen] at hnext
  -- the claim just stamped is not stale at the same reading of the clock
  have hfresh : ((v.expire (stale ttl t)).grant ⟨s', hs⟩ t hopen).expire (stale ttl t) =
      (v.expire (stale ttl t)).grant ⟨s', hs⟩ t hopen := by
    apply expire_of_fresh
    intro c hc
    obtain rfl := Option.some.inj hc
    exact fresh_of_same_reading ttl t
  rw [(represents_currentHolder hnext t).2, hfresh]
  set w := (v.expire (stale ttl t)).grant ⟨s', hs⟩ t hopen
  have hclaimant : w.claimant = some ⟨s', hs⟩ := rfl
  have hinj := Option.map_injective (α := SessionId) Subtype.val_injective
  calc w.holder.map Subtype.val = some s'
      ↔ w.holder = some ⟨s', hs⟩ := hinj.eq_iff' (b := some ⟨s', hs⟩) rfl
    _ ↔ v.reported ≠ some none := holder_of_claimant hclaimant

end Reading

theorem reported_free_iff (ttl : ℚ) (calls : List Call) (lift : String) :
    ((LeaseLock.machine (stale ttl)).after free (opsOn lift calls)).reported = some none ↔
      lastFrame lift calls = some "" := by
  rw [after_reported, lastReport_opsOn]
  simp only [Option.map_eq_some_iff, sid_eq_none, exists_eq_right]

/-- The gate and the reader agree exactly while the last frame for the lift, if there is
one, named a session: after a frame of a free lift the reader says free, whoever has been
granted the lift since. -/
theorem acquire_read_agree_iff (ttl : ℚ) (calls : List Call) (lift s : String) (t : ℚ)
    (hs : s ≠ "") :
    AcquireReadAgree (machine.after (new ttl) calls) lift s t ↔
      lastFrame lift calls ≠ some "" := by
  have h := reachable_represents ttl calls lift
  rw [ne_eq, ← reported_free_iff ttl calls lift]
  set m := machine.after (new ttl) calls
  set v := (LeaseLock.machine (stale ttl)).after free (opsOn lift calls)
  have hread := (represents_currentHolder h t).1
  have hlater : ((m.currentHolder lift t).1.tryAcquire lift s t t).2 = true ↔
      (v.expire (stale ttl t)).Open ⟨s, hs⟩ := by
    rw [tryAcquire_granted_iff hread hs, expire_expire]
  constructor
  · intro hagree hfree
    have hnone : (m.currentHolder lift t).2 = none := by
      rw [currentHolder_eq_none_iff h, holder, expire_reported, hfree]
      rfl
    have hgranted := (tryAcquire_granted_iff h hs).mpr (hlater.mp (hagree.free hnone))
    exact (holder_after_granted h hgranted).mp (hagree.granted hgranted) hfree
  · intro hnamed
    refine ⟨fun hgranted => (holder_after_granted h hgranted).mpr hnamed, fun hnone => ?_⟩
    exact hlater.mpr (open_of_holder_none ((currentHolder_eq_none_iff h).mp hnone) hnamed)

theorem acquire_read_agree_witness :
    AcquireReadAgree (machine.after (new 5) [.observeServerState "L1" "a" 0]) "L1" "a" 1 ↔
      lastFrame "L1" [.observeServerState "L1" "a" 0] ≠ some "" :=
  acquire_read_agree_iff 5 [.observeServerState "L1" "a" 0] "L1" "a" 1 (by decide)

/-- A frame of a free lift, then a grant: the reader still says free. -/
theorem granted_not_read_back :
    ¬ ∀ (ttl : ℚ) (calls : List Call) (lift s : String) (t : ℚ), s ≠ "" →
      AcquireReadAgree (machine.after (new ttl) calls) lift s t := by
  intro h
  have hread := (h 0 [.observeServerState "L1" "" 0] "L1" "a" 1 (by decide)).granted
    (by decide +kernel)
  exact absurd hread (by decide +kernel)

end QuikSync.Lift
