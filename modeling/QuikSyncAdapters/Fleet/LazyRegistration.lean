import QuikSyncAdapters.Fleet.Completion
import QuikSyncAdapters.Library.Machine
import Mathlib.Data.List.TakeWhile

/-! Lazy registration over whole runs of a robot handle: what the handle holds and counts is
read off the history of its inputs and of the calls they led to. -/

namespace QuikSync.Fleet

open Client Py

variable {rmf : RmfAdapter}

inductive HandleInput (rmf : RmfAdapter) where
  | prepareRegistration (registration : Registration rmf)
  | setCurrentActivity (activity : Option rmf.ActivityIdentifier)
  | onState (state : Dict) (answers : RmfAnswers rmf)

def handleMachine (rmf : RmfAdapter) :
    Machine (RobotHandle rmf) (HandleInput rmf) (List (RmfCall rmf)) where
  step h
    | .prepareRegistration r => (h.prepareRegistration r.fleetHandle r.robotConfig r.callbacks, [])
    | .setCurrentActivity activity => (h.setCurrentActivity activity, [])
    | .onState state answers => ((h.onState state answers).handle, (h.onState state answers).calls)

namespace RobotHandle

def seen (h : RobotHandle rmf) (state : Dict) : RobotHandle rmf := { h with latestState := some state }

/-- All that a frame can do to a handle, given its translation. -/
inductive FrameEffect (h : RobotHandle rmf) (state : Dict) (translated : Option rmf.RobotState)
    (answers : RmfAnswers rmf) : RobotHandle rmf → List (RmfCall rmf) → Prop where
  | pushed {u : rmf.UpdateHandle} {s : rmf.RobotState} (hbound : h.rmfHandle = some u)
      (hs : translated = some s) :
      FrameEffect h state translated answers
        ((h.seen state).settle (.update u s h.currentActivity) answers)
        [.update u s h.currentActivity]
  | ignored {u : rmf.UpdateHandle} (hbound : h.rmfHandle = some u) (hs : translated = none) :
      FrameEffect h state translated answers (h.seen state) []
  | registering {r : Registration rmf} {s : rmf.RobotState} (hbound : h.rmfHandle = none)
      (hprepared : h.registration = some r) (hs : translated = some s) :
      FrameEffect h state translated answers
        ((h.seen state).settle (.addRobot h.robotName s r) answers) [.addRobot h.robotName s r]
  | dropped (hbound : h.rmfHandle = none) (hidle : h.registration = none ∨ translated = none) :
      FrameEffect h state translated answers (h.seen state).droppedNoHandle []

theorem onState_effect (h : RobotHandle rmf) {state : Dict} {translated : Option rmf.RobotState}
    (hstate : toRmfRobotState rmf state = .ok translated) (answers : RmfAnswers rmf) :
    FrameEffect h state translated answers (h.onState state answers).handle
      (h.onState state answers).calls := by
  obtain ⟨robotName, latestState, rmfHandle, activity, registration, pushed, dropped, rejected⟩ := h
  unfold onState receive
  rw [hstate]
  cases rmfHandle with
  | some u =>
    cases translated with
    | some s => exact .pushed rfl rfl
    | none => exact .ignored rfl rfl
  | none =>
    cases registration with
    | some r =>
      cases translated with
      | some s => exact .registering rfl rfl rfl
      | none => exact .dropped rfl (Or.inr rfl)
    | none => exact .dropped rfl (Or.inl rfl)

end RobotHandle

/-! ### What a history tells -/

abbrev HandleLog (rmf : RmfAdapter) := List (HandleInput rmf × List (RmfCall rmf))

def answered (log : HandleLog rmf) : List (RmfCall rmf × RmfAnswers rmf) :=
  log.flatMap fun e =>
    match e.1 with
    | .onState _ answers => e.2.map fun call => (call, answers)
    | _ => []

def boundBy : RmfCall rmf × RmfAnswers rmf → Option rmf.UpdateHandle
  | (.addRobot .., answers) => answers.addRobot.toOption.join
  | _ => none

def succeeded : RmfCall rmf × RmfAnswers rmf → Bool
  | (.update .., answers) => answers.update.isOk
  | (.addRobot .., answers) => answers.addRobot.toOption.join.isSome

def refused : RmfCall rmf × RmfAnswers rmf → Bool
  | (.addRobot .., answers) => answers.addRobot.toOption.join.isNone
  | _ => false

def boundHandle (log : HandleLog rmf) : Option rmf.UpdateHandle := (answered log).findSome? boundBy

def prepared : HandleInput rmf × List (RmfCall rmf) → Option (Registration rmf)
  | (.prepareRegistration r, _) => some r
  | _ => none

def lastPrepared (log : HandleLog rmf) : Option (Registration rmf) :=
  (log.filterMap prepared).getLast?

def activitySet : HandleInput rmf × List (RmfCall rmf) → Option (Option rmf.ActivityIdentifier)
  | (.setCurrentActivity activity, _) => some activity
  | _ => none

def lastActivity (log : HandleLog rmf) : Option rmf.ActivityIdentifier :=
  (log.filterMap activitySet).getLast?.join

def RmfCall.isAddRobot : RmfCall rmf → Bool
  | addRobot .. => true
  | update .. => false

def idleFrame : HandleInput rmf × List (RmfCall rmf) → Bool
  | (.onState .., calls) => calls.all fun call => !call.isAddRobot
  | _ => false

/-- The idle frames up to the one that bound the handle. -/
def droppedFrames (log : HandleLog rmf) : ℕ :=
  (log.takeWhile fun e => (boundHandle [e]).isNone).countP idleFrame

theorem answered_append (past : HandleLog rmf) (e : HandleInput rmf × List (RmfCall rmf)) :
    answered (past ++ [e]) = answered past ++ answered [e] := List.flatMap_append

theorem boundHandle_append (past : HandleLog rmf) (e : HandleInput rmf × List (RmfCall rmf)) :
    boundHandle (past ++ [e]) = (boundHandle past).or (boundHandle [e]) := by
  unfold boundHandle
  rw [answered_append, List.findSome?_append]

theorem lastPrepared_append (past : HandleLog rmf) (e : HandleInput rmf × List (RmfCall rmf)) :
    lastPrepared (past ++ [e]) = (prepared e).or (lastPrepared past) := by
  unfold lastPrepared
  rw [List.filterMap_append]
  cases h : prepared e with
  | none => simp [h]
  | some r => simp [h]

theorem lastActivity_append (past : HandleLog rmf) (e : HandleInput rmf × List (RmfCall rmf)) :
    lastActivity (past ++ [e]) = (activitySet e).getD (lastActivity past) := by
  unfold lastActivity
  rw [List.filterMap_append]
  cases h : activitySet e with
  | none => simp [h]
  | some activity => simp [h]

theorem boundHandle_eq_none_iff (log : HandleLog rmf) :
    boundHandle log = none ↔ ∀ e ∈ log, boundHandle [e] = none := by
  unfold boundHandle answered
  simp only [List.findSome?_eq_none_iff, List.mem_flatMap, List.flatMap_cons, List.flatMap_nil,
    List.append_nil]
  constructor
  · exact fun h e he p hp => h p ⟨e, he, hp⟩
  · rintro h p ⟨e, he, hp⟩
    exact h e he p hp

theorem droppedFrames_append (past : HandleLog rmf) (e : HandleInput rmf × List (RmfCall rmf)) :
    droppedFrames (past ++ [e]) = droppedFrames past +
      ((boundHandle past).isNone && (boundHandle [e]).isNone && idleFrame e).toNat := by
  unfold droppedFrames
  by_cases hbound : boundHandle past = none
  · have hall : ∀ e' ∈ past, (boundHandle [e']).isNone = true := fun e' he' => by
      rw [(boundHandle_eq_none_iff past).mp hbound e' he']
      rfl
    rw [List.takeWhile_append_of_pos hall, List.takeWhile_eq_self_iff.mpr hall, hbound]
    cases hone : boundHandle [e] with
    | some u => simp [hone]
    | none => cases hidle : idleFrame e <;> simp [hone, hidle]
  · obtain ⟨e', he', hsome⟩ : ∃ e' ∈ past, boundHandle [e'] ≠ none := by
      by_contra hno
      push Not at hno
      exact hbound ((boundHandle_eq_none_iff past).mpr hno)
    have hstops : (past.takeWhile fun e => (boundHandle [e]).isNone).length ≠ past.length := by
      intro hlen
      have hself := List.takeWhile_eq_self_iff.mp
        ((List.takeWhile_prefix _).eq_of_length hlen) e' he'
      exact hsome (Option.isNone_iff_eq_none.mp hself)
    rw [List.takeWhile_append, if_neg hstops, Option.isNone_eq_false_iff.mpr
      (Option.isSome_iff_ne_none.mpr hbound)]
    rfl

/-! ### The handle and its history -/

structure Accounts (robotName : String) (h : RobotHandle rmf) (past : HandleLog rmf) : Prop where
  robotName : h.robotName = robotName
  rmfHandle : h.rmfHandle = boundHandle past
  currentActivity : h.currentActivity = lastActivity past
  registration : h.registration = lastPrepared past
  updatesPushed : h.updatesPushed = (answered past).countP succeeded
  registrationsRejected : h.registrationsRejected = (answered past).countP refused
  updatesDroppedNoHandle : h.updatesDroppedNoHandle = droppedFrames past

theorem accounts_new (robotName : String) :
    Accounts robotName (RobotHandle.new rmf robotName) [] :=
  ⟨rfl, rfl, rfl, rfl, rfl, rfl, rfl⟩

def HandleInput.Translates : HandleInput rmf → Prop
  | .onState state _ => ∃ translated, toRmfRobotState rmf state = .ok translated
  | _ => True

theorem answered_onState (state : Dict) (answers : RmfAnswers rmf) (calls : List (RmfCall rmf)) :
    answered [(.onState state answers, calls)] = calls.map fun call => (call, answers) := by
  simp [answered]

theorem countP_single {α : Type} (p : α → Bool) (a : α) : [a].countP p = (p a).toNat := by
  cases h : p a <;> simp [h]

section Step

variable {robotName : String} {h h' : RobotHandle rmf} {past : HandleLog rmf}

theorem Accounts.append (hacc : Accounts robotName h past)
    {e : HandleInput rmf × List (RmfCall rmf)} (hname : h'.robotName = h.robotName)
    (hhandle : h'.rmfHandle = h.rmfHandle.or (boundHandle [e]))
    (hactivity : h'.currentActivity = (activitySet e).getD h.currentActivity)
    (hregistration : h'.registration = (prepared e).or h.registration)
    (hpushed : h'.updatesPushed = h.updatesPushed + (answered [e]).countP succeeded)
    (hrejected : h'.registrationsRejected =
      h.registrationsRejected + (answered [e]).countP refused)
    (hdropped : h'.updatesDroppedNoHandle = h.updatesDroppedNoHandle +
      (h.rmfHandle.isNone && (boundHandle [e]).isNone && idleFrame e).toNat) :
    Accounts robotName h' (past ++ [e]) where
  robotName := hname.trans hacc.robotName
  rmfHandle := by rw [hhandle, hacc.rmfHandle, boundHandle_append]
  currentActivity := by rw [hactivity, hacc.currentActivity, lastActivity_append]
  registration := by rw [hregistration, hacc.registration, lastPrepared_append]
  updatesPushed := by rw [hpushed, hacc.updatesPushed, answered_append, List.countP_append]
  registrationsRejected := by
    rw [hrejected, hacc.registrationsRejected, answered_append, List.countP_append]
  updatesDroppedNoHandle := by
    rw [hdropped, hacc.updatesDroppedNoHandle, hacc.rmfHandle, droppedFrames_append]

theorem accounts_update (hacc : Accounts robotName h past) (state : Dict) (answers : RmfAnswers rmf)
    {u : rmf.UpdateHandle} (hbound : h.rmfHandle = some u) (s : rmf.RobotState) :
    Accounts robotName ((h.seen state).settle (.update u s h.currentActivity) answers)
      (past ++ [(.onState state answers, [.update u s h.currentActivity])]) := by
  have hsettle : (h.seen state).settle (.update u s h.currentActivity) answers =
      { h.seen state with updatesPushed := h.updatesPushed + answers.update.isOk.toNat } := by
    unfold RobotHandle.settle
    cases answers.update <;> rfl
  have hcount : ∀ p : RmfCall rmf × RmfAnswers rmf → Bool,
      (answered [(.onState state answers, [.update u s h.currentActivity])]).countP p =
        (p (.update u s h.currentActivity, answers)).toNat := fun p => by
    rw [answered_onState, List.map_singleton, countP_single]
  rw [hsettle]
  refine hacc.append rfl ?_ ?_ ?_ ?_ ?_ ?_
  · rw [hbound]
    exact hbound
  · rfl
  · rfl
  · rw [hcount]
    rfl
  · rw [hcount]
    rfl
  · rw [hbound]
    rfl

theorem accounts_addRobot (hacc : Accounts robotName h past) (state : Dict)
    (answers : RmfAnswers rmf) (hbound : h.rmfHandle = none) (s : rmf.RobotState)
    (r : Registration rmf) :
    Accounts robotName ((h.seen state).settle (.addRobot h.robotName s r) answers)
      (past ++ [(.onState state answers, [.addRobot h.robotName s r])]) := by
  have hsettle : (h.seen state).settle (.addRobot h.robotName s r) answers =
      { h.seen state with
        rmfHandle := answers.addRobot.toOption.join
        updatesPushed := h.updatesPushed + answers.addRobot.toOption.join.isSome.toNat
        registrationsRejected :=
          h.registrationsRejected + answers.addRobot.toOption.join.isNone.toNat } := by
    unfold RobotHandle.settle RobotHandle.registered RobotHandle.seen
    rcases answers.addRobot with e | (_ | u)
    · simp [RobotHandle.rejected, hbound, Except.toOption]
    · simp [RobotHandle.rejected, hbound, Except.toOption]
    · simp [RobotHandle.pushed, RobotHandle.bind, Except.toOption]
  have hcount : ∀ p : RmfCall rmf × RmfAnswers rmf → Bool,
      (answered [(.onState state answers, [.addRobot h.robotName s r])]).countP p =
        (p (.addRobot h.robotName s r, answers)).toNat := fun p => by
    rw [answered_onState, List.map_singleton, countP_single]
  have hone : boundHandle [(.onState state answers, [.addRobot h.robotName s r])] =
      answers.addRobot.toOption.join := by
    unfold boundHandle
    rw [answered_onState]
    cases hjoin : answers.addRobot.toOption.join <;> simp [boundBy, hjoin]
  rw [hsettle]
  refine hacc.append rfl ?_ ?_ ?_ ?_ ?_ ?_
  · rw [hbound, hone]
    rfl
  · rfl
  · rfl
  · rw [hcount]
    rfl
  · rw [hcount]
    rfl
  · have hbusy : idleFrame (.onState state answers, [.addRobot h.robotName s r]) = false := rfl
    rw [hbusy, Bool.and_false]
    rfl

theorem accounts_step (hacc : Accounts robotName h past) (i : HandleInput rmf)
    (hi : i.Translates) :
    Accounts robotName ((handleMachine rmf).step h i).1
      (past ++ [(i, ((handleMachine rmf).step h i).2)]) := by
  cases i with
  | prepareRegistration r =>
    refine hacc.append rfl (Option.or_none).symm rfl rfl rfl rfl ?_
    exact (congrArg (h.updatesDroppedNoHandle + ·.toNat) (Bool.and_false _)).symm
  | setCurrentActivity activity =>
    refine hacc.append rfl (Option.or_none).symm rfl rfl rfl rfl ?_
    exact (congrArg (h.updatesDroppedNoHandle + ·.toNat) (Bool.and_false _)).symm
  | onState state answers =>
    obtain ⟨translated, hstate⟩ := hi
    have heffect := h.onState_effect hstate answers
    dsimp only [handleMachine]
    generalize (h.onState state answers).handle = h' at heffect ⊢
    generalize (h.onState state answers).calls = calls at heffect ⊢
    cases heffect with
    | pushed hbound hs => exact accounts_update hacc state answers hbound _
    | ignored hbound hs =>
      exact hacc.append rfl (Option.or_none).symm rfl rfl rfl rfl (by rw [hbound]; rfl)
    | registering hbound hprepared hs => exact accounts_addRobot hacc state answers hbound _ _
    | dropped hbound hidle =>
      exact hacc.append rfl (Option.or_none).symm rfl rfl rfl rfl (by rw [hbound]; rfl)

end Step

theorem accounts_run (robotName : String) {is : List (HandleInput rmf)}
    (his : ∀ i ∈ is, i.Translates) :
    Accounts robotName ((handleMachine rmf).after (RobotHandle.new rmf robotName) is)
      ((handleMachine rmf).log (RobotHandle.new rmf robotName) is) :=
  Machine.run_invariant (P := Accounts robotName) (A := HandleInput.Translates)
    (fun _ _ i hi hacc => accounts_step hacc i hi) (accounts_new robotName) his

theorem accounts_at {robotName : String} {is : List (HandleInput rmf)}
    (his : ∀ i ∈ is, i.Translates) {pre post : HandleLog rmf} {i : HandleInput rmf}
    {calls : List (RmfCall rmf)}
    (hlog : (handleMachine rmf).log (RobotHandle.new rmf robotName) is =
      pre ++ (i, calls) :: post) :
    i.Translates ∧ ∃ h, Accounts robotName h pre ∧ calls = ((handleMachine rmf).step h i).2 := by
  have hinputs := Machine.inputs_eq_of_log_eq hlog
  obtain ⟨hpre, hcalls, -⟩ := Machine.log_eq_append hlog
  have hpast : ∀ j ∈ pre.map Prod.fst, j.Translates := fun j hj =>
    his j (hinputs ▸ List.mem_append_left _ hj)
  have hacc := accounts_run robotName hpast
  rw [← hpre] at hacc
  have hi : i ∈ is := hinputs ▸ List.mem_append_right _ (List.mem_cons_self ..)
  exact ⟨his i hi, _, hacc, hcalls⟩

/-! ### The contract -/

/-- The lazy registration of the robot `robotName`, told by a history and the handle it ends in. -/
structure RegistersLazily (robotName : String) (log : HandleLog rmf) (final : RobotHandle rmf) :
    Prop where
  -- each `add_robot` is made on a frame that translates, prepared and unbound
  addRobot : ∀ {pre post : HandleLog rmf} {i : HandleInput rmf} {calls : List (RmfCall rmf)}
    {name : String} {s : rmf.RobotState} {r : Registration rmf},
    log = pre ++ (i, calls) :: post → .addRobot name s r ∈ calls →
    calls = [.addRobot name s r] ∧ name = robotName ∧ boundHandle pre = none ∧
      lastPrepared pre = some r ∧
      ∃ state answers, i = .onState state answers ∧ toRmfRobotState rmf state = .ok (some s)
  -- once bound, a frame is pushed on the bound handle exactly if it translates
  update : ∀ {pre post : HandleLog rmf} {state : Dict} {answers : RmfAnswers rmf}
    {calls : List (RmfCall rmf)} {u : rmf.UpdateHandle} {translated : Option rmf.RobotState},
    log = pre ++ (.onState state answers, calls) :: post → boundHandle pre = some u →
    toRmfRobotState rmf state = .ok translated →
    calls = (translated.map fun s => .update u s (lastActivity pre)).toList
  updatesPushed : final.updatesPushed = (answered log).countP succeeded
  registrationsRejected : final.registrationsRejected = (answered log).countP refused
  updatesDroppedNoHandle : final.updatesDroppedNoHandle = droppedFrames log

theorem addRobot_step {robotName : String} {h : RobotHandle rmf} {past : HandleLog rmf}
    (hacc : Accounts robotName h past) {i : HandleInput rmf} (hi : i.Translates) {name : String}
    {s : rmf.RobotState} {r : Registration rmf}
    (hcall : .addRobot name s r ∈ ((handleMachine rmf).step h i).2) :
    ((handleMachine rmf).step h i).2 = [.addRobot name s r] ∧ name = robotName ∧
      boundHandle past = none ∧ lastPrepared past = some r ∧
      ∃ state answers, i = .onState state answers ∧
        toRmfRobotState rmf state = .ok (some s) := by
  cases i with
  | prepareRegistration _ => exact absurd hcall List.not_mem_nil
  | setCurrentActivity _ => exact absurd hcall List.not_mem_nil
  | onState state answers =>
    obtain ⟨translated, hstate⟩ := hi
    have heffect := h.onState_effect hstate answers
    dsimp only [handleMachine] at hcall ⊢
    generalize (h.onState state answers).handle = h' at heffect
    generalize (h.onState state answers).calls = calls at heffect hcall ⊢
    cases heffect with
    | pushed hbound hs => simp at hcall
    | ignored hbound hs => simp at hcall
    | dropped hbound hidle => simp at hcall
    | registering hbound hprepared hs =>
      obtain ⟨rfl, rfl, rfl⟩ := RmfCall.addRobot.inj (List.mem_singleton.mp hcall)
      rw [hs] at hstate
      exact ⟨rfl, hacc.robotName, hacc.rmfHandle ▸ hbound, hacc.registration ▸ hprepared, state,
        answers, rfl, hstate⟩

theorem update_step {robotName : String} {h : RobotHandle rmf} {past : HandleLog rmf}
    (hacc : Accounts robotName h past) {u : rmf.UpdateHandle} (hbound : boundHandle past = some u)
    {state : Dict} {translated : Option rmf.RobotState}
    (hstate : toRmfRobotState rmf state = .ok translated) (answers : RmfAnswers rmf) :
    ((handleMachine rmf).step h (.onState state answers)).2 =
      (translated.map fun s => RmfCall.update u s (lastActivity past)).toList := by
  have heffect := h.onState_effect hstate answers
  rw [← hacc.rmfHandle] at hbound
  rw [← hacc.currentActivity]
  dsimp only [handleMachine]
  generalize (h.onState state answers).handle = h' at heffect
  generalize (h.onState state answers).calls = calls at heffect ⊢
  cases heffect with
  | pushed hbound' hs =>
    obtain rfl := Option.some.inj (hbound'.symm.trans hbound)
    rw [hs]
    rfl
  | ignored hbound' hs =>
    rw [hs]
    rfl
  | registering hfree hprepared hs => exact nomatch hfree.symm.trans hbound
  | dropped hfree hidle => exact nomatch hfree.symm.trans hbound

theorem registers_lazily (rmf : RmfAdapter) (robotName : String) (is : List (HandleInput rmf))
    (his : ∀ i ∈ is, i.Translates) :
    RegistersLazily robotName ((handleMachine rmf).log (RobotHandle.new rmf robotName) is)
      ((handleMachine rmf).after (RobotHandle.new rmf robotName) is) where
  addRobot hlog hcall := by
    obtain ⟨hi, h, hacc, hcalls⟩ := accounts_at his hlog
    rw [hcalls] at hcall ⊢
    exact addRobot_step hacc hi hcall
  update hlog hbound hstate := by
    obtain ⟨-, h, hacc, hcalls⟩ := accounts_at his hlog
    rw [hcalls]
    exact update_step hacc hbound hstate _
  updatesPushed := (accounts_run robotName his).updatesPushed
  registrationsRejected := (accounts_run robotName his).registrationsRejected
  updatesDroppedNoHandle := (accounts_run robotName his).updatesDroppedNoHandle

def boundOnRetry : List (HandleInput plainRmf) :=
  [.onState (originFrame .null) ⟨.ok (), .ok none⟩, .prepareRegistration ⟨(), (), ()⟩,
    .onState (originFrame .null) ⟨.ok (), .ok none⟩,
    .onState (originFrame .null) ⟨.ok (), .ok (some ())⟩, .setCurrentActivity (some "go-1"),
    .onState (originFrame .null) ⟨.ok (), .ok none⟩]

theorem registers_lazily_witness :
    RegistersLazily "r1" ((handleMachine plainRmf).log (RobotHandle.new plainRmf "r1") boundOnRetry)
      ((handleMachine plainRmf).after (RobotHandle.new plainRmf "r1") boundOnRetry) :=
  registers_lazily plainRmf "r1" boundOnRetry fun i hi => by
    have hframe : ∀ answers : RmfAnswers plainRmf,
        HandleInput.Translates (.onState (originFrame .null) answers) :=
      fun _ => ⟨_, originFrame_translates .null⟩
    simp only [boundOnRetry, List.mem_cons, List.not_mem_nil, or_false] at hi
    obtain rfl | rfl | rfl | rfl | rfl | rfl := hi
    · exact hframe _
    · exact trivial
    · exact hframe _
    · exact hframe _
    · exact trivial
    · exact hframe _

end QuikSync.Fleet
