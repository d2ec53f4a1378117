import QuikSyncAdapters.Client.Endpoints
import QuikSyncAdapters.Library.UrlQuery

/-! Which robot, door, lift or task a REST call addresses: the endpoint and the names that the
server can read off its method and its path. -/

namespace QuikSync.Client

open Py UrlQuery

/-! ### Calls and what they mean to address -/

inductive NamedEndpoint where
  | fleetState
  | taskState
  | doorState
  | doorRequest
  | liftState
  | liftRequest
  | liftSession
  deriving DecidableEq

inductive RobotCommand where
  | navigate
  | stop
  | performAction
  deriving DecidableEq

inductive Target where
  | named (endpoint : NamedEndpoint) (name : String)
  | command (c : RobotCommand) (fleet robot : String)
  deriving DecidableEq

inductive EndpointCall where
  | fleetState (fleet : String) (scope : Option String)
  | navigate (fleet robot executionId : String) (destination : Dict) (dockName : Option String)
      (speedLimit : Option Double) (deadlineUnixMillis : Option ℤ) (scope : Option String)
  | stop (fleet robot executionId : String) (scope : Option String)
  | performAction (fleet robot executionId category : String) (description : Json)
      (deadlineUnixMillis : Option ℤ) (scope : Option String)
  | taskState (taskId : String)
  | doorState (door : String) (scope : Option String)
  | doorRequest (door requesterId requestedMode executionId : String) (scope : Option String)
  | liftState (lift : String) (scope : Option String)
  | liftRequest (lift sessionId requestType destinationFloor doorState executionId : String)
      (scope : Option String)
  | liftSession (lift : String) (scope : Option String)

namespace EndpointCall

def call : EndpointCall → ApiCall
  | fleetState fleet scope => getFleetState fleet scope
  | navigate fleet robot executionId destination dockName speedLimit deadlineUnixMillis scope =>
    postNavigate fleet robot executionId destination dockName speedLimit deadlineUnixMillis scope
  | stop fleet robot executionId scope => postStop fleet robot executionId scope
  | performAction fleet robot executionId category description deadlineUnixMillis scope =>
    postPerformAction fleet robot executionId category description deadlineUnixMillis scope
  | taskState taskId => getTaskState taskId
  | doorState door scope => getDoorState door scope
  | doorRequest door requesterId requestedMode executionId scope =>
    postDoorRequest door requesterId requestedMode executionId scope
  | liftState lift scope => getLiftState lift scope
  | liftRequest lift sessionId requestType destinationFloor door executionId scope =>
    postLiftRequest lift sessionId requestType destinationFloor door executionId scope
  | liftSession lift scope => deleteLiftSession lift scope

def target : EndpointCall → Target
  | fleetState fleet _ => .named .fleetState fleet
  | navigate fleet robot .. => .command .navigate fleet robot
  | stop fleet robot .. => .command .stop fleet robot
  | performAction fleet robot .. => .command .performAction fleet robot
  | taskState taskId => .named .taskState taskId
  | doorState door _ => .named .doorState door
  | doorRequest door .. => .named .doorRequest door
  | liftState lift _ => .named .liftState lift
  | liftRequest lift .. => .named .liftRequest lift
  | liftSession lift _ => .named .liftSession lift

end EndpointCall

def seenPath (call : ApiCall) : List Char := UrlQuery.path call.path.toList

/-- Calls with the same method and path address the same. -/
def Unambiguous (c d : EndpointCall) : Prop :=
  c.call.method = d.call.method → seenPath c.call = seenPath d.call → c.target = d.target

/-! ### The paths, piece by piece -/

inductive Family where
  | fleets
  | tasks
  | doors
  | lifts
  deriving DecidableEq

def Family.word : Family → List Char
  | fleets => "fleets".toList
  | tasks => "tasks".toList
  | doors => "doors".toList
  | lifts => "lifts".toList

namespace NamedEndpoint

def family : NamedEndpoint → Family
  | fleetState => .fleets
  | taskState => .tasks
  | doorState | doorRequest => .doors
  | liftState | liftRequest | liftSession => .lifts

def method : NamedEndpoint → String
  | fleetState | taskState | doorState | liftState => "GET"
  | doorRequest | liftRequest => "POST"
  | liftSession => "DELETE"

def word : NamedEndpoint → List Char
  | fleetState | taskState | doorState | liftState => "state".toList
  | doorRequest | liftRequest => "request".toList
  | liftSession => "session".toList

theorem word_plain (e : NamedEndpoint) : Plain ('/' :: e.word) := by
  cases e <;> decide

theorem eq_of_method_of_family {e e' : NamedEndpoint} (hmethod : e.method = e'.method)
    (hfamily : e.family = e'.family) : e = e' := by
  revert hmethod hfamily
  cases e <;> cases e' <;> decide

end NamedEndpoint

def RobotCommand.word : RobotCommand → List Char
  | navigate => "navigate".toList
  | stop => "stop".toList
  | performAction => "perform_action".toList

theorem RobotCommand.word_plain (c : RobotCommand) : Plain ('/' :: c.word) := by
  cases c <;> decide

def robotsWord : List Char := "robots".toList

namespace Target

def family : Target → Family
  | named e _ => e.family
  | command .. => .fleets

def method : Target → String
  | named e _ => e.method
  | command .. => "POST"

def rest : Target → List Char
  | named e name => name.toList ++ '/' :: e.word
  | command c fleet robot =>
    fleet.toList ++ '/' :: (robotsWord ++ '/' :: (robot.toList ++ '/' :: c.word))

end Target

def basePath : List Char := "/api/v1/connector/open-rmf/".toList

theorem call_method (c : EndpointCall) : c.call.method = c.target.method := by
  cases c <;> rfl

section Paths

variable {pre post : String}

theorem named_path (e : NamedEndpoint) (hpre : pre.toList = basePath ++ (e.family.word ++ ['/']))
    (hpost : post.toList = '/' :: e.word) (name : String) :
    (pre ++ name ++ post).toList =
      basePath ++ (e.family.word ++ '/' :: (Target.named e name).rest) := by
  simp [hpre, hpost, Target.rest]

theorem command_path (c : RobotCommand) {mid : String}
    (hpre : pre.toList = basePath ++ (Family.fleets.word ++ ['/']))
    (hmid : mid.toList = '/' :: (robotsWord ++ ['/'])) (hpost : post.toList = '/' :: c.word)
    (fleet robot : String) :
    (pre ++ fleet ++ mid ++ robot ++ post).toList =
      basePath ++ (Family.fleets.word ++ '/' :: (Target.command c fleet robot).rest) := by
  simp [hpre, hmid, hpost, Target.rest]

end Paths

theorem call_path (c : EndpointCall) :
    c.call.path.toList = basePath ++ (c.target.family.word ++ '/' :: c.target.rest) := by
  cases c with
  | fleetState fleet => refine named_path .fleetState ?_ ?_ fleet <;> decide
  | navigate fleet robot => refine command_path .navigate ?_ ?_ ?_ fleet robot <;> decide
  | stop fleet robot => refine command_path .stop ?_ ?_ ?_ fleet robot <;> decide
  | performAction fleet robot => refine command_path .performAction ?_ ?_ ?_ fleet robot <;> decide
  | taskState taskId => refine named_path .taskState ?_ ?_ taskId <;> decide
  | doorState door => refine named_path .doorState ?_ ?_ door <;> decide
  | doorRequest door => refine named_path .doorRequest ?_ ?_ door <;> decide
  | liftState lift => refine named_path .liftState ?_ ?_ lift <;> decide
  | liftRequest lift => refine named_path .liftRequest ?_ ?_ lift <;> decide
  | liftSession lift => refine named_path .liftSession ?_ ?_ lift <;> decide

/-! ### What the server reads -/

def readName (name word : List Char) : List Char :=
  if Plain name then name ++ '/' :: word else UrlQuery.path name

def readCommand (c : RobotCommand) (fleet robot : List Char) : List Char :=
  if Plain fleet then fleet ++ '/' :: (robotsWord ++ '/' :: readName robot c.word)
  else UrlQuery.path fleet

section Read

variable {name fleet robot word : List Char} {c : RobotCommand}

theorem readName_of_plain (h : Plain name) : readName name word = name ++ '/' :: word := if_pos h

theorem readName_of_cut (h : ¬ Plain name) : readName name word = UrlQuery.path name := if_neg h

theorem readCommand_of_plain (h : Plain fleet) :
    readCommand c fleet robot = fleet ++ '/' :: (robotsWord ++ '/' :: readName robot c.word) :=
  if_pos h

theorem readCommand_of_cut (h : ¬ Plain fleet) :
    readCommand c fleet robot = UrlQuery.path fleet := if_neg h

end Read

def Target.read : Target → List Char
  | named e name => readName name.toList e.word
  | command c fleet robot => readCommand c fleet.toList robot.toList

theorem path_name {word : List Char} (hword : Plain ('/' :: word)) (name : List Char) :
    UrlQuery.path (name ++ '/' :: word) = readName name word := by
  by_cases hname : Plain name
  · rw [readName_of_plain hname, path_append_of_plain hname, path_of_plain hword]
  · rw [readName_of_cut hname, path_append_of_not_plain hname]

theorem Target.path_rest (t : Target) : UrlQuery.path t.rest = t.read := by
  cases t with
  | named e name => exact path_name e.word_plain name.toList
  | command c fleet robot =>
    have hslash : Plain ['/'] := by decide
    have hrobots : Plain robotsWord := by decide
    show UrlQuery.path (fleet.toList ++ _) = readCommand c fleet.toList robot.toList
    by_cases hfleet : Plain fleet.toList
    · rw [readCommand_of_plain hfleet, path_append_of_plain hfleet, path_cons hslash,
        path_append_of_plain hrobots, path_cons hslash, path_name c.word_plain]
    · rw [readCommand_of_cut hfleet, path_append_of_not_plain hfleet]

theorem seenPath_eq (c : EndpointCall) :
    seenPath c.call = basePath ++ (c.target.family.word ++ '/' :: c.target.read) := by
  have hbase : Plain basePath := by decide
  have hfamily : ∀ f : Family, Plain f.word := fun f => by cases f <;> decide
  unfold seenPath
  rw [call_path, path_append_of_plain hbase, path_append_of_plain (hfamily _),
    path_cons (by decide), Target.path_rest]

theorem Family.word_append_inj {f f' : Family} {x y : List Char}
    (h : f.word ++ '/' :: x = f'.word ++ '/' :: y) : f = f' ∧ x = y := by
  have hslash : ∀ f : Family, '/' ∉ f.word := fun f => by cases f <;> decide
  have hword : f.word = f'.word := by
    have hbefore := congrArg (before '/') h
    rwa [before_append (hslash f), before_append (hslash f'), before_cons_self, before_cons_self,
      List.append_nil, List.append_nil] at hbefore
  have hfamily : f = f' := by
    revert hword
    cases f <;> cases f' <;> decide
  subst hfamily
  exact ⟨rfl, (List.cons.inj (List.append_cancel_left h)).2⟩

theorem same_address_iff (c d : EndpointCall) :
    (c.call.method = d.call.method ∧ seenPath c.call = seenPath d.call) ↔
      c.target.method = d.target.method ∧ c.target.family = d.target.family ∧
        c.target.read = d.target.read := by
  rw [call_method, call_method, seenPath_eq, seenPath_eq]
  refine and_congr_right fun _ => ⟨fun h => ?_, fun h => ?_⟩
  · exact Family.word_append_inj (List.append_cancel_left h)
  · rw [h.1, h.2]

/-! ### Calls that are taken for one another -/

/-- The second target is read as the first: a name of it is cut at a question mark or a hash
and what is left of it reads as the first does, or a fleet and a robot are split elsewhere. -/
inductive Clash : Target → Target → Prop where
  | name {e : NamedEndpoint} {a b : String} (hcut : ¬ Plain b.toList)
      (h : UrlQuery.path b.toList = readName a.toList e.word) : Clash (.named e a) (.named e b)
  | fleet {c c' : RobotCommand} {f r f' r' : String} (hcut : ¬ Plain f'.toList)
      (h : UrlQuery.path f'.toList = readCommand c f.toList r.toList) :
      Clash (.command c f r) (.command c' f' r')
  | robot {c c' : RobotCommand} {f r r' : String} (hfleet : Plain f.toList)
      (hcut : ¬ Plain r'.toList) (h : UrlQuery.path r'.toList = readName r.toList c.word) :
      Clash (.command c f r) (.command c' f r')
  | resplit {c c' : RobotCommand} {f r f' r' : String} (hfleet : Plain f.toList)
      (hfleet' : Plain f'.toList) (h : Resplit '/' robotsWord f.toList (readName r.toList c.word)
        f'.toList (readName r'.toList c'.word)) : Clash (.command c f r) (.command c' f' r')

theorem Clash.same_address {t u : Target} (h : Clash t u) :
    t.method = u.method ∧ t.family = u.family ∧ t.read = u.read := by
  refine ⟨?_, ?_, ?_⟩
  · cases h <;> rfl
  · cases h <;> rfl
  · cases h with
    | name hcut h =>
      show readName _ _ = readName _ _
      rw [← h, readName_of_cut hcut]
    | fleet hcut h =>
      show readCommand _ _ _ = readCommand _ _ _
      rw [← h, readCommand_of_cut hcut]
    | robot hfleet hcut h =>
      show readCommand _ _ _ = readCommand _ _ _
      rw [readCommand_of_plain hfleet, readCommand_of_plain hfleet, ← h, readName_of_cut hcut]
    | resplit hfleet hfleet' h =>
      show readCommand _ _ _ = readCommand _ _ _
      rw [readCommand_of_plain hfleet, readCommand_of_plain hfleet']
      exact h.eq

theorem RobotCommand.eq_of_word {c c' : RobotCommand} (h : c.word = c'.word) : c = c' := by
  revert h
  cases c <;> cases c' <;> decide

theorem RobotCommand.slash_not_mem (c : RobotCommand) : '/' ∉ c.word := by
  cases c <;> decide

theorem NamedEndpoint.slash_not_mem (e : NamedEndpoint) : '/' ∉ e.word := by
  cases e <;> decide

theorem readName_eq {a b v w : List Char} (hv : '/' ∉ v) (hw : '/' ∉ w)
    (h : readName a v = readName b w) :
    (a = b ∧ v = w) ∨ (¬ Plain b ∧ UrlQuery.path b = readName a v) ∨
      (¬ Plain a ∧ UrlQuery.path a = readName b w) := by
  by_cases hb : Plain b
  · by_cases ha : Plain a
    · rw [readName_of_plain ha, readName_of_plain hb] at h
      exact Or.inl (append_sep_inj hv hw h)
    · exact Or.inr (Or.inr ⟨ha, (readName_of_cut ha).symm.trans h⟩)
  · exact Or.inr (Or.inl ⟨hb, (readName_of_cut hb).symm.trans h.symm⟩)

theorem clash_of_read_command {c c' : RobotCommand} {f r f' r' : String}
    (h : (Target.command c f r).read = (Target.command c' f' r').read) :
    Target.command c f r = .command c' f' r' ∨ Clash (.command c f r) (.command c' f' r') ∨
      Clash (.command c' f' r') (.command c f r) := by
  have hread : readCommand c f.toList r.toList = readCommand c' f'.toList r'.toList := h
  by_cases hf : Plain f.toList
  · by_cases hf' : Plain f'.toList
    · rw [readCommand_of_plain hf, readCommand_of_plain hf', framed_eq_iff (by decide)] at hread
      rcases hread with ⟨hfleet, hrobot⟩ | hsplit | hsplit
      · obtain rfl := String.toList_inj.mp hfleet
        rcases readName_eq c.slash_not_mem c'.slash_not_mem hrobot with
          ⟨hname, hword⟩ | ⟨hcut, hleft⟩ | ⟨hcut, hleft⟩
        · obtain rfl := String.toList_inj.mp hname
          obtain rfl := RobotCommand.eq_of_word hword
          exact Or.inl rfl
        · exact Or.inr (Or.inl (.robot hf hcut hleft))
        · exact Or.inr (Or.inr (.robot hf hcut hleft))
      · exact Or.inr (Or.inl (.resplit hf hf' hsplit))
      · exact Or.inr (Or.inr (.resplit hf' hf hsplit))
    · exact Or.inr (Or.inl (.fleet hf' ((readCommand_of_cut hf').symm.trans hread.symm)))
  · exact Or.inr (Or.inr (.fleet hf ((readCommand_of_cut hf).symm.trans hread)))

theorem clash_of_same_address {t u : Target} (hmethod : t.method = u.method)
    (hfamily : t.family = u.family) (hread : t.read = u.read) :
    t = u ∨ Clash t u ∨ Clash u t := by
  cases t with
  | named e a =>
    cases u with
    | named e' b =>
      obtain rfl := NamedEndpoint.eq_of_method_of_family hmethod hfamily
      rcases readName_eq e.slash_not_mem e.slash_not_mem hread with
        ⟨hname, -⟩ | ⟨hcut, hleft⟩ | ⟨hcut, hleft⟩
      · exact Or.inl (congrArg _ (String.toList_inj.mp hname))
      · exact Or.inr (Or.inl (.name hcut hleft))
      · exact Or.inr (Or.inr (.name hcut hleft))
    | command c fleet robot =>
      -- nothing is posted to a fleet but commands
      revert hmethod hfamily
      cases e <;> simp [Target.method, Target.family, NamedEndpoint.method, NamedEndpoint.family]
  | command c fleet robot =>
    cases u with
    | named e b =>
      revert hmethod hfamily
      cases e <;> simp [Target.method, Target.family, NamedEndpoint.method, NamedEndpoint.family]
    | command c' fleet' robot' => exact clash_of_read_command hread

theorem clash_of_ambiguous {c d : EndpointCall} (hmethod : c.call.method = d.call.method)
    (hpath : seenPath c.call = seenPath d.call) :
    c.target = d.target ∨ Clash c.target d.target ∨ Clash d.target c.target := by
  obtain ⟨hmethod, hfamily, hread⟩ := (same_address_iff c d).mp ⟨hmethod, hpath⟩
  exact clash_of_same_address hmethod hfamily hread

/-- Two calls are told apart by method and path exactly unless their targets clash. -/
theorem unambiguous_iff (c d : EndpointCall) :
    Unambiguous c d ↔
      ¬ (c.target ≠ d.target ∧ (Clash c.target d.target ∨ Clash d.target c.target)) := by
  constructor
  · rintro h ⟨hne, hclash⟩
    have hsame : c.call.method = d.call.method ∧ seenPath c.call = seenPath d.call := by
      rw [same_address_iff]
      rcases hclash with hclash | hclash
      · exact hclash.same_address
      · obtain ⟨hmethod, hfamily, hread⟩ := hclash.same_address
        exact ⟨hmethod.symm, hfamily.symm, hread.symm⟩
    exact hne (h hsame.1 hsame.2)
  · intro h hmethod hpath
    by_contra hne
    rcases clash_of_ambiguous hmethod hpath with heq | hclash
    · exact hne heq
    · exact h ⟨hne, hclash⟩

def Target.All (P : String → Prop) : Target → Prop
  | named _ name => P name
  | command _ fleet robot => P fleet ∧ P robot

/-- A single path segment, as the endpoints mean their identifiers to be. -/
def IsSegment (name : String) : Prop := Plain name.toList ∧ '/' ∉ name.toList

theorem Clash.not_segments {t u : Target} (h : Clash t u) : ¬ u.All IsSegment := by
  cases h with
  | name hcut _ => exact fun hsegment => hcut hsegment.1
  | fleet hcut _ => exact fun hsegments => hcut hsegments.1.1
  | robot _ hcut _ => exact fun hsegments => hcut hsegments.2.1
  | resplit _ _ hsplit => exact fun hsegments => hsegments.1.2 hsplit.sep_mem

theorem unambiguous_of_segments {c d : EndpointCall} (hc : c.target.All IsSegment)
    (hd : d.target.All IsSegment) : Unambiguous c d := by
  intro hmethod hpath
  rcases clash_of_ambiguous hmethod hpath with heq | hclash | hclash
  · exact heq
  · exact absurd hd hclash.not_segments
  · exact absurd hc hclash.not_segments

/-- A robot of another fleet is commanded when its name holds the words of the path. -/
theorem robots_share_address :
    ¬ ∀ c d : EndpointCall, c.target.All (· ≠ "") → d.target.All (· ≠ "") → Unambiguous c d := by
  intro h
  have hsame := h (.stop "a" "b/robots/c" "x" none) (.stop "a/robots/b" "c" "x" none)
    ⟨by decide, by decide⟩ ⟨by decide, by decide⟩ rfl (by decide)
  exact absurd hsame (by decide)

end QuikSync.Client
