import QuikSyncAdapters.Client.Ws
import QuikSyncAdapters.Library.UrlQuery
import Mathlib.Data.List.Basic

/-! The URL of a subscription, read back: it is put together without any encoding, so what the
server reads is what was meant only for some names, tokens and namespaces. -/

namespace QuikSync.Client

open Py

inductive Resource where
  | fleet
  | door
  | lift

namespace Resource

def subscribePath : Resource → String → String
  | fleet => QuikSyncWsClient.subscribeFleetState
  | door => QuikSyncWsClient.subscribeDoorState
  | lift => QuikSyncWsClient.subscribeLiftState

def pathPrefix : Resource → String
  | fleet => "/api/connector/ws/open-rmf/fleets/"
  | door => "/api/connector/ws/open-rmf/doors/"
  | lift => "/api/connector/ws/open-rmf/lifts/"

end Resource

def pathSuffix : String := "/state/subscribe"

def resourceName (config : WsConfig) (r : Resource) (path : List Char) : Option (List Char) :=
  (path.dropPrefix? (config.baseUrl ++ r.pathPrefix).toList).bind
    (·.dropSuffix? pathSuffix.toList)

theorem subscribePath_eq (r : Resource) (name : String) :
    r.subscribePath name = r.pathPrefix ++ name ++ pathSuffix := by
  cases r <;> rfl

theorem subscribeUrl_eq (config : WsConfig) (path token : String) {scope : String}
    (hscope : scope ≠ "") :
    QuikSyncWsClient.subscribeUrl config path token (some scope) =
      config.baseUrl ++ path ++ "?access_token=" ++ token ++ ("&namespace=" ++ scope) := by
  unfold QuikSyncWsClient.subscribeUrl
  simp only [if_neg hscope]
  rfl

def scopedQuery (token scope : String) : List (List Char × List Char) :=
  (("access_token", token) :: (nsParams (some scope)).getD []).map fun p => (p.1.toList, p.2.toList)

/-- Read back, the URL of a subscription names its resource and carries its token and its
namespace, the same namespace as a REST call. -/
structure RoundTrips (config : WsConfig) (r : Resource) (name token scope : String) : Prop where
  resource : resourceName config r (UrlQuery.path (QuikSyncWsClient.subscribeUrl config
    (r.subscribePath name) token (some scope)).toList) = some name.toList
  query : UrlQuery.pairs (UrlQuery.query (QuikSyncWsClient.subscribeUrl config
    (r.subscribePath name) token (some scope)).toList) = scopedQuery token scope

theorem resourceName_eq_some_iff {config : WsConfig} {r : Resource} {path name : List Char} :
    resourceName config r path = some name ↔
      path = (config.baseUrl ++ r.pathPrefix).toList ++ name ++ pathSuffix.toList := by
  unfold resourceName
  rw [Option.bind_eq_some_iff]
  constructor
  · rintro ⟨rest, hprefix, hsuffix⟩
    obtain ⟨p, rfl, hp⟩ := List.dropPrefix?_eq_some_iff.mp hprefix
    obtain ⟨q, rfl, hq⟩ := List.dropSuffix?_eq_some_iff.mp hsuffix
    rw [eq_of_beq hp, eq_of_beq hq, List.append_assoc]
  · rintro rfl
    refine ⟨name ++ pathSuffix.toList, ?_, ?_⟩
    · exact List.dropPrefix?_eq_some_iff.mpr ⟨_, List.append_assoc .., BEq.rfl⟩
    · exact List.dropSuffix?_eq_some_iff.mpr ⟨_, rfl, BEq.rfl⟩

theorem scopedQuery_eq (token : String) {scope : String} (hscope : scope ≠ "") :
    scopedQuery token scope =
      [("access_token".toList, token.toList), ("namespace".toList, scope.toList)] := by
  unfold scopedQuery nsParams
  simp only [if_neg hscope]
  rfl

theorem subscribeUrl_toList (config : WsConfig) (r : Resource) (name token : String)
    {scope : String} (hscope : scope ≠ "") :
    (QuikSyncWsClient.subscribeUrl config (r.subscribePath name) token (some scope)).toList =
      ((config.baseUrl ++ r.pathPrefix).toList ++ name.toList ++ pathSuffix.toList) ++
        '?' :: UrlQuery.render (scopedQuery token scope) := by
  have hquestion : "?access_token=".toList = '?' :: ("access_token".toList ++ ['=']) := by decide
  have hampersand : "&namespace=".toList = '&' :: ("namespace".toList ++ ['=']) := by decide
  rw [subscribeUrl_eq _ _ _ hscope, subscribePath_eq, scopedQuery_eq _ hscope]
  simp only [UrlQuery.render, String.toList_append, hquestion, hampersand, List.append_assoc,
    List.cons_append, List.nil_append]

theorem pathPrefix_plain (r : Resource) :
    '?' ∉ r.pathPrefix.toList ∧ '#' ∉ r.pathPrefix.toList := by
  cases r <;> decide

theorem pathSuffix_plain : '?' ∉ pathSuffix.toList ∧ '#' ∉ pathSuffix.toList := by decide

theorem plainKey_scopedQuery (token : String) {scope : String} (hscope : scope ≠ "") :
    ∀ p ∈ scopedQuery token scope, UrlQuery.PlainKey p.1 := by
  have htoken : UrlQuery.PlainKey "access_token".toList := ⟨by decide, by decide, by decide⟩
  have hnamespace : UrlQuery.PlainKey "namespace".toList := ⟨by decide, by decide, by decide⟩
  rw [scopedQuery_eq token hscope, List.forall_mem_cons, List.forall_mem_singleton]
  exact ⟨htoken, hnamespace⟩

section Reading

variable (config : WsConfig) (r : Resource) (name token : String) {scope : String}

theorem path_plain_iff :
    ('?' ∉ (config.baseUrl ++ r.pathPrefix).toList ++ name.toList ++ pathSuffix.toList ∧
        '#' ∉ (config.baseUrl ++ r.pathPrefix).toList ++ name.toList ++ pathSuffix.toList) ↔
      ('?' ∉ config.baseUrl.toList ∧ '#' ∉ config.baseUrl.toList) ∧
        '?' ∉ name.toList ∧ '#' ∉ name.toList := by
  obtain ⟨hquestion, hhash⟩ := pathPrefix_plain r
  obtain ⟨hquestion', hhash'⟩ := pathSuffix_plain
  simp only [List.mem_append, String.toList_append, hquestion, hquestion', hhash, hhash', or_false,
    not_or]
  exact and_and_and_comm

theorem resource_round_trips_iff (hscope : scope ≠ "") :
    resourceName config r (UrlQuery.path (QuikSyncWsClient.subscribeUrl config
        (r.subscribePath name) token (some scope)).toList) = some name.toList ↔
      ('?' ∉ config.baseUrl.toList ∧ '#' ∉ config.baseUrl.toList) ∧
        '?' ∉ name.toList ∧ '#' ∉ name.toList := by
  rw [resourceName_eq_some_iff, subscribeUrl_toList config r name token hscope,
    UrlQuery.path_append_iff, path_plain_iff]

theorem query_round_trips_iff
    (hbase : '?' ∉ config.baseUrl.toList ∧ '#' ∉ config.baseUrl.toList)
    (hname : '?' ∉ name.toList ∧ '#' ∉ name.toList) (hscope : scope ≠ "") :
    UrlQuery.pairs (UrlQuery.query (QuikSyncWsClient.subscribeUrl config
        (r.subscribePath name) token (some scope)).toList) = scopedQuery token scope ↔
      UrlQuery.Verbatim token.toList ∧ UrlQuery.Verbatim scope.toList := by
  have hplain := (path_plain_iff config r name).mpr ⟨hbase, hname⟩
  have hne : scopedQuery token scope ≠ [] := by
    rw [scopedQuery_eq token hscope]
    exact List.cons_ne_nil _ _
  rw [subscribeUrl_toList config r name token hscope, UrlQuery.query_append hplain.1,
    UrlQuery.pairs_render_iff hne (plainKey_scopedQuery token hscope),
    scopedQuery_eq token hscope, List.forall_mem_cons, List.forall_mem_singleton]

end Reading

/-- The URL is read back as it was meant exactly if none of its strings needs an encoding. -/
theorem url_round_trips_iff (config : WsConfig) (r : Resource) (name token scope : String)
    (hscope : scope ≠ "") :
    RoundTrips config r name token scope ↔
      ('?' ∉ config.baseUrl.toList ∧ '#' ∉ config.baseUrl.toList) ∧
        ('?' ∉ name.toList ∧ '#' ∉ name.toList) ∧
          UrlQuery.Verbatim token.toList ∧ UrlQuery.Verbatim scope.toList := by
  constructor
  · rintro ⟨hresource, hquery⟩
    obtain ⟨hbase, hname⟩ := (resource_round_trips_iff config r name token hscope).mp hresource
    have hvalues := (query_round_trips_iff config r name token hbase hname hscope).mp hquery
    exact ⟨hbase, hname, hvalues⟩
  · rintro ⟨hbase, hname, hvalues⟩
    exact ⟨(resource_round_trips_iff config r name token hscope).mpr ⟨hbase, hname⟩,
      (query_round_trips_iff config r name token hbase hname hscope).mpr hvalues⟩

theorem url_round_trips_iff_witness :
    RoundTrips ⟨"wss://host", 1, 30, 3, 60⟩ .door "Main Gate" "h.p.s" "Site 1" ↔
      ('?' ∉ "wss://host".toList ∧ '#' ∉ "wss://host".toList) ∧
        ('?' ∉ "Main Gate".toList ∧ '#' ∉ "Main Gate".toList) ∧
          UrlQuery.Verbatim "h.p.s".toList ∧ UrlQuery.Verbatim "Site 1".toList :=
  url_round_trips_iff ⟨"wss://host", 1, 30, 3, 60⟩ .door "Main Gate" "h.p.s" "Site 1" (by decide)

/-- A namespace with an ampersand reaches the server cut short, with a parameter too many. -/
theorem ampersand_splits_namespace :
    ¬ ∀ (config : WsConfig) (r : Resource) (name token scope : String),
      '?' ∉ config.baseUrl.toList ∧ '#' ∉ config.baseUrl.toList → scope ≠ "" →
      RoundTrips config r name token scope := by
  intro h
  have hbase : '?' ∉ "wss://host".toList ∧ '#' ∉ "wss://host".toList := by decide
  have hname : '?' ∉ "gate".toList ∧ '#' ∉ "gate".toList := by decide
  have hscope : "R&D" ≠ "" := by decide
  have htrip := h ⟨"wss://host", 1, 30, 3, 60⟩ .door "gate" "h.p.s" "R&D" hbase hscope
  have hvalues := (query_round_trips_iff _ .door "gate" "h.p.s" hbase hname hscope).mp htrip.query
  exact hvalues.2.ampersand (by decide)

end QuikSync.Client
