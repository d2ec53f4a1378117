import QuikSyncAdapters.Config
import QuikSyncAdapters.Library.Trimming

/-! The lists of doors and lifts of a configuration: which lists and which comma-separated
strings name identifiers, and what they are read as. -/

namespace QuikSync

open Py Trimming

theorem strip_eq_trim (s : String) : strip s = String.ofList (trim isSpace s.toList) := rfl

theorem toList_strip (s : String) : (strip s).toList = trim isSpace s.toList := by
  rw [strip_eq_trim, String.toList_ofList]

theorem strip_strip (s : String) : strip (strip s) = strip s := by
  rw [strip_eq_trim (strip s), toList_strip, trim_trim, ← strip_eq_trim]

theorem strip_eq_empty {s : String} : strip s = "" ↔ trim isSpace s.toList = [] := by
  rw [← String.toList_inj, toList_strip, String.toList_empty]

/-- What names the identifiers: a list of strings, or one string with commas. -/
inductive IdSource where
  | list (items : List String)
  | joined (text : String)

namespace IdSource

def raw : IdSource → Json
  | list items => .arr (items.map .str)
  | joined text => .str text

def pieces : IdSource → List String
  | list items => items
  | joined text => (text.toList.splitOn ',').map String.ofList

/-- The blank pieces of a text do not count. -/
def counted : IdSource → List String
  | list items => items
  | joined text => (joined text).pieces.filter fun piece => strip piece != ""

def entries (source : IdSource) : List String := source.counted.map strip

@[simp]
theorem entries_list (items : List String) : (list items).entries = items.map strip := rfl

@[simp]
theorem entries_joined (text : String) :
    (joined text).entries =
      (((text.toList.splitOn ',').map String.ofList).filter fun piece => strip piece != "").map
        strip := rfl

end IdSource

theorem idEntries_raw (env : LoadEnv) (fieldName : String) (source : IdSource) :
    idEntries env fieldName source.raw = .ok source.entries := by
  cases source with
  | list items =>
    unfold IdSource.raw idEntries
    dsimp only
    rw [IdSource.entries_list, List.map_map]
    rfl
  | joined text =>
    unfold IdSource.raw idEntries
    dsimp only
    rw [IdSource.entries_joined, List.filter_map, List.filter_map, List.map_map]
    rfl

def IdSource.Refused (source : IdSource) : Prop :=
  source.entries = [] ∨ (∃ piece ∈ source.counted, strip piece = "") ∨ ¬ source.entries.Nodup

theorem mem_entries_empty {source : IdSource} :
    "" ∈ source.entries ↔ ∃ piece ∈ source.counted, strip piece = "" := List.mem_map

theorem strip_of_mem_entries {source : IdSource} {s : String} (h : s ∈ source.entries) :
    strip s = s := by
  obtain ⟨piece, -, rfl⟩ := List.mem_map.mp h
  exact strip_strip piece

theorem normaliseIdList_of_refused {env : LoadEnv} {fieldName : String} {source : IdSource}
    (h : source.Refused) :
    ∃ message, normaliseIdList env fieldName source.raw = .error (.configError message) := by
  unfold normaliseIdList
  rw [idEntries_raw]
  dsimp only
  split_ifs with hempty hblank
  · exact ⟨_, rfl⟩
  · exact ⟨_, rfl⟩
  · split
    · exact ⟨_, rfl⟩
    · rename_i hnone
      have hnodup : source.entries.Nodup := (firstDuplicate_eq_none.mp hnone).1
      rcases h with hnil | hpiece | hcoincide
      · exact absurd hnil hempty
      · exact absurd (mem_entries_empty.mpr hpiece) hblank
      · exact absurd hnodup hcoincide

theorem normaliseIdList_of_not_refused {env : LoadEnv} {fieldName : String} {source : IdSource}
    (h : ¬ source.Refused) :
    ∃ list, normaliseIdList env fieldName source.raw = .ok list ∧ list.ids = source.entries := by
  unfold IdSource.Refused at h
  push Not at h
  obtain ⟨hentries, hpieces, hnodup⟩ := h
  have hnamed : "" ∉ source.entries := by
    rw [mem_entries_empty]
    push Not
    exact hpieces
  unfold normaliseIdList
  rw [idEntries_raw]
  dsimp only
  rw [dif_neg hentries, dif_neg hnamed]
  split
  · rename_i s hduplicate
    have hnone : firstDuplicate [] source.entries = none :=
      firstDuplicate_eq_none.mpr ⟨hnodup, fun _ _ => List.not_mem_nil⟩
    rw [hnone] at hduplicate
    cases hduplicate
  · exact ⟨_, rfl, rfl⟩

theorem normaliseIdList_congr {env : LoadEnv} {fieldName : String} {source other : IdSource}
    (h : source.entries = other.entries) :
    normaliseIdList env fieldName source.raw = normaliseIdList env fieldName other.raw := by
  have hread : idEntries env fieldName source.raw = idEntries env fieldName other.raw := by
    rw [idEntries_raw, idEntries_raw, h]
  unfold normaliseIdList
  rw [hread]

theorem entries_list_entries (source : IdSource) :
    (IdSource.list source.entries).entries = source.entries := by
  calc (IdSource.list source.entries).entries
      = source.entries.map strip := rfl
    _ = source.entries.map id := List.map_congr_left fun _ hs => strip_of_mem_entries hs
    _ = source.entries := List.map_id _

theorem toList_entries_joined (text : String) :
    (IdSource.joined text).entries.map String.toList = fields isSpace ',' text.toList := by
  unfold fields
  rw [IdSource.entries_joined, List.filter_map, List.map_map, List.map_map, List.filter_map]
  have hkeep : (fun piece => strip piece != "") ∘ String.ofList =
      (fun part : List Char => !part.isEmpty) ∘ trim isSpace := by
    funext part
    simp only [Function.comp_apply]
    rw [Bool.eq_iff_iff]
    simp [strip_eq_empty]
  rw [hkeep]
  apply List.map_congr_left
  intro part _
  simp only [Function.comp_apply, toList_strip, String.toList_ofList]

theorem entries_joined_intercalate {items : List String} (hcomma : ∀ s ∈ items, ',' ∉ s.toList)
    (hblank : ∀ s ∈ items, strip s ≠ "") :
    (IdSource.joined (",".intercalate items)).entries = (IdSource.list items).entries := by
  apply List.map_injective_iff.mpr fun _ _ => String.toList_injective
  rw [toList_entries_joined, String.toList_intercalate]
  have hcomma' : ∀ row ∈ items.map String.toList, ',' ∉ row := by
    simpa using hcomma
  have hblank' : ∀ row ∈ items.map String.toList, trim isSpace row ≠ [] := by
    intro row hrow
    obtain ⟨s, hs, rfl⟩ := List.mem_map.mp hrow
    exact fun hnil => hblank s hs (strip_eq_empty.mpr hnil)
  have hfields := fields_intercalate isSpace ',' hcomma' hblank'
  rw [show ",".toList = [','] from rfl, hfields]
  rw [IdSource.entries_list, List.map_map, List.map_map]
  apply List.map_congr_left
  intro s _
  exact (toList_strip s).symm

structure NormalisesIdLists (env : LoadEnv) (fieldName : String) : Prop where
  -- an error of the configuration, or the entries stripped, in their order and all of them
  outcome : ∀ source : IdSource,
    (∃ message, normaliseIdList env fieldName source.raw = .error (.configError message)) ∨
    ∃ list, normaliseIdList env fieldName source.raw = .ok list ∧ list.ids = source.entries ∧
      list.ids ≠ [] ∧ list.ids.Nodup ∧ ∀ s ∈ list.ids, s ≠ "" ∧ strip s = s
  raises : ∀ source : IdSource,
    (∃ message, normaliseIdList env fieldName source.raw = .error (.configError message)) ↔
      source.Refused
  idempotent : ∀ (source : IdSource) (list : IdList),
    normaliseIdList env fieldName source.raw = .ok list →
      normaliseIdList env fieldName (IdSource.list list.ids).raw = .ok list
  joined : ∀ items : List String, (∀ s ∈ items, ',' ∉ s.toList) → (∀ s ∈ items, strip s ≠ "") →
    normaliseIdList env fieldName (IdSource.joined (",".intercalate items)).raw =
      normaliseIdList env fieldName (IdSource.list items).raw

theorem normalises_id_lists (env : LoadEnv) (fieldName : String) :
    NormalisesIdLists env fieldName where
  outcome source := by
    by_cases hrefused : source.Refused
    · exact .inl (normaliseIdList_of_refused hrefused)
    · obtain ⟨list, hlist, hids⟩ := normaliseIdList_of_not_refused hrefused
      refine .inr ⟨list, hlist, hids, list.nonempty, list.nodup, fun s hs => ⟨?_, ?_⟩⟩
      · rintro rfl
        exact list.named hs
      · rw [hids] at hs
        exact strip_of_mem_entries hs
  raises source := by
    constructor
    · rintro ⟨message, herror⟩
      by_contra hrefused
      obtain ⟨list, hlist, -⟩ := normaliseIdList_of_not_refused hrefused
      rw [hlist] at herror
      cases herror
    · exact normaliseIdList_of_refused
  idempotent source list hlist := by
    have hids : list.ids = source.entries := by
      by_cases hrefused : source.Refused
      · obtain ⟨message, herror⟩ := @normaliseIdList_of_refused env fieldName source hrefused
        rw [hlist] at herror
        cases herror
      · obtain ⟨list', hlist', hids⟩ := @normaliseIdList_of_not_refused env fieldName source
          hrefused
        rw [hlist] at hlist'
        obtain rfl := Except.ok.inj hlist'
        exact hids
    rw [hids, normaliseIdList_congr (entries_list_entries source)]
    exact hlist
  joined items hcomma hblank :=
    normaliseIdList_congr (entries_joined_intercalate hcomma hblank)

end QuikSync
