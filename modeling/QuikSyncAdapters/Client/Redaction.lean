import QuikSyncAdapters.Library.Scrubbing
import QuikSyncAdapters.Client.MintStep
import Mathlib.Data.List.Basic

/-! What the excerpt of a response body that is logged and raised tells of an echoed client
secret. The body is cut off before it is scrubbed, so an echo that the cut goes through is
no occurrence any more and its beginning stays. -/

namespace QuikSync.Client

open Scrubbing

section Replacing

variable {pattern replacement : List Char}

theorem replaceAll_clean (fuel : ℕ) {text : List Char} (h : ∀ i, ¬ OccursAt pattern text i) :
    replaceAll pattern replacement fuel text = text := by
  induction fuel generalizing text with
  | zero => rfl
  | succ fuel ih =>
    cases text with
    | nil => rfl
    | cons c rest =>
      have hhead : ¬ pattern.isPrefixOf (c :: rest) = true := by
        rw [List.isPrefixOf_iff_prefix]
        exact h 0
      rw [replaceAll, if_neg hhead, ih fun i => h (i + 1)]

theorem replaceAll_fuel (hpattern : pattern ≠ []) {fuel fuel' : ℕ} {text : List Char}
    (h : text.length ≤ fuel) (h' : text.length ≤ fuel') :
    replaceAll pattern replacement fuel text = replaceAll pattern replacement fuel' text := by
  have hpos : 0 < pattern.length := List.length_pos_iff.mpr hpattern
  induction fuel generalizing fuel' text with
  | zero =>
    obtain rfl : text = [] := List.length_eq_zero_iff.mp (Nat.le_zero.mp h)
    cases fuel' <;> rfl
  | succ fuel ih =>
    cases text with
    | nil => cases fuel' <;> rfl
    | cons c rest =>
      obtain ⟨fuel', rfl⟩ := Nat.exists_eq_add_of_lt (Nat.lt_of_lt_of_le (Nat.succ_pos _) h')
      simp only [List.length_cons] at h h'
      have hdrop : ((c :: rest).drop pattern.length).length ≤ rest.length := by
        rw [List.length_drop, List.length_cons]
        omega
      rw [Nat.zero_add, replaceAll, replaceAll]
      split_ifs
      · exact congrArg _ (ih (by omega) (by omega))
      · exact congrArg _ (ih (by omega) (by omega))

theorem replaceAll_first (hpattern : pattern ≠ []) {before after : List Char} {fuel : ℕ}
    (hfuel : (before ++ pattern ++ after).length ≤ fuel)
    (h : ∀ i < before.length, ¬ OccursAt pattern (before ++ pattern ++ after) i) :
    replaceAll pattern replacement fuel (before ++ pattern ++ after) =
      before ++ replacement ++ replaceAll pattern replacement after.length after := by
  induction before generalizing fuel with
  | nil =>
    obtain ⟨c, rest, rfl⟩ := List.exists_cons_of_ne_nil hpattern
    cases fuel with
    | zero => exact absurd hfuel (by simp)
    | succ fuel =>
      have hhead : (c :: rest).isPrefixOf (c :: (rest ++ after)) = true := by
        rw [List.isPrefixOf_iff_prefix]
        exact List.prefix_append (c :: rest) after
      have hdrop : (c :: (rest ++ after)).drop (c :: rest).length = after := by
        rw [← List.cons_append, List.drop_left]
      have hafter : after.length ≤ fuel := by
        simp only [List.nil_append, List.length_append, List.length_cons] at hfuel
        omega
      rw [List.nil_append, List.nil_append, List.cons_append, replaceAll, if_pos hhead, hdrop,
        replaceAll_fuel hpattern hafter le_rfl]
  | cons c before ih =>
    cases fuel with
    | zero => exact absurd hfuel (by simp)
    | succ fuel =>
      have hhead : ¬ pattern.isPrefixOf (c :: (before ++ pattern ++ after)) = true := by
        rw [List.isPrefixOf_iff_prefix]
        exact h 0 (Nat.succ_pos _)
      have hrest := ih (Nat.le_of_succ_le_succ hfuel)
        fun i hi => h (i + 1) (Nat.succ_lt_succ hi)
      rw [List.cons_append, List.cons_append, replaceAll, if_neg hhead, hrest]
      rfl

theorem replaceAll_replaces (hpattern : pattern ≠ []) :
    Replaces pattern replacement fun text =>
      replaceAll pattern replacement text.length text where
  clean text h := replaceAll_clean text.length h
  first _ _ h := replaceAll_first hpattern le_rfl h

end Replacing

def AuthConfig.withSecret (config : AuthConfig) (secret : String) : AuthConfig :=
  { config with clientSecret := secret }

def secretMark : List Char := "<redacted client_secret>".toList

theorem bodyPreview_toList (config : AuthConfig) {secret : String} (hsecret : secret ≠ "")
    (text : String) :
    (bodyPreview text (config.withSecret secret)).toList =
      replaceAll secret.toList secretMark (text.toList.take 200).length (text.toList.take 200) := by
  have hset : (config.withSecret secret).clientSecret = secret := rfl
  have hback : (String.ofList (text.toList.take 200)).toList = text.toList.take 200 :=
    String.toList_ofList
  unfold bodyPreview redactSecrets
  rw [hset, if_neg hsecret]
  split_ifs with hempty
  · have hnil : text.toList.take 200 = [] := by
      rw [← hback, hempty]
      rfl
    rw [hback, hnil]
    rfl
  · rw [hback, String.length_ofList]
    exact String.toList_ofList

def pieces (segments : List String) : List (List Char) := segments.map String.toList

/-- How much of an echoed secret of this length the limit of 200 characters leaves standing. -/
def exposed (secretLength : ℕ) (segments : List String) : ℕ :=
  remnant secretLength 200 (pieces segments)

theorem preview_of_echoes (config : AuthConfig) (segments : List String) {secret : String}
    (hsecret : secret ≠ "") (honly : OnlyInGaps secret.toList (pieces segments)) :
    (bodyPreview (secret.intercalate segments) (config.withSecret secret)).toList =
      scrubbed secretMark secret.length 200 (pieces segments) ++
        secret.toList.take (exposed secret.length segments) := by
  have hne : secret.toList ≠ [] := fun h => hsecret (String.toList_eq_nil_iff.mp h)
  rw [bodyPreview_toList config hsecret, String.toList_intercalate]
  exact (replaceAll_replaces hne).take_echoes hne 200 honly

/-- The previews of one body with two secrets of one length in its gaps are the same exactly
when what the limit leaves of a secret that it cuts, if it cuts one, is the same of both. -/
theorem preview_hides_secret_iff (config : AuthConfig) (segments : List String) (s₁ s₂ : String)
    (h₁ : s₁ ≠ "") (h₂ : s₂ ≠ "") (hlength : s₁.length = s₂.length)
    (honly₁ : OnlyInGaps s₁.toList (pieces segments))
    (honly₂ : OnlyInGaps s₂.toList (pieces segments)) :
    bodyPreview (s₁.intercalate segments) (config.withSecret s₁) =
        bodyPreview (s₂.intercalate segments) (config.withSecret s₂) ↔
      s₁.toList.take (exposed s₁.length segments) =
        s₂.toList.take (exposed s₁.length segments) := by
  rw [← String.toList_inj, preview_of_echoes config segments h₁ honly₁,
    preview_of_echoes config segments h₂ honly₂, ← hlength]
  constructor
  · exact List.append_cancel_left
  · exact congrArg _

theorem preview_hides_secret_witness :
    bodyPreview ("ab".intercalate ["no ", " here"]) (sampleConfig.withSecret "ab") =
        bodyPreview ("cd".intercalate ["no ", " here"]) (sampleConfig.withSecret "cd") ↔
      "ab".toList.take (exposed "ab".length ["no ", " here"]) =
        "cd".toList.take (exposed "ab".length ["no ", " here"]) :=
  preview_hides_secret_iff sampleConfig ["no ", " here"] "ab" "cd" (by decide) (by decide) rfl
    (onlyInGaps_of_lt (by decide) (by decide)) (onlyInGaps_of_lt (by decide) (by decide))

theorem pieces_padding (l : List Char) : pieces [String.ofList l, ""] = [l, []] := by
  simp [pieces]

/-- A body of 199 dashes and a secret: the first letter of the secret is shown. -/
theorem cut_echo_shown :
    ¬ ∀ (config : AuthConfig) (segments : List String) (s₁ s₂ : String), s₁ ≠ "" → s₂ ≠ "" →
      s₁.length = s₂.length → OnlyInGaps s₁.toList (pieces segments) →
      OnlyInGaps s₂.toList (pieces segments) →
      bodyPreview (s₁.intercalate segments) (config.withSecret s₁) =
        bodyPreview (s₂.intercalate segments) (config.withSecret s₂) := by
  intro h
  let segments := [String.ofList (List.replicate 199 '-'), ""]
  have hpieces : pieces segments = [List.replicate 199 '-', []] := pieces_padding _
  have honly₁ : OnlyInGaps "ab".toList (pieces segments) := by
    rw [hpieces]
    exact onlyInGaps_of_padding (by decide) ['b'] 199
  have honly₂ : OnlyInGaps "cd".toList (pieces segments) := by
    rw [hpieces]
    exact onlyInGaps_of_padding (by decide) ['d'] 199
  have hshown : exposed 2 segments = 1 := by
    rw [exposed, hpieces, remnant, List.length_replicate]
    rfl
  have hsame := congrArg String.toList
    (h sampleConfig segments "ab" "cd" (by decide) (by decide) rfl honly₁ honly₂)
  rw [preview_of_echoes sampleConfig segments (by decide) honly₁,
    preview_of_echoes sampleConfig segments (by decide) honly₂] at hsame
  have htake : "ab".toList.take (exposed 2 segments) = "cd".toList.take (exposed 2 segments) :=
    List.append_cancel_left hsame
  rw [hshown] at htake
  exact absurd htake (by decide)

end QuikSync.Client
