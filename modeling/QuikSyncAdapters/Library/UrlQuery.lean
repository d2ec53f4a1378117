import Mathlib.Data.List.TakeWhile

/-! Reading a URL: the path before the first question mark, and the pairs of the query with
their values decoded. Which values survive being written into a query unencoded. -/

namespace UrlQuery

def before (sep : Char) (cs : List Char) : List Char := cs.takeWhile (· != sep)

def after (sep : Char) (cs : List Char) : List Char := (cs.dropWhile (· != sep)).tail

section Cut

variable {sep : Char} {cs : List Char}

theorem before_eq_self_iff : before sep cs = cs ↔ sep ∉ cs := by
  unfold before
  rw [List.takeWhile_eq_self_iff]
  constructor
  · intro h hmem
    exact absurd (h sep hmem) (by simp)
  · intro h c hc
    have hne : c ≠ sep := fun heq => h (heq ▸ hc)
    simpa using hne

theorem before_isPrefix : before sep cs <+: cs := List.takeWhile_prefix _

theorem before_of_length (h : cs.length ≤ (before sep cs).length) : sep ∉ cs :=
  before_eq_self_iff.mp (before_isPrefix.eq_of_length_le h)

theorem before_append (h : sep ∉ cs) (rest : List Char) :
    before sep (cs ++ rest) = cs ++ before sep rest := by
  have hall : ∀ c ∈ cs, (c != sep) = true :=
    List.takeWhile_eq_self_iff.mp (before_eq_self_iff.mpr h)
  exact List.takeWhile_append_of_pos hall

theorem before_append_of_mem (h : sep ∈ cs) (rest : List Char) :
    before sep (cs ++ rest) = before sep cs := by
  have hshort : (before sep cs).length ≠ cs.length := fun hlen =>
    before_of_length hlen.ge h
  unfold before at *
  rw [List.takeWhile_append, if_neg hshort]

theorem before_cons_self (rest : List Char) : before sep (sep :: rest) = [] := by
  simp [before]

theorem after_append_cons (h : sep ∉ cs) (rest : List Char) :
    after sep (cs ++ sep :: rest) = rest := by
  have hall : ∀ c ∈ cs, (c != sep) = true :=
    List.takeWhile_eq_self_iff.mp (before_eq_self_iff.mpr h)
  unfold after
  rw [List.dropWhile_append_of_pos hall]
  simp

end Cut

/-! ### Decoding a value -/

def hexDigit? (c : Char) : Option ℕ :=
  if '0' ≤ c ∧ c ≤ '9' then some (c.toNat - '0'.toNat)
  else if 'a' ≤ c ∧ c ≤ 'f' then some (c.toNat - 'a'.toNat + 10)
  else if 'A' ≤ c ∧ c ≤ 'F' then some (c.toNat - 'A'.toNat + 10)
  else none

def escape? (c : Char) : List Char → Option ℕ
  | high :: low :: _ =>
    if c = '%' then (hexDigit? high).bind fun a => (hexDigit? low).map fun b => 16 * a + b else none
  | _ => none

inductive Symbol where
  | char (c : Char)
  | byte (b : ℕ)

/-- The characters and escaped bytes of a value, after the `skip` characters that belong to an
escape. -/
def symbols : ℕ → List Char → List Symbol
  | _, [] => []
  | skip + 1, _ :: rest => symbols skip rest
  | 0, c :: rest =>
    match escape? c rest with
    | some b => .byte b :: symbols 2 rest
    | none => .char (if c = '+' then ' ' else c) :: symbols 0 rest

structure Pending where
  missing : ℕ
  code : ℕ
  lower : ℕ
  upper : ℕ

def replacement : Char := Char.ofNat 0xfffd

def firstByte (b : ℕ) : List Char × Option Pending :=
  if b < 0x80 then ([Char.ofNat b], none)
  else if 0xc2 ≤ b ∧ b ≤ 0xdf then ([], some ⟨1, b - 0xc0, 0x80, 0xbf⟩)
  else if 0xe0 ≤ b ∧ b ≤ 0xef then
    ([], some ⟨2, b - 0xe0, if b = 0xe0 then 0xa0 else 0x80, if b = 0xed then 0x9f else 0xbf⟩)
  else if 0xf0 ≤ b ∧ b ≤ 0xf4 then
    ([], some ⟨3, b - 0xf0, if b = 0xf0 then 0x90 else 0x80, if b = 0xf4 then 0x8f else 0xbf⟩)
  else ([replacement], none)

/-- UTF-8 with replacement of what is malformed. -/
def decodeSymbols : Option Pending → List Symbol → List Char
  | none, [] => []
  | some _, [] => [replacement]
  | none, .char c :: rest => c :: decodeSymbols none rest
  | some _, .char c :: rest => replacement :: c :: decodeSymbols none rest
  | none, .byte b :: rest => (firstByte b).1 ++ decodeSymbols (firstByte b).2 rest
  | some p, .byte b :: rest =>
    if p.lower ≤ b ∧ b ≤ p.upper then
      let code := p.code * 64 + (b - 0x80)
      if p.missing = 1 then Char.ofNat code :: decodeSymbols none rest
      else decodeSymbols (some ⟨p.missing - 1, code, 0x80, 0xbf⟩) rest
    else replacement :: ((firstByte b).1 ++ decodeSymbols (firstByte b).2 rest)

def decode (cs : List Char) : List Char := decodeSymbols none (symbols 0 cs)

def hasEscape : List Char → Bool
  | [] => false
  | c :: rest => (escape? c rest).isSome || hasEscape rest

theorem two_le_of_escape {c : Char} {rest : List Char} {b : ℕ} (h : escape? c rest = some b) :
    2 ≤ rest.length := by
  unfold escape? at h
  split at h
  · simp
  · cases h

theorem length_symbols (skip : ℕ) (cs : List Char) (hskip : skip ≤ cs.length) :
    (symbols skip cs).length + skip ≤ cs.length := by
  induction cs generalizing skip with
  | nil => simpa [symbols] using hskip
  | cons c rest ih =>
    cases skip with
    | succ skip =>
      have hrest := ih skip (Nat.le_of_succ_le_succ hskip)
      rw [symbols, List.length_cons]
      omega
    | zero =>
      unfold symbols
      cases hescape : escape? c rest with
      | some b =>
        have hrest := ih 2 (two_le_of_escape hescape)
        simp only [List.length_cons]
        omega
      | none =>
        have hrest := ih 0 (Nat.zero_le _)
        simp only [List.length_cons]
        omega

theorem length_symbols_of_escape {cs : List Char} (h : hasEscape cs = true) :
    (symbols 0 cs).length < cs.length := by
  induction cs with
  | nil => exact nomatch h
  | cons c rest ih =>
    unfold symbols
    cases hescape : escape? c rest with
    | some b =>
      have hrest := length_symbols 2 rest (two_le_of_escape hescape)
      simp only [List.length_cons]
      omega
    | none =>
      unfold hasEscape at h
      rw [hescape] at h
      have hrest := ih h
      simp only [List.length_cons]
      omega

theorem symbols_of_no_escape {cs : List Char} (h : hasEscape cs = false) :
    symbols 0 cs = cs.map fun c => .char (if c = '+' then ' ' else c) := by
  induction cs with
  | nil => rfl
  | cons c rest ih =>
    obtain ⟨hhead, hrest⟩ := Bool.or_eq_false_iff.mp h
    unfold symbols
    rw [Option.isSome_eq_false_iff.mp hhead |> Option.isNone_iff_eq_none.mp, ih hrest,
      List.map_cons]

theorem length_firstByte (b : ℕ) :
    (firstByte b).1.length + (firstByte b).2.isSome.toNat = 1 := by
  unfold firstByte
  split_ifs <;> rfl

theorem length_decodeSymbols (pending : Option Pending) (ss : List Symbol) :
    (decodeSymbols pending ss).length ≤ ss.length + pending.isSome.toNat := by
  induction ss generalizing pending with
  | nil => cases pending <;> simp [decodeSymbols]
  | cons s rest ih =>
    cases s with
    | char c =>
      have hrest := ih none
      cases pending with
      | none => simpa [decodeSymbols] using hrest
      | some p => simpa [decodeSymbols] using hrest
    | byte b =>
      have hfirst := length_firstByte b
      have hrest := ih (firstByte b).2
      cases pending with
      | none =>
        rw [decodeSymbols, List.length_append, List.length_cons]
        simp only [Option.isSome_none, Bool.toNat_false]
        omega
      | some p =>
        rw [decodeSymbols]
        simp only [Option.isSome_some, Bool.toNat_true, List.length_cons]
        split_ifs
        · have hdone := ih none
          simp only [Option.isSome_none, Bool.toNat_false] at hdone
          rw [List.length_cons]
          omega
        · have hmore := ih (some ⟨p.missing - 1, p.code * 64 + (b - 0x80), 0x80, 0xbf⟩)
          simp only [Option.isSome_some, Bool.toNat_true] at hmore
          omega
        · rw [List.length_cons, List.length_append]
          omega

theorem length_decode_le (cs : List Char) : (decode cs).length ≤ cs.length := by
  have hdecoded := length_decodeSymbols none (symbols 0 cs)
  have hsymbols := length_symbols 0 cs (Nat.zero_le _)
  exact (hdecoded.trans hsymbols)

theorem decodeSymbols_map_char (cs : List Char) (f : Char → Char) :
    decodeSymbols none (cs.map fun c => .char (f c)) = cs.map f := by
  induction cs with
  | nil => rfl
  | cons c rest ih => rw [List.map_cons, decodeSymbols, ih, List.map_cons]

theorem decode_eq_self_iff {cs : List Char} : decode cs = cs ↔ '+' ∉ cs ∧ hasEscape cs = false := by
  cases hescape : hasEscape cs with
  | true =>
    have hsymbols := length_symbols_of_escape hescape
    have hdecoded := length_decodeSymbols none (symbols 0 cs)
    constructor
    · intro h
      rw [show decodeSymbols none (symbols 0 cs) = cs from h] at hdecoded
      exact absurd hdecoded (not_le.mpr hsymbols)
    · exact fun h => nomatch h.2
  | false =>
    have hmap : decode cs = cs.map fun c => if c = '+' then ' ' else c := by
      unfold decode
      rw [symbols_of_no_escape hescape]
      exact decodeSymbols_map_char cs _
    rw [hmap]
    constructor
    · intro h
      refine ⟨fun hplus => ?_, rfl⟩
      have hfix := List.map_eq_map_iff.mp (h.trans (List.map_id cs).symm) '+' hplus
      exact absurd hfix (by decide)
    · rintro ⟨hplus, -⟩
      have hfix : ∀ c ∈ cs, (if c = '+' then ' ' else c) = id c := by
        intro c hc
        have hne : c ≠ '+' := ne_of_mem_of_not_mem hc hplus
        exact if_neg hne
      exact (List.map_congr_left hfix).trans (List.map_id cs)

/-! ### Pairs -/

def path (url : List Char) : List Char := before '#' (before '?' url)

def query (url : List Char) : List Char := before '#' (after '?' url)

def pair (segment : List Char) : List Char × List Char :=
  (before '=' segment, decode (after '=' segment))

def pairs (query : List Char) : List (List Char × List Char) := (query.splitOn '&').map pair

def render : List (List Char × List Char) → List Char
  | [] => []
  | [p] => p.1 ++ '=' :: p.2
  | p :: q :: rest => p.1 ++ '=' :: (p.2 ++ '&' :: render (q :: rest))

/-- A value that reads as itself when it is written into a query unencoded. -/
structure Verbatim (v : List Char) : Prop where
  ampersand : '&' ∉ v
  hash : '#' ∉ v
  plus : '+' ∉ v
  escape : hasEscape v = false

structure PlainKey (k : List Char) : Prop where
  ampersand : '&' ∉ k
  hash : '#' ∉ k
  equals : '=' ∉ k

theorem path_append_iff (p q : List Char) : path (p ++ '?' :: q) = p ↔ '?' ∉ p ∧ '#' ∉ p := by
  constructor
  · intro h
    have hle : (path (p ++ '?' :: q)).length ≤ (before '?' (p ++ '?' :: q)).length :=
      before_isPrefix.length_le
    rw [h] at hle
    have hquestion : '?' ∉ p := by
      intro hmem
      rw [before_append_of_mem hmem] at hle
      exact before_of_length hle hmem
    unfold path at h
    rw [before_append hquestion, before_cons_self, List.append_nil] at h
    exact ⟨hquestion, before_eq_self_iff.mp h⟩
  · rintro ⟨hquestion, hhash⟩
    unfold path
    rw [before_append hquestion, before_cons_self, List.append_nil]
    exact before_eq_self_iff.mpr hhash

theorem query_append {p : List Char} (hquestion : '?' ∉ p) (q : List Char) :
    query (p ++ '?' :: q) = before '#' q := by
  unfold query
  rw [after_append_cons hquestion]

theorem pair_key_value {k : List Char} (hk : '=' ∉ k) (v : List Char) :
    pair (k ++ '=' :: v) = (k, decode v) := by
  unfold pair
  rw [before_append hk, before_cons_self, List.append_nil, after_append_cons hk]

theorem pairs_of_not_mem {cs : List Char} (h : '&' ∉ cs) : pairs cs = [pair cs] := by
  unfold pairs
  rw [List.splitOn_eq_singleton h, List.map_singleton]

theorem pairs_append_cons {cs : List Char} (h : '&' ∉ cs) (rest : List Char) :
    pairs (cs ++ '&' :: rest) = pair cs :: pairs rest := by
  unfold pairs
  rw [List.splitOn_append_cons_self_of_not_mem h, List.map_cons]

theorem head?_pairs (cs : List Char) : (pairs cs).head? = some (pair (before '&' cs)) := by
  by_cases h : '&' ∈ cs
  · obtain ⟨pre, post, rfl, hpre⟩ := List.eq_append_cons_of_mem h
    rw [pairs_append_cons hpre, before_append hpre, before_cons_self, List.append_nil]
    rfl
  · rw [pairs_of_not_mem h, before_eq_self_iff.mpr h]
    rfl

theorem verbatim_of_read {v : List Char} (h : decode (before '&' (before '#' v)) = v) :
    Verbatim v := by
  have hdecoded := length_decode_le (before '&' (before '#' v))
  have hsegment : (before '&' (before '#' v)).length ≤ (before '#' v).length :=
    before_isPrefix.length_le
  rw [h] at hdecoded
  have hhash : '#' ∉ v := before_of_length (hdecoded.trans hsegment)
  rw [before_eq_self_iff.mpr hhash] at h hdecoded
  have hampersand : '&' ∉ v := before_of_length hdecoded
  rw [before_eq_self_iff.mpr hampersand] at h
  obtain ⟨hplus, hescape⟩ := decode_eq_self_iff.mp h
  exact ⟨hampersand, hhash, hplus, hescape⟩

theorem first_segment_append (v rest : List Char) :
    before '&' (before '#' (v ++ '&' :: rest)) = before '&' (before '#' v) := by
  by_cases hhash : '#' ∈ v
  · rw [before_append_of_mem hhash]
  · rw [before_append hhash, before_eq_self_iff.mpr hhash]
    by_cases hampersand : '&' ∈ v
    · exact before_append_of_mem hampersand _
    · have hsep : before '#' ('&' :: rest) = '&' :: before '#' rest := rfl
      rw [hsep, before_append hampersand, before_cons_self, List.append_nil,
        before_eq_self_iff.mpr hampersand]

theorem not_mem_key_value {sep : Char} {k v : List Char} (hk : sep ∉ k) (hsep : sep ≠ '=')
    (hv : sep ∉ v) : sep ∉ k ++ '=' :: v := by
  simp [hk, hsep, hv]

theorem before_key_value {sep : Char} {k : List Char} (hk : sep ∉ k) (hsep : sep ≠ '=')
    (v : List Char) : before sep (k ++ '=' :: v) = k ++ '=' :: before sep v := by
  have hequals : before sep ('=' :: v) = '=' :: before sep v := by
    unfold before
    rw [List.takeWhile_cons_of_pos (by simpa using hsep.symm)]
  rw [before_append hk, hequals]

theorem verbatim_of_head {k v cs : List Char} (hk : PlainKey k)
    (hfirst : before '&' (before '#' cs) = k ++ '=' :: before '&' (before '#' v))
    (hhead : (pairs (before '#' cs)).head? = some (k, v)) : Verbatim v := by
  rw [head?_pairs, hfirst, pair_key_value hk.equals] at hhead
  exact verbatim_of_read (Prod.mk.inj (Option.some.inj hhead)).2

section Segment

variable {k v : List Char}

theorem pairs_cut_key_value (hk : PlainKey k) (hv : Verbatim v) :
    pairs (before '#' (k ++ '=' :: v)) = [(k, v)] := by
  have hdecode := decode_eq_self_iff.mpr ⟨hv.plus, hv.escape⟩
  have hsegment := not_mem_key_value hk.ampersand (by decide) hv.ampersand
  rw [before_key_value hk.hash (by decide), before_eq_self_iff.mpr hv.hash,
    pairs_of_not_mem hsegment, pair_key_value hk.equals, hdecode]

theorem pairs_cut_cons (hk : PlainKey k) (hv : Verbatim v) (rest : List Char) :
    pairs (before '#' (k ++ '=' :: (v ++ '&' :: rest))) = (k, v) :: pairs (before '#' rest) := by
  have hdecode := decode_eq_self_iff.mpr ⟨hv.plus, hv.escape⟩
  have hsegment := not_mem_key_value hk.ampersand (by decide) hv.ampersand
  have hsep : before '#' ('&' :: rest) = '&' :: before '#' rest := rfl
  rw [before_key_value hk.hash (by decide), before_append hv.hash, hsep, ← List.cons_append,
    ← List.append_assoc, pairs_append_cons hsegment, pair_key_value hk.equals, hdecode]

theorem first_segment_key_value (hk : PlainKey k) (rest : List Char) :
    before '&' (before '#' (k ++ '=' :: rest)) = k ++ '=' :: before '&' (before '#' rest) := by
  rw [before_key_value hk.hash (by decide), before_key_value hk.ampersand (by decide)]

end Segment

/-- Pairs written down unencoded are read back exactly if each value is verbatim. -/
theorem pairs_render_iff {ps : List (List Char × List Char)} (hne : ps ≠ [])
    (hkeys : ∀ p ∈ ps, PlainKey p.1) :
    pairs (before '#' (render ps)) = ps ↔ ∀ p ∈ ps, Verbatim p.2 := by
  induction ps with
  | nil => exact absurd rfl hne
  | cons p ps ih =>
    obtain ⟨k, v⟩ := p
    have hk : PlainKey k := hkeys (k, v) List.mem_cons_self
    cases ps with
    | nil =>
      rw [List.forall_mem_singleton]
      constructor
      · intro h
        exact verbatim_of_head hk (first_segment_key_value hk v) (congrArg List.head? h)
      · exact pairs_cut_key_value hk
    | cons q rest =>
      have htail := ih (List.cons_ne_nil q rest) fun p hp => hkeys p (List.mem_cons_of_mem _ hp)
      have hsegment : before '&' (before '#' (render ((k, v) :: q :: rest))) =
          k ++ '=' :: before '&' (before '#' v) := by
        show before '&' (before '#' (k ++ '=' :: (v ++ '&' :: render (q :: rest)))) = _
        rw [first_segment_key_value hk, first_segment_append]
      rw [List.forall_mem_cons]
      constructor
      · intro h
        have hv : Verbatim v := verbatim_of_head hk hsegment (congrArg List.head? h)
        have hread := (pairs_cut_cons hk hv (render (q :: rest))).symm.trans h
        exact ⟨hv, htail.mp (List.cons.inj hread).2⟩
      · rintro ⟨hv, hrest⟩
        have hread := pairs_cut_cons hk hv (render (q :: rest))
        rw [htail.mpr hrest] at hread
        exact hread

/-! ### Paths that are put together from names -/

def Plain (cs : List Char) : Prop := '?' ∉ cs ∧ '#' ∉ cs

instance (cs : List Char) : Decidable (Plain cs) := inferInstanceAs (Decidable (_ ∧ _))

theorem path_append_of_plain {cs : List Char} (h : Plain cs) (rest : List Char) :
    path (cs ++ rest) = cs ++ path rest := by
  unfold path
  rw [before_append h.1, before_append h.2]

theorem path_of_plain {cs : List Char} (h : Plain cs) : path cs = cs := by
  have happend := path_append_of_plain h []
  rwa [List.append_nil, show path [] = [] from rfl, List.append_nil] at happend

theorem path_append_of_not_plain {cs : List Char} (h : ¬ Plain cs) (rest : List Char) :
    path (cs ++ rest) = path cs := by
  unfold path
  by_cases hquestion : '?' ∈ cs
  · rw [before_append_of_mem hquestion]
  · have hhash : '#' ∈ cs := by
      by_contra hno
      exact h ⟨hquestion, hno⟩
    rw [before_append hquestion, before_append_of_mem hhash, before_eq_self_iff.mpr hquestion]

theorem path_cons {c : Char} (h : Plain [c]) (rest : List Char) :
    path (c :: rest) = c :: path rest :=
  path_append_of_plain h rest

section Framed

variable {α : Type*} {sep : α} {word : List α}

theorem append_sep_inj {a b v w : List α} (hv : sep ∉ v) (hw : sep ∉ w)
    (heq : a ++ sep :: v = b ++ sep :: w) : a = b ∧ v = w := by
  have hsuffix : ∀ {u x y : List α}, sep ∉ x → sep :: x = u ++ sep :: y → u = [] ∧ x = y := by
    intro u x y hx h
    cases u with
    | nil => exact ⟨rfl, (List.cons.inj h).2⟩
    | cons c u =>
      refine absurd ?_ hx
      rw [(List.cons.inj h).2]
      exact List.mem_append_right u List.mem_cons_self
  rcases List.append_eq_append_iff.mp heq with ⟨u, rfl, hrest⟩ | ⟨u, rfl, hrest⟩
  · obtain ⟨rfl, hvw⟩ := hsuffix hv hrest
    exact ⟨(List.append_nil a).symm, hvw⟩
  · obtain ⟨rfl, hwv⟩ := hsuffix hw hrest
    exact ⟨List.append_nil b, hwv.symm⟩

/-- Two ways to read `a/word/x` as two names around a framed word: the frame of the second
reading begins at the end of the first frame, or lies further inside `x`. -/
inductive Resplit (sep : α) (word : List α) : List α → List α → List α → List α → Prop where
  | touching (a y : List α) : Resplit sep word a (word ++ sep :: y) (a ++ sep :: word) y
  | inside (a w y : List α) : Resplit sep word a (w ++ sep :: (word ++ sep :: y))
      (a ++ sep :: (word ++ sep :: w)) y

theorem Resplit.eq {a x b y : List α} (h : Resplit sep word a x b y) :
    a ++ sep :: (word ++ sep :: x) = b ++ sep :: (word ++ sep :: y) := by
  cases h <;> simp

theorem Resplit.sep_mem {a x b y : List α} (h : Resplit sep word a x b y) : sep ∈ b := by
  cases h <;> simp

theorem framed_eq_append {a x u y : List α} (h : sep ∉ word)
    (heq : sep :: (word ++ sep :: x) = u ++ sep :: (word ++ sep :: y)) :
    (u = [] ∧ x = y) ∨ Resplit sep word a x (a ++ u) y := by
  cases u with
  | nil =>
    rw [List.nil_append, List.cons.injEq] at heq
    have htail := List.append_cancel_left heq.2
    exact Or.inl ⟨rfl, (List.cons.inj htail).2⟩
  | cons c u =>
    rw [List.cons_append, List.cons.injEq] at heq
    obtain ⟨rfl, heq⟩ := heq
    right
    rcases List.append_eq_append_iff.mp heq with ⟨v, hu, hrest⟩ | ⟨v, hword, hrest⟩
    · -- the second frame begins after the first word
      cases v with
      | nil =>
        obtain rfl : x = word ++ sep :: y := (List.cons.inj hrest).2
        obtain rfl : u = word := by rw [hu, List.append_nil]
        exact .touching a y
      | cons d w =>
        rw [List.cons_append, List.cons.injEq] at hrest
        obtain ⟨rfl, rfl⟩ := hrest
        subst hu
        exact .inside a w y
    · -- it cannot begin inside the first word, which holds no separator
      cases v with
      | nil =>
        obtain rfl : word ++ sep :: y = x := (List.cons.inj hrest).2
        obtain rfl : word = u := by rw [hword, List.append_nil]
        exact .touching a y
      | cons d w =>
        rw [List.cons_append, List.cons.injEq] at hrest
        obtain ⟨rfl, -⟩ := hrest
        refine absurd ?_ h
        rw [hword]
        exact List.mem_append_right u List.mem_cons_self

/-- Names around a framed word are told apart unless one reading resplits the other. -/
theorem framed_eq_iff (h : sep ∉ word) {a x b y : List α} :
    a ++ sep :: (word ++ sep :: x) = b ++ sep :: (word ++ sep :: y) ↔
      (a = b ∧ x = y) ∨ Resplit sep word a x b y ∨ Resplit sep word b y a x := by
  constructor
  · intro heq
    rcases List.append_eq_append_iff.mp heq with ⟨u, rfl, hrest⟩ | ⟨u, rfl, hrest⟩
    · rcases framed_eq_append h hrest with ⟨rfl, hxy⟩ | hsplit
      · exact Or.inl ⟨(List.append_nil a).symm, hxy⟩
      · exact Or.inr (Or.inl hsplit)
    · rcases framed_eq_append h hrest with ⟨rfl, hxy⟩ | hsplit
      · exact Or.inl ⟨List.append_nil b, hxy.symm⟩
      · exact Or.inr (Or.inr hsplit)
  · rintro (⟨rfl, rfl⟩ | hsplit | hsplit)
    · rfl
    · exact hsplit.eq
    · exact hsplit.eq.symm

end Framed

end UrlQuery
