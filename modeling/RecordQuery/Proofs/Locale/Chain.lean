import Mathlib.Data.String.Basic
import RecordQuery.Locale.Translations

/-!
# Candidates of a locale

A text that is wanted for a locale is looked for under its candidates: the locale itself, and every
beginning of it that ends just before one of its separators. This is so for every text, whatever it
begins with or ends in, and however many separators stand side by side.

* `Locale.mem_chain`: the chain of a locale holds its candidates and nothing else.
* `Locale.pairwise_chain`: the candidates get shorter and shorter, so that there is one for each
  separator besides the locale itself (`Locale.length_chain`).
* `Locale.chain_of_isSplit`: behind a locale its chain goes on as that of what stands before its last
  separator. A locale without separators has no other candidate (`Locale.chain_of_isWhole`). So the
  chain is finite for every text (`Locale.isChain_chain`).
* **Main statement** (`Locale.search_chain`): what is tried, and the text that is found, said by the
  lengths of candidates.
-/

namespace RecordQuery.Locale

/-! ## Stems -/

/-- A text is split at one of its separators into what stands before it and what stands behind it. -/
def IsSplit (locale stem rest : List Char) : Prop :=
  ∃ sep, isSeparator sep = true ∧ locale = stem ++ sep :: rest

/-- A text without separators. -/
def IsWhole (locale : List Char) : Prop :=
  ∀ c ∈ locale, isSeparator c = false

/-- What stands before the last separator stays so when a character is put in front. -/
theorem IsSplit.cons {locale stem rest : List Char} (h : IsSplit locale stem rest) (c : Char) :
    IsSplit (c :: locale) (c :: stem) rest := by
  obtain ⟨sep, hsep, rfl⟩ := h
  exact ⟨sep, hsep, rfl⟩

/-- What stands before the last separator is shorter than the whole. -/
theorem IsSplit.length_lt {locale stem rest : List Char} (h : IsSplit locale stem rest) :
    stem.length < locale.length := by
  obtain ⟨sep, -, rfl⟩ := h
  rw [List.length_append, List.length_cons]
  omega

/-- The stems of a text are the beginnings that it can be split after. -/
theorem mem_stems {stem locale : List Char} :
    stem ∈ stems locale ↔ ∃ rest, IsSplit locale stem rest := by
  induction locale generalizing stem with
  | nil =>
      refine iff_of_false List.not_mem_nil ?_
      rintro ⟨rest, sep, -, h⟩
      cases stem <;> cases h
  | cons c locale ih =>
      rw [stems, List.mem_append, List.mem_map]
      constructor
      · rintro (⟨inner, hinner, rfl⟩ | hend)
        · obtain ⟨rest, hcut⟩ := ih.mp hinner
          exact ⟨rest, hcut.cons c⟩
        · split at hend
          · rename_i hsep
            rw [List.mem_singleton.mp hend]
            exact ⟨locale, c, hsep, rfl⟩
          · cases hend
      · rintro ⟨rest, sep, hsep, h⟩
        rcases stem with _ | ⟨first, inner⟩
        · obtain ⟨rfl, -⟩ := List.cons.inj h
          rw [if_pos hsep]
          exact .inr (List.mem_singleton_self _)
        · obtain ⟨rfl, hlocale⟩ := List.cons.inj h
          exact .inl ⟨inner, ih.mpr ⟨rest, sep, hsep, hlocale⟩, rfl⟩

/-- The stems get shorter and shorter. -/
theorem pairwise_stems (locale : List Char) :
    (stems locale).Pairwise fun stem next => next.length < stem.length := by
  induction locale with
  | nil => exact .nil
  | cons c locale ih =>
      rw [stems, List.pairwise_append, List.pairwise_map]
      refine ⟨ih.imp Nat.succ_lt_succ, ?_, fun stem hstem last hlast => ?_⟩
      · split
        · exact List.pairwise_singleton _ _
        · exact .nil
      · obtain ⟨inner, -, rfl⟩ := List.mem_map.mp hstem
        split at hlast
        · rw [List.mem_singleton.mp hlast]
          exact Nat.succ_pos _
        · cases hlast

/-- There is a stem for each separator. -/
theorem length_stems (locale : List Char) :
    (stems locale).length = locale.countP isSeparator := by
  induction locale with
  | nil => rfl
  | cons c locale ih =>
      rw [stems, List.length_append, List.length_map, ih, List.countP_cons]
      split <;> rfl

/-- A locale without separators has nothing before its last one. -/
theorem stems_of_isWhole {locale : List Char} (h : IsWhole locale) : stems locale = [] := by
  rw [← List.length_eq_zero_iff, length_stems, List.countP_eq_zero]
  intro c hc
  rw [h c hc]
  exact Bool.false_ne_true

/-- The longest stem ends before the last separator, and the others are its own. By induction on
what stands before that separator. -/
theorem stems_of_isSplit {locale stem rest : List Char} (h : IsSplit locale stem rest)
    (hrest : IsWhole rest) : stems locale = stem :: stems stem := by
  obtain ⟨sep, hsep, rfl⟩ := h
  induction stem with
  | nil =>
      show (stems rest).map (sep :: ·) ++ (if isSeparator sep then [[]] else []) = [[]]
      rw [stems_of_isWhole hrest, if_pos hsep]
      rfl
  | cons c stem ih =>
      rw [List.cons_append, stems, ih, List.map_cons, List.cons_append]
      rfl

/-! ## Candidates -/

/-- A candidate of a locale is the locale itself, or a beginning of it that ends just before one of
its separators. -/
def IsCandidate (locale candidate : String) : Prop :=
  candidate = locale ∨ ∃ rest, IsSplit locale.toList candidate.toList rest

/-- The chain of a locale holds its candidates and nothing else. -/
theorem mem_chain {locale candidate : String} :
    candidate ∈ chain locale ↔ IsCandidate locale candidate := by
  rw [chain, List.mem_cons, List.mem_map]
  refine or_congr_right ⟨?_, fun hcut => ?_⟩
  · rintro ⟨stem, hstem, rfl⟩
    rw [String.toList_ofList]
    exact mem_stems.mp hstem
  · exact ⟨candidate.toList, mem_stems.mpr hcut, String.ofList_toList⟩

/-- The candidates get shorter and shorter. -/
theorem pairwise_chain (locale : String) :
    (chain locale).Pairwise fun candidate next => next.length < candidate.length := by
  rw [chain, List.pairwise_cons, List.pairwise_map]
  constructor
  · intro candidate hcandidate
    obtain ⟨stem, hstem, rfl⟩ := List.mem_map.mp hcandidate
    obtain ⟨rest, hcut⟩ := mem_stems.mp hstem
    rw [String.length_ofList, ← String.length_toList]
    exact hcut.length_lt
  · refine (pairwise_stems locale.toList).imp fun hlt => ?_
    rwa [String.length_ofList, String.length_ofList]

/-- There is a candidate for each separator, besides the locale itself. -/
theorem length_chain (locale : String) :
    (chain locale).length = locale.toList.countP isSeparator + 1 := by
  rw [chain, List.length_cons, List.length_map, length_stems]

/-- A locale without separators is its only candidate. -/
theorem chain_of_isWhole {locale : String} (h : IsWhole locale.toList) :
    chain locale = [locale] := by
  rw [chain, stems_of_isWhole h]
  rfl

/-- Behind a locale its chain goes on with what stands before its last separator. -/
theorem chain_of_isSplit {locale stem : String} {rest : List Char}
    (h : IsSplit locale.toList stem.toList rest) (hrest : IsWhole rest) :
    chain locale = locale :: chain stem := by
  rw [chain, stems_of_isSplit h hrest, List.map_cons, String.ofList_toList]
  rfl

/-- How the candidates of a locale are made: each is what stands before the last separator of the one
before it, until none is left. -/
structure IsChain (locale : String) (candidates : List String) : Prop where
  /-- There is one for each separator, besides the locale itself. -/
  length : candidates.length = locale.toList.countP isSeparator + 1
  /-- A locale without separators is its only candidate. -/
  whole : IsWhole locale.toList → candidates = [locale]
  /-- What stands before the last separator is shorter, and the other candidates are its own. -/
  split : ∀ (stem : String) (rest : List Char), IsSplit locale.toList stem.toList rest →
    IsWhole rest → stem.length < locale.length ∧ candidates = locale :: chain stem

/-- **The candidates come to an end**, whatever the locale is. -/
theorem isChain_chain (locale : String) : IsChain locale (chain locale) where
  length := length_chain locale
  whole := chain_of_isWhole
  split stem rest hsplit hrest := by
    have hlt : stem.length < locale.length := by
      rw [← String.length_toList, ← String.length_toList]
      exact hsplit.length_lt
    exact ⟨hlt, chain_of_isSplit hsplit hrest⟩

/-! ## Searching -/

/-- A search for a text under the candidates of a locale, where some are held: the candidates that
are tried, in order, and the text that is found. -/
structure Search (held : String → Option String) (locale : String) (tried : List String)
    (text : Option String) : Prop where
  /-- Longer candidates are tried first. -/
  pairwise : tried.Pairwise fun candidate next => next.length < candidate.length
  /-- A candidate is tried unless there is a text under a longer one. -/
  mem_tried : ∀ candidate, candidate ∈ tried ↔ IsCandidate locale candidate ∧
    ∀ longer, IsCandidate locale longer → candidate.length < longer.length → held longer = none
  /-- A text is found under the longest candidate that has one. -/
  eq_some : ∀ found, text = some found ↔ ∃ candidate, IsCandidate locale candidate ∧
    held candidate = some found ∧
    ∀ longer, IsCandidate locale longer → candidate.length < longer.length → held longer = none
  /-- None is found if no candidate has one. -/
  eq_none : text = none ↔ ∀ candidate, IsCandidate locale candidate → held candidate = none

section tried

variable {held : String → Option String} {candidates : List String}

/-- What is tried are the first of the candidates. -/
theorem isPrefix_triedUntil (held : String → Option String) (candidates : List String) :
    triedUntil held candidates <+: candidates := by
  induction candidates with
  | nil => exact List.prefix_refl _
  | cons candidate rest ih =>
      rw [triedUntil]
      split
      · exact ⟨rest, rfl⟩
      · exact List.cons_prefix_cons.mpr ⟨rfl, ih⟩

/-- What is found is what is held under a candidate that is tried. -/
theorem findSome?_eq_some_iff {found : String} :
    candidates.findSome? held = some found ↔
      ∃ candidate ∈ triedUntil held candidates, held candidate = some found := by
  induction candidates with
  | nil => simp [triedUntil]
  | cons candidate rest ih =>
      rcases hheld : held candidate with _ | text
      · rw [List.findSome?_cons_of_isNone (by rw [hheld]; rfl), ih, triedUntil, hheld]
        simp [hheld]
      · rw [List.findSome?_cons_of_isSome (by rw [hheld]; rfl), triedUntil, hheld]
        simp [hheld]

/-- Of candidates that get shorter and shorter, those are tried that are no shorter than the first
with a text. -/
theorem mem_triedUntil
    (h : candidates.Pairwise fun candidate next => next.length < candidate.length)
    {candidate : String} :
    candidate ∈ triedUntil held candidates ↔ candidate ∈ candidates ∧
      ∀ longer ∈ candidates, candidate.length < longer.length → held longer = none := by
  induction candidates with
  | nil => simp [triedUntil]
  | cons first rest ih =>
      obtain ⟨hfirst, hrest⟩ := List.pairwise_cons.mp h
      -- nothing is longer than the first candidate
      have hlongest : ∀ longer ∈ first :: rest, first.length < longer.length →
          held longer = none := by
        intro longer hlonger hlt
        rcases List.mem_cons.mp hlonger with rfl | hmem
        · exact absurd hlt (lt_irrefl _)
        · exact absurd (hfirst longer hmem) (lt_asymm hlt)
      rw [triedUntil]
      rcases hheld : held first with _ | text
      · rw [if_neg (by simp), List.mem_cons, List.mem_cons, ih hrest, List.forall_mem_cons]
        constructor
        · rintro (rfl | ⟨hmem, hnone⟩)
          · exact ⟨.inl rfl, List.forall_mem_cons.mp hlongest⟩
          · exact ⟨.inr hmem, fun _ => hheld, hnone⟩
        · rintro ⟨rfl | hmem, -, hnone⟩
          · exact .inl rfl
          · exact .inr ⟨hmem, hnone⟩
      · rw [if_pos (by simp), List.mem_singleton]
        constructor
        · rintro rfl
          exact ⟨List.mem_cons_self, hlongest⟩
        · rintro ⟨hmem, hnone⟩
          rcases List.mem_cons.mp hmem with rfl | hmem
          · rfl
          · have hlater := hnone first List.mem_cons_self (hfirst candidate hmem)
            rw [hheld] at hlater
            cases hlater

end tried

/-- **The most specific text is found**, after the longer candidates have been tried in vain. -/
theorem search_chain (held : String → Option String) (locale : String) :
    Search held locale (triedUntil held (chain locale)) ((chain locale).findSome? held) where
  pairwise := (pairwise_chain locale).sublist (isPrefix_triedUntil held _).sublist
  mem_tried candidate := by
    simp only [mem_triedUntil (pairwise_chain locale), mem_chain]
  eq_some found := by
    simp only [findSome?_eq_some_iff, mem_triedUntil (pairwise_chain locale), mem_chain]
    refine exists_congr fun candidate => ?_
    rw [and_assoc, and_comm (a := ∀ longer, _)]
  eq_none := by
    simp only [List.findSome?_eq_none_iff, mem_chain]

/-- A locale may begin with a separator and have two side by side. -/
example : chain "_de__CH" = ["_de__CH", "_de_", "_de", ""] := by decide +kernel

end RecordQuery.Locale
