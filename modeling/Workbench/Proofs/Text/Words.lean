import Mathlib.Data.List.TakeWhile
import Workbench.Proofs.Path
import Workbench.Text.Blank

/-! # Words between blanks

A text is put together from words and runs of blanks between them. Trimming takes away the
runs at its ends, a cut is made at the first blank, and the words are found again, however
long the runs are. -/

namespace Workbench.Text

variable {cs lead trail gap word before rest : List Char} {words : List (List Char)}

/-- Nothing but blanks. -/
def Blanks (cs : List Char) : Prop := ∀ c ∈ cs, isBlank c = true

instance (cs : List Char) : Decidable (Blanks cs) :=
  decidable_of_iff (cs.all isBlank = true) List.all_eq_true

/-- At least one character, and none of them a blank. -/
structure IsWord (word : List Char) : Prop where
  ne_nil : word ≠ []
  noBlank : ∀ c ∈ word, isBlank c = false

/-- Neither begins nor ends with a blank. -/
structure Trimmed (cs : List Char) : Prop where
  begins : ∀ c, cs.head? = some c → isBlank c = false
  ends : ∀ c, cs.getLast? = some c → isBlank c = false

theorem isWord_iff : IsWord word ↔ word.isEmpty = false ∧ word.any isBlank = false := by
  rw [List.isEmpty_eq_false_iff, List.any_eq_false]
  constructor
  · exact fun h => ⟨h.ne_nil, fun c hc => by simp [h.noBlank c hc]⟩
  · exact fun h => ⟨h.1, fun c hc => by simpa using h.2 c hc⟩

instance (word : List Char) : Decidable (IsWord word) := decidable_of_iff' _ isWord_iff

/-- The text of some words, each behind a run of blanks. -/
inductive Spaced : List (List Char) → List Char → Prop
  | nil : Spaced [] []
  | cons {gap word cs : List Char} {words : List (List Char)} (hne : gap ≠ []) (hgap : Blanks gap)
      (hword : IsWord word) (h : Spaced words cs) : Spaced (word :: words) (gap ++ (word ++ cs))

/-! ## Trimming -/

theorem IsWord.trimmed (h : IsWord word) : Trimmed word where
  begins c hc := h.noBlank c (List.mem_of_head? hc)
  ends c hc := h.noBlank c (List.mem_of_getLast? hc)

/-- A text that begins with a word and does not end with a blank is trimmed. -/
theorem IsWord.trimmed_append (h : IsWord word)
    (hends : ∀ c, cs.getLast? = some c → isBlank c = false) : Trimmed (word ++ cs) := by
  constructor
  · intro c hc
    rw [List.head?_append_of_ne_nil _ h.ne_nil] at hc
    exact h.trimmed.begins c hc
  · intro c hc
    cases hlast : cs.getLast? with
    | none =>
        rw [List.getLast?_eq_none_iff.mp hlast, List.append_nil] at hc
        exact h.trimmed.ends c hc
    | some last =>
        rw [List.getLast?_append, hlast, Option.some_or] at hc
        exact hends c (hlast.trans hc)

theorem dropEndWhile_append_of_forall {p : Char → Bool} (htrail : ∀ c ∈ trail, p c = true) :
    dropEndWhile p (cs ++ trail) = dropEndWhile p cs := by
  rw [dropEndWhile, List.reverse_append, List.dropWhile_append_of_pos (by simpa using htrail)]
  rfl

/-- Trimming takes away the blanks around a trimmed text and nothing else. -/
theorem trimChars_append (hlead : Blanks lead) (h : Trimmed cs) (htrail : Blanks trail) :
    trimChars (lead ++ (cs ++ trail)) = cs := by
  have hkept : dropEndWhile isBlank cs = cs := Path.dropEndWhile_of_getLast? h.ends
  rw [trimChars, List.dropWhile_append_of_pos hlead]
  cases cs with
  | nil =>
      rw [List.nil_append, List.dropWhile_eq_nil_iff.mpr htrail]
      rfl
  | cons c rest =>
      rw [List.cons_append, List.dropWhile_cons_of_neg (by simp [h.begins c rfl]),
        ← List.cons_append, dropEndWhile_append_of_forall htrail, hkept]

theorem trimChars_blanks_append (hgap : Blanks gap) (h : Trimmed cs) :
    trimChars (gap ++ cs) = cs := by
  have htrim := trimChars_append hgap h (List.forall_mem_nil _)
  rwa [List.append_nil] at htrim

/-! ## Cutting -/

/-- The first blank comes right after the first word. -/
theorem cutAtBlank_append {blank : Char} (hword : ∀ c ∈ before, isBlank c = false)
    (hblank : isBlank blank = true) :
    cutAtBlank (before ++ blank :: rest) = some (before, rest) := by
  induction before with
  | nil => simp [cutAtBlank, hblank]
  | cons c before ih =>
      obtain ⟨hc, hbefore⟩ := List.forall_mem_cons.mp hword
      rw [List.cons_append, cutAtBlank, ih hbefore]
      simp [hc]

theorem cutAtBlank_eq_none (hword : ∀ c ∈ before, isBlank c = false) :
    cutAtBlank before = none := by
  induction before with
  | nil => rfl
  | cons c before ih =>
      obtain ⟨hc, hbefore⟩ := List.forall_mem_cons.mp hword
      rw [cutAtBlank, ih hbefore]
      simp [hc]

/-! ## Finding words -/

/-- Characters that are no blanks go before the word that has been begun. -/
theorem foldr_addToWords_word (hword : ∀ c ∈ word, isBlank c = false)
    (found : List (List Char)) (begun : List Char) :
    word.foldr addToWords (found, begun) = (found, word ++ begun) := by
  induction word with
  | nil => rfl
  | cons c word ih =>
      obtain ⟨hc, hword⟩ := List.forall_mem_cons.mp hword
      rw [List.foldr_cons, ih hword]
      simp [addToWords, hc]

/-- Further blanks change nothing once no word is begun. -/
theorem foldr_addToWords_blanks (hgap : Blanks gap) (found : List (List Char)) :
    gap.foldr addToWords (found, []) = (found, []) := by
  induction gap with
  | nil => rfl
  | cons c gap ih =>
      obtain ⟨hc, hgap⟩ := List.forall_mem_cons.mp hgap
      rw [List.foldr_cons, ih hgap]
      simp [addToWords, hc]

/-- A run of blanks ends the word that has been begun. -/
theorem foldr_addToWords_gap (hne : gap ≠ []) (hgap : Blanks gap) (hword : word ≠ [])
    (found : List (List Char)) :
    gap.foldr addToWords (found, word) = (word :: found, []) := by
  obtain ⟨init, last, rfl⟩ := List.eq_nil_or_concat gap |>.resolve_left hne
  rw [List.concat_eq_append] at hgap ⊢
  obtain ⟨hinit, hlast⟩ := List.forall_mem_append.mp hgap
  have hfirst : addToWords last (found, word) = (word :: found, []) := by
    simp [addToWords, hlast last (by simp), hword]
  rw [List.foldr_append, List.foldr_cons, List.foldr_nil, hfirst,
    foldr_addToWords_blanks hinit]

theorem Spaced.foldr_addToWords (h : Spaced words cs) :
    cs.foldr addToWords ([], []) = (words, []) := by
  induction h with
  | nil => rfl
  | cons hne hgap hword _ ih =>
      rw [List.foldr_append, List.foldr_append, ih, foldr_addToWords_word hword.noBlank,
        List.append_nil, foldr_addToWords_gap hne hgap hword.ne_nil]

/-- The words of a text are those it was put together from. -/
theorem Spaced.wordsOf (h : Spaced words cs) (hword : IsWord word) :
    wordsOf (word ++ cs) = word :: words := by
  have hfound : (word ++ cs).foldr addToWords ([], []) = (words, word) := by
    rw [List.foldr_append, h.foldr_addToWords, foldr_addToWords_word hword.noBlank, List.append_nil]
  simp [Text.wordsOf, hfound, hword.ne_nil]

/-- All that is found are words. -/
theorem isWord_of_mem_wordsOf {cs word : List Char} (h : word ∈ wordsOf cs) : IsWord word := by
  -- The words that are found, and the one that is begun.
  have hfound : (∀ w ∈ (cs.foldr addToWords ([], [])).1, IsWord w) ∧
      ∀ c ∈ (cs.foldr addToWords ([], [])).2, isBlank c = false := by
    clear h
    induction cs with
    | nil => exact ⟨List.forall_mem_nil _, List.forall_mem_nil _⟩
    | cons c cs ih =>
        obtain ⟨hwords, hbegun⟩ := ih
        rw [List.foldr_cons, addToWords]
        split
        next =>
          refine ⟨?_, List.forall_mem_nil _⟩
          dsimp only
          split
          next => exact hwords
          next hne => exact List.forall_mem_cons.mpr ⟨⟨by simpa using hne, hbegun⟩, hwords⟩
        next hc => exact ⟨hwords, List.forall_mem_cons.mpr ⟨by simpa using hc, hbegun⟩⟩
  rw [wordsOf] at h
  split at h
  next => exact hfound.1 word h
  next hne =>
    rcases List.mem_cons.mp h with rfl | hmem
    · exact ⟨by simpa using hne, hfound.2⟩
    · exact hfound.1 word hmem

theorem Spaced.ends (h : Spaced words cs) :
    ∀ c, cs.getLast? = some c → isBlank c = false := by
  induction h with
  | nil => nofun
  | cons _ _ hword _ ih =>
      intro c hc
      rw [List.getLast?_append_of_ne_nil _ (List.append_ne_nil_of_left_ne_nil hword.ne_nil _)] at hc
      exact (hword.trimmed_append ih).ends c hc

end Workbench.Text
