import Workbench.Proofs.Path.Ancestors
import Workbench.Proofs.Text.Words

/-! # The usual spelling of a path

The blanks around a path are dropped first, and then the slashes at its end. What is left does
not begin with a blank, and only the root ends with a slash. But a blank that stood before the
slashes stands at the end now, and it goes when the path is normalized once more. So the usual
spelling is the same the second time exactly if there was no such blank. -/

namespace Workbench

namespace Text

/-- A text is some blanks, a trimmed text, and some blanks. -/
theorem exists_trimmed (cs : List Char) :
    ∃ lead kept trail, cs = lead ++ (kept ++ trail) ∧ Blanks lead ∧ Trimmed kept ∧
      Blanks trail := by
  obtain ⟨trail, hrest, htrail⟩ := dropEndWhile_append isBlank (cs.dropWhile isBlank)
  refine ⟨cs.takeWhile isBlank, dropEndWhile isBlank (cs.dropWhile isBlank), trail, ?_, ?_, ?_,
    htrail⟩
  · rw [← hrest, List.takeWhile_append_dropWhile]
  · exact List.all_eq_true.mp List.all_takeWhile
  · constructor
    · intro c hc
      have hhead : (cs.dropWhile isBlank).head? = some c := by
        rw [hrest, List.head?_append, hc, Option.some_or]
      have hnot := List.head?_dropWhile_not isBlank cs
      rw [hhead] at hnot
      simpa using hnot
    · exact fun c hc => Path.getLast?_dropEndWhile hc

/-- A text that is not blank is some blanks and another character behind them. -/
theorem exists_of_not_blanks {cs : List Char} (h : ¬ Blanks cs) :
    ∃ lead first rest, cs = lead ++ first :: rest ∧ Blanks lead ∧ isBlank first = false := by
  induction cs with
  | nil => exact absurd (List.forall_mem_nil _) h
  | cons c cs ih =>
      by_cases hc : isBlank c = true
      · obtain ⟨lead, first, rest, rfl, hlead, hfirst⟩ :=
          ih fun hblanks => h (List.forall_mem_cons.mpr ⟨hc, hblanks⟩)
        exact ⟨c :: lead, first, rest, rfl, List.forall_mem_cons.mpr ⟨hc, hlead⟩, hfirst⟩
      · exact ⟨[], c, cs, rfl, List.forall_mem_nil _, by simpa using hc⟩

end Text

namespace Path

open Text

variable {path : String} {lead kept slashes trail : List Char}

/-- A spelling without blanks around it, and without a slash at its end unless it is the root. -/
structure Normal (path : String) : Prop where
  trimmed : Trimmed path.toList
  unslashed : path.toList.getLast? = some '/' → path = "/"

/-- Somewhere behind a word, a blank stands right before the slashes that end the path. Further
blanks may follow the slashes. -/
def BlankBeforeSlashes (path : String) : Prop :=
  ∃ before blank slashes trail, path.toList = before ++ blank :: (slashes ++ trail) ∧
    ¬ Blanks before ∧ isBlank blank = true ∧ slashes ≠ [] ∧ (∀ c ∈ slashes, c = '/') ∧
      Blanks trail

/-- A path taken apart: blanks, what is kept of it, the slashes behind that, and blanks. -/
structure Parts (path : String) (lead kept slashes trail : List Char) : Prop where
  spelled : path.toList = lead ++ (kept ++ slashes ++ trail)
  leadBlank : Blanks lead
  unslashed : kept.getLast? ≠ some '/'
  allSlashes : ∀ c ∈ slashes, c = '/'
  trimmed : Trimmed (kept ++ slashes)
  trailBlank : Blanks trail

/-! ## What is kept of a path -/

theorem exists_parts (path : String) :
    ∃ lead kept slashes trail, Parts path lead kept slashes trail := by
  obtain ⟨lead, trimmed, trail, hspell, hlead, htrimmed, htrail⟩ := exists_trimmed path.toList
  obtain ⟨slashes, hslashes, hall⟩ := dropEndWhile_append (· == '/') trimmed
  refine ⟨lead, dropEndWhile (· == '/') trimmed, slashes, trail, ?_, hlead, ?_, ?_, ?_, htrail⟩
  · rw [← hslashes, hspell]
  · intro hlast
    have hnot := getLast?_dropEndWhile hlast
    simp at hnot
  · exact fun c hc => by simpa using hall c hc
  · rwa [← hslashes]

/-- The usual spelling is what is kept, or the root if there were only slashes. -/
theorem Parts.normalize (h : Parts path lead kept slashes trail) :
    normalize path = if kept = [] ∧ slashes ≠ [] then "/" else String.ofList kept := by
  have htrim : trimChars path.toList = kept ++ slashes := by
    rw [h.spelled, trimChars_append h.leadBlank h.trimmed h.trailBlank]
  have hstrip : dropEndWhile (· == '/') (kept ++ slashes) = kept := by
    rw [dropEndWhile_append_of_forall fun c hc => by simpa using h.allSlashes c hc,
      dropEndWhile_of_unslashed h.unslashed]
  simp only [Path.normalize, htrim, hstrip]
  by_cases hnil : kept = [] <;> simp [hnil]

/-- What is kept does not begin with a blank. -/
theorem Parts.begins (h : Parts path lead kept slashes trail) {c : Char}
    (hc : kept.head? = some c) : isBlank c = false := by
  apply h.trimmed.begins c
  rw [List.head?_append, hc, Option.some_or]

theorem normal_root : Normal "/" where
  trimmed := by
    have hslash : ∀ c, some '/' = some c → isBlank c = false := by
      rintro c ⟨⟩
      decide
    exact ⟨hslash, hslash⟩
  unslashed _ := rfl

/-- The usual spelling is the root, or what is kept of the path. -/
theorem Parts.normalize_cases (h : Parts path lead kept slashes trail) :
    Path.normalize path = "/" ∧ kept = [] ∨ Path.normalize path = String.ofList kept := by
  rw [h.normalize]
  split
  next hroot => exact .inl ⟨rfl, hroot.1⟩
  next => exact .inr rfl

/-- Normalizing changes exactly what is not spelled as usual. -/
theorem normalize_eq_self_iff : normalize path = path ↔ Normal path := by
  constructor
  · intro hsame
    obtain ⟨lead, kept, slashes, trail, h⟩ := exists_parts path
    rcases h.normalize_cases with ⟨hroot, -⟩ | hkept
    · rw [← hsame, hroot]
      exact normal_root
    · -- Nothing was dropped, so there was nothing around what is kept.
      have hspell : path.toList = kept := by rw [← hsame, hkept, String.toList_ofList]
      have hlength := congrArg List.length h.spelled
      simp only [hspell, List.length_append] at hlength
      have hnil : slashes = [] := List.eq_nil_of_length_eq_zero (by omega)
      constructor
      · rw [hspell, ← List.append_nil kept, ← hnil]
        exact h.trimmed
      · rw [hspell]
        exact fun hlast => absurd hlast h.unslashed
  · intro hnormal
    by_cases hroot : path = "/"
    · rw [hroot]
      decide
    · have h : Parts path [] path.toList [] [] :=
        { spelled := by simp
          leadBlank := List.forall_mem_nil _
          unslashed := fun hlast => hroot (hnormal.unslashed hlast)
          allSlashes := List.forall_mem_nil _
          trimmed := by
            rw [List.append_nil]
            exact hnormal.trimmed
          trailBlank := List.forall_mem_nil _ }
      rw [h.normalize, if_neg (by simp), String.ofList_toList]

/-! ## What the usual spelling is like -/

/-- The usual spelling does not begin with a blank. -/
theorem begins_normalize (path : String) :
    ∀ c, (normalize path).toList.head? = some c → isBlank c = false := by
  obtain ⟨lead, kept, slashes, trail, h⟩ := exists_parts path
  intro c hc
  rcases h.normalize_cases with ⟨hroot, -⟩ | hkept
  · rw [hroot] at hc
    exact normal_root.trimmed.begins c hc
  · rw [hkept, String.toList_ofList] at hc
    exact h.begins hc

/-- The usual spelling does not end with a slash, unless it is the root. -/
theorem unslashed_normalize (path : String) :
    (normalize path).toList.getLast? = some '/' → normalize path = "/" := by
  intro hlast
  by_contra hroot
  by_cases hempty : normalize path = ""
  · simp [hempty] at hlast
  · exact (spelled_normalize hempty hroot).unslashed hlast

/-- A blank at the end of what is kept stood before slashes. -/
theorem Parts.blankBeforeSlashes (h : Parts path lead kept slashes trail) {c : Char}
    (hlast : kept.getLast? = some c) (hblank : isBlank c = true) : BlankBeforeSlashes path := by
  obtain ⟨init, rfl⟩ := List.getLast?_eq_some_iff.mp hlast
  refine ⟨lead ++ init, c, slashes, trail, ?_, ?_, hblank, ?_, h.allSlashes, h.trailBlank⟩
  · rw [h.spelled]
    simp
  · intro hblanks
    -- What is kept does not begin with a blank, so it has more than its last character.
    cases init with
    | nil => simp [h.begins rfl] at hblank
    | cons first init =>
        have hfirst := hblanks first (by simp)
        simp [h.begins (c := first) rfl] at hfirst
  · rintro rfl
    have hends := h.trimmed.ends c (by simp)
    simp [hends] at hblank

/-- Before the slashes that end a path, a blank behind a word is kept. -/
theorem BlankBeforeSlashes.exists_kept (h : BlankBeforeSlashes path) :
    ∃ init blank, isBlank blank = true ∧ normalize path = String.ofList (init ++ [blank]) := by
  obtain ⟨before, blank, slashes, trail, hspell, hword, hblank, hne, hslashes, htrail⟩ := h
  obtain ⟨lead, first, rest, rfl, hlead, hfirst⟩ := exists_of_not_blanks hword
  have hparts : Parts path lead (first :: rest ++ [blank]) slashes trail :=
    { spelled := by simp [hspell]
      leadBlank := hlead
      unslashed := by
        rw [List.getLast?_concat]
        rintro ⟨⟩
        exact absurd hblank (by decide)
      allSlashes := hslashes
      trimmed := by
        constructor
        · rintro c ⟨⟩
          exact hfirst
        · intro c hc
          rw [List.getLast?_append_of_ne_nil _ hne] at hc
          rw [hslashes c (List.mem_of_getLast? hc)]
          decide
      trailBlank := htrail }
  refine ⟨first :: rest, blank, hblank, ?_⟩
  rw [hparts.normalize, if_neg (by simp)]

/-- A blank is left at the end exactly if one stood before the slashes. -/
theorem ends_normalize_iff :
    (∀ c, (normalize path).toList.getLast? = some c → isBlank c = false) ↔
      ¬ BlankBeforeSlashes path := by
  constructor
  · intro hends hblank
    obtain ⟨init, blank, hblank, hkept⟩ := hblank.exists_kept
    have hnot := hends blank (by rw [hkept, String.toList_ofList, List.getLast?_concat])
    simp [hnot] at hblank
  · intro hnone c hc
    obtain ⟨lead, kept, slashes, trail, h⟩ := exists_parts path
    rcases h.normalize_cases with ⟨hroot, -⟩ | hkept
    · rw [hroot] at hc
      exact normal_root.trimmed.ends c hc
    · rw [hkept, String.toList_ofList] at hc
      rw [Bool.eq_false_iff]
      exact fun hblank => hnone (h.blankBeforeSlashes hc hblank)

/-- The usual spelling is spelled as usual exactly if no blank is left at its end. -/
theorem normal_normalize_iff : Normal (normalize path) ↔ ¬ BlankBeforeSlashes path := by
  rw [← ends_normalize_iff]
  exact ⟨fun h => h.trimmed.ends,
    fun hends => ⟨⟨begins_normalize path, hends⟩, unslashed_normalize path⟩⟩

/-- The usual spelling is the same the second time exactly if no blank stood before the
slashes. -/
theorem normalize_normalize_iff :
    normalize (normalize path) = normalize path ↔ ¬ BlankBeforeSlashes path :=
  normalize_eq_self_iff.trans normal_normalize_iff

instance (path : String) : Decidable (Normal path) := decidable_of_iff _ normalize_eq_self_iff

instance (path : String) : Decidable (BlankBeforeSlashes path) :=
  decidable_of_iff (¬ normalize (normalize path) = normalize path)
    (by rw [normalize_normalize_iff, not_not])

example : ¬ BlankBeforeSlashes "/a /b/ " ∧ BlankBeforeSlashes "/a /" := by decide +kernel

end Path

end Workbench
