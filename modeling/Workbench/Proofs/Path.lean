import Mathlib.Data.List.Basic
import Workbench.Path

/-! # Paths below a folder

A path below a folder is the folder's spelling without its last slashes,
followed by a rest that begins with a slash. Moving a folder therefore keeps
different paths different, unless the new spelling ends with a slash itself. -/

namespace Workbench.Path

open Text

theorem below?_eq_some {path folder : String} {rest : List Char}
    (h : below? path folder = some rest) :
    path.toList = dropEndWhile (· == '/') folder.toList ++ rest ∧ rest.head? = some '/' := by
  unfold below? at h
  split at h
  next rest' hrest =>
    split at h
    next hslash =>
      obtain rfl := Option.some.inj h
      exact ⟨(List.append_eq_of_isPrefixOf?_eq_some hrest).symm, hslash⟩
    next => simp at h
  next => simp at h

theorem dropEndWhile_of_getLast? {p : Char → Bool} {cs : List Char}
    (h : ∀ c, cs.getLast? = some c → p c = false) : dropEndWhile p cs = cs := by
  rcases List.eq_nil_or_concat' cs with rfl | ⟨init, c, rfl⟩
  · exact dropEndWhile_nil p
  · rw [dropEndWhile_concat, h c List.getLast?_concat, if_neg Bool.false_ne_true]

theorem getLast?_dropEndWhile {p : Char → Bool} {cs : List Char} {c : Char}
    (h : (dropEndWhile p cs).getLast? = some c) : p c = false := by
  rw [dropEndWhile, List.getLast?_reverse] at h
  have hkept := List.head?_dropWhile_not p cs.reverse
  rw [h] at hkept
  simpa using hkept

theorem dropEndWhile_of_unslashed {cs : List Char} (h : cs.getLast? ≠ some '/') :
    dropEndWhile (· == '/') cs = cs := by
  apply dropEndWhile_of_getLast?
  intro c hc
  have hne : c ≠ '/' := fun heq => h (heq ▸ hc)
  simpa using hne

/-- The place of a path in a moved folder, when the new spelling does not end
with a slash: the new spelling followed by what was left of the path. -/
theorem rebase?_eq_some {path oldFolder newFolder target : String}
    (hslash : newFolder.toList.getLast? ≠ some '/')
    (h : rebase? path oldFolder newFolder = some target) :
    (path = oldFolder ∧ target = newFolder) ∨
      ∃ rest, path.toList = dropEndWhile (· == '/') oldFolder.toList ++ rest ∧
        target.toList = newFolder.toList ++ rest ∧ rest.head? = some '/' := by
  unfold rebase? at h
  split at h
  next heq => exact .inl ⟨heq, (Option.some.inj h).symm⟩
  next =>
    obtain ⟨rest, hbelow, rfl⟩ := Option.map_eq_some_iff.mp h
    obtain ⟨hpath, hhead⟩ := below?_eq_some hbelow
    exact .inr ⟨rest, hpath, by rw [dropEndWhile_of_unslashed hslash, String.toList_ofList], hhead⟩

/-- Moving a folder keeps different paths different. -/
theorem rebase?_injective {path other oldFolder newFolder target : String}
    (hslash : newFolder.toList.getLast? ≠ some '/')
    (hpath : rebase? path oldFolder newFolder = some target)
    (hother : rebase? other oldFolder newFolder = some target) : path = other := by
  rcases rebase?_eq_some hslash hpath with ⟨rfl, htarget⟩ | ⟨rest, hspell, htarget, hhead⟩
  · rcases rebase?_eq_some hslash hother with ⟨rfl, _⟩ | ⟨rest', _, htarget', hhead'⟩
    · rfl
    · have hnil : rest' = [] := by simpa [htarget] using htarget'
      simp [hnil] at hhead'
  · rcases rebase?_eq_some hslash hother with ⟨rfl, htarget'⟩ | ⟨rest', hspell', htarget', _⟩
    · have hnil : rest = [] := by simpa [htarget'] using htarget
      simp [hnil] at hhead
    · have hrest : rest = rest' := List.append_cancel_left (htarget.symm.trans htarget')
      apply String.toList_injective
      rw [hspell, hspell', hrest]

end Workbench.Path
