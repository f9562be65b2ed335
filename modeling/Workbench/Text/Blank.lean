/-! # Blank characters and words

Typed lines and paths are cut at blanks. A blank is a character with the
Unicode property White_Space; a word is a longest run of other characters.
All cuts are made on lists of characters and then read as strings. -/

namespace Workbench.Text

/-- The Unicode property White_Space. -/
def isBlank (c : Char) : Bool :=
  let n := c.toNat
  (0x09 ≤ n && n ≤ 0x0d) || n == 0x20 || n == 0x85 || n == 0xa0 || n == 0x1680 ||
    (0x2000 ≤ n && n ≤ 0x200a) || n == 0x2028 || n == 0x2029 || n == 0x202f ||
    n == 0x205f || n == 0x3000

/-- Drops the longest end of a list whose members all satisfy the test. -/
def dropEndWhile (p : Char → Bool) (cs : List Char) : List Char :=
  (cs.reverse.dropWhile p).reverse

/-- Drops the blanks at both ends. -/
def trimChars (cs : List Char) : List Char :=
  dropEndWhile isBlank (cs.dropWhile isBlank)

def trim (s : String) : String :=
  String.ofList (trimChars s.toList)

/-- A text without the given character at its end. -/
def dropEnd (c : Char) (s : String) : String :=
  String.ofList (dropEndWhile (· == c) s.toList)

/-- Cuts a list at its first blank; the blank itself is dropped. -/
def cutAtBlank : List Char → Option (List Char × List Char)
  | [] => none
  | c :: rest =>
      if isBlank c then some ([], rest)
      else (cutAtBlank rest).map fun (before, after) => (c :: before, after)

/-- Cuts a list at the last occurrence of a character; that occurrence is
dropped. -/
def cutAtLast (sep : Char) : List Char → Option (List Char × List Char)
  | [] => none
  | c :: rest =>
      match cutAtLast sep rest with
      | some (before, after) => some (c :: before, after)
      | none => if c = sep then some ([], rest) else none

/-- Puts one more character before the words of the remaining text. A blank
closes the word begun on its right. -/
def addToWords (c : Char) (words : List (List Char) × List Char) :
    List (List Char) × List Char :=
  if isBlank c then
    (if words.2.isEmpty then words.1 else words.2 :: words.1, [])
  else (words.1, c :: words.2)

def wordsOf (cs : List Char) : List (List Char) :=
  let found := cs.foldr addToWords ([], [])
  if found.2.isEmpty then found.1 else found.2 :: found.1

/-- The words of a text, in order. -/
def words (s : String) : List String :=
  (wordsOf s.toList).map String.ofList

/-- All occurrences of a two-character mark, found from left to right,
replaced by one character. -/
def replacePair (first second replacement : Char) : List Char → List Char
  | [] => []
  | [c] => [c]
  | c :: d :: rest =>
      if c = first ∧ d = second then replacement :: replacePair first second replacement rest
      else c :: replacePair first second replacement (d :: rest)

theorem dropEndWhile_nil (p : Char → Bool) : dropEndWhile p [] = [] := rfl

theorem dropEndWhile_concat (p : Char → Bool) (cs : List Char) (c : Char) :
    dropEndWhile p (cs ++ [c]) = if p c then dropEndWhile p cs else cs ++ [c] := by
  by_cases h : p c <;> simp [dropEndWhile, h]

/-- What is left after dropping an end is a beginning of the list, and the
dropped end satisfies the test throughout. -/
theorem dropEndWhile_append (p : Char → Bool) (cs : List Char) :
    ∃ tail, cs = dropEndWhile p cs ++ tail ∧ ∀ c ∈ tail, p c := by
  refine ⟨(cs.reverse.takeWhile p).reverse, ?_, ?_⟩
  · rw [dropEndWhile, ← List.reverse_append, List.takeWhile_append_dropWhile,
      List.reverse_reverse]
  · intro c hc
    have hc' : c ∈ cs.reverse.takeWhile p := List.mem_reverse.mp hc
    have hall := List.all_takeWhile (p := p) (l := cs.reverse)
    exact List.all_eq_true.mp hall c hc'

theorem append_of_cutAtLast {sep : Char} {cs before after : List Char}
    (h : cutAtLast sep cs = some (before, after)) :
    cs = before ++ sep :: after ∧ sep ∉ after := by
  have none_of : ∀ {l : List Char}, cutAtLast sep l = none → sep ∉ l := by
    intro l
    induction l with
    | nil => simp
    | cons c rest ih =>
        intro hnone
        rw [cutAtLast] at hnone
        split at hnone
        next => simp at hnone
        next hrest =>
          split at hnone
          next => simp at hnone
          next hne =>
            simp only [List.mem_cons, not_or]
            exact ⟨fun heq => hne heq.symm, ih hrest⟩
  induction cs generalizing before with
  | nil => simp [cutAtLast] at h
  | cons c rest ih =>
      rw [cutAtLast] at h
      split at h
      next first last hcut =>
        simp only [Option.some.injEq, Prod.mk.injEq] at h
        obtain ⟨rfl, rfl⟩ := h
        obtain ⟨rfl, hlast⟩ := ih hcut
        exact ⟨rfl, hlast⟩
      next hcut =>
        split at h
        next heq =>
          simp only [Option.some.injEq, Prod.mk.injEq] at h
          obtain ⟨rfl, rfl⟩ := h
          exact ⟨by rw [heq]; rfl, none_of hcut⟩
        next => simp at h

end Workbench.Text
