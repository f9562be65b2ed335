import Mathlib.Data.List.TakeWhile
import Workbench.Json.Printer
import Workbench.Json.Reader

/-! # Literals of JSON

Strings and integers are read back as they were written, whatever follows them. An
integer must not be followed by what would continue it. -/

namespace Workbench.Json

open Text

/-! ## Strings -/

/-- The characters are read as one piece of a string literal, which names the character. -/
def NamesChar (cs : List Char) (c : Char) : Prop :=
  ∃ piece : Piece,
    (∀ tail, pieces (cs ++ tail) = (pieces tail).map fun (found, rest) => (piece :: found, rest)) ∧
      ∀ found, joinPieces (piece :: found) = (joinPieces found).map (c :: ·)

theorem namesChar_letter {letter c : Char} (hu : letter ≠ 'u')
    (hletter : escapeLetter? letter = some c) : NamesChar ['\\', letter] c := by
  refine ⟨.char c, fun tail => ?_, fun _ => rfl⟩
  rw [List.cons_append, List.cons_append, List.nil_append, pieces]
  · rw [hletter, Option.map_eq_bind]
    rfl
  · exact fun _ _ _ _ _ h _ => hu h

theorem namesChar_self {c : Char} (hvisible : ¬ c.toNat < 0x20) (hquote : c ≠ '"')
    (hescape : c ≠ '\\') : NamesChar [c] c := by
  refine ⟨.char c, fun tail => ?_, fun _ => rfl⟩
  rw [List.cons_append, List.nil_append, pieces]
  · rw [if_neg (not_or.mpr ⟨hvisible, hescape⟩), Option.map_eq_bind]
    rfl
  · exact hquote
  · exact fun _ _ _ _ _ h _ => hescape h
  · exact fun _ _ h _ => hescape h

theorem hexNumber?_hexDigits_four {n : Nat} (h : n < 0x10000) :
    hexNumber? (hexDigits 4 n) = some n := by
  simp only [hexDigits, List.nil_append, List.cons_append, hexNumber?, List.foldl_cons,
    List.foldl_nil]
  rw [hexValue?_hexDigit _ (by omega), hexValue?_hexDigit _ (by omega),
    hexValue?_hexDigit _ (by omega), hexValue?_hexDigit _ (by omega)]
  simp only [Option.pure_def, Option.bind_eq_bind, Option.bind_some, Option.some.injEq]
  omega

theorem namesChar_number {c : Char} (h : c.toNat < 0x20) :
    NamesChar ('\\' :: 'u' :: hexDigits 4 c.toNat) c := by
  refine ⟨.unit c.toNat, fun tail => ?_, fun found => ?_⟩
  · have hnumber := hexNumber?_hexDigits_four (n := c.toNat) (by omega)
    simp only [hexDigits, List.nil_append, List.cons_append] at hnumber ⊢
    rw [pieces, hnumber, Option.map_eq_bind]
    rfl
  · have hhigh : isHighSurrogate c.toNat = false := by
      simp only [isHighSurrogate, Bool.and_eq_false_iff, decide_eq_false_iff_not]
      omega
    have hlow : isLowSurrogate c.toNat = false := by
      simp only [isLowSurrogate, Bool.and_eq_false_iff, decide_eq_false_iff_not]
      omega
    rw [joinPieces.eq_def]
    dsimp only
    rw [if_neg (by simp [hhigh]), if_neg (by simp [hlow]), Char.ofNat_toNat]

theorem namesChar_escapeChar (c : Char) : NamesChar (escapeChar c) c := by
  unfold escapeChar
  split_ifs with hquote hescape hback hfeed hline hreturn htab hcontrol
  · exact namesChar_letter (by decide) (by rw [hquote]; rfl)
  · exact namesChar_letter (by decide) (by rw [hescape]; rfl)
  · exact namesChar_letter (by decide) (by rw [hback]; rfl)
  · exact namesChar_letter (by decide) (by rw [hfeed]; rfl)
  · exact namesChar_letter (by decide) (by rw [hline]; rfl)
  · exact namesChar_letter (by decide) (by rw [hreturn]; rfl)
  · exact namesChar_letter (by decide) (by rw [htab]; rfl)
  · exact namesChar_number hcontrol
  · exact namesChar_self hcontrol hquote hescape

/-- A string literal is read up to its closing quote. -/
theorem exists_pieces (cs tail : List Char) : ∃ found,
    pieces (cs.flatMap escapeChar ++ '"' :: tail) = some (found, tail) ∧
      joinPieces found = some cs := by
  induction cs with
  | nil => exact ⟨[], by rw [List.flatMap_nil, List.nil_append, pieces], rfl⟩
  | cons c rest ih =>
      obtain ⟨found, hfound, hjoin⟩ := ih
      obtain ⟨piece, hpiece, hnames⟩ := namesChar_escapeChar c
      refine ⟨piece :: found, ?_, ?_⟩
      · rw [List.flatMap_cons, List.append_assoc, hpiece, hfound]
        rfl
      · rw [hnames, hjoin]
        rfl

theorem readString_escaped (s : String) (tail : List Char) :
    readString (s.toList.flatMap escapeChar ++ '"' :: tail) = some (some s, tail) := by
  obtain ⟨found, hfound, hjoin⟩ := exists_pieces s.toList tail
  rw [readString, hfound]
  simp [hjoin]

/-! ## Integers -/

/-- The characters do not continue an integer. -/
def EndsNumber (cs : List Char) : Prop :=
  ∀ c ∈ cs.head?, c.isDigit = false ∧ c ≠ '.' ∧ c ≠ 'e' ∧ c ≠ 'E'

theorem endsNumber_nil : EndsNumber [] := nofun

variable {rest : List Char}

theorem takeWhile_digits {digits : List Char} (hdigits : ∀ c ∈ digits, c.isDigit = true)
    (hrest : EndsNumber rest) :
    (digits ++ rest).takeWhile Char.isDigit = digits ∧
      (digits ++ rest).dropWhile Char.isDigit = rest := by
  rw [List.takeWhile_append_of_pos hdigits, List.dropWhile_append_of_pos hdigits]
  cases rest with
  | nil => simp
  | cons c cs => simp [(hrest c rfl).1]

/-- Only zero is written with a zero at its beginning. -/
theorem toDigits_head {n : Nat} (h : 0 < n) (tail : List Char) :
    Nat.toDigits 10 n ≠ '0' :: tail := by
  induction n using Nat.strong_induction_on generalizing tail with
  | _ n ih =>
      rw [Nat.toDigits_eq_if (by decide)]
      split
      next hlt =>
        intro heq
        rw [Nat.digitChar_eq_zero.mp (List.cons.inj heq).1] at h
        exact Nat.lt_irrefl 0 h
      next hge =>
        have hpos : 0 < n / 10 := Nat.div_pos (Nat.le_of_not_lt hge) (by decide)
        intro heq
        rcases List.append_eq_cons_iff.mp heq with ⟨hnil, -⟩ | ⟨first, hfirst, -⟩
        · exact Nat.toDigits_ne_nil hnil
        · exact ih (n / 10) (by omega) hpos first hfirst

theorem readWhole_toDigits (n : Nat) (hrest : EndsNumber rest) :
    readWhole (Nat.toDigits 10 n ++ rest) = some (Nat.toDigits 10 n, rest) := by
  by_cases hzero : n = 0
  · subst hzero
    rw [Nat.toDigits_zero, List.singleton_append, readWhole]
  · obtain ⟨htaken, hleft⟩ := takeWhile_digits
      (fun c hc => Nat.isDigit_of_mem_toDigits (n := n) (b := 10) (by decide) (by decide) hc) hrest
    rw [readWhole]
    · rw [htaken, hleft, if_neg (by simp [Nat.toDigits_ne_nil])]
    · intro tail heq
      rcases List.append_eq_cons_iff.mp heq with ⟨hnil, -⟩ | ⟨first, hfirst, -⟩
      · exact Nat.toDigits_ne_nil hnil
      · exact toDigits_head (Nat.pos_of_ne_zero hzero) first hfirst

theorem digitsValue_toDigits (n : Nat) : digitsValue (Nat.toDigits 10 n) = n := by
  have h := Nat.ofDigitChars_ten_toDigits (n := n)
  rw [Nat.ofDigitChars_eq_foldl] at h
  exact h

theorem readFraction_of_endsNumber (h : EndsNumber rest) : readFraction rest = some ([], rest) := by
  rw [readFraction]
  rintro tail rfl
  exact (h '.' rfl).2.1 rfl

theorem readExponent_of_endsNumber (h : EndsNumber rest) : readExponent rest = some ([], rest) := by
  cases rest with
  | nil => rfl
  | cons c cs =>
      obtain ⟨-, -, hlower, hupper⟩ := h c rfl
      rw [readExponent.eq_def]
      dsimp only
      rw [if_neg (not_or.mpr ⟨hlower, hupper⟩)]

theorem isDigit_of_mem_toDigits {n : Nat} {c : Char} (h : c ∈ Nat.toDigits 10 n) :
    c.isDigit = true :=
  Nat.isDigit_of_mem_toDigits (by decide) (by decide) h

theorem toList_repr (n : Nat) : n.repr.toList = Nat.toDigits 10 n := by
  rw [Nat.repr_eq_ofList_toDigits, String.toList_ofList]

theorem readUnsigned_toDigits {n : Nat} {negative : Bool} (hsign : (negative && n == 0) = false)
    (h : EndsNumber rest) :
    readUnsigned negative (Nat.toDigits 10 n ++ rest) =
      some (.integer (if negative then -(n : Int) else (n : Int)), rest) := by
  rw [readUnsigned, readWhole_toDigits n h]
  simp only [Option.bind_eq_bind, Option.bind_some, readFraction_of_endsNumber h,
    readExponent_of_endsNumber h, digitsValue_toDigits, List.isEmpty_nil, hsign, Bool.not_false,
    Bool.and_self, if_true, Option.pure_def]

theorem readNumber_toString (n : Int) (h : EndsNumber rest) :
    readNumber ((toString n).toList ++ rest) = some (.integer n, rest) := by
  cases n with
  | ofNat m =>
      rw [show (toString (Int.ofNat m)).toList = Nat.toDigits 10 m from toList_repr m, readNumber]
      · exact readUnsigned_toDigits rfl h
      · intro tail heq
        rcases List.append_eq_cons_iff.mp heq with ⟨hnil, -⟩ | ⟨first, hfirst, -⟩
        · exact Nat.toDigits_ne_nil hnil
        · have hdigit := isDigit_of_mem_toDigits (n := m) (hfirst ▸ List.mem_cons_self)
          exact absurd hdigit (by decide)
  | negSucc m =>
      have htext : (toString (Int.negSucc m)).toList = '-' :: Nat.toDigits 10 (m + 1) := by
        rw [show toString (Int.negSucc m) = "-" ++ (m + 1).repr from rfl, String.toList_append,
          toList_repr]
        rfl
      rw [htext, List.cons_append, readNumber, readUnsigned_toDigits (by simp) h]
      rfl

end Workbench.Json
