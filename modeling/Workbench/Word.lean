/-! # Words

Sizes, positions and times are kept in words of so many bits. A number fits into
a word when it is below the word's capacity. -/

namespace Workbench.Word

/-- The first number that does not fit into so many bits. -/
def capacity (bits : Nat) : Nat := Nat.pow 2 bits

/-- A number fits into 64 bits. -/
def fits (n : Nat) : Bool := n < capacity 64

/-- A number with a sign fits into 64 bits. -/
def fitsSigned (n : Int) : Bool := -(capacity 63 : Int) ≤ n && n < capacity 63

theorem fits_iff {n : Nat} : fits n = true ↔ n < 18446744073709551616 := by
  unfold fits
  exact decide_eq_true_iff

theorem fitsSigned_iff {n : Int} :
    fitsSigned n = true ↔ -9223372036854775808 ≤ n ∧ n < 9223372036854775808 := by
  unfold fitsSigned
  rw [Bool.and_eq_true, decide_eq_true_iff, decide_eq_true_iff]
  exact Iff.rfl

end Workbench.Word
