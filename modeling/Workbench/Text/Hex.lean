/-! # Hexadecimal digits

Digits of base sixteen, in either case, and the number that a digit stands for.
A byte is a pair of digits. -/

namespace Workbench.Text

/-- The lower-case digit of a number below sixteen. -/
def hexDigit (n : Nat) : Char :=
  if n < 10 then Char.ofNat (0x30 + n) else Char.ofNat (0x57 + n)

/-- The upper-case digit of a number below sixteen. -/
def upperHexDigit (n : Nat) : Char :=
  if n < 10 then Char.ofNat (0x30 + n) else Char.ofNat (0x37 + n)

/-- The number a digit of either case stands for. -/
def hexValue? (c : Char) : Option Nat :=
  if '0' ≤ c ∧ c ≤ '9' then some (c.toNat - 0x30)
  else if 'a' ≤ c ∧ c ≤ 'f' then some (c.toNat - 0x57)
  else if 'A' ≤ c ∧ c ≤ 'F' then some (c.toNat - 0x37)
  else none

/-- The given number of lower-case digits of a number, the highest first. -/
def hexDigits : Nat → Nat → List Char
  | 0, _ => []
  | width + 1, n => hexDigits width (n / 16) ++ [hexDigit (n % 16)]

/-- The number that a list of digits stands for. -/
def hexNumber? (digits : List Char) : Option Nat :=
  digits.foldl (fun value c => do pure (16 * (← value) + (← hexValue? c))) (some 0)

/-- Bytes as pairs of lower-case digits. -/
def bytesHex (bytes : List UInt8) : String :=
  String.ofList (bytes.flatMap fun b => hexDigits 2 b.toNat)

/-- The bytes that pairs of digits stand for. -/
def hexBytes? : List Char → Option (List UInt8)
  | [] => some []
  | high :: low :: rest => do
      let n ← hexNumber? [high, low]
      pure (UInt8.ofNat n :: (← hexBytes? rest))
  | _ => none

theorem hexValue?_hexDigit : ∀ n < 16, hexValue? (hexDigit n) = some n := by decide

theorem hexValue?_upperHexDigit : ∀ n < 16, hexValue? (upperHexDigit n) = some n := by decide

end Workbench.Text
