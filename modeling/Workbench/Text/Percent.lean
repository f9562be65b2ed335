import Workbench.Text.Hex

/-! # Percent encoding

A text as part of a query: every byte of its UTF-8 form that is not an
unreserved character is written as a percent sign and two hexadecimal digits.
Reading turns such triples back into bytes. -/

namespace Workbench.Text

/-- Letters, digits and four signs stand for themselves in a query. -/
def isUnreserved (c : Char) : Bool :=
  c.isAlphanum || c == '-' || c == '_' || c == '.' || c == '~'

def utf8Bytes (s : String) : List UInt8 :=
  s.toList.flatMap String.utf8EncodeChar

def percentEncodeByte (b : UInt8) : List Char :=
  let c := Char.ofNat b.toNat
  if b.toNat < 0x80 && isUnreserved c then [c]
  else ['%', upperHexDigit (b.toNat / 16), upperHexDigit (b.toNat % 16)]

def percentEncode (s : String) : String :=
  String.ofList ((utf8Bytes s).flatMap percentEncodeByte)

/-- The bytes that a written query stands for; nothing when a percent sign is
not followed by two digits, or when a character is not ASCII. -/
def percentDecodeBytes : List Char → Option (List UInt8)
  | [] => some []
  | '%' :: high :: low :: rest => do
      let byte := 16 * (← hexValue? high) + (← hexValue? low)
      pure (UInt8.ofNat byte :: (← percentDecodeBytes rest))
  | c :: rest =>
      if c = '%' ∨ 0x80 ≤ c.toNat then none
      else (percentDecodeBytes rest).map (UInt8.ofNat c.toNat :: ·)

/-- The text that a written query stands for. -/
def percentDecode (s : String) : Option String := do
  String.fromUTF8? (ByteArray.mk (← percentDecodeBytes s.toList).toArray)

end Workbench.Text
