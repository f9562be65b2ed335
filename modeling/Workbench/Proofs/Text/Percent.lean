import Mathlib.Data.List.Basic
import Workbench.Text.Percent

/-! # Percent-encoded text is read back

What is written holds only unreserved characters and percent signs with their digits, so it
stands in an address as it is, and it stands for the text it was written from. -/

namespace Workbench.Text

/-- A visible ASCII character that neither ends a part of an address nor is encoded in
one. -/
def standsInAddress (c : Char) : Bool :=
  0x20 < c.toNat && c.toNat < 0x7f &&
    !(['"', '#', '/', '<', '>', '?', '\'', '\\', '\x60', '\x7b', '\x7d'].contains c)

theorem standsInAddress_percentEncodeByte (b : UInt8) :
    ∀ c ∈ percentEncodeByte b, standsInAddress c = true := by
  have hall : ∀ n < 256, (percentEncodeByte (UInt8.ofNat n)).all standsInAddress = true := by
    decide +kernel
  have hb := hall b.toNat b.toNat_lt
  rwa [UInt8.ofNat_toNat, List.all_eq_true] at hb

theorem standsInAddress_percentEncode (s : String) :
    ∀ c ∈ (percentEncode s).toList, standsInAddress c = true := by
  intro c hc
  rw [percentEncode, String.toList_ofList] at hc
  obtain ⟨b, -, hb⟩ := List.mem_flatMap.mp hc
  exact standsInAddress_percentEncodeByte b c hb

theorem toNat_ofNat_ascii : ∀ n < 0x80, (Char.ofNat n).toNat = n := by decide +kernel

/-- A percent sign is not unreserved, so a byte that is written as itself is none. -/
theorem percentDecodeBytes_cons {b : UInt8} (hsmall : b.toNat < 0x80)
    (hfree : isUnreserved (Char.ofNat b.toNat) = true) (rest : List Char) :
    percentDecodeBytes (Char.ofNat b.toNat :: rest) =
      (percentDecodeBytes rest).map (b :: ·) := by
  have hsign : Char.ofNat b.toNat ≠ '%' := by
    intro heq
    rw [heq] at hfree
    exact absurd hfree (by decide)
  have hcode := toNat_ofNat_ascii b.toNat hsmall
  rw [percentDecodeBytes]
  · rw [hcode, if_neg (not_or.mpr ⟨hsign, by omega⟩), UInt8.ofNat_toNat]
  · exact fun _ _ _ h _ => hsign h

theorem percentDecodeBytes_triple (b : UInt8) (rest : List Char) :
    percentDecodeBytes
        ('%' :: upperHexDigit (b.toNat / 16) :: upperHexDigit (b.toNat % 16) :: rest) =
      (percentDecodeBytes rest).map (b :: ·) := by
  have hbyte : b.toNat < 256 := b.toNat_lt
  rw [percentDecodeBytes, hexValue?_upperHexDigit _ (by omega),
    hexValue?_upperHexDigit _ (by omega)]
  simp only [Option.bind_eq_bind, Option.bind_some, Nat.div_add_mod, UInt8.ofNat_toNat,
    Option.pure_def, Option.map_eq_bind]
  rfl

theorem percentDecodeBytes_append (b : UInt8) (rest : List Char) :
    percentDecodeBytes (percentEncodeByte b ++ rest) = (percentDecodeBytes rest).map (b :: ·) := by
  unfold percentEncodeByte
  dsimp only
  split
  next hself =>
    obtain ⟨hsmall, hfree⟩ := (Bool.and_eq_true _ _).mp hself
    exact percentDecodeBytes_cons (of_decide_eq_true hsmall) hfree rest
  next => exact percentDecodeBytes_triple b rest

theorem percentDecodeBytes_flatMap (bytes : List UInt8) :
    percentDecodeBytes (bytes.flatMap percentEncodeByte) = some bytes := by
  induction bytes with
  | nil => rfl
  | cons b rest ih => rw [List.flatMap_cons, percentDecodeBytes_append, ih, Option.map_some]

/-- The bytes of a text are those it is kept in. -/
theorem toByteArray_eq (s : String) : ByteArray.mk (utf8Bytes s).toArray = s.toByteArray := by
  rw [← String.utf8Encode_toList, List.utf8Encode]
  apply ByteArray.ext
  rw [List.data_toByteArray]
  rfl

theorem fromUTF8?_utf8Bytes (s : String) :
    String.fromUTF8? (ByteArray.mk (utf8Bytes s).toArray) = some s := by
  rw [toByteArray_eq, String.fromUTF8?, dif_pos s.isValidUTF8]
  rfl

theorem percentDecode_percentEncode (s : String) : percentDecode (percentEncode s) = some s := by
  rw [percentDecode, percentEncode, String.toList_ofList, percentDecodeBytes_flatMap]
  simp only [Option.bind_eq_bind, Option.bind_some, fromUTF8?_utf8Bytes]

end Workbench.Text
