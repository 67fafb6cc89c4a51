import TagWire.Text.Hex
import TagWire.Text.Utf8

/-!
# Hexadecimal text reads back

Every byte is written as two digits of one byte each, and two digits are read as
the byte they were written for, so the text of any bytes is read as these bytes.
-/

namespace TagWire

namespace Hex

/-- The bytes that the two digits of a byte are held in. -/
def digitBytes (byte : UInt8) : List UInt8 :=
  (byteDigits byte).map fun char => UInt8.ofNat char.toNat

theorem utf8EncodeChar_digit {value : Nat} (single : value < 16) :
    String.utf8EncodeChar (digit value) =
      [UInt8.ofNat (digit value).toNat] := by
  have table : ∀ value < 16, String.utf8EncodeChar (digit value) =
      [UInt8.ofNat (digit value).toNat] := by
    decide
  exact table value single

theorem digitValue?_digit {value : Nat} (single : value < 16) :
    digitValue? (UInt8.ofNat (digit value).toNat).toNat = some value := by
  have table : ∀ value < 16,
      digitValue? (UInt8.ofNat (digit value).toNat).toNat = some value := by
    decide
  exact table value single

theorem halves_lt (byte : UInt8) :
    byte.toNat / 16 < 16 ∧ byte.toNat % 16 < 16 := by
  have bounded := byte.toNat_lt
  omega

/-- The text of bytes is held in two bytes for each of them. -/
theorem encode_utf8 (bytes : List UInt8) :
    Utf8.encode (encode bytes) = bytes.flatMap digitBytes := by
  have pair : ∀ byte : UInt8,
      (byteDigits byte).flatMap String.utf8EncodeChar = digitBytes byte := by
    intro byte
    obtain ⟨high, low⟩ := halves_lt byte
    simp only [byteDigits, digitBytes, List.flatMap_cons, List.flatMap_nil,
      utf8EncodeChar_digit high, utf8EncodeChar_digit low, List.map_cons,
      List.map_nil, List.append_nil, List.singleton_append]
  simp only [Utf8.encode, encode, String.toList_ofList, List.flatMap_assoc,
    pair]

theorem decodeFrom_digitBytes (byte : UInt8) (position : Nat)
    (read rest : List UInt8) :
    decodeFrom position read (digitBytes byte ++ rest) =
      decodeFrom (position + 2) (byte :: read) rest := by
  obtain ⟨high, low⟩ := halves_lt byte
  have whole : byte.toNat / 16 * 16 + byte.toNat % 16 = byte.toNat := by
    omega
  simp only [digitBytes, byteDigits, List.map_cons, List.map_nil,
    List.cons_append, List.nil_append, decodeFrom, digitValue?_digit high,
    digitValue?_digit low, whole, UInt8.ofNat_toNat]

theorem decodeFrom_flatMap (bytes : List UInt8) (position : Nat)
    (read : List UInt8) :
    decodeFrom position read (bytes.flatMap digitBytes) =
      .ok (read.reverse ++ bytes) := by
  induction bytes generalizing position read with
  | nil => simp [decodeFrom]
  | cons byte bytes induction =>
      rw [List.flatMap_cons, decodeFrom_digitBytes, induction,
        List.reverse_cons, List.append_assoc, List.singleton_append]

theorem decode_encode (bytes : List UInt8) :
    decode (Utf8.encode (encode bytes)) = .ok bytes := by
  have paired : (bytes.flatMap digitBytes).length = 2 * bytes.length := by
    induction bytes with
    | nil => rfl
    | cons byte bytes induction =>
        rw [List.flatMap_cons, List.length_append, induction,
          List.length_cons]
        simp only [digitBytes, byteDigits, List.length_map,
          List.length_cons, List.length_nil]
        omega
  rw [encode_utf8, decode, if_neg (by omega), decodeFrom_flatMap]
  rfl

end Hex

end TagWire
