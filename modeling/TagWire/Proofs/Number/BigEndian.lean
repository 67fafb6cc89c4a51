import Mathlib.Tactic.Ring
import TagWire.Number.BigEndian

/-!
# Reading big-endian numbers back

Reading undoes writing as far as the width goes, and writing at the width of a
byte string undoes reading it.  A fixed width therefore leaves no choice of
form, and the forms of variable length inherit this from it.
-/

namespace TagWire

namespace BigEndian

@[simp] theorem length_encode (width value : Nat) :
    (encode width value).length = width := by
  induction width with
  | zero => rfl
  | succ width induction => simp [encode, induction]

@[simp] theorem decode_nil : decode [] = 0 := rfl

private theorem foldl_shift (bytes : List UInt8) (start : Nat) :
    bytes.foldl (fun value byte => value * 256 + byte.toNat) start =
      start * Nat.pow 256 bytes.length + decode bytes := by
  induction bytes generalizing start with
  | nil => simp
  | cons byte bytes induction =>
      have head : decode (byte :: bytes) =
          byte.toNat * Nat.pow 256 bytes.length + decode bytes := by
        have shifted := induction byte.toNat
        simpa [decode] using shifted
      have step : Nat.pow 256 (bytes.length + 1) =
          Nat.pow 256 bytes.length * 256 := rfl
      rw [List.foldl_cons, induction, head, List.length_cons, step]
      ring

/-- The first byte weighs more than all bytes behind it together. -/
theorem decode_cons (byte : UInt8) (bytes : List UInt8) :
    decode (byte :: bytes) =
      byte.toNat * Nat.pow 256 bytes.length + decode bytes := by
  have shifted := foldl_shift bytes byte.toNat
  simpa [decode] using shifted

theorem decode_lt (bytes : List UInt8) :
    decode bytes < Nat.pow 256 bytes.length := by
  induction bytes with
  | nil => exact Nat.one_pos
  | cons byte bytes induction =>
      have digit := byte.toNat_lt
      have step : Nat.pow 256 (byte :: bytes).length =
          256 * Nat.pow 256 bytes.length := Nat.mul_comm _ _
      have room : (byte.toNat + 1) * Nat.pow 256 bytes.length ≤
          256 * Nat.pow 256 bytes.length :=
        Nat.mul_le_mul_right _ (by omega)
      rw [Nat.add_mul, Nat.one_mul] at room
      rw [decode_cons, step]
      omega

/-- What does not fit into the width is dropped, and nothing else. -/
theorem decode_encode (width value : Nat) :
    decode (encode width value) = value % Nat.pow 256 width := by
  induction width with
  | zero => simp [encode, Nat.pow, Nat.mod_one]
  | succ width induction =>
      have step : Nat.pow 256 (width + 1) = Nat.pow 256 width * 256 := rfl
      have digit : (UInt8.ofNat (value / Nat.pow 256 width)).toNat =
          value / Nat.pow 256 width % 256 := UInt8.toNat_ofNat'
      rw [encode, decode_cons, length_encode, induction, digit, step,
        Nat.mod_mul, Nat.mul_comm, Nat.add_comm]

theorem decode_encode_of_lt {width value : Nat}
    (fits : value < Nat.pow 256 width) :
    decode (encode width value) = value := by
  rw [decode_encode, Nat.mod_eq_of_lt fits]

private theorem encode_add_mul (width high low : Nat) :
    encode width (high * Nat.pow 256 width + low) = encode width low := by
  induction width generalizing high with
  | zero => rfl
  | succ width induction =>
      have step : Nat.pow 256 (width + 1) = 256 * Nat.pow 256 width :=
        Nat.mul_comm _ _
      have split : high * Nat.pow 256 (width + 1) + low =
          low + (high * 256) * Nat.pow 256 width := by
        rw [step]
        ring
      have digit : UInt8.ofNat (low / Nat.pow 256 width + high * 256) =
          UInt8.ofNat (low / Nat.pow 256 width) := by
        apply UInt8.toNat_inj.mp
        rw [UInt8.toNat_ofNat', UInt8.toNat_ofNat']
        omega
      have positive : 0 < Nat.pow 256 width := Nat.pow_pos (by decide)
      rw [split, encode, encode, Nat.add_mul_div_right _ _ positive, digit,
        Nat.add_comm low, induction]

/-- Writing undoes reading at the width of the bytes. -/
theorem encode_decode (bytes : List UInt8) :
    encode bytes.length (decode bytes) = bytes := by
  induction bytes with
  | nil => rfl
  | cons byte bytes induction =>
      have low := decode_lt bytes
      have positive : 0 < Nat.pow 256 bytes.length := Nat.pow_pos (by decide)
      have leading : (byte.toNat * Nat.pow 256 bytes.length + decode bytes) /
          Nat.pow 256 bytes.length = byte.toNat := by
        rw [Nat.add_comm, Nat.add_mul_div_right _ _ positive,
          Nat.div_eq_of_lt low, Nat.zero_add]
      rw [decode_cons, List.length_cons, encode, leading, encode_add_mul,
        induction, UInt8.ofNat_toNat]

end BigEndian

end TagWire
