import TagWire.Proofs.Number.Varint
import TagWire.Proofs.Number.Zigzag

/-!
# Small magnitudes fold to small numbers

Folding doubles a number and takes one off what was negative, so a number of
smaller magnitude is folded to a smaller word, and a smaller word never has a
longer group.  No step of folding or unfolding overflows: the shifts are by fewer
bits than a word has, and what is negated is a single bit.
-/

namespace TagWire

namespace Zigzag

/-! ## Steps that could overflow -/

/-- A shift, which has to be by fewer bits than a word has. -/
def shift? {α : Type} (shifted : Nat → α) (count : Nat) : Option α :=
  if count < 64 then some (shifted count) else none

/-- The number of the other sign, if a signed word can hold it. -/
def negate? (word : Int64) : Option Int64 :=
  if word = Int64.minValue then none else some (-word)

/-- Folds with a check at every step that could overflow. -/
def encodeChecked? (value : Int64) : Option UInt64 := do
  let double ← shift? (fun count => value <<< Int64.ofNat count) 1
  let sign ← shift? (fun count => value >>> Int64.ofNat count) 63
  return (double ^^^ sign).toUInt64

/-- Unfolds with a check at every step that could overflow. -/
def decodeChecked? (value : UInt64) : Option Int64 := do
  let half ← shift? (fun count => value >>> UInt64.ofNat count) 1
  let mask ← negate? (value &&& 1).toInt64
  return half.toInt64 ^^^ mask

theorem encodeChecked?_eq (value : Int64) :
    encodeChecked? value = some (encode value) := rfl

/-- A single bit is no least number. -/
theorem negate?_bit (value : UInt64) :
    negate? (value &&& 1).toInt64 = some (-(value &&& 1).toInt64) := by
  apply if_neg
  intro least
  have word : value &&& 1 = Int64.minValue.toUInt64 := by
    rw [← least, UInt64.toUInt64_toInt64]
  have number := congrArg UInt64.toNat word
  rw [UInt64.toNat_and] at number
  have bit : value.toNat &&& 1 ≤ 1 := Nat.and_le_right
  have far : Int64.minValue.toUInt64.toNat = 9223372036854775808 := rfl
  have one : (1 : UInt64).toNat = 1 := rfl
  rw [far, one] at number
  omega

theorem decodeChecked?_eq (value : UInt64) :
    decodeChecked? value = some (decode value) := by
  have masked : (value >>> 1).toInt64 ^^^ -(value &&& 1).toInt64 =
      decode value := by
    apply Int64.toBitVec_inj.mp
    have negated : (decode value).toBitVec = (value.toBitVec >>> 1) ^^^
        (0#64 - (value.toBitVec &&& 1#64)) := rfl
    rw [negated, BitVec.zero_sub]
    rfl
  have half : shift? (fun count => value >>> UInt64.ofNat count) 1 =
      some (value >>> 1) := rfl
  rw [decodeChecked?, half, negate?_bit, ← masked]
  rfl

/-! ## The folded number -/

theorem toNat_encode (value : Int64) :
    ((encode value).toNat : Int) =
      if 0 ≤ value.toInt then 2 * value.toInt else -2 * value.toInt - 1 := by
  have signed : value.toInt = value.toBitVec.toInt := rfl
  have small := value.toBitVec.isLt
  have folded : (encode value).toNat = (encode value).toBitVec.toNat := rfl
  rw [folded, encode_toBitVec, signed, BitVec.toInt_eq_msb_cond]
  cases sign : value.toBitVec.msb with
  | false =>
      have half := BitVec.msb_eq_false_iff_two_mul_lt.mp sign
      simp only [Bool.false_eq_true, if_false, BitVec.toNat_shiftLeft,
        Nat.shiftLeft_eq, pow_one]
      rw [Nat.mod_eq_of_lt (by omega), if_pos (by omega)]
      omega
  | true =>
      have half := BitVec.msb_eq_true_iff_two_mul_ge.mp sign
      simp only [if_true, BitVec.toNat_not, BitVec.toNat_shiftLeft,
        Nat.shiftLeft_eq]
      rw [if_neg (by omega)]
      omega

example : (encode Int64.minValue).toNat = Word.limit - 1 := by decide

/-- Of two numbers the one of smaller magnitude is folded to the smaller word,
whatever their signs. -/
theorem encode_lt_of_natAbs_lt {left right : Int64}
    (smaller : left.toInt.natAbs < right.toInt.natAbs) :
    (encode left).toNat < (encode right).toNat := by
  have foldedLeft := toNat_encode left
  have foldedRight := toNat_encode right
  split at foldedLeft <;> split at foldedRight <;> omega

end Zigzag

namespace Varint

theorem length_le_length {left right : UInt64}
    (ordered : left.toNat ≤ right.toNat) : length left ≤ length right := by
  have inLeft := inTier_length left
  have inRight := inTier_length right
  refine Nat.le_of_not_lt fun shorter => ?_
  -- The longer group begins where the shorter one ends, and counts up.
  have ends := bound_le_bound (Nat.le_sub_one_of_lt shorter)
  have lower := inLeft.lower
  have bounded := inLeft.bounded
  rcases inRight.upper with longest | upper <;> omega

theorem length_encode_le_of_natAbs_lt {left right : Int64}
    (smaller : left.toInt.natAbs < right.toInt.natAbs) :
    (encode (Zigzag.encode left)).length ≤
      (encode (Zigzag.encode right)).length := by
  rw [length_encode, length_encode]
  exact length_le_length (Nat.le_of_lt (Zigzag.encode_lt_of_natAbs_lt smaller))

end Varint

end TagWire
