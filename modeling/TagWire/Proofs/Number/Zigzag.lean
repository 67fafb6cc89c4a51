import TagWire.Number.Zigzag

/-!
# Folding loses nothing

The lowest bit of a folded number is the sign, and it says whether the other
bits stand flipped.  Unfolding looks at this bit first and so undoes folding, and
folding sets it as it was.
-/

namespace TagWire

namespace Zigzag

theorem encode_toBitVec (value : Int64) :
    (encode value).toBitVec =
      if value.toBitVec.msb then ~~~(value.toBitVec <<< 1)
      else value.toBitVec <<< 1 := by
  have folded : (encode value).toBitVec =
      (value.toBitVec <<< 1) ^^^ value.toBitVec.sshiftRight 63 := rfl
  have sign : ∀ bit < 64,
      (value.toBitVec.sshiftRight 63).getLsbD bit = value.toBitVec.msb := by
    intro bit inside
    rw [BitVec.getLsbD_sshiftRight, BitVec.msb_eq_getLsbD_last]
    by_cases lowest : bit = 0
    · simp [lowest]
    · rw [if_neg (by omega)]
      simp [inside]
  rw [folded]
  apply BitVec.eq_of_getLsbD_eq
  intro bit inside
  rw [BitVec.getLsbD_xor, sign bit inside]
  cases value.toBitVec.msb <;> simp [inside]

theorem decode_toBitVec (value : UInt64) :
    (decode value).toBitVec =
      if value.toBitVec.getLsbD 0 then ~~~(value.toBitVec >>> 1)
      else value.toBitVec >>> 1 := by
  have folded : (decode value).toBitVec =
      (value.toBitVec >>> 1) ^^^ (0#64 - (value.toBitVec &&& 1#64)) := rfl
  rw [folded, BitVec.and_one_eq_setWidth_ofBool_getLsbD]
  cases value.toBitVec.getLsbD 0 with
  | false => simp
  | true =>
      have flip : 0#64 - BitVec.setWidth 64 (BitVec.ofBool true) =
          BitVec.allOnes 64 := by decide
      rw [flip, BitVec.xor_allOnes, if_pos rfl]

theorem decode_encode (value : Int64) : decode (encode value) = value := by
  apply Int64.toBitVec_inj.mp
  rw [decode_toBitVec, encode_toBitVec]
  apply BitVec.eq_of_getLsbD_eq
  intro bit inside
  cases sign : value.toBitVec.msb with
  | false =>
      rw [BitVec.msb_eq_getLsbD_last] at sign
      by_cases highest : bit = 63
      · subst highest
        simpa using sign.symm
      · have next : bit + 1 < 64 := by omega
        simp [next, Nat.add_comm 1 bit, BitVec.getLsbD_eq_getElem inside]
  | true =>
      rw [BitVec.msb_eq_getLsbD_last] at sign
      by_cases highest : bit = 63
      · subst highest
        simpa using sign.symm
      · have next : bit + 1 < 64 := by omega
        simp [inside, next, Nat.add_comm 1 bit]

theorem encode_decode (value : UInt64) : encode (decode value) = value := by
  apply UInt64.toBitVec_inj.mp
  -- The shift clears the highest bit, so the flip alone sets it.
  have sign : (decode value).toBitVec.msb = value.toBitVec.getLsbD 0 := by
    rw [decode_toBitVec, BitVec.msb_eq_getLsbD_last]
    cases value.toBitVec.getLsbD 0 <;> simp
  rw [encode_toBitVec, sign, decode_toBitVec]
  apply BitVec.eq_of_getLsbD_eq
  intro bit inside
  by_cases first : bit = 0
  · subst first
    cases lowest : value.toBitVec.getLsbD 0 <;> simp
  · have back : 1 + (bit - 1) = bit := by omega
    cases value.toBitVec.getLsbD 0 <;> simp [inside, first, back]

end Zigzag

end TagWire
