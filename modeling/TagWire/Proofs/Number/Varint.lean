import TagWire.Number.Varint
import TagWire.Proofs.Number.Marker

/-!
# Numbers of variable length are one form each

The tiers divide the words among them without gap or overlap, so writing and
reading are inverse to each other: a word reads back from its group whatever
follows, and a group that reads as a word is the one that the word is written
as.  The only bytes without an answer are those that stop short and the groups
of nine that spell a number beyond every word.
-/

namespace TagWire

namespace Varint

/-- Groups of the given length are for the value. -/
structure InTier (value length : Nat) : Prop where
  positive : 0 < length
  bounded : length ≤ maxLength
  lower : bound (length - 1) ≤ value
  upper : length = maxLength ∨ value < bound length

theorem bound_le_bound {shorter longer : Nat} (ordered : shorter ≤ longer) :
    bound shorter ≤ bound longer := by
  induction ordered with
  | refl => exact Nat.le_refl _
  | step _ induction => exact Nat.le_trans induction (Nat.le_add_right _ _)

theorem bound_lt_limit {length : Nat} (bounded : length < maxLength) :
    bound length < Word.limit :=
  Nat.lt_of_le_of_lt (bound_le_bound (Nat.le_of_lt_succ bounded))
    (by decide : bound 8 < Word.limit)

example : bound 8 = 0x0102040810204080 := by decide

/-- Below the longest tier, a tier ends where the next one begins. -/
theorem bound_add_room {length : Nat} (positive : 0 < length)
    (bounded : length < maxLength) :
    bound (length - 1) + Marker.room length = bound length := by
  obtain ⟨previous, rfl⟩ : ∃ previous, length = previous + 1 :=
    ⟨length - 1, by omega⟩
  have shorter : previous + 1 ≠ 9 := Nat.ne_of_lt bounded
  rw [Marker.room, if_neg shorter, Nat.add_sub_cancel, bound]

theorem InTier.unique {value left right : Nat} (inLeft : InTier value left)
    (inRight : InTier value right) : left = right := by
  have apart : ∀ {shorter longer : Nat}, InTier value shorter →
      InTier value longer → ¬shorter < longer := by
    intro shorter longer inShorter inLonger ordered
    have ends := bound_le_bound (Nat.le_sub_one_of_lt ordered)
    have lower := inLonger.lower
    have bounded := inLonger.bounded
    rcases inShorter.upper with longest | upper <;> omega
  have notLeft := apart inLeft inRight
  have notRight := apart inRight inLeft
  omega

theorem InTier.payload_lt {value : UInt64} {length : Nat}
    (tier : InTier value.toNat length) :
    value.toNat - bound (length - 1) < Marker.room length := by
  have lower := tier.lower
  rcases tier.upper with longest | upper
  · subst longest
    have word : value.toNat < Marker.room maxLength := value.toNat_lt
    omega
  · by_cases shorter : length < maxLength
    · have ends := bound_add_room tier.positive shorter
      omega
    · have longest : length = maxLength :=
        Nat.le_antisymm tier.bounded (Nat.le_of_not_lt shorter)
      subst longest
      have word : value.toNat < Marker.room maxLength := value.toNat_lt
      omega

theorem inTier_length (value : UInt64) : InTier value.toNat (length value) := by
  unfold length
  cases found : (List.range' 1 8).find? fun length =>
      value.toNat < bound length with
  | none =>
      have beyond := List.find?_range'_eq_none.mp found 8
        (by decide) (by decide)
      exact {
        positive := by decide
        bounded := Nat.le_refl _
        lower := by simpa [maxLength] using beyond
        upper := .inl rfl }
  | some length =>
      obtain ⟨upper, member, least⟩ := List.find?_range'_eq_some.mp found
      rw [List.mem_range'_1] at member
      refine {
        positive := member.1
        bounded := Nat.le_of_lt member.2
        lower := ?_
        upper := .inr (by simpa using upper) }
      by_cases first : length = 1
      · subst first
        exact Nat.zero_le _
      · have previous := least (length - 1) (by omega) (by omega)
        simpa using previous

theorem length_eq_of_inTier {value : UInt64} {tier : Nat}
    (belongs : InTier value.toNat tier) : length value = tier :=
  (inTier_length value).unique belongs

@[simp] theorem length_encode (value : UInt64) :
    (encode value).length = length value :=
  BigEndian.length_encode _ _

theorem encode_eq_cons (value : UInt64) :
    ∃ first rest, encode value = first :: rest ∧
      Marker.leadingOnes first = length value - 1 :=
  let tier := inTier_length value
  Marker.encode_eq_cons tier.positive tier.bounded tier.payload_lt

theorem decode_short {first : UInt8} {rest : List UInt8}
    (short : rest.length < Marker.leadingOnes first) :
    decode (first :: rest) =
      .error (.unexpectedEnd (Marker.leadingOnes first + 1)
        (rest.length + 1)) := by
  have incomplete : ((first :: rest).take
      (Marker.leadingOnes first + 1)).length <
        Marker.leadingOnes first + 1 := by
    rw [List.length_take, List.length_cons]
    omega
  simp only [decode]
  rw [if_pos incomplete, List.length_cons]

/-- A whole group is read without a look at what follows. -/
theorem decode_complete {first : UInt8} {rest trailing : List UInt8}
    (complete : rest.length = Marker.leadingOnes first) :
    decode (first :: rest ++ trailing) =
      let value := bound rest.length +
        (BigEndian.decode (first :: rest) - Marker.weight (rest.length + 1))
      if value < Word.limit then .ok (UInt64.ofNat value, rest.length + 1)
      else .error .varintOverflow := by
  have group : (first :: rest ++ trailing).take (rest.length + 1) =
      first :: rest := by
    simp
  simp only [List.cons_append, decode, ← complete] at group ⊢
  rw [group, if_neg (by simp), Nat.add_sub_cancel]

theorem decode_encode_append (value : UInt64) (trailing : List UInt8) :
    decode (encode value ++ trailing) = .ok (value, length value) := by
  have tier := inTier_length value
  obtain ⟨first, rest, shape, announced⟩ := encode_eq_cons value
  have sized : (first :: rest).length = length value := by
    rw [← shape, length_encode]
  have width : rest.length = length value - 1 := by
    rw [List.length_cons] at sized
    omega
  have spelled : BigEndian.decode (first :: rest) =
      Marker.weight (length value) +
        (value.toNat - bound (length value - 1)) := by
    rw [← shape]
    exact BigEndian.decode_encode_of_lt (Marker.weight_add_lt tier.positive
      tier.bounded tier.payload_lt)
  have restored : bound rest.length +
      (BigEndian.decode (first :: rest) - Marker.weight (rest.length + 1)) =
        value.toNat := by
    rw [← List.length_cons (a := first), sized, spelled, width,
      Nat.add_sub_cancel_left, Nat.add_sub_cancel' tier.lower]
  rw [shape, decode_complete (width.trans announced.symm)]
  simp only [restored]
  have word : value.toNat < Word.limit := value.toNat_lt
  rw [if_pos word, UInt64.ofNat_toNat, ← List.length_cons (a := first), sized]

/-- A group that reads as a word is the one the word is written as. -/
theorem encode_of_decode_complete {first : UInt8} {rest : List UInt8}
    (complete : rest.length = Marker.leadingOnes first)
    (word : bound rest.length + (BigEndian.decode (first :: rest) -
      Marker.weight (rest.length + 1)) < Word.limit) :
    encode (UInt64.ofNat (bound rest.length +
      (BigEndian.decode (first :: rest) -
        Marker.weight (rest.length + 1)))) = first :: rest := by
  obtain ⟨marked, fits⟩ := Marker.decode_group complete
  have announced := Marker.leadingOnes_le first
  generalize payloadEq : BigEndian.decode (first :: rest) -
    Marker.weight (rest.length + 1) = payload at *
  have represented : (UInt64.ofNat (bound rest.length + payload)).toNat =
      bound rest.length + payload :=
    UInt64.toNat_ofNat_of_lt' word
  have tier : InTier (UInt64.ofNat (bound rest.length + payload)).toNat
      (rest.length + 1) := by
    refine {
      positive := Nat.succ_pos _
      bounded := by
        have := Marker.leadingOnes_le first
        simp only [maxLength]
        omega
      lower := ?_
      upper := ?_ }
    · rw [represented, Nat.add_sub_cancel]
      exact Nat.le_add_right _ _
    · by_cases shorter : rest.length + 1 < maxLength
      · have ends := bound_add_room (Nat.succ_pos rest.length) shorter
        rw [Nat.succ_eq_add_one, Nat.add_sub_cancel] at ends
        right
        omega
      · left
        simp only [maxLength] at shorter ⊢
        omega
  rw [encode, length_eq_of_inTier tier]
  simp only [represented]
  rw [Nat.add_sub_cancel, Nat.add_sub_cancel_left, ← payloadEq,
    Nat.add_sub_cancel' marked]
  exact BigEndian.encode_decode (first :: rest)

theorem take_of_decode {bytes : List UInt8} {value : UInt64} {consumed : Nat}
    (read : decode bytes = .ok (value, consumed)) :
    bytes.take consumed = encode value := by
  rcases Marker.cases_group bytes with
    rfl | ⟨first, rest, rfl, short⟩ |
      ⟨first, rest, trailing, rfl, complete⟩
  · cases read
  · rw [decode_short short] at read
    cases read
  · rw [decode_complete complete] at read
    simp only at read
    split at read
    · rename_i word
      cases read
      rw [encode_of_decode_complete complete word]
      simp
    · cases read

/-- The sums that reading forms below the longest tier are words. -/
theorem bound_add_payload_lt {first : UInt8} {rest : List UInt8}
    (complete : rest.length = Marker.leadingOnes first)
    (shorter : rest.length + 1 < maxLength) :
    bound rest.length + (BigEndian.decode (first :: rest) -
      Marker.weight (rest.length + 1)) < Word.limit := by
  have fits := (Marker.decode_group complete).2
  have ends := bound_add_room (Nat.succ_pos rest.length) shorter
  have word := bound_lt_limit shorter
  rw [Nat.succ_eq_add_one, Nat.add_sub_cancel] at ends
  omega

theorem decode_eq_unexpectedEnd_iff {bytes : List UInt8} :
    (∃ needed remainder,
        decode bytes = .error (.unexpectedEnd needed remainder)) ↔
      bytes = [] ∨ ∃ first rest, bytes = first :: rest ∧
        bytes.length < Marker.leadingOnes first + 1 := by
  constructor
  · rintro ⟨needed, remainder, starved⟩
    rcases Marker.cases_group bytes with
      rfl | ⟨first, rest, rfl, short⟩ |
        ⟨first, rest, trailing, rfl, complete⟩
    · exact .inl rfl
    · exact .inr ⟨first, rest, rfl, Nat.succ_lt_succ short⟩
    · rw [decode_complete complete] at starved
      simp only at starved
      split at starved <;> cases starved
  · rintro (rfl | ⟨first, rest, rfl, short⟩)
    · exact ⟨1, 0, rfl⟩
    · exact ⟨_, _, decode_short (Nat.lt_of_succ_lt_succ short)⟩

theorem decode_eq_overflow_iff {bytes : List UInt8} :
    decode bytes = .error .varintOverflow ↔
      ∃ payload rest, bytes = 0xFF :: (payload ++ rest) ∧
        payload.length = 8 ∧
          Word.limit - 1 - bound 8 < BigEndian.decode payload := by
  have room : bound 8 < Word.limit := bound_lt_limit (by decide)
  -- Behind the marker of nine bytes the group spells its payload alone.
  have spelled : ∀ payload : List UInt8, payload.length = 8 →
      BigEndian.decode (0xFF :: payload) - Marker.weight (8 + 1) =
        BigEndian.decode payload := by
    intro payload sized
    have marked : (0xFF : UInt8).toNat * Nat.pow 256 8 =
        Marker.weight (8 + 1) := by decide
    rw [BigEndian.decode_cons, sized, marked, Nat.add_sub_cancel_left]
  constructor
  · intro overflow
    rcases Marker.cases_group bytes with
      rfl | ⟨first, rest, rfl, short⟩ |
        ⟨first, payload, trailing, rfl, complete⟩
    · cases overflow
    · rw [decode_short short] at overflow
      cases overflow
    · rw [decode_complete complete] at overflow
      simp only at overflow
      split at overflow
      · cases overflow
      · rename_i beyond
        have longest : ¬payload.length + 1 < maxLength := fun shorter =>
          beyond (bound_add_payload_lt complete shorter)
        have announced := Marker.leadingOnes_le first
        have sized : payload.length = 8 := by
          simp only [maxLength] at longest
          omega
        have marker : first = 0xFF := by
          have leading := (Marker.leadingOnes_eq_iff (by decide : 0 < 9)
            (by decide) first).mp (by omega)
          have code := first.toNat_lt
          apply UInt8.toNat_inj.mp
          have lead : Marker.lead 9 = 255 := by decide
          have full : (0xFF : UInt8).toNat = 255 := rfl
          omega
        subst marker
        rw [sized, spelled payload sized] at beyond
        exact ⟨payload, trailing, rfl, sized, by omega⟩
  · rintro ⟨payload, rest, rfl, sized, beyond⟩
    have complete : payload.length = Marker.leadingOnes 0xFF := by
      rw [sized]
      decide
    have read : decode (0xFF :: payload ++ rest) = _ :=
      decode_complete complete
    rw [sized, spelled payload sized, List.cons_append] at read
    rw [read]
    simp only
    rw [if_neg (by omega)]

theorem decode_error_cases {bytes : List UInt8} {error : WireError}
    (failed : decode bytes = .error error) :
    error = .varintOverflow ∨
      ∃ needed remainder, error = .unexpectedEnd needed remainder := by
  rcases Marker.cases_group bytes with
    rfl | ⟨first, rest, rfl, short⟩ |
      ⟨first, rest, trailing, rfl, complete⟩
  · cases failed
    exact .inr ⟨_, _, rfl⟩
  · rw [decode_short short] at failed
    cases failed
    exact .inr ⟨_, _, rfl⟩
  · rw [decode_complete complete] at failed
    simp only at failed
    split at failed
    · cases failed
    · cases failed
      exact .inl rfl

/-- The first byte shows the length of the group bit by bit. -/
theorem encode_marker (value : UInt64) :
    ∃ first rest, encode value = first :: rest ∧
      (∀ bit < length value - 1, first.toNat.testBit (7 - bit) = true) ∧
        (length value < maxLength →
          first.toNat.testBit (8 - length value) = false) := by
  obtain ⟨first, rest, shape, announced⟩ := encode_eq_cons value
  obtain ⟨counted, clear⟩ := Marker.testBit_leadingOnes first
  have positive := (inTier_length value).positive
  rw [announced] at counted clear
  refine ⟨first, rest, shape, counted, ?_⟩
  intro shorter
  have behind : 8 - length value = 7 - (length value - 1) := by omega
  rw [behind]
  exact clear (by
    simp only [maxLength] at shorter
    omega)

/-- Writing and reading are inverse to each other between the words and the
groups that spell one, each word having the one tier whose offsets enclose it;
reading fails exactly where the group stops short or spells no word; and no
offset is ever taken from a smaller number or added beyond the words. -/
theorem words_biject_with_groups :
    (∀ (value : UInt64) (trailing : List UInt8), ∃ tier,
      (∀ other, InTier value.toNat other ↔ other = tier) ∧
        (encode value).length = tier ∧
        (∃ first rest, encode value = first :: rest ∧
          (∀ bit < tier - 1, first.toNat.testBit (7 - bit) = true) ∧
            (tier < maxLength →
              first.toNat.testBit (8 - tier) = false)) ∧
        decode (encode value ++ trailing) = .ok (value, tier)) ∧
    (∀ bytes value consumed, decode bytes = .ok (value, consumed) →
      bytes.take consumed = encode value) ∧
    (∀ bytes,
      (∃ needed remainder,
          decode bytes = .error (.unexpectedEnd needed remainder)) ↔
        bytes = [] ∨ ∃ first rest, bytes = first :: rest ∧
          bytes.length < Marker.leadingOnes first + 1) ∧
    (∀ bytes, decode bytes = .error .varintOverflow ↔
      ∃ payload rest, bytes = 0xFF :: (payload ++ rest) ∧
        payload.length = 8 ∧
          Word.limit - 1 - bound 8 < BigEndian.decode payload) ∧
    (∀ bytes error, decode bytes = .error error →
      error = .varintOverflow ∨
        ∃ needed remainder, error = .unexpectedEnd needed remainder) ∧
    (∀ value : UInt64, bound (length value - 1) ≤ value.toNat) ∧
    (∀ first rest, rest.length = Marker.leadingOnes first →
      Marker.weight (rest.length + 1) ≤ BigEndian.decode (first :: rest) ∧
        (rest.length + 1 < maxLength →
          bound rest.length + (BigEndian.decode (first :: rest) -
            Marker.weight (rest.length + 1)) < Word.limit)) := by
  refine ⟨?_, fun _ _ _ => take_of_decode,
    fun _ => decode_eq_unexpectedEnd_iff, fun _ => decode_eq_overflow_iff,
    fun _ _ => decode_error_cases, fun value => (inTier_length value).lower,
    ?_⟩
  · intro value trailing
    refine ⟨length value, ?_, length_encode value, encode_marker value,
      decode_encode_append value trailing⟩
    intro other
    constructor
    · intro belongs
      exact belongs.unique (inTier_length value)
    · rintro rfl
      exact inTier_length value
  · intro first rest complete
    exact ⟨(Marker.decode_group complete).1, bound_add_payload_lt complete⟩

end Varint

end TagWire
