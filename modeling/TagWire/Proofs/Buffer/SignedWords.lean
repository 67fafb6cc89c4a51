import TagWire.Proofs.Buffer.RoundTrip
import TagWire.Proofs.Forms
import TagWire.Proofs.Number.Folding

/-!
# One group for every signed word

A signed word is appended as the group of its folded word, so what holds of
folding and of groups holds of the calls: every word has one group, which is
read back whatever follows it, and a reader takes nothing else for the word.
-/

namespace TagWire

namespace Buffer

/-- The bytes are what appending the signed word puts behind the cursor of some
buffer. -/
def GroupOf (word : Int64) (group : List UInt8) : Prop :=
  ∃ buffer after, Sound buffer ∧
    append Codec.signedVarint word buffer = .ok () after ∧
    after.written = buffer.written ++ group

/-! ## Appending -/

section Appending

variable {word : Int64} {group : List UInt8} {buffer after : Buffer}

theorem append_signed_ok (sound : Sound buffer)
    (appended : append Codec.signedVarint word buffer = .ok () after) :
    ∃ group, Codec.signedVarint.encode word = .ok group ∧
      Wrote group buffer after := by
  obtain ⟨group, encoded, written⟩ := writeEncoded_ok appended
  exact ⟨group, encoded, write_ok sound.inside written⟩

theorem length_signed_le
    (encoded : Codec.signedVarint.encode word = .ok group) :
    group.length ≤ Varint.maxLength := by
  cases encoded
  rw [Varint.length_encode]
  exact (Varint.inTier_length _).bounded

/-- Where there is room for the longest group, any group is written. -/
theorem append_signed_in_room (sound : Sound buffer)
    (writable : buffer.holding ≠ .view)
    (room : Varint.maxLength ≤ buffer.remainder) (word : Int64) :
    ∃ after, append Codec.signedVarint word buffer = .ok () after := by
  have encoded : Codec.signedVarint.encode word =
      .ok (Varint.encode (Zigzag.encode word)) := rfl
  have fits := Nat.le_trans (length_signed_le encoded) room
  have written := (write_in_room sound writable fits).1
  exact ⟨_, by rw [append, encoded]; exact written⟩

/-- No buffer has anything else written for a word than another. -/
theorem groupOf_iff :
    GroupOf word group ↔ Codec.signedVarint.encode word = .ok group := by
  constructor
  · rintro ⟨buffer, after, sound, appended, behind⟩
    obtain ⟨found, encoded, wrote⟩ := append_signed_ok sound appended
    rw [wrote.written_eq] at behind
    rw [encoded, List.append_cancel_left behind]
  · intro encoded
    let buffer := cloned (List.replicate Varint.maxLength 0)
    have sound : Sound buffer := Built.sound (.cloned (by decide))
    obtain ⟨after, appended⟩ :=
      append_signed_in_room sound nofun (Nat.le_refl _) word
    obtain ⟨found, same, wrote⟩ := append_signed_ok sound appended
    rw [encoded] at same
    cases same
    exact ⟨buffer, after, sound, appended, wrote.written_eq⟩

end Appending

/-! ## Reading -/

theorem GroupOf.next {word : Int64} {group trailing : List UInt8}
    {reader : Buffer} (written : GroupOf word group)
    (stands : reader.unread = group ++ trailing) :
    next Codec.signedVarint reader = .ok word (reader.advance group.length) ∧
      (reader.advance group.length).unread = trailing := by
  have encoded := groupOf_iff.mp written
  cases encoded
  constructor
  · apply takeWith_of_decode
    rw [stands]
    exact Codec.signedVarint_reads word trailing
  · rw [unread_advance, stands, List.drop_left]

theorem next_signed_ok {word : Int64} {reader after : Buffer}
    (taken : next Codec.signedVarint reader = .ok word after) :
    ∃ group, GroupOf word group ∧ reader.unread = group ++ after.unread ∧
      after = reader.advance group.length := by
  obtain ⟨length, read, rfl⟩ := takeWith_ok taken
  have within := Codec.signedVarint_resumes.consumed_le read
  have sized : (reader.unread.take length).length = length := by
    rw [List.length_take]
    exact Nat.min_eq_left within
  refine ⟨reader.unread.take length,
    groupOf_iff.mpr (Codec.signedVarint_canonical read), ?_, ?_⟩
  · rw [unread_advance, List.take_append_drop]
  · rw [sized]

theorem GroupOf.unique {word : Int64} {group other : List UInt8}
    (written : GroupOf word group) (also : GroupOf word other) :
    other = group := by
  have same := (groupOf_iff.mp also).symm.trans (groupOf_iff.mp written)
  cases same
  rfl

theorem GroupOf.word_unique {word other : Int64} {group : List UInt8}
    (written : GroupOf word group) (also : GroupOf other group) :
    other = word := by
  -- A reader at the start of the group answers both.
  have stands : (view group).unread = group ++ [] :=
    (List.append_nil group).symm
  have same := (also.next stands).1.symm.trans (written.next stands).1
  cases same
  rfl

/-- Folding loses nothing, overflows nowhere, and doubles the magnitude, less one
for a negative number.  So a signed word has one group, not longer than that of
any word further from zero; it is read back whatever follows it, and nothing
else is ever read as this word. -/
theorem signed_words_have_one_group :
    (∀ word, Zigzag.encodeChecked? word = some (Zigzag.encode word) ∧
      Zigzag.decodeChecked? (Zigzag.encode word) = some word) ∧
    (∀ folded, Zigzag.decodeChecked? folded = some (Zigzag.decode folded) ∧
      Zigzag.encodeChecked? (Zigzag.decode folded) = some folded) ∧
    (∀ word, ((Zigzag.encode word).toNat : Int) =
      if 0 ≤ word.toInt then 2 * word.toInt else -2 * word.toInt - 1) ∧
    -- What is written, and where it can be.
    (∀ word, ∃ group, GroupOf word group ∧
      group.length ≤ Varint.maxLength ∧
      (∀ other, GroupOf word other → other = group) ∧
      ∀ buffer, Sound buffer →
        (∀ after, append Codec.signedVarint word buffer = .ok () after →
          Wrote group buffer after) ∧
        (buffer.holding ≠ .view → Varint.maxLength ≤ buffer.remainder →
          ∃ after, append Codec.signedVarint word buffer = .ok () after) ∧
        (buffer.holding.isGrowable = true →
          (∃ requested, append Codec.signedVarint word buffer =
            .error (.allocationFailed requested) buffer) ∨
          ∃ after, append Codec.signedVarint word buffer = .ok () after)) ∧
    (∀ word other group longer,
      word.toInt.natAbs < other.toInt.natAbs → GroupOf word group →
      GroupOf other longer → group.length ≤ longer.length) ∧
    -- What is read.
    (∀ word group trailing reader, GroupOf word group →
      reader.unread = group ++ trailing →
      next Codec.signedVarint reader =
        .ok word (reader.advance group.length) ∧
      (reader.advance group.length).unread = trailing) ∧
    (∀ word reader after,
      next Codec.signedVarint reader = .ok word after →
      ∃ group, GroupOf word group ∧ reader.unread = group ++ after.unread ∧
        after = reader.advance group.length ∧
        ∀ other, GroupOf other group → other = word) := by
  refine ⟨?_, ?_, Zigzag.toNat_encode, ?_, ?_, ?_, ?_⟩
  · intro word
    refine ⟨Zigzag.encodeChecked?_eq word, ?_⟩
    rw [Zigzag.decodeChecked?_eq, Zigzag.decode_encode]
  · intro folded
    refine ⟨Zigzag.decodeChecked?_eq folded, ?_⟩
    rw [Zigzag.encodeChecked?_eq, Zigzag.encode_decode]
  · intro word
    have encoded : Codec.signedVarint.encode word =
        .ok (Varint.encode (Zigzag.encode word)) := rfl
    have written := groupOf_iff.mpr encoded
    refine ⟨_, written, length_signed_le encoded, fun _ => written.unique,
      fun buffer sound => ⟨?_, ?_, write_growing⟩⟩
    · intro after appended
      obtain ⟨group, same, wrote⟩ := append_signed_ok sound appended
      cases same
      exact wrote
    · exact fun writable room =>
        append_signed_in_room sound writable room word
  · intro word other group longer smaller written writtenOther
    cases groupOf_iff.mp written
    cases groupOf_iff.mp writtenOther
    exact Varint.length_encode_le_of_natAbs_lt smaller
  · exact fun word group trailing reader => GroupOf.next
  · intro word reader after taken
    obtain ⟨group, written, stands, rfl⟩ := next_signed_ok taken
    exact ⟨group, written, stands, rfl, fun _ => written.word_unique⟩

end Buffer

end TagWire
