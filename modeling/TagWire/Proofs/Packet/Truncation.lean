import TagWire.Proofs.Packet.RoundTrip
import TagWire.Proofs.Packet.Walking

/-!
# Cut packets

A cut leaves some records of a packet whole and falls before or inside the next
one.  The whole records read as they were written.  What is left of the next one
is a beginning of a record, and a record that is read to its last byte has no
beginning that could be taken for a record, for a fault, or for an end.
-/

namespace TagWire

theorem prefix_append_cases {α : Type} {cut front behind : List α}
    (beginning : cut <+: front ++ behind) :
    (cut <+: front ∧ cut ≠ front) ∨
      ∃ rest, cut = front ++ rest ∧ rest <+: behind := by
  have whole : front <+: front ++ behind := List.prefix_append front behind
  by_cases inside : cut.length < front.length
  · left
    constructor
    · exact List.prefix_of_prefix_length_le beginning whole
        (Nat.le_of_lt inside)
    · rintro rfl
      exact Nat.lt_irrefl _ inside
  · right
    obtain ⟨rest, rfl⟩ := List.prefix_of_prefix_length_le whole beginning
      (Nat.le_of_not_lt inside)
    exact ⟨rest, rfl, (List.prefix_append_right_inj front).mp beginning⟩

namespace Field

theorem decode_cut {field : Field} {record cut : List UInt8}
    (encoded : field.encode = .ok record)
    (addressed : record.length < Word.limit)
    (beginning : cut <+: record) (proper : cut ≠ record) :
    ∃ needed remainder,
      decode cut = .error (.unexpectedEnd needed remainder) := by
  have whole := decode_reads encoded addressed []
  rw [List.append_nil] at whole
  exact decode_resumes.incremental.cut whole rfl cut beginning proper

/-- A cut falls behind some whole records, and the rest of it lacks bytes of the
next one. -/
theorem Written.cut {fields : List Field} {packet cut : List UInt8}
    (written : Written fields packet)
    (addressed : packet.length < Word.limit)
    (beginning : cut <+: packet) (proper : cut ≠ packet) :
    ∃ front next behind bytes rest needed remainder,
      fields = front ++ next :: behind ∧ Written front bytes ∧
        cut = bytes ++ rest ∧
          decode rest = .error (.unexpectedEnd needed remainder) := by
  induction written generalizing cut with
  | nil => exact (proper (List.prefix_nil.mp beginning)).elim
  | @cons field fields record bytes encoded behind induction =>
      rw [List.length_append] at addressed
      rcases prefix_append_cases beginning with
        ⟨inside, shorter⟩ | ⟨rest, rfl, beginningBehind⟩
      · obtain ⟨needed, remainder, lacks⟩ := decode_cut encoded
          (Nat.lt_of_le_of_lt (Nat.le_add_right _ _) addressed)
          inside shorter
        exact ⟨[], field, fields, [], cut, needed, remainder, rfl, .nil, rfl,
          lacks⟩
      · have properBehind : rest ≠ bytes := by
          rintro rfl
          exact proper rfl
        obtain ⟨front, next, others, whole, left, needed, remainder, rfl,
          wholeWritten, rfl, lacks⟩ := induction
            (Nat.lt_of_le_of_lt (Nat.le_add_left _ _) addressed)
            beginningBehind properBehind
        exact ⟨field :: front, next, others, record ++ whole, left, needed,
          remainder, rfl, .cons encoded wholeWritten,
          (List.append_assoc _ _ _).symm, lacks⟩

end Field

namespace Reader

/-- Of a cut packet some records are taken one at a time, and then bytes are
missing.  Taken at once the packet is refused for the same bytes, and the cursor
stays. -/
theorem fields_cut {fields : List Field} {packet cut : List UInt8}
    {reader : Reader}
    (written : Field.Written (fields ++ [Field.ending]) packet)
    (plain : ∀ field ∈ fields, field.value ≠ .eof)
    (addressed : packet.length < Word.limit)
    (beginning : cut <+: packet) (proper : cut ≠ packet)
    (stands : reader.buffer.unread = cut) :
    ∃ needed remainder count middle after, count ≤ fields.length ∧
      nextFields count reader =
        .ok ((fields.map Field.stripped).take count) middle ∧
      nextField middle = .error (.unexpectedEnd needed remainder) middle ∧
      Reader.fields reader = .error (.unexpectedEnd needed remainder) after ∧
      after.buffer.position = reader.buffer.position := by
  obtain ⟨front, next, behind, bytes, rest, needed, remainder, split,
    frontWritten, rfl, lacks⟩ := written.cut addressed beginning proper
  -- The record that was cut may be the end record, so the fields before it are
  -- among those that the end record follows.
  have among : front <+: fields := by
    rcases List.prefix_concat_iff.mp ⟨next :: behind, split.symm⟩ with
      whole | inside
    · rw [← whole] at split
      simp at split
    · exact inside
  obtain ⟨others, rfl⟩ := among
  have short : bytes.length < Word.limit := by
    have within := beginning.length_le
    rw [List.length_append] at within
    omega
  have plainFront : ∀ field ∈ front, field.value ≠ .eof :=
    fun field member => plain field (List.mem_append_left _ member)
  have walk := Walk.of_written frontWritten plainFront short stands
  have refused : Field.decode (reader.skip bytes.length).buffer.unread =
      .error (.unexpectedEnd needed remainder) := by
    rw [unread_skip, stands, List.drop_left]
    exact lacks
  have failed := nextField_of_refused refused
  obtain ⟨after, refusedWhole, place, _⟩ := walk.fields_of_refusal failed
  refine ⟨needed, remainder, front.length, reader.skip bytes.length, after,
    ?_, ?_, failed, refusedWhole, place⟩
  · rw [List.length_append]
    exact Nat.le_add_right _ _
  · rw [List.map_append, List.take_left' (List.length_map _)]
    exact walk.taken

end Reader

namespace Writer

/-- Whatever is cut off from the end of a packet is missed.  The fields that are
still read are the first of those that were packed, but not all of them and the
end, and the complaint is about missing bytes and nothing else. -/
theorem cut_packet_lacks_bytes {capacity : Nat} {writer closed : Writer}
    (made : Writer.owned capacity = .ok writer) {fields : List Field}
    (packable : ∀ field ∈ fields, Packable field) {packet : List UInt8}
    (packed : pack fields writer = .ok packet closed) {cut : List UInt8}
    (beginning : cut <+: packet) (proper : cut ≠ packet) :
    ∃ needed remainder,
      (∃ after, Reader.fields (Reader.view cut) =
          .error (.unexpectedEnd needed remainder) after ∧
        after.buffer.position = 0) ∧
      ∃ count middle,
        count < (fields.map Field.stripped ++ [Field.ending]).length ∧
        Reader.nextFields count (Reader.view cut) =
          .ok ((fields.map Field.stripped ++ [Field.ending]).take count)
            middle ∧
        Reader.nextField middle =
          .error (.unexpectedEnd needed remainder) middle := by
  rcases pack_growing (owned_growing made).1 packable with
    ⟨requested, after, failed⟩ | ⟨records, after, done, tookAll, _, limit⟩
  · rw [packed] at failed
    cases failed
  · rw [packed] at done
    cases done
    obtain ⟨whole, place⟩ := tookAll.of_owned made
    rw [place] at limit
    rw [whole] at beginning proper
    have stands : (Reader.view cut).buffer.unread = cut := rfl
    obtain ⟨needed, remainder, count, middle, stopped, short, taken, lacks,
      refused, stays⟩ := Reader.fields_cut tookAll.written
        (fun field member => (packable field member).goesOn)
        limit beginning proper stands
    refine ⟨needed, remainder, ⟨stopped, refused, stays⟩, count, middle, ?_, ?_,
      lacks⟩
    · rw [List.length_append, List.length_map, List.length_singleton]
      exact Nat.lt_succ_of_le short
    · rw [List.take_append_of_le_length (by rwa [List.length_map])]
      exact taken

/-- The cut falls into the first letter of a text. -/
theorem cut_packet_lacks_bytes_inside_text :
    let fields : List Field :=
      [⟨9, .version 300⟩, ⟨1, .bool true⟩, ⟨200, .text "é"⟩]
    let cut : List UInt8 := [120, 128, 172, 9, 1, 134, 200, 3, 195]
    (∀ field ∈ fields, Packable field) ∧
      ∃ needed remainder,
        (∃ after, Reader.fields (Reader.view cut) =
            .error (.unexpectedEnd needed remainder) after ∧
          after.buffer.position = 0) ∧
        ∃ count middle, count < 4 ∧
          Reader.nextFields count (Reader.view cut) =
            .ok (([⟨0, .version 300⟩, ⟨1, .bool true⟩, ⟨200, .text "é"⟩,
              ⟨0, .eof⟩] : List Field).take count) middle ∧
          Reader.nextField middle =
            .error (.unexpectedEnd needed remainder) middle := by
  intro fields cut
  have packable : ∀ field ∈ fields, Packable field := by
    intro field member
    simp only [fields, List.mem_cons, List.not_mem_nil, or_false] at member
    rcases member with rfl | rfl | rfl
    · exact ⟨nofun, fun unversioned => (unversioned 300 rfl).elim⟩
    · exact ⟨nofun, fun _ => by decide⟩
    · exact ⟨nofun, fun _ => by decide⟩
  have made : Writer.owned 3 =
      .ok (ofBuffer (Buffer.atStart (.owned 3) [0, 0, 0])) := rfl
  obtain ⟨closed, packed⟩ : ∃ closed,
      pack fields (ofBuffer (Buffer.atStart (.owned 3) [0, 0, 0])) =
        .ok (cut ++ [169, 0, 0]) closed := ⟨_, rfl⟩
  exact ⟨packable, cut_packet_lacks_bytes made packable packed
    (List.prefix_append cut [169, 0, 0]) (by decide)⟩

end Writer

end TagWire
