import TagWire.Proofs.Packet.RoundTrip

/-!
# Packets opened behind other bytes

A packet may be opened at any place of a buffer.  The records begin at this
place, but what closing answers and what is handed to a reader begin at the start
of the buffer.  The packet itself is read from the place where it was opened.
-/

namespace TagWire

/-- Behind other bytes a packet is read from where it begins. -/
theorem Reader.fields_behind {reader : Reader} {front packet : List UInt8}
    {fields : List Field} (atStart : reader.buffer.position = 0)
    (content : reader.buffer.content = front ++ packet)
    (written : Field.Written (fields ++ [Field.ending]) packet)
    (plain : ∀ field ∈ fields, field.value ≠ .eof)
    (addressed : packet.length < Word.limit) :
    ∃ after,
      Reader.fields (reader.skip front.length) =
        .ok (fields.map Field.stripped ++ [Field.ending]) after ∧
      after.buffer.remainder = 0 := by
  have stands : (reader.skip front.length).buffer.unread = packet ++ [] := by
    rw [unread_skip, Buffer.unread, atStart, content, List.drop_zero,
      List.drop_left, List.append_nil]
  refine ⟨_, fields_written written plain addressed stands, ?_⟩
  simp only [skip, Buffer.remainder, Buffer.extent, atStart, content,
    List.length_append, Nat.zero_add, Nat.sub_self]

namespace Writer

theorem forM_append_inside {fields : List Field} {writer after : Writer}
    (inside : writer.buffer.position ≤ writer.buffer.extent)
    (appended : fields.forM append writer = .ok () after) :
    after.buffer.position ≤ after.buffer.extent := by
  induction fields generalizing writer with
  | nil =>
      cases appended
      exact inside
  | cons field fields induction =>
      rw [forM_append_cons] at appended
      cases first : append field writer with
      | error error middle =>
          rw [first] at appended
          cases appended
      | ok answer middle =>
          rw [first] at appended
          obtain ⟨_, record, took⟩ := append_ok inside first
          exact induction took.inside appended

/-- Closing answers all bytes before the cursor. -/
theorem pack_ok {fields : List Field} {writer closed : Writer}
    {bytes : List UInt8}
    (inside : writer.buffer.position ≤ writer.buffer.extent)
    (packed : pack fields writer = .ok bytes closed) :
    bytes = closed.bytes ∧ closed.buffer.position < Buffer.addressLimit ∧
      ∃ packet, TookAll (fields ++ [Field.ending]) packet writer closed := by
  rw [pack_eq] at packed
  cases appended : fields.forM append writer with
  | error error after =>
      rw [appended] at packed
      cases packed
  | ok answer middle =>
      simp only [appended, finish_eq] at packed
      obtain ⟨records, tookAll⟩ := forM_append_ok inside appended
      cases ended : append Field.ending middle with
      | error error after =>
          rw [ended] at packed
          cases packed
      | ok answer after =>
          rw [ended] at packed
          cases packed
          obtain ⟨_, record, took⟩ :=
            append_ok (forM_append_inside inside appended) ended
          exact ⟨rfl, took.addressed, records ++ record, tookAll.concat took⟩

/-- Closing a packet answers it behind everything that stood before the place
where it was opened, and so does handing it to a reader: the answer is the packet
exactly if it was opened at the start.  The packet is read by itself, or from the
place where it was opened.  Read from the start, the fields of whole records that
stood before it come first. -/
theorem closed_packet_stands_behind_earlier_bytes {buffer : Buffer}
    {closed : Writer} {fields : List Field} {bytes : List UInt8}
    (inside : buffer.position ≤ buffer.extent)
    (plain : ∀ field ∈ fields, field.value ≠ .eof)
    (packed : pack fields (ofBuffer buffer) = .ok bytes closed) :
    ∃ packet, Field.Written (fields ++ [Field.ending]) packet ∧
      bytes = buffer.written ++ packet ∧
      closed.intoReader.buffer.content = bytes ∧
      (bytes = packet ↔ buffer.position = 0) ∧
      (∃ reader,
        Reader.fields (Reader.view packet) =
          .ok (fields.map Field.stripped ++ [Field.ending]) reader ∧
        reader.buffer.remainder = 0) ∧
      (∃ reader,
        Reader.fields ((Reader.view bytes).skip buffer.position) =
          .ok (fields.map Field.stripped ++ [Field.ending]) reader ∧
        reader.buffer.remainder = 0) ∧
      (∃ reader,
        Reader.fields (closed.intoReader.skip buffer.position) =
          .ok (fields.map Field.stripped ++ [Field.ending]) reader ∧
        reader.buffer.remainder = 0) ∧
      ∀ earlier, Field.Written earlier buffer.written →
        (∀ field ∈ earlier, field.value ≠ .eof) →
          (∃ reader,
            Reader.fields (Reader.view bytes) =
              .ok ((earlier ++ fields).map Field.stripped ++ [Field.ending])
                reader ∧
            reader.buffer.remainder = 0) ∧
          ∃ reader,
            Reader.fields closed.intoReader =
              .ok ((earlier ++ fields).map Field.stripped ++ [Field.ending])
                reader ∧
            reader.buffer.remainder = 0 := by
  obtain ⟨answer, limit, packet, tookAll⟩ := pack_ok inside packed
  have front : buffer.written.length = buffer.position := by
    rw [Buffer.written, List.length_take]
    exact Nat.min_eq_left inside
  have bytes_eq : bytes = buffer.written ++ packet := by
    rw [answer, tookAll.bytes_eq]
    rfl
  have handed : closed.intoReader.buffer.content = buffer.written ++ packet := by
    rw [← bytes_eq, answer]
    rfl
  have addressed : bytes.length < Word.limit := by
    have sized : bytes.length = closed.buffer.position := by
      rw [bytes_eq, List.length_append, front]
      exact tookAll.position_eq.symm
    rw [sized]
    exact limit
  have short : packet.length < Word.limit := by
    rw [bytes_eq, List.length_append] at addressed
    exact Nat.lt_of_le_of_lt (Nat.le_add_left _ _) addressed
  have opened : bytes = packet ↔ buffer.position = 0 := by
    rw [bytes_eq, List.append_left_eq_self, ← List.length_eq_zero_iff, front]
  refine ⟨packet, tookAll.written, bytes_eq, by rw [handed, bytes_eq], opened,
    ?_, ?_, ?_, ?_⟩
  · exact @Reader.fields_behind (Reader.view packet) [] packet fields rfl rfl
      tookAll.written plain short
  · rw [← front]
    exact Reader.fields_behind rfl bytes_eq tookAll.written plain short
  · rw [← front]
    exact Reader.fields_behind rfl handed tookAll.written plain short
  · intro earlier earlierWritten earlierPlain
    have written :
        Field.Written ((earlier ++ fields) ++ [Field.ending]) bytes := by
      rw [bytes_eq, List.append_assoc]
      exact earlierWritten.append tookAll.written
    have allPlain : ∀ field ∈ earlier ++ fields, field.value ≠ .eof := by
      intro field member
      rcases List.mem_append.mp member with early | late
      · exact earlierPlain field early
      · exact plain field late
    constructor
    · exact @Reader.fields_behind (Reader.view bytes) [] bytes _ rfl rfl
        written allPlain addressed
    · exact @Reader.fields_behind closed.intoReader [] bytes _ rfl
        (handed.trans bytes_eq.symm) written allPlain addressed

/-- A packet in little memory of the caller's stands behind the records of
another one, which is read with it from the start. -/
theorem closed_packet_stands_behind_earlier_record :
    let buffer : Buffer := { Buffer.borrowed [8, 1, 0, 0, 0, 9] with position := 2 }
    let fields : List Field := [⟨0, .bool false⟩]
    ∃ closed,
      pack fields (ofBuffer buffer) = .ok [8, 1, 8, 0, 0] closed ∧
      (∃ reader,
        Reader.fields ((Reader.view [8, 1, 8, 0, 0]).skip 2) =
          .ok [⟨0, .bool false⟩, ⟨0, .eof⟩] reader ∧
        reader.buffer.remainder = 0) ∧
      ∃ reader,
        Reader.fields closed.intoReader =
          .ok [⟨0, .bool true⟩, ⟨0, .bool false⟩, ⟨0, .eof⟩] reader ∧
        reader.buffer.remainder = 0 := by
  intro buffer fields
  obtain ⟨closed, packed⟩ : ∃ closed,
      pack fields (ofBuffer buffer) = .ok [8, 1, 8, 0, 0] closed := ⟨_, rfl⟩
  have plain : ∀ field ∈ fields, field.value ≠ .eof := by
    intro field member
    cases List.mem_singleton.mp member
    exact nofun
  obtain ⟨packet, written, bytes, _, _, _, opened, _, whole⟩ :=
    closed_packet_stands_behind_earlier_bytes (by decide) plain packed
  have earlier : Field.Written [⟨0, .bool true⟩] buffer.written :=
    .singleton rfl
  obtain ⟨_, handed⟩ := whole _ earlier (by
    intro field member
    cases List.mem_singleton.mp member
    exact nofun)
  exact ⟨closed, packed, opened, handed⟩

/-- Behind a byte that ends a packet, what closing answers is not read as the
fields that were appended. -/
theorem closed_packet_is_not_its_fields_behind_an_end :
    let buffer : Buffer := { Buffer.borrowed [7, 0, 0, 0] with position := 1 }
    ¬(∀ bytes closed,
      pack [⟨0, .bool true⟩] (ofBuffer buffer) = .ok bytes closed →
        ∃ reader, Reader.fields (Reader.view bytes) =
          .ok [⟨0, .bool true⟩, ⟨0, .eof⟩] reader) := by
  intro buffer readBack
  have packed : pack [⟨0, .bool true⟩] (ofBuffer buffer) =
      .ok [7, 8, 1, 0] _ := rfl
  obtain ⟨reader, read⟩ := readBack _ _ packed
  have first : Field.decode [7, 8, 1, 0] = .ok (⟨7, .eof⟩, 1) := rfl
  have ended : Reader.fields (Reader.view [7, 8, 1, 0]) =
      .ok [⟨7, .eof⟩] _ :=
    Reader.fields_of_decode (Packet.decode_end first rfl)
  rw [ended] at read
  cases read

end Writer

end TagWire
