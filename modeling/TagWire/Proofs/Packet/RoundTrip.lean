import TagWire.Proofs.Packet.Reading
import TagWire.Proofs.Packet.Writing

/-!
# Packets read back

A writer with memory of its own refuses a field only for its index or for want
of memory.  Without these two causes every list of fields makes a packet, and
the packet is read back as the same fields whatever bytes follow it.
-/

namespace TagWire

namespace Writer

/-- Writes a whole packet and answers its bytes. -/
def pack (fields : List Field) : WriterM (List UInt8) := do
  fields.forM append
  finish

/-- The field can stand in the middle of a packet: it does not end the packet,
and its index has a form.  The index of a version is not written. -/
structure Packable (field : Field) : Prop where
  goesOn : field.value ≠ .eof
  indexed : (∀ number, field.value ≠ .version number) →
    field.index.toNat ≤ Tag.maxIndex

theorem Packable.tag_index_le {field : Field} (packable : Packable field) :
    field.tag.index.toNat ≤ Tag.maxIndex := by
  obtain ⟨index, value⟩ := field
  cases value with
  | eof => exact Nat.zero_le _
  | version number => exact Nat.zero_le _
  | bool truth => exact packable.indexed fun _ => nofun
  | int number => exact packable.indexed fun _ => nofun
  | uint number => exact packable.indexed fun _ => nofun
  | float bits => exact packable.indexed fun _ => nofun
  | double bits => exact packable.indexed fun _ => nofun
  | text content => exact packable.indexed fun _ => nofun
  | bytes content => exact packable.indexed fun _ => nofun

/-- A packet that is still being written in memory of its own. -/
structure Growing (writer : Writer) : Prop where
  opened : writer.finished = false
  growable : writer.buffer.holding.isGrowable = true
  inside : writer.buffer.position ≤ writer.buffer.extent

theorem append_growing {writer : Writer} {field : Field}
    (growing : Growing writer) (indexed : field.tag.index.toNat ≤ Tag.maxIndex) :
    (∃ requested after,
        append field writer = .error (.allocationFailed requested) after) ∨
      ∃ record after, append field writer = .ok () after ∧
        Took field record writer after := by
  cases outcome : append field writer with
  | ok answer after =>
      obtain ⟨_, record, took⟩ := append_ok growing.inside outcome
      exact .inr ⟨record, after, rfl, took⟩
  | error error after =>
      obtain ⟨bytes, encoded⟩ := Tag.encode_of_index_le indexed
      rcases (append_error growing.inside outcome).2 with
        ⟨closed, _⟩ | ⟨_, unencoded | ⟨requested, rfl⟩ | ⟨fixed, _⟩⟩
      · rw [growing.opened] at closed
        cases closed
      · rw [encoded] at unencoded
        cases unencoded
      · exact .inl ⟨requested, after, rfl⟩
      · rw [growing.growable] at fixed
        cases fixed

theorem Took.growing {field : Field} {record : List UInt8}
    {writer after : Writer} (took : Took field record writer after)
    (growing : Growing writer) (goesOn : field.value ≠ .eof) :
    Growing after where
  opened := by
    have unended := mt took.finished_iff.mp goesOn
    simpa using unended
  growable := took.growable_eq.trans growing.growable
  inside := took.inside

/-- The packet is longer by the records of several fields. -/
structure TookAll (fields : List Field) (records : List UInt8)
    (writer after : Writer) : Prop where
  written : Field.Written fields records
  bytes_eq : after.bytes = writer.bytes ++ records
  position_eq :
    after.buffer.position = writer.buffer.position + records.length
  count_eq : after.fieldCount = writer.fieldCount + fields.length

theorem TookAll.nil (writer : Writer) : TookAll [] [] writer writer where
  written := .nil
  bytes_eq := (List.append_nil _).symm
  position_eq := rfl
  count_eq := rfl

theorem TookAll.cons {field : Field} {fields : List Field}
    {record records : List UInt8} {writer middle after : Writer}
    (took : Took field record writer middle)
    (behind : TookAll fields records middle after) :
    TookAll (field :: fields) (record ++ records) writer after where
  written := .cons took.encoded behind.written
  bytes_eq := by
    rw [behind.bytes_eq, took.bytes_eq, List.append_assoc]
  position_eq := by
    rw [behind.position_eq, took.position_eq, List.length_append,
      Nat.add_assoc]
  count_eq := by
    rw [behind.count_eq, took.count_eq, List.length_cons, Nat.add_assoc,
      Nat.add_comm 1]

/-- One more field makes the packet longer by its record. -/
theorem TookAll.concat {field : Field} {fields : List Field}
    {record records : List UInt8} {writer middle after : Writer}
    (front : TookAll fields records writer middle)
    (took : Took field record middle after) :
    TookAll (fields ++ [field]) (records ++ record) writer after where
  written := front.written.append (.singleton took.encoded)
  bytes_eq := by
    rw [took.bytes_eq, front.bytes_eq, List.append_assoc]
  position_eq := by
    rw [took.position_eq, front.position_eq, List.length_append,
      Nat.add_assoc]
  count_eq := by
    rw [took.count_eq, front.count_eq, List.length_append,
      List.length_singleton, Nat.add_assoc]

theorem forM_append_cons (field : Field) (fields : List Field)
    (writer : Writer) :
    (field :: fields).forM append writer =
      match append field writer with
      | .ok () after => fields.forM append after
      | .error error after => .error error after := by
  have unrolled : (field :: fields).forM append =
      append field >>= fun _ => fields.forM append := List.forM_cons
  simp only [unrolled, bind, EStateM.bind]
  cases append field writer <;> rfl

theorem forM_append_ok {fields : List Field} {writer after : Writer}
    (inside : writer.buffer.position ≤ writer.buffer.extent)
    (appended : fields.forM append writer = .ok () after) :
    ∃ records, TookAll fields records writer after := by
  induction fields generalizing writer with
  | nil =>
      cases appended
      exact ⟨[], .nil _⟩
  | cons field fields induction =>
      rw [forM_append_cons] at appended
      cases first : append field writer with
      | error error middle =>
          rw [first] at appended
          cases appended
      | ok answer middle =>
          rw [first] at appended
          obtain ⟨_, record, took⟩ := append_ok inside first
          obtain ⟨records, tookAll⟩ := induction took.inside appended
          exact ⟨record ++ records, .cons took tookAll⟩

theorem forM_append_growing {fields : List Field} {writer : Writer}
    (growing : Growing writer)
    (packable : ∀ field ∈ fields, Packable field) :
    (∃ requested after, fields.forM append writer =
        .error (.allocationFailed requested) after) ∨
      ∃ records after, fields.forM append writer = .ok () after ∧
        TookAll fields records writer after ∧ Growing after := by
  induction fields generalizing writer with
  | nil => exact .inr ⟨[], writer, rfl, .nil writer, growing⟩
  | cons field fields induction =>
      have member := packable field List.mem_cons_self
      rw [forM_append_cons]
      rcases append_growing growing member.tag_index_le with
        ⟨requested, after, failed⟩ | ⟨record, middle, appended, took⟩
      · rw [failed]
        exact .inl ⟨requested, after, rfl⟩
      · rw [appended]
        rcases induction (took.growing growing member.goesOn)
          (fun other inRest => packable other (List.mem_cons_of_mem _ inRest))
          with failed | ⟨records, after, appendedAll, tookAll, last⟩
        · exact .inl failed
        · exact .inr ⟨record ++ records, after, appendedAll,
            .cons took tookAll, last⟩

theorem pack_eq (fields : List Field) (writer : Writer) :
    pack fields writer =
      match fields.forM append writer with
      | .ok () middle => finish middle
      | .error error after => .error error after := by
  simp only [pack, bind, EStateM.bind]
  cases fields.forM append writer <;> rfl

theorem pack_growing {fields : List Field} {writer : Writer}
    (growing : Growing writer)
    (packable : ∀ field ∈ fields, Packable field) :
    (∃ requested after, pack fields writer =
        .error (.allocationFailed requested) after) ∨
      ∃ records after, pack fields writer = .ok after.bytes after ∧
        TookAll (fields ++ [Field.ending]) records writer after ∧
        after.finished = true ∧
        after.buffer.position < Buffer.addressLimit := by
  rw [pack_eq]
  rcases forM_append_growing growing packable with
    ⟨requested, after, failed⟩ | ⟨records, middle, appended, tookAll, last⟩
  · rw [failed]
    exact .inl ⟨requested, after, rfl⟩
  · simp only [appended, finish_eq]
    have indexed : Field.ending.tag.index.toNat ≤ Tag.maxIndex :=
      Nat.zero_le _
    rcases append_growing last indexed with
      ⟨requested, after, failed⟩ | ⟨record, after, closed, took⟩
    · simp only [failed]
      exact .inl ⟨requested, after, rfl⟩
    · simp only [closed]
      exact .inr ⟨records ++ record, after, rfl, tookAll.concat took,
        took.finished_iff.mpr rfl, took.addressed⟩

theorem owned_growing {capacity : Nat} {writer : Writer}
    (made : Writer.owned capacity = .ok writer) :
    Growing writer ∧ writer.bytes = [] ∧ writer.buffer.position = 0 ∧
      writer.fieldCount = 0 := by
  unfold Writer.owned Buffer.owned at made
  split at made
  · cases made
  · cases made
    exact ⟨⟨rfl, rfl, Nat.zero_le _⟩, rfl, rfl, rfl⟩

/-- What memory of the writer's own takes from the start is all there is. -/
theorem TookAll.of_owned {capacity : Nat} {writer after : Writer}
    {fields : List Field} {records : List UInt8}
    (tookAll : TookAll fields records writer after)
    (made : Writer.owned capacity = .ok writer) :
    after.bytes = records ∧ after.buffer.position = records.length := by
  obtain ⟨_, empty, start, _⟩ := owned_growing made
  constructor
  · rw [tookAll.bytes_eq, empty, List.nil_append]
  · rw [tookAll.position_eq, start, Nat.zero_add]

/-- Fields that are packed in memory of their own, as long as memory can be
had, are read back from the packet at once and one by one, whatever follows the
packet, and from the writer's own buffer, however much of it is spare. -/
theorem packet_reads_back {capacity : Nat} {writer : Writer}
    (made : Writer.owned capacity = .ok writer) (fields : List Field)
    (packable : ∀ field ∈ fields, Packable field)
    (allocated : ∀ requested after,
      pack fields writer ≠ .error (.allocationFailed requested) after)
    (trailing : List UInt8) :
    ∃ packet closed, pack fields writer = .ok packet closed ∧
      closed.bytes = packet ∧
      closed.fieldCount = fields.length + 1 ∧
      (∃ reader,
        Reader.fields (Reader.view (packet ++ trailing)) =
          .ok (fields.map Field.stripped ++ [Field.ending]) reader ∧
        reader.buffer.position = packet.length ∧
        reader.buffer.remainder = trailing.length) ∧
      (∃ reader,
        Reader.nextFields (fields.length + 1)
            (Reader.view (packet ++ trailing)) =
          .ok (fields.map Field.stripped ++ [Field.ending]) reader ∧
        reader.buffer.position = packet.length ∧
        reader.buffer.remainder = trailing.length) ∧
      ∃ reader,
        Reader.fields closed.intoReader =
          .ok (fields.map Field.stripped ++ [Field.ending]) reader ∧
        reader.buffer.remainder = 0 := by
  obtain ⟨growing, empty, start, none⟩ := owned_growing made
  rcases pack_growing growing packable with
    ⟨requested, after, failed⟩ | ⟨packet, closed, packed, tookAll, _, limit⟩
  · exact (allocated requested after failed).elim
  · have bytes : closed.bytes = packet := by
      rw [tookAll.bytes_eq, empty, List.nil_append]
    have addressed : packet.length < Word.limit := by
      rw [tookAll.position_eq, start, Nat.zero_add] at limit
      exact limit
    have plain : ∀ field ∈ fields, field.value ≠ .eof :=
      fun field member => (packable field member).goesOn
    have whole : (fields.map Field.stripped ++ [Field.ending]) =
        (fields ++ [Field.ending]).map Field.stripped := by
      rw [List.map_append]
      rfl
    refine ⟨packet, closed, by rw [packed, bytes], bytes, ?_, ?_, ?_, ?_⟩
    · rw [tookAll.count_eq, none, List.length_append, List.length_singleton,
        Nat.zero_add]
    · exact ⟨(Reader.view (packet ++ trailing)).skip packet.length,
        Reader.fields_written tookAll.written plain addressed rfl,
        Reader.skip_front rfl rfl⟩
    · refine ⟨(Reader.view (packet ++ trailing)).skip packet.length, ?_,
        Reader.skip_front rfl rfl⟩
      have sized : fields.length + 1 = (fields ++ [Field.ending]).length := by
        rw [List.length_append, List.length_singleton]
      rw [sized, whole]
      exact Reader.nextFields_written tookAll.written addressed rfl
    · have content : closed.intoReader.buffer.content = packet ++ [] := by
        rw [List.append_nil, ← bytes]
        rfl
      exact ⟨closed.intoReader.skip packet.length,
        Reader.fields_written tookAll.written plain addressed content,
        (Reader.skip_front rfl content).2⟩

/-- Three fields outgrow three bytes, and one more byte follows the packet. -/
theorem packet_reads_back_after_growth :
    let fields : List Field :=
      [⟨9, .version 300⟩, ⟨1, .bool true⟩, ⟨200, .text "é"⟩]
    let packet : List UInt8 :=
      [120, 128, 172, 9, 1, 134, 200, 3, 195, 169, 0, 0]
    (∀ field ∈ fields, Packable field) ∧
      ∃ reader,
        Reader.fields (Reader.view (packet ++ [255])) =
          .ok [⟨0, .version 300⟩, ⟨1, .bool true⟩, ⟨200, .text "é"⟩,
            ⟨0, .eof⟩] reader ∧
        reader.buffer.position = 12 ∧ reader.buffer.remainder = 1 := by
  intro fields packet
  have packable : ∀ field ∈ fields, Packable field := by
    intro field member
    simp only [fields, List.mem_cons, List.not_mem_nil, or_false] at member
    rcases member with rfl | rfl | rfl
    · exact ⟨nofun, fun unversioned => (unversioned 300 rfl).elim⟩
    · exact ⟨nofun, fun _ => by decide⟩
    · exact ⟨nofun, fun _ => by decide⟩
  have made : Writer.owned 3 =
      .ok (ofBuffer (Buffer.atStart (.owned 3) [0, 0, 0])) := rfl
  obtain ⟨final, packs⟩ : ∃ final, pack fields
      (ofBuffer (Buffer.atStart (.owned 3) [0, 0, 0])) = .ok packet final :=
    ⟨_, rfl⟩
  obtain ⟨written, closed, packed, _, _, atOnce, _⟩ :=
    packet_reads_back made fields packable
      (by rw [packs]; exact fun _ _ => nofun) [255]
  rw [packs] at packed
  cases packed
  exact ⟨packable, atOnce⟩

end Writer

end TagWire
