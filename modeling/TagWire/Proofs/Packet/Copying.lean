import TagWire.Packet.Transcript
import TagWire.Proofs.Forms
import TagWire.Proofs.Packet.RoundTrip
import TagWire.Proofs.Packet.Walking

/-!
# Copies of packets

Records are taken from any bytes for as long as there are some, and the fields
are appended to a writer.  The copy has each record in its form, which is not
longer than the record, so it says the same and copying it once more changes
nothing.  What a copy drops is what records leave open: the tier of a tag, the
index of a field that stands for the packet as a whole, and the byte of a true
truth value.
-/

namespace TagWire

namespace Field

/-- Records beside their forms.  Only the last field may end a packet. -/
inductive Copied : List Field → List UInt8 → List UInt8 → Prop where
  | nil : Copied [] [] []
  | last {field : Field} {record form : List UInt8} :
      field.value = .eof → field.Shows record → field.encode = .ok form →
      Copied [field] record form
  | more {field : Field} {fields : List Field}
      {record form bytes copy : List UInt8} :
      field.value ≠ .eof → field.Shows record → field.encode = .ok form →
      Copied fields bytes copy →
      Copied (field :: fields) (record ++ bytes) (form ++ copy)

theorem Shows.length_le {field : Field} {record form : List UInt8}
    (shows : field.Shows record) (encoded : field.encode = .ok form) :
    form.length ≤ record.length := by
  obtain ⟨_, found, same, shorter⟩ := shows.encode
  rw [encoded] at same
  cases same
  exact shorter

theorem Copied.length_le {fields : List Field} {bytes copy : List UInt8}
    (copied : Copied fields bytes copy) : copy.length ≤ bytes.length := by
  induction copied with
  | nil => exact Nat.le_refl _
  | last _ shows encoded => exact shows.length_le encoded
  | more _ shows encoded _ induction =>
      rw [List.length_append, List.length_append]
      exact Nat.add_le_add (shows.length_le encoded) induction

theorem tag_stripped (field : Field) : field.stripped.tag = field.tag := by
  obtain ⟨index, value⟩ := field
  cases value <;> rfl

end Field

namespace Reader

theorem nextField_shortens {reader after : Reader} {field : Field}
    (taken : nextField reader = .ok field after) :
    after.buffer.unread.length < reader.buffer.unread.length := by
  rw [← nextFieldAlone_eq] at taken
  exact unread_shortens taken

/-- Takes records one at a time, up to an end record or to a record that is
refused. -/
def gather (reader : Reader) : List Field × Reader :=
  match _ : nextField reader with
  | .error _ after => ([], after)
  | .ok field after =>
    if field.value = .eof then ([field], after)
    else (gather after).map (field :: ·) id
termination_by reader.buffer.unread.length
decreasing_by exact nextField_shortens ‹_›

section Gathering

variable {reader after : Reader} {field : Field}

theorem gather_of_refused {error : WireError}
    (refused : Field.decode reader.buffer.unread = .error error) :
    gather reader = ([], reader) := by
  have failed := nextField_of_refused refused
  rw [gather]
  split
  · rename_i again
    rw [failed] at again
    cases again
    rfl
  · rename_i taken
    rw [failed] at taken
    cases taken

theorem gather_end (taken : nextField reader = .ok field after)
    (ends : field.value = .eof) : gather reader = ([field], after) := by
  rw [gather]
  split
  · rename_i failed
    rw [taken] at failed
    cases failed
  · rename_i again
    rw [taken] at again
    cases again
    rw [if_pos ends]

theorem gather_more (taken : nextField reader = .ok field after)
    (goesOn : field.value ≠ .eof) :
    gather reader = (gather after).map (field :: ·) id := by
  rw [gather]
  split
  · rename_i failed
    rw [taken] at failed
    cases failed
  · rename_i again
    rw [taken] at again
    cases again
    rw [if_neg goesOn]

end Gathering

/-- What is gathered are records of the fields, up to where the reader stops. -/
theorem gather_copied (reader : Reader) :
    ∃ length copy, (gather reader).2 = reader.skip length ∧
      Field.Copied (gather reader).1 (reader.buffer.unread.take length)
        copy := by
  induction reader using gather.induct with
  | case1 reader error after failed =>
      obtain ⟨rfl, refused⟩ := nextField_error failed
      rw [gather_of_refused refused]
      exact ⟨0, [], rfl, .nil⟩
  | case2 reader field after taken ends =>
      obtain ⟨length, record, rfl⟩ := nextField_ok taken
      have shows := Field.decode_ok record
      obtain ⟨_, form, encoded, _⟩ := shows.encode
      rw [gather_end taken ends]
      exact ⟨length, form, rfl, .last ends shows encoded⟩
  | case3 reader field after taken goesOn induction =>
      obtain ⟨length, record, rfl⟩ := nextField_ok taken
      have shows := Field.decode_ok record
      obtain ⟨_, form, encoded, _⟩ := shows.encode
      obtain ⟨further, copy, stops, copied⟩ := induction
      rw [gather_more taken goesOn]
      refine ⟨length + further, form ++ copy, ?_, ?_⟩
      · rw [Prod.map_snd, stops]
        exact skip_skip _ _ _
      · rw [unread_skip] at copied
        rw [List.take_add]
        exact .more goesOn shows encoded copied

/-- The forms are gathered as the fields without the indices that are not
written. -/
theorem gather_of_copied {fields : List Field} {bytes copy : List UInt8}
    {reader : Reader} (copied : Field.Copied fields bytes copy)
    (addressed : copy.length < Word.limit)
    (stands : reader.buffer.unread = copy) :
    gather reader = (fields.map Field.stripped, reader.skip copy.length) := by
  induction copied generalizing reader with
  | nil =>
      have refused : Field.decode reader.buffer.unread =
          .error (.unexpectedEnd 1 0) := by
        rw [stands]
        rfl
      exact gather_of_refused refused
  | @last field record form ends shows encoded =>
      have read := Field.decode_reads encoded addressed []
      rw [List.append_nil] at read
      have record : Field.decode reader.buffer.unread =
          .ok (field.stripped, form.length) := by
        rw [stands]
        exact read
      have ending : field.stripped.value = .eof := by
        rw [field.stripped_value, ends]
      exact gather_end (nextField_of_decode record) ending
  | @more field fields record form bytes copy goesOn shows encoded _
      induction =>
      rw [List.length_append] at addressed
      have read := Field.decode_reads encoded
        (Nat.lt_of_le_of_lt (Nat.le_add_right _ _) addressed) copy
      rw [← stands] at read
      have standsBehind : (reader.skip form.length).buffer.unread = copy := by
        rw [unread_skip, stands, List.drop_left]
      have rest := induction
        (Nat.lt_of_le_of_lt (Nat.le_add_left _ _) addressed) standsBehind
      have unended : field.stripped.value ≠ .eof := by
        rwa [field.stripped_value]
      rw [gather_more (nextField_of_decode read) unended, rest,
        List.length_append, ← skip_skip]
      rfl

end Reader

namespace Writer

theorem append_stripped (field : Field) :
    append field.stripped = append field := by
  funext writer
  simp only [append, writeRecord, Field.tag_stripped, Field.stripped_value]

theorem forM_append_stripped (fields : List Field) :
    (fields.map Field.stripped).forM append = fields.forM append := by
  induction fields with
  | nil => rfl
  | cons field fields induction =>
      funext writer
      rw [List.map_cons, forM_append_cons, forM_append_cons, append_stripped,
        induction]

theorem append_form {field : Field} {record form : List UInt8}
    {writer : Writer} (growing : Growing writer) (shows : field.Shows record)
    (encoded : field.encode = .ok form) :
    (∃ requested after, append field writer =
        .error (.allocationFailed requested) after) ∨
      ∃ after, append field writer = .ok () after ∧
        Took field form writer after := by
  rcases append_growing growing shows.encode.1 with
    failed | ⟨written, after, appended, took⟩
  · exact .inl failed
  · cases encoded.symm.trans took.encoded
    exact .inr ⟨after, appended, took⟩

/-- Memory of the writer's own takes gathered fields, unless no more can be
had. -/
theorem forM_append_copied {fields : List Field} {bytes copy : List UInt8}
    {writer : Writer} (copied : Field.Copied fields bytes copy)
    (growing : Growing writer)
    (addressed : writer.buffer.position < Buffer.addressLimit) :
    (∃ requested after, fields.forM append writer =
        .error (.allocationFailed requested) after) ∨
      ∃ after, fields.forM append writer = .ok () after ∧
        TookAll fields copy writer after ∧
        after.buffer.position < Buffer.addressLimit := by
  induction copied generalizing writer with
  | nil => exact .inr ⟨writer, rfl, .nil writer, addressed⟩
  | @last field record form ends shows encoded =>
      rw [forM_append_cons]
      rcases append_form growing shows encoded with
        ⟨requested, after, failed⟩ | ⟨after, appended, took⟩
      · rw [failed]
        exact .inl ⟨requested, after, rfl⟩
      · have tookAll := TookAll.cons took (.nil after)
        rw [List.append_nil] at tookAll
        rw [appended]
        exact .inr ⟨after, rfl, tookAll, took.addressed⟩
  | @more field fields record form bytes copy goesOn shows encoded _
      induction =>
      rw [forM_append_cons]
      rcases append_form growing shows encoded with
        ⟨requested, after, failed⟩ | ⟨middle, appended, took⟩
      · rw [failed]
        exact .inl ⟨requested, after, rfl⟩
      · rw [appended]
        rcases induction (took.growing growing goesOn) took.addressed with
          failed | ⟨after, appendedAll, tookAll, limit⟩
        · exact .inl failed
        · exact .inr ⟨after, appendedAll, .cons took tookAll, limit⟩

end Writer

namespace Transcript

theorem copy_of_refused {bytes : List UInt8} {error : WireError}
    (refused : Field.decode bytes = .error error) (writer : Writer) :
    (copy bytes writer).writer = writer := by
  rw [copy]
  split
  · rfl
  · rename_i read
    rw [refused] at read
    cases read

theorem copy_of_read {bytes : List UInt8} {field : Field} {length : Nat}
    (read : Field.decode bytes = .ok (field, length)) (writer : Writer) :
    (copy bytes writer).writer =
      match Writer.append field writer with
      | .error _ after => after
      | .ok () after => (copy (bytes.drop length) after).writer := by
  rw [copy]
  split
  · rename_i failed
    rw [read] at failed
    cases failed
  · rename_i again
    rw [read] at again
    cases again
    cases Writer.append field writer <;> rfl

theorem copy_finished {writer : Writer} (closed : writer.finished = true)
    (bytes : List UInt8) : (copy bytes writer).writer = writer := by
  cases read : Field.decode bytes with
  | error error => exact copy_of_refused read writer
  | ok answer => rw [copy_of_read read, Writer.append_finished closed]

/-- What is copied is what is gathered. -/
theorem copy_gathered {reader : Reader} {writer copied : Writer}
    (inside : writer.buffer.position ≤ writer.buffer.extent)
    (appended : (Reader.gather reader).1.forM Writer.append writer =
      .ok () copied) :
    (copy reader.buffer.unread writer).writer = copied := by
  induction reader using Reader.gather.induct generalizing writer with
  | case1 reader error after failed =>
      obtain ⟨rfl, refused⟩ := Reader.nextField_error failed
      rw [Reader.gather_of_refused refused] at appended
      cases appended
      exact copy_of_refused refused _
  | case2 reader field after taken ends =>
      obtain ⟨length, record, rfl⟩ := Reader.nextField_ok taken
      rw [Reader.gather_end taken ends, Writer.forM_append_cons] at appended
      rw [copy_of_read record]
      cases first : Writer.append field writer with
      | error error unchanged =>
          rw [first] at appended
          cases appended
      | ok answer closed =>
          rw [first] at appended
          cases appended
          obtain ⟨_, _, took⟩ := Writer.append_ok inside first
          exact copy_finished (took.finished_iff.mpr ends) _
  | case3 reader field after taken goesOn induction =>
      obtain ⟨length, record, rfl⟩ := Reader.nextField_ok taken
      rw [Reader.gather_more taken goesOn, Prod.map_fst,
        Writer.forM_append_cons] at appended
      rw [copy_of_read record]
      cases first : Writer.append field writer with
      | error error unchanged =>
          rw [first] at appended
          cases appended
      | ok answer middle =>
          rw [first] at appended
          obtain ⟨_, _, took⟩ := Writer.append_ok inside first
          rw [← Reader.unread_skip]
          exact induction took.inside appended

end Transcript

namespace Writer

/-- Records that are gathered from any bytes are taken by memory of the writer's
own, unless no more of it can be had.  The copy has the form of each record in
its place, so it is no longer than what was read.  It is gathered to its end as
the same fields without the indices that are not written, and they are copied to
the same bytes once more. -/
theorem copy_normalises {capacity : Nat} {writer : Writer}
    (made : Writer.owned capacity = .ok writer) (bytes : List UInt8)
    (allocated : ∀ requested after,
      (Reader.gather (Reader.view bytes)).1.forM append writer ≠
        .error (.allocationFailed requested) after) :
    ∃ fields stopped copied,
      Reader.gather (Reader.view bytes) = (fields, stopped) ∧
      fields.forM append writer = .ok () copied ∧
      Field.Copied fields (bytes.take stopped.buffer.position)
        copied.bytes ∧
      copied.bytes.length ≤ stopped.buffer.position ∧
      Reader.gather (Reader.view copied.bytes) =
        (fields.map Field.stripped,
          (Reader.view copied.bytes).skip copied.bytes.length) ∧
      (fields.map Field.stripped).forM append writer = .ok () copied ∧
      (Transcript.copy bytes writer).writer = copied := by
  obtain ⟨growing, _, start, _⟩ := owned_growing made
  obtain ⟨length, copy, stops, shown⟩ :=
    Reader.gather_copied (Reader.view bytes)
  have inReach : writer.buffer.position < Buffer.addressLimit := by
    rw [start]
    decide
  rcases forM_append_copied shown growing inReach with
    ⟨requested, after, failed⟩ | ⟨copied, appended, tookAll, limit⟩
  · exact (allocated requested after failed).elim
  · obtain ⟨same, reached⟩ := tookAll.of_owned made
    rw [reached] at limit
    have place : (Reader.gather (Reader.view bytes)).2.buffer.position =
        length := by
      rw [stops]
      exact Nat.zero_add length
    refine ⟨_, _, copied, rfl, appended, ?_, ?_, ?_, ?_, ?_⟩
    · rw [place, same]
      exact shown
    · rw [place, same]
      exact Nat.le_trans shown.length_le (List.length_take_le _ _)
    · rw [same]
      exact Reader.gather_of_copied shown limit rfl
    · rw [forM_append_stripped]
      exact appended
    · exact Transcript.copy_gathered growing.inside appended

/-- A truth value behind a tag of two bytes, a version and an end with indices,
and a byte that is not looked at. -/
theorem copy_normalises_wide_tag :
    let bytes : List UInt8 := [129, 1, 7, 125, 3, 2, 255]
    let fields : List Field :=
      [⟨1, .bool true⟩, ⟨5, .version 3⟩, ⟨2, .eof⟩]
    (Reader.gather (Reader.view bytes)).1 = fields ∧
      ∃ writer copied, owned 0 = .ok writer ∧
        fields.forM append writer = .ok () copied ∧
        copied.bytes = [9, 1, 120, 3, 0] ∧
        Reader.gather (Reader.view copied.bytes) =
          ([⟨1, .bool true⟩, ⟨0, .version 3⟩, ⟨0, .eof⟩],
            (Reader.view copied.bytes).skip 5) := by
  intro bytes fields
  let reader := Reader.view bytes
  have first : Field.decode reader.buffer.unread =
      .ok (⟨1, .bool true⟩, 3) := by decide
  have second : Field.decode (reader.skip 3).buffer.unread =
      .ok (⟨5, .version 3⟩, 2) := by decide
  have last : Field.decode ((reader.skip 3).skip 2).buffer.unread =
      .ok (⟨2, .eof⟩, 1) := by decide
  have gathered : Reader.gather (Reader.view bytes) =
      (fields, (Reader.view bytes).skip 6) := by
    rw [Reader.gather_more (Reader.nextField_of_decode first) (by decide),
      Reader.gather_more (Reader.nextField_of_decode second) (by decide),
      Reader.gather_end (Reader.nextField_of_decode last) rfl]
    rfl
  have made : owned 0 = .ok (ofBuffer (Buffer.atStart (.owned 0) [])) := rfl
  obtain ⟨final, packs, shortest⟩ : ∃ final,
      fields.forM append (ofBuffer (Buffer.atStart (.owned 0) [])) =
          .ok () final ∧ final.bytes = [9, 1, 120, 3, 0] := ⟨_, rfl, rfl⟩
  obtain ⟨found, stopped, copied, again, appended, _, _, copies, _⟩ :=
    copy_normalises made bytes (by
      rw [gathered, packs]
      exact fun _ _ => nofun)
  rw [gathered] at again
  cases again
  rw [packs] at appended
  cases appended
  rw [shortest] at copies
  refine ⟨by rw [gathered], _, final, made, packs, shortest, ?_⟩
  rw [shortest]
  exact copies

end Writer

end TagWire
