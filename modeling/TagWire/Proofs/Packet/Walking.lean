import TagWire.Proofs.Buffer.Reading
import TagWire.Proofs.Packet.Reading

/-!
# Taking a packet at once and record by record

Every record takes at least one byte, so taking records one at a time comes to
an end record or to a refusal on any bytes whatever.  A packet that is taken at
once is the records up to that end, or the same refusal.

There are two ways to take it at once: in one pass, or by finding the end record
first and then reading what lies before the cursor.  The second pass sees other
bytes than the first, namely none behind the end, and finds the same records.
-/

namespace TagWire

theorem Field.decode_length_bounds {bytes : List UInt8} {field : Field}
    {length : Nat} (read : Field.decode bytes = .ok (field, length)) :
    0 < length ∧ length ≤ bytes.length :=
  ⟨Field.decode_length_pos read, Field.decode_resumes.consumed_le read⟩

namespace Packet

theorem decode_of_error {bytes : List UInt8} {error : WireError}
    (refused : Field.decode bytes = .error error) :
    decode bytes = .error error := by
  rw [decode]
  split
  · rename_i early failed
    rw [refused] at failed
    cases failed
    rfl
  · rename_i read
    rw [refused] at read
    cases read

/-- Reads the records of a window up to its end. -/
def collect (window : List UInt8) : Except WireError (List Field) :=
  if window = [] then
    .ok []
  else
    match _ : Field.decode window with
    | .error error => .error error
    | .ok (field, length) => (collect (window.drop length)).map (field :: ·)
termination_by window.length
decreasing_by exact Field.decode_shortens ‹_›

theorem collect_nil : collect [] = .ok [] := by
  rw [collect, if_pos rfl]

theorem collect_of_read {window : List UInt8} {field : Field} {length : Nat}
    (read : Field.decode window = .ok (field, length)) :
    collect window = (collect (window.drop length)).map (field :: ·) := by
  have something : window ≠ [] := by
    rintro rfl
    obtain ⟨positive, within⟩ := Field.decode_length_bounds read
    exact Nat.not_lt_of_le within positive
  rw [collect, if_neg something]
  split
  · rename_i failed
    rw [read] at failed
    cases failed
  · rename_i again
    rw [read] at again
    cases again
    rfl

/-- The bytes begin with records of which the last one, and no other, ends the
packet. -/
inductive Complete : List UInt8 → List Field → Nat → Prop where
  | last {bytes : List UInt8} {field : Field} {length : Nat} :
      Field.decode bytes = .ok (field, length) → field.value = .eof →
      Complete bytes [field] length
  | more {bytes : List UInt8} {field : Field} {first : Nat}
      {fields : List Field} {behind : Nat} :
      Field.decode bytes = .ok (field, first) → field.value ≠ .eof →
      Complete (bytes.drop first) fields behind →
      Complete bytes (field :: fields) (first + behind)

theorem decode_complete {bytes : List UInt8} {fields : List Field}
    {length : Nat} (read : decode bytes = .ok (fields, length)) :
    Complete bytes fields length := by
  induction bytes using decode.induct generalizing fields length with
  | case1 bytes error refused =>
      rw [decode_of_error refused] at read
      cases read
  | case2 bytes field first record ends =>
      rw [decode_end record ends] at read
      cases read
      exact .last record ends
  | case3 bytes field first record goesOn induction =>
      rw [decode_more record goesOn] at read
      cases behind : decode (bytes.drop first) with
      | error error =>
          rw [behind] at read
          cases read
      | ok rest =>
          rw [behind] at read
          cases read
          exact .more record goesOn (induction behind)

theorem Complete.determined {bytes : List UInt8} {fields : List Field}
    {length : Nat} (complete : Complete bytes fields length) :
    length ≤ bytes.length ∧
      ∀ other, other.take length = bytes.take length →
        decode other = .ok (fields, length) := by
  induction complete with
  | last record ends =>
      obtain ⟨_, within, determined⟩ :=
        Field.decode_resumes.answered (Nat.zero_le _) record
      refine ⟨within, ?_⟩
      intro other same
      exact decode_end (determined other same) ends
  | @more bytes field first fields behind record goesOn _ induction =>
      obtain ⟨_, within, determined⟩ :=
        Field.decode_resumes.answered (Nat.zero_le _) record
      obtain ⟨inside, determinedBehind⟩ := induction
      rw [List.length_drop] at inside
      simp only at within
      refine ⟨by omega, ?_⟩
      intro other same
      have sameFirst : other.take first = bytes.take first := by
        have cut := congrArg (List.take first) same
        rwa [List.take_take, List.take_take,
          Nat.min_eq_left (Nat.le_add_right _ _)] at cut
      have sameBehind : (other.drop first).take behind =
          (bytes.drop first).take behind := by
        have cut := congrArg (List.drop first) same
        rwa [List.drop_take, List.drop_take, Nat.add_sub_cancel_left] at cut
      rw [decode_more (determined other sameFirst) goesOn,
        determinedBehind _ sameBehind]
      rfl

theorem decode_length_le {bytes : List UInt8} {fields : List Field}
    {length : Nat} (read : decode bytes = .ok (fields, length)) :
    length ≤ bytes.length :=
  (decode_complete read).determined.1

theorem Complete.collect_take {bytes : List UInt8} {fields : List Field}
    {length : Nat} (complete : Complete bytes fields length) :
    collect (bytes.take length) = .ok fields := by
  induction complete with
  | @last bytes field length record _ =>
      have alone := Field.decode_resumes.decode_take record
      have nothing : (bytes.take length).drop length = [] :=
        List.drop_eq_nil_of_le (List.length_take_le _ _)
      rw [collect_of_read alone, nothing, collect_nil]
      rfl
  | @more bytes field first fields behind record _ _ induction =>
      obtain ⟨_, _, determined⟩ :=
        Field.decode_resumes.answered (Nat.zero_le _) record
      have again : Field.decode (bytes.take (first + behind)) =
          .ok (field, first) := by
        apply determined
        rw [List.take_take, Nat.min_eq_left (Nat.le_add_right _ _)]
      have window : (bytes.take (first + behind)).drop first =
          (bytes.drop first).take behind := by
        rw [List.drop_take, Nat.add_sub_cancel_left]
      rw [collect_of_read again, window, induction]
      rfl

end Packet

namespace Reader

/-- Takes the next record and reads it from its own bytes alone. -/
def nextFieldAlone : ReaderM Field := onBuffer (Buffer.takeAlone Field.decode)

theorem nextFieldAlone_eq : nextFieldAlone = nextField := by
  rw [nextFieldAlone, Buffer.takeAlone_eq Field.decode_resumes, nextField]

theorem onBuffer_ok {α : Type} {action : BufferM α} {reader after : Reader}
    {answer : α} (done : onBuffer action reader = .ok answer after) :
    action reader.buffer = .ok answer after.buffer := by
  unfold onBuffer at done
  cases outcome : action reader.buffer <;> rw [outcome] at done <;>
    cases done
  rfl

theorem onBuffer_error {α : Type} {action : BufferM α} {reader after : Reader}
    {error : WireError} (failed : onBuffer action reader = .error error after) :
    action reader.buffer = .error error after.buffer := by
  unfold onBuffer at failed
  cases outcome : action reader.buffer <;> rw [outcome] at failed <;>
    cases failed
  rfl

theorem nextField_ok {reader after : Reader} {field : Field}
    (taken : nextField reader = .ok field after) :
    ∃ length, Field.decode reader.buffer.unread = .ok (field, length) ∧
      after = reader.skip length := by
  obtain ⟨length, record, moved⟩ := Buffer.takeWith_ok (onBuffer_ok taken)
  refine ⟨length, record, ?_⟩
  obtain ⟨buffer⟩ := after
  cases moved
  rfl

theorem nextField_error {reader after : Reader} {error : WireError}
    (failed : nextField reader = .error error after) :
    after = reader ∧ Field.decode reader.buffer.unread = .error error := by
  obtain ⟨same, refused⟩ := Buffer.takeWith_error (onBuffer_error failed)
  obtain ⟨buffer⟩ := after
  cases same
  exact ⟨rfl, refused⟩

theorem nextField_of_refused {reader : Reader} {error : WireError}
    (refused : Field.decode reader.buffer.unread = .error error) :
    nextField reader = .error error reader := by
  simp only [nextField, onBuffer, Buffer.takeWith, refused]

theorem unread_shortens {reader after : Reader} {field : Field}
    (taken : nextFieldAlone reader = .ok field after) :
    after.buffer.unread.length < reader.buffer.unread.length := by
  rw [nextFieldAlone_eq] at taken
  obtain ⟨length, record, rfl⟩ := nextField_ok taken
  rw [unread_skip]
  exact Field.decode_shortens record

/-- Moves the cursor behind the next end record. -/
def skipToEnd (reader : Reader) : EStateM.Result WireError Reader Unit :=
  match _ : nextFieldAlone reader with
  | .error error after => .error error after
  | .ok field after =>
    if field.value = .eof then .ok () after else skipToEnd after
termination_by reader.buffer.unread.length
decreasing_by exact unread_shortens ‹_›

/-- Takes the records up to the first end record in two passes, and sets the
cursor back if the first one fails. -/
def fieldsInPasses : ReaderM (List Field) := fun reader =>
  match skipToEnd reader with
  | .error error after =>
    match Buffer.setPosition reader.buffer.position after.buffer with
    | .error refusal buffer => .error refusal { buffer }
    | .ok () buffer => .error error { buffer }
  | .ok () after =>
    match Packet.collect
      (after.buffer.written.drop reader.buffer.position) with
    | .error error => .error error after
    | .ok fields => .ok fields after

theorem skipToEnd_end {reader after : Reader} {field : Field}
    (taken : nextField reader = .ok field after) (ends : field.value = .eof) :
    skipToEnd reader = .ok () after := by
  rw [← nextFieldAlone_eq] at taken
  rw [skipToEnd]
  split
  · rename_i failed
    rw [taken] at failed
    cases failed
  · rename_i again
    rw [taken] at again
    cases again
    rw [if_pos ends]

theorem skipToEnd_more {reader after : Reader} {field : Field}
    (taken : nextField reader = .ok field after)
    (goesOn : field.value ≠ .eof) :
    skipToEnd reader = skipToEnd after := by
  rw [← nextFieldAlone_eq] at taken
  rw [skipToEnd]
  split
  · rename_i failed
    rw [taken] at failed
    cases failed
  · rename_i again
    rw [taken] at again
    cases again
    rw [if_neg goesOn]

theorem skipToEnd_error {reader after : Reader} {error : WireError}
    (failed : nextField reader = .error error after) :
    skipToEnd reader = .error error after := by
  rw [← nextFieldAlone_eq] at failed
  rw [skipToEnd]
  split
  · rename_i again
    rw [failed] at again
    cases again
    rfl
  · rename_i taken
    rw [failed] at taken
    cases taken

/-- Records that are taken one at a time, none of which ends the packet. -/
structure Walk (count : Nat) (reader : Reader) (front : List Field)
    (middle : Reader) : Prop where
  taken : nextFields count reader = .ok front middle
  goesOn : ∀ field ∈ front, field.value ≠ .eof

theorem Walk.nil (reader : Reader) : Walk 0 reader [] reader :=
  ⟨rfl, by simp⟩

theorem Walk.cons {count : Nat} {reader after middle : Reader} {field : Field}
    {front : List Field} (first : nextField reader = .ok field after)
    (goesOn : field.value ≠ .eof) (walk : Walk count after front middle) :
    Walk (count + 1) reader (field :: front) middle := by
  constructor
  · rw [nextFields_succ first, walk.taken]
  · intro other member
    rcases List.mem_cons.mp member with rfl | later
    · exact goesOn
    · exact walk.goesOn other later

theorem Walk.of_written {fields : List Field} {bytes rest : List UInt8}
    {reader : Reader} (written : Field.Written fields bytes)
    (plain : ∀ field ∈ fields, field.value ≠ .eof)
    (addressed : bytes.length < Word.limit)
    (stands : reader.buffer.unread = bytes ++ rest) :
    Walk fields.length reader (fields.map Field.stripped)
      (reader.skip bytes.length) := by
  constructor
  · exact nextFields_written written addressed stands
  · intro stripped member
    obtain ⟨field, among, rfl⟩ := List.mem_map.mp member
    rw [field.stripped_value]
    exact plain field among

theorem Walk.uncons {count : Nat} {reader middle : Reader} {front : List Field}
    (walk : Walk (count + 1) reader front middle) :
    ∃ field after rest, nextField reader = .ok field after ∧
      field.value ≠ .eof ∧ Walk count after rest middle ∧
        front = field :: rest := by
  obtain ⟨taken, goesOn⟩ := walk
  cases first : nextField reader with
  | error error after =>
      simp only [nextFields, bind, EStateM.bind, first] at taken
      cases taken
  | ok field after =>
      rw [nextFields_succ first] at taken
      cases behind : nextFields count after with
      | error error last =>
          rw [behind] at taken
          cases taken
      | ok rest last =>
          rw [behind] at taken
          cases taken
          refine ⟨field, after, rest, rfl, ?_, ⟨behind, ?_⟩, rfl⟩
          · exact goesOn field List.mem_cons_self
          · intro other member
            exact goesOn other (List.mem_cons_of_mem _ member)

theorem skip_skip (first behind : Nat) (reader : Reader) :
    (reader.skip first).skip behind = reader.skip (first + behind) := by
  simp only [skip, Nat.add_assoc]

theorem remainder_skip (length : Nat) (reader : Reader) :
    (reader.skip length).buffer.remainder =
      reader.buffer.remainder - length := by
  simp only [skip, Buffer.remainder, Buffer.extent]
  omega

/-- A walk stays within the bytes, and whoever takes the packet at once comes
through the place where the walk stops. -/
theorem Walk.reaches {count : Nat} {reader middle : Reader}
    {front : List Field} (walk : Walk count reader front middle) :
    ∃ length, count ≤ length ∧ length ≤ reader.buffer.remainder ∧
      middle = reader.skip length ∧
      skipToEnd reader = skipToEnd middle ∧
      Packet.decode reader.buffer.unread =
        (Packet.decode middle.buffer.unread).map fun (fields, rest) =>
          (front ++ fields, length + rest) := by
  induction count generalizing reader front with
  | zero =>
      obtain ⟨taken, _⟩ := walk
      cases taken
      refine ⟨0, Nat.le_refl _, Nat.zero_le _, rfl, rfl, ?_⟩
      cases Packet.decode middle.buffer.unread with
      | error error => rfl
      | ok packet => simp [Except.map]
  | succ count induction =>
      obtain ⟨field, after, rest, first, goesOn, behind, rfl⟩ := walk.uncons
      obtain ⟨length, record, rfl⟩ := nextField_ok first
      obtain ⟨further, counted, within, rfl, skipped, decoded⟩ :=
        induction behind
      obtain ⟨positive, inside⟩ := Field.decode_length_bounds record
      rw [Buffer.length_unread] at inside
      rw [remainder_skip] at within
      refine ⟨length + further, by omega, by omega, skip_skip _ _ _, ?_, ?_⟩
      · rw [skipToEnd_more first goesOn, skipped]
      · rw [Packet.decode_more record goesOn, ← unread_skip, decoded]
        cases Packet.decode
          ((reader.skip length).skip further).buffer.unread with
        | error error => rfl
        | ok packet => simp [Except.map, Nat.add_assoc]

/-- Taking records one at a time comes to an end record or to a refusal. -/
theorem exists_walk (reader : Reader) :
    ∃ count front middle, Walk count reader front middle ∧
      ((∃ last after, nextField middle = .ok last after ∧
          last.value = .eof) ∨
        ∃ error, nextField middle = .error error middle) := by
  -- The first pass ends because each record shortens what is unread, and its
  -- recursion is the induction here.
  induction reader using skipToEnd.induct with
  | case1 reader error after failed =>
      rw [nextFieldAlone_eq] at failed
      obtain ⟨rfl, _⟩ := nextField_error failed
      exact ⟨0, [], _, .nil _, .inr ⟨error, failed⟩⟩
  | case2 reader last after taken ends =>
      rw [nextFieldAlone_eq] at taken
      exact ⟨0, [], reader, .nil reader, .inl ⟨last, after, taken, ends⟩⟩
  | case3 reader field after taken goesOn induction =>
      rw [nextFieldAlone_eq] at taken
      obtain ⟨count, front, middle, walk, stops⟩ := induction
      exact ⟨count + 1, field :: front, middle, .cons taken goesOn walk,
        stops⟩

theorem fields_of_error {reader : Reader} {error : WireError}
    (refused : Packet.decode reader.buffer.unread = .error error) :
    Reader.fields reader = .error error
      { buffer := reader.buffer.moveTo reader.buffer.position } := by
  simp only [Reader.fields, refused]

section Ending

variable {count : Nat} {reader middle : Reader} {front : List Field}

theorem Walk.decode_of_end {last : Field} {after : Reader}
    (walk : Walk count reader front middle)
    (taken : nextField middle = .ok last after) (ends : last.value = .eof) :
    ∃ length, Packet.decode reader.buffer.unread =
        .ok (front ++ [last], length) ∧
      after = reader.skip length ∧ skipToEnd reader = .ok () after := by
  obtain ⟨length, _, _, rfl, skipped, decoded⟩ := walk.reaches
  obtain ⟨size, record, rfl⟩ := nextField_ok taken
  rw [Packet.decode_end record ends] at decoded
  exact ⟨length + size, decoded, skip_skip _ _ _,
    skipped.trans (skipToEnd_end taken ends)⟩

theorem Walk.decode_of_error {error : WireError} {stopped : Reader}
    (walk : Walk count reader front middle)
    (failed : nextField middle = .error error stopped) :
    Packet.decode reader.buffer.unread = .error error ∧
      ∃ length, length ≤ reader.buffer.remainder ∧
        skipToEnd reader = .error error (reader.skip length) := by
  obtain ⟨length, _, within, rfl, skipped, decoded⟩ := walk.reaches
  obtain ⟨rfl, refused⟩ := nextField_error failed
  rw [Packet.decode_of_error refused] at decoded
  exact ⟨decoded, length, within, skipped.trans (skipToEnd_error failed)⟩

end Ending

theorem window_skip (length : Nat) (reader : Reader) :
    (reader.skip length).buffer.written.drop reader.buffer.position =
      reader.buffer.unread.take length := by
  simp only [skip, Buffer.written, Buffer.unread, List.drop_take,
    Nat.add_sub_cancel_left]

theorem skipToEnd_ok {reader after : Reader}
    (skipped : skipToEnd reader = .ok () after) :
    ∃ fields length,
      Packet.decode reader.buffer.unread = .ok (fields, length) ∧
        length ≤ reader.buffer.remainder ∧ after = reader.skip length := by
  obtain ⟨count, front, middle, walk,
    ⟨last, behind, taken, ends⟩ | ⟨error, failed⟩⟩ := exists_walk reader
  · obtain ⟨length, decoded, rfl, found⟩ := walk.decode_of_end taken ends
    have within := Packet.decode_length_le decoded
    rw [Buffer.length_unread] at within
    rw [found] at skipped
    cases skipped
    exact ⟨_, length, decoded, within, rfl⟩
  · obtain ⟨_, length, _, found⟩ := walk.decode_of_error failed
    rw [found] at skipped
    cases skipped

theorem skipToEnd_refused {reader stopped : Reader} {error : WireError}
    (failed : skipToEnd reader = .error error stopped) :
    Packet.decode reader.buffer.unread = .error error ∧
      ∃ length, length ≤ reader.buffer.remainder ∧
        stopped = reader.skip length := by
  obtain ⟨count, front, middle, walk,
    ⟨last, behind, taken, ends⟩ | ⟨refusal, refused⟩⟩ := exists_walk reader
  · obtain ⟨_, _, _, found⟩ := walk.decode_of_end taken ends
    rw [failed] at found
    cases found
  · obtain ⟨decoded, length, within, found⟩ := walk.decode_of_error refused
    rw [failed] at found
    cases found
    exact ⟨decoded, length, within, rfl⟩

theorem collect_of_skipToEnd {reader after : Reader}
    (skipped : skipToEnd reader = .ok () after) :
    ∃ fields, Packet.collect
        (after.buffer.written.drop reader.buffer.position) = .ok fields ∧
      Reader.fields reader = .ok fields after := by
  obtain ⟨fields, length, decoded, _, rfl⟩ := skipToEnd_ok skipped
  refine ⟨fields, ?_, fields_of_decode decoded⟩
  rw [window_skip]
  exact (Packet.decode_complete decoded).collect_take

theorem setPosition_of_skipToEnd {reader stopped : Reader} {error : WireError}
    (inside : reader.buffer.position ≤ reader.buffer.extent)
    (failed : skipToEnd reader = .error error stopped) :
    Buffer.setPosition reader.buffer.position stopped.buffer =
      .ok () (reader.buffer.moveTo reader.buffer.position) := by
  obtain ⟨_, length, _, rfl⟩ := skipToEnd_refused failed
  exact Buffer.setPosition_of_le inside

theorem fieldsInPasses_eq {reader : Reader}
    (inside : reader.buffer.position ≤ reader.buffer.extent) :
    fieldsInPasses reader = Reader.fields reader := by
  cases skipped : skipToEnd reader with
  | ok answer after =>
      obtain ⟨fields, collected, taken⟩ := collect_of_skipToEnd skipped
      simp only [fieldsInPasses, skipped, collected, taken]
  | error error stopped =>
      obtain ⟨refused, _⟩ := skipToEnd_refused skipped
      simp only [fieldsInPasses, skipped,
        setPosition_of_skipToEnd inside skipped, fields_of_error refused]

section Whole

variable {count : Nat} {reader middle : Reader} {front : List Field}

/-- A reader at the same cursor takes the same packet if it agrees on the bytes
before the place where the packet ends. -/
theorem fields_of_agree {fields : List Field} {length : Nat} {other : Reader}
    (decoded : Packet.decode reader.buffer.unread = .ok (fields, length))
    (samePlace : other.buffer.position = reader.buffer.position)
    (sameFront : other.buffer.content.take (reader.buffer.position + length) =
      reader.buffer.content.take (reader.buffer.position + length)) :
    Reader.fields other = .ok fields (other.skip length) := by
  apply fields_of_decode
  apply (Packet.decode_complete decoded).determined.2
  have cut := congrArg (List.drop reader.buffer.position) sameFront
  rw [List.drop_take, List.drop_take, Nat.add_sub_cancel_left] at cut
  rw [Buffer.unread, samePlace]
  exact cut

theorem Walk.fields_of_end {last : Field} {after : Reader}
    (walk : Walk count reader front middle)
    (taken : nextField middle = .ok last after) (ends : last.value = .eof) :
    Reader.fields reader = .ok (front ++ [last]) after ∧
      ∀ other : Reader, other.buffer.position = reader.buffer.position →
        other.buffer.content.take after.buffer.position =
            reader.buffer.content.take after.buffer.position →
          ∃ stopped, Reader.fields other = .ok (front ++ [last]) stopped ∧
            stopped.buffer.position = after.buffer.position := by
  obtain ⟨length, decoded, rfl, _⟩ := walk.decode_of_end taken ends
  refine ⟨fields_of_decode decoded, ?_⟩
  intro other samePlace sameFront
  refine ⟨other.skip length, fields_of_agree decoded samePlace sameFront, ?_⟩
  simp only [skip, samePlace]

theorem Walk.fields_of_refusal {error : WireError} {stopped : Reader}
    (walk : Walk count reader front middle)
    (failed : nextField middle = .error error stopped) :
    ∃ after, Reader.fields reader = .error error after ∧
      after.buffer.position = reader.buffer.position ∧
      after.buffer.content = reader.buffer.content := by
  obtain ⟨refused, _⟩ := walk.decode_of_error failed
  exact ⟨_, fields_of_error refused, rfl, rfl⟩

end Whole

/-- Taking records one at a time stops, after no more of them than there are
bytes, at an end record or at a refusal, and taking the packet at once then
gives these records and that place without a look at what lies behind, or the
same refusal at the cursor that it began at.  Two passes are as good as one, the
second of them refuses nothing, and every record has at least one byte and no
more than there are. -/
theorem fields_follow_nextField {reader : Reader}
    (inside : reader.buffer.position ≤ reader.buffer.extent) :
    (∃ count front middle, Walk count reader front middle ∧
        count ≤ reader.buffer.remainder ∧
        ((∃ last after, nextField middle = .ok last after ∧
            last.value = .eof) ∨
          ∃ error, nextField middle = .error error middle)) ∧
      (∀ count front middle last after, Walk count reader front middle →
        nextField middle = .ok last after → last.value = .eof →
          Reader.fields reader = .ok (front ++ [last]) after ∧
            ∀ other : Reader,
              other.buffer.position = reader.buffer.position →
                other.buffer.content.take after.buffer.position =
                    reader.buffer.content.take after.buffer.position →
                  ∃ stopped,
                    Reader.fields other = .ok (front ++ [last]) stopped ∧
                      stopped.buffer.position = after.buffer.position) ∧
      (∀ count front middle error stopped, Walk count reader front middle →
        nextField middle = .error error stopped →
          ∃ after, Reader.fields reader = .error error after ∧
            after.buffer.position = reader.buffer.position ∧
            after.buffer.content = reader.buffer.content) ∧
      fieldsInPasses reader = Reader.fields reader ∧
      (∀ after, skipToEnd reader = .ok () after →
        ∃ fields, Packet.collect
          (after.buffer.written.drop reader.buffer.position) = .ok fields) ∧
      ∀ bytes field length, Field.decode bytes = .ok (field, length) →
        0 < length ∧ length ≤ bytes.length := by
  refine ⟨?_, ?_, ?_, fieldsInPasses_eq inside, ?_, ?_⟩
  · obtain ⟨count, front, middle, walk, stops⟩ := exists_walk reader
    obtain ⟨length, counted, within, _⟩ := walk.reaches
    exact ⟨count, front, middle, walk, Nat.le_trans counted within, stops⟩
  · intro count front middle last after walk taken ends
    exact walk.fields_of_end taken ends
  · intro count front middle error stopped walk failed
    exact walk.fields_of_refusal failed
  · intro after skipped
    obtain ⟨fields, collected, _⟩ := collect_of_skipToEnd skipped
    exact ⟨fields, collected⟩
  · intro bytes field length read
    exact Field.decode_length_bounds read

/-- Behind a byte that has been read stand a truth value, the end and a byte
that is no record. -/
theorem fields_follow_nextField_past_first_byte :
    let reader := ofBuffer { Buffer.view [7, 9, 1, 0, 255] with position := 1 }
    reader.buffer.position ≤ reader.buffer.extent ∧
      Reader.fields reader = .ok [⟨1, .bool true⟩, ⟨0, .eof⟩]
        (ofBuffer { Buffer.view [7, 9, 1, 0, 255] with position := 4 }) := by
  intro reader
  have inside : reader.buffer.position ≤ reader.buffer.extent := by decide
  have first : Field.decode reader.buffer.unread =
      .ok (⟨1, .bool true⟩, 2) := by decide
  have last : Field.decode (reader.skip 2).buffer.unread =
      .ok (⟨0, .eof⟩, 1) := by decide
  have walk : Walk 1 reader [⟨1, .bool true⟩] (reader.skip 2) :=
    .cons (nextField_of_decode first) (by decide) (.nil _)
  obtain ⟨_, ended, _⟩ := fields_follow_nextField inside
  exact ⟨inside, (ended _ _ _ _ _ walk (nextField_of_decode last) rfl).1⟩

end Reader

end TagWire
