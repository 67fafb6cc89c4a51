import TagWire.Proofs.Text.Hex
import TagWire.Proofs.Text.Numeral
import TagWire.Proofs.Vector.Conformance

/-!
# Built cases conform

A case that is built from its subject states the subject and its form, each in
the way that the checks read it, so it is accepted.  The form of a subject comes
from new memory that has room for it, and building fails only if this memory
cannot be had or the subject has no form.
-/

namespace TagWire

/-- What a case is about. -/
def Kind.Subject : Kind → Type
  | .unsigned => UInt64
  | .signed => Int64
  | .tag => Tag
  | .bytes => List UInt8
  | .text => String

def Kind.codec : (kind : Kind) → Codec kind.Subject
  | .unsigned => Codec.varint
  | .signed => Codec.signedVarint
  | .tag => Codec.tag
  | .bytes => Codec.bytes
  | .text => Codec.closedText

namespace Kind.Subject

/-- Tags are the only subjects of which some have no form. -/
def Encodable : {kind : Kind} → kind.Subject → Prop
  | .tag, (subject : Tag) => subject.index.toNat ≤ Tag.maxIndex
  | .unsigned, _ | .signed, _ | .bytes, _ | .text, _ => True

/-- How much memory the form is written to.  The form of a tag needs none. -/
def room? : {kind : Kind} → kind.Subject → Option Nat
  | .unsigned, _ | .signed, _ => some 16
  | .tag, _ => none
  | .bytes, (payload : List UInt8) => some (payload.length + 9)
  | .text, (content : String) => some ((Utf8.encode content).length + 10)

/-- The memory for the form can be had. -/
def Available {kind : Kind} (subject : kind.Subject) : Prop :=
  ∀ room, subject.room? = some room → room ≤ Buffer.allocationLimit

end Kind.Subject

namespace Kind.Case

/-- States a subject in a case whose bytes are spelled by a text. -/
def describe : {kind : Kind} → String → kind.Subject → String → kind.Case
  | .unsigned, id, (value : UInt64), encoded =>
    { id, decimal := Numeral.unsignedDecimal value,
      hex := Numeral.unsignedHex value, encoded : NumberCase }
  | .signed, id, (value : Int64), encoded =>
    { id, decimal := Numeral.signedDecimal value,
      hex := Numeral.signedHex value, encoded : NumberCase }
  | .tag, id, (subject : Tag), encoded =>
    { id, typeCode := subject.typeCode, index := subject.index,
      encoded : TagCase }
  | .bytes, id, (payload : List UInt8), encoded =>
    { id, payload := Hex.encode payload,
      length := UInt64.ofNat payload.length, encoded : BytesCase }
  | .text, id, (content : String), encoded =>
    { id, content, encoded : TextCase }

/-- Builds the case of a subject. -/
def build : {kind : Kind} → String → kind.Subject → Except WireError kind.Case
  | .unsigned, id, value => .ok (NumberCase.ofUnsigned id value)
  | .signed, id, value => .ok (NumberCase.ofSigned id value)
  | .tag, id, subject => TagCase.ofTag id subject
  | .bytes, id, payload => .ok (BytesCase.ofPayload id payload)
  | .text, id, content => .ok (TextCase.ofText id content)

/-- The form of a subject as it stands in new memory. -/
def formInMemory {kind : Kind} (subject : kind.Subject) :
    Except WireError (List UInt8) :=
  match subject.room? with
  | none => kind.codec.encode subject
  | some room => do
    let memory ← Buffer.owned room
    match Buffer.append kind.codec subject memory with
    | .ok () writer => .ok writer.written
    | .error error _ => .error error

/-- Builds the case of a subject by way of memory for its form. -/
def buildInMemory {kind : Kind} (id : String) (subject : kind.Subject) :
    Except WireError kind.Case :=
  (formInMemory subject).map fun form => describe id subject (Hex.encode form)

theorem build_eq {kind : Kind} (id : String) (subject : kind.Subject) :
    build id subject = (kind.codec.encode subject).map fun form =>
      describe id subject (Hex.encode form) := by
  cases kind with
  | unsigned => rfl
  | signed => rfl
  | tag =>
      simp only [build, TagCase.ofTag, Kind.codec, Codec.tag]
      cases Tag.encode subject <;> rfl
  | bytes => rfl
  | text => rfl

theorem build_ok {kind : Kind} {id : String} {subject : kind.Subject}
    {one : kind.Case} (built : build id subject = .ok one) :
    ∃ form, kind.codec.encode subject = .ok form ∧
      one = describe id subject (Hex.encode form) := by
  rw [build_eq] at built
  cases encoded : kind.codec.encode subject with
  | ok form =>
      rw [encoded] at built
      cases built
      exact ⟨form, rfl, rfl⟩
  | error error =>
      rw [encoded] at built
      cases built

theorem id_describe {kind : Kind} (id : String) (subject : kind.Subject)
    (encoded : String) : (describe id subject encoded).id = id := by
  cases kind <;> rfl

theorem encodedText_describe {kind : Kind} (id : String)
    (subject : kind.Subject) (encoded : String) :
    Check.encodedText (describe id subject encoded) = encoded := by
  cases kind <;> rfl

theorem encodable_iff {kind : Kind} (subject : kind.Subject) :
    subject.Encodable ↔ ∃ form, kind.codec.encode subject = .ok form := by
  cases kind with
  | unsigned => exact iff_of_true trivial ⟨_, rfl⟩
  | signed => exact iff_of_true trivial ⟨_, rfl⟩
  | tag =>
      constructor
      · intro indexed
        exact Tag.encode_of_index_le indexed
      · rintro ⟨form, encoded⟩
        exact Tag.index_le_of_encode encoded
  | bytes => exact iff_of_true trivial ⟨_, rfl⟩
  | text => exact iff_of_true trivial ⟨_, rfl⟩

/-! ## Forms fit into their memory -/

theorem length_varint_le (number : UInt64) :
    (Varint.encode number).length ≤ 9 := by
  rw [Varint.length_encode]
  exact (Varint.inTier_length number).bounded

theorem length_frame_le (payload : List UInt8) :
    (Payload.frame payload).length ≤ payload.length + 9 := by
  have announced := length_varint_le (UInt64.ofNat payload.length)
  rw [Payload.frame, List.length_append]
  omega

theorem length_ofClosedText (content : String) :
    (Payload.ofClosedText content).length =
      (Utf8.encode content).length + 1 := by
  rw [Payload.ofClosedText, List.length_append, List.length_singleton]

theorem length_closedFrame_le (content : String) :
    (Payload.frame (Payload.ofClosedText content)).length ≤
      (Utf8.encode content).length + 10 := by
  have framed := length_frame_le (Payload.ofClosedText content)
  rw [length_ofClosedText] at framed
  exact framed

theorem length_form_le {kind : Kind} {subject : kind.Subject}
    {form : List UInt8} {room : Nat} (needed : subject.room? = some room)
    (encoded : kind.codec.encode subject = .ok form) : form.length ≤ room := by
  cases kind with
  | unsigned =>
      cases needed
      cases encoded
      exact Nat.le_trans (length_varint_le _) (by decide)
  | signed =>
      cases needed
      cases encoded
      exact Nat.le_trans (length_varint_le _) (by decide)
  | tag => cases needed
  | bytes =>
      cases needed
      cases encoded
      exact length_frame_le _
  | text =>
      cases needed
      cases encoded
      exact length_closedFrame_le subject

/-- What needs memory has a form. -/
theorem encodable_of_room {kind : Kind} {subject : kind.Subject} {room : Nat}
    (needed : subject.room? = some room) : subject.Encodable := by
  cases kind with
  | tag => cases needed
  | unsigned => trivial
  | signed => trivial
  | bytes => trivial
  | text => trivial

theorem formInMemory_eq {kind : Kind} {subject : kind.Subject}
    (available : subject.Available) :
    formInMemory subject = kind.codec.encode subject := by
  unfold formInMemory
  cases needed : subject.room? with
  | none => rfl
  | some room =>
      obtain ⟨form, encoded⟩ :=
        (encodable_iff subject).mp (encodable_of_room needed)
      obtain ⟨memory, writer, made, appended, bytes⟩ :=
        Check.append_to_new_memory (length_form_le needed encoded)
          (available room needed) encoded
      simp only [made, bind, Except.bind, appended, bytes, encoded]

theorem buildInMemory_eq {kind : Kind} {subject : kind.Subject}
    (available : subject.Available) (id : String) :
    buildInMemory id subject = build id subject := by
  rw [buildInMemory, formInMemory_eq available, build_eq]

/-- Memory that cannot be had is the only other reason not to build a case. -/
theorem buildInMemory_of_unavailable {kind : Kind} {subject : kind.Subject}
    {room : Nat} (needed : subject.room? = some room)
    (beyond : Buffer.allocationLimit < room) (id : String) :
    buildInMemory id subject = .error (.allocationFailed room) := by
  have refused : Buffer.owned room = .error (.allocationFailed room) :=
    if_pos beyond
  simp only [buildInMemory, formInMemory, needed, refused, bind, Except.bind,
    Except.map]

/-! ## Built cases are accepted -/

theorem spells_encode (bytes : List UInt8) :
    Check.Spells (Hex.encode bytes) bytes :=
  Hex.decode_encode bytes

theorem spells_closedFrame (content : String) :
    Check.Spells (Hex.encode (Payload.frame (Payload.ofClosedText content)))
      (Varint.encode (UInt64.ofNat ((Utf8.encode content).length + 1)) ++
        Utf8.encode content ++ [0]) := by
  have framed : Payload.frame (Payload.ofClosedText content) =
      Varint.encode (UInt64.ofNat ((Utf8.encode content).length + 1)) ++
        Utf8.encode content ++ [0] := by
    rw [Payload.frame, length_ofClosedText, Payload.ofClosedText,
      List.append_assoc]
  rw [framed]
  exact spells_encode _

theorem conforms_of_build {kind : Kind} {id : String} {subject : kind.Subject}
    {one : kind.Case} (available : subject.Available)
    (built : build id subject = .ok one) : Check.Conforms one := by
  obtain ⟨form, encoded, rfl⟩ := build_ok built
  cases kind with
  | unsigned =>
      cases encoded
      exact ⟨subject, Numeral.unsignedDecimal?_unsignedDecimal subject,
        Numeral.unsignedHex?_unsignedHex subject, spells_encode _⟩
  | signed =>
      cases encoded
      exact ⟨subject, Numeral.signedDecimal?_signedDecimal subject,
        Numeral.signedHex?_signedHex subject, spells_encode _⟩
  | tag =>
      exact ⟨Tag.index_le_of_encode encoded, form, encoded, spells_encode _⟩
  | bytes =>
      cases encoded
      have held : subject.length + 9 ≤ Buffer.allocationLimit :=
        available _ rfl
      have limits := Buffer.allocationLimit_lt
      simp only [Buffer.addressLimit] at limits
      have fits : subject.length < Word.limit := by omega
      have counted : (UInt64.ofNat subject.length).toNat = subject.length :=
        UInt64.toNat_ofNat_of_lt' fits
      exact ⟨subject, spells_encode _, counted.symm, spells_encode _⟩
  | text =>
      cases encoded
      exact spells_closedFrame subject

/-- The only bytes that a built case spells are its form, and they are few
enough to have addresses. -/
theorem addressed_of_build {kind : Kind} {id : String}
    {subject : kind.Subject} {one : kind.Case} (available : subject.Available)
    (built : build id subject = .ok one) {spelled : List UInt8}
    (spells : Check.Spells (Check.encodedText one) spelled) :
    spelled.length < Word.limit := by
  obtain ⟨form, encoded, rfl⟩ := build_ok built
  rw [encodedText_describe] at spells
  have same : form = spelled :=
    Except.ok.inj ((spells_encode form).symm.trans spells)
  subst same
  cases needed : subject.room? with
  | some room =>
      have fits := length_form_le needed encoded
      have held := available room needed
      have limits := Buffer.allocationLimit_lt
      simp only [Buffer.addressLimit] at limits
      omega
  | none =>
      cases kind with
      | tag =>
          have short := Tag.length_encode_le encoded
          have limit : Tag.maxLength < Word.limit := by decide
          omega
      | unsigned => cases needed
      | signed => cases needed
      | bytes => cases needed
      | text => cases needed

theorem entry_of_build {kind : Kind} {id : String} {subject : kind.Subject}
    {one : kind.Case} (available : subject.Available)
    (built : build id subject = .ok one) : Check.entry one = .ok () :=
  (Check.entry_ok_iff_of_addressed (addressed_of_build available built)).mpr
    (conforms_of_build available built)

theorem ofTag_error_iff {id : String} {tag : Tag} {error : WireError} :
    TagCase.ofTag id tag = .error error ↔
      Tag.maxIndex < tag.index.toNat ∧ error = .indexOutOfRange tag.index := by
  have built := @build_eq .tag id tag
  constructor
  · intro failed
    cases encoded : tag.encode with
    | ok form =>
        have made : TagCase.ofTag id tag = _ := built
        simp only [Kind.codec, Codec.tag, encoded, Except.map] at made
        rw [made] at failed
        cases failed
    | error refusal =>
        have made : TagCase.ofTag id tag = _ := built
        simp only [Kind.codec, Codec.tag, encoded, Except.map] at made
        rw [made] at failed
        cases failed
        exact (Tag.encode_error encoded).symm
  · rintro ⟨beyond, rfl⟩
    cases encoded : tag.encode with
    | ok form =>
        have indexed := Tag.index_le_of_encode encoded
        omega
    | error refusal =>
        obtain ⟨rfl, _⟩ := Tag.encode_error encoded
        have made : TagCase.ofTag id tag = _ := built
        simp only [Kind.codec, Codec.tag, encoded, Except.map] at made
        exact made

theorem cases_of_build {kind : Kind} {list : List kind.Case}
    (built : ∀ one ∈ list, ∃ (id : String) (subject : kind.Subject),
      subject.Available ∧ build id subject = .ok one) :
    Check.cases list = .ok list.length := by
  apply Check.cases_of_ok
  intro one member
  obtain ⟨id, subject, available, made⟩ := built one member
  exact mapError_ok_iff.mpr (entry_of_build available made)

/-- Every subject that has a form makes a case, by way of memory and without it,
and the case is accepted; so is every list of such cases, with their number.
Only tags can lack a form, and only for their index; and only for want of memory
does a case with a form fail to be built. -/
theorem built_cases_accepted :
    (∀ (kind : Kind) (id : String) (subject : kind.Subject),
      subject.Available → subject.Encodable →
        ∃ one, build id subject = .ok one ∧
          buildInMemory id subject = .ok one ∧ one.id = id ∧
          Check.cases [one] = .ok 1) ∧
    (∀ (kind : Kind) (list : List kind.Case),
      (∀ one ∈ list, ∃ (id : String) (subject : kind.Subject),
        subject.Available ∧ build id subject = .ok one) →
          Check.cases list = .ok list.length) ∧
    (∀ (id : String) (tag : Tag) (error : WireError),
      TagCase.ofTag id tag = .error error ↔
        Tag.maxIndex < tag.index.toNat ∧
          error = .indexOutOfRange tag.index) ∧
    (∀ (kind : Kind) (id : String) (subject : kind.Subject) (room : Nat),
      subject.room? = some room → Buffer.allocationLimit < room →
        buildInMemory id subject = .error (.allocationFailed room)) := by
  refine ⟨?_, fun _ _ => cases_of_build, fun _ _ _ => ofTag_error_iff,
    fun _ id _ _ needed beyond =>
      buildInMemory_of_unavailable needed beyond id⟩
  intro kind id subject available encodable
  obtain ⟨form, encoded⟩ := (encodable_iff subject).mp encodable
  have built : build id subject =
      .ok (describe id subject (Hex.encode form)) := by
    rw [build_eq, encoded]
    rfl
  refine ⟨_, built, ?_, id_describe id subject _, ?_⟩
  · rw [buildInMemory_eq available, built]
  · apply cases_of_build
    intro one member
    cases List.mem_singleton.mp member
    exact ⟨id, subject, available, built⟩

/-- The magnitude of the least signed word is larger than every signed word. -/
theorem built_cases_accepted_for_least_word :
    let least : Kind.Subject .signed := Int64.minValue
    let entry : Kind.Case .signed := NumberCase.ofSigned "least" Int64.minValue
    least.Available ∧ least.Encodable ∧
      NumberCase.ofSigned "least" Int64.minValue =
        ⟨"least", "-9223372036854775808", "-0x8000000000000000",
          "fffefdfbf7efdfbf7f"⟩ ∧
      Check.cases [entry] = .ok 1 ∧ Check.cases [entry, entry] = .ok 2 := by
  intro least entry
  have available : least.Available := by
    intro room needed
    cases needed
    decide
  obtain ⟨accepted, listed, _⟩ := built_cases_accepted
  obtain ⟨one, built, _, _, alone⟩ :=
    accepted .signed "least" least available trivial
  cases built
  refine ⟨available, trivial, by decide, alone, listed .signed _ ?_⟩
  intro one member
  have same : one = entry := by simpa using member
  exact ⟨"least", least, available, by rw [same]; rfl⟩

end Kind.Case

end TagWire
