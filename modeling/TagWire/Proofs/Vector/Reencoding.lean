import TagWire.Proofs.Tag.Tiers
import TagWire.Proofs.Vector.Building

/-!
# Only tags are refused for how they are written

A check reads the bytes of a case, compares what it has read, and writes the value
again.  Where all that reads as a value is its one form, the bytes have been seen
to be this form by the time they are written again, and the last two tests refuse
nothing.  A tag may stand in a wider tier than it is written in, and this alone
is what the last test finds.
-/

namespace TagWire

namespace Tag

/-- The bytes are the tag in a tier with room for it, and a shorter tier has room
for it too. -/
def Overlong (tag : Tag) (bytes : List UInt8) : Prop :=
  ∃ tier ∈ tiers, tier.fits tag = true ∧ bytes = encodeIn tier tag ∧
    ∃ shorter ∈ tiers, shorter.fits tag = true ∧ shorter.length < tier.length

/-- Overlong bytes are read as the tag to the last one, and are not what it is
written as. -/
theorem overlong_iff {tag : Tag} {bytes : List UInt8} :
    Overlong tag bytes ↔
      decode bytes = .ok (tag, bytes.length) ∧
        ∃ form, tag.encode = .ok form ∧ form ≠ bytes := by
  constructor
  · rintro ⟨tier, member, fits, rfl, shorter, among, room, less⟩
    constructor
    · have read := decode_encodeIn_append member fits []
      rw [List.append_nil] at read
      rw [read, length_encodeIn]
    · obtain ⟨form, encoded, most⟩ := encode_of_fits among room
      refine ⟨form, encoded, ?_⟩
      rintro rfl
      rw [length_encodeIn] at most
      exact Nat.lt_irrefl _ (Nat.lt_of_lt_of_le less most)
  · rintro ⟨read, form, encoded, other⟩
    obtain ⟨tier, member, sized, fits, spelled⟩ := decode_ok read
    rw [List.take_length] at spelled
    obtain ⟨least, found, rfl⟩ := encode_ok encoded
    obtain ⟨leastMember, leastFits⟩ := tier_ok found
    refine ⟨tier, member, fits, spelled, least, leastMember, leastFits, ?_⟩
    have most := tier_least found member fits
    refine Nat.lt_of_le_of_ne most fun same => other ?_
    rw [spelled, Tier.eq_of_length_eq leastMember member same]

end Tag

/-- The tag that a case states. -/
def TagCase.tag (one : TagCase) : Tag :=
  { typeCode := one.typeCode, index := one.index }

namespace Kind

instance (kind : Kind) : DecidableEq kind.Subject :=
  match kind with
  | .unsigned => inferInstanceAs (DecidableEq UInt64)
  | .signed => inferInstanceAs (DecidableEq Int64)
  | .tag => inferInstanceAs (DecidableEq Tag)
  | .bytes => inferInstanceAs (DecidableEq (List UInt8))
  | .text => inferInstanceAs (DecidableEq String)

/-- Shows a subject to a reader of messages. -/
def Subject.display : {kind : Kind} → kind.Subject → String
  | .unsigned => Numeral.unsignedDecimal
  | .signed => Numeral.signedDecimal
  | .tag => Check.showTag
  | .bytes => Hex.encode
  | .text => fun content => content

theorem codec_canonical {kind : Kind} (other : kind ≠ .tag) :
    kind.codec.Canonical := by
  cases kind with
  | tag => exact (other rfl).elim
  | unsigned => exact Codec.varint_canonical
  | signed => exact Codec.signedVarint_canonical
  | bytes => exact Codec.bytes_canonical
  | text => exact Codec.closedText_canonical

theorem codec_resumes (kind : Kind) : Resumes 0 Prod.snd kind.codec.decode := by
  cases kind with
  | unsigned => exact Varint.decode_resumes
  | signed => exact Codec.signedVarint_resumes
  | tag => exact Tag.decode_resumes
  | bytes => exact Codec.bytes_resumes
  | text => exact Codec.closedText_resumes

end Kind

namespace Check

/-! ## What a case says, and what is wrong with it -/

/-- The number that a case states twice, and its bytes. -/
def statedNumber {α : Type} [DecidableEq α] (decimal? hex? : String → Option α)
    (one : NumberCase) : Except Nonconformity (α × List UInt8) := do
  let expected ← value "value_dec" one.decimal decimal?
  let again ← value "value_hex" one.hex hex?
  if again ≠ expected then
    throw (.invalidValue "value_hex" one.hex)
  return (expected, ← hexBytes one.encoded)

def statedTag (one : TagCase) : Except Nonconformity (Tag × List UInt8) := do
  return (one.tag, ← hexBytes one.encoded)

def statedBytes (one : BytesCase) :
    Except Nonconformity (List UInt8 × List UInt8) := do
  let payload ← hexBytes one.payload
  if payload.length ≠ one.length.toNat then
    throw (.invalidValue "payload_length" (Numeral.unsignedDecimal one.length))
  return (payload, ← hexBytes one.encoded)

def statedText (one : TextCase) :
    Except Nonconformity (String × List UInt8) := do
  return (one.content, ← hexBytes one.encoded)

/-- The subject of a case and its bytes, as the texts of the case spell them. -/
def stated : {kind : Kind} → kind.Case →
    Except Nonconformity (kind.Subject × List UInt8)
  | .unsigned, one =>
    statedNumber Numeral.unsignedDecimal? Numeral.unsignedHex? one
  | .signed, one =>
    statedNumber Numeral.signedDecimal? Numeral.signedHex? one
  | .tag, one => statedTag one
  | .bytes, one => statedBytes one
  | .text, one => statedText one

/-- What is wrong with bytes and a value that do not agree. -/
inductive Disagreement {α : Type} (codec : Codec α) (display : α → String)
    (expected : α) (encoded : List UInt8) : Nonconformity → Prop where
  | undecodable {error : WireError}
      (refused : codec.decode encoded = .error error) :
      Disagreement codec display expected encoded (.undecodable error)
  | value {decoded : α} {consumed : Nat}
      (read : codec.decode encoded = .ok (decoded, consumed))
      (other : decoded ≠ expected) :
      Disagreement codec display expected encoded
        (.valueMismatch (display expected) (display decoded))
  | trailing {consumed : Nat}
      (read : codec.decode encoded = .ok (expected, consumed))
      (short : consumed ≠ encoded.length) :
      Disagreement codec display expected encoded
        (.trailingBytes consumed encoded.length)
  | unencodable {error : WireError}
      (read : codec.decode encoded = .ok (expected, encoded.length))
      (refused : codec.encode expected = .error error) :
      Disagreement codec display expected encoded (.unencodable error)
  | encoding {form : List UInt8}
      (read : codec.decode encoded = .ok (expected, encoded.length))
      (wrote : codec.encode expected = .ok form) (other : form ≠ encoded) :
      Disagreement codec display expected encoded
        (.encodingMismatch (Hex.encode encoded) (Hex.encode form))

section Agreements

variable {α : Type} {codec : Codec α} {display : α → String} {expected : α}
  {encoded : List UInt8} {cause : Nonconformity}

theorem agreement_error_iff [DecidableEq α] :
    agreement codec display expected encoded = .error cause ↔
      Disagreement codec display expected encoded cause := by
  simp only [agreement, bind_error_iff, mapError_error_iff, mapError_ok_iff,
    refusal_error_iff, lastRefusal_error_iff, ne_eq, Decidable.not_not]
  constructor
  · rintro (⟨error, refused, rfl⟩ | ⟨⟨decoded, consumed⟩, read,
      ⟨other, rfl⟩ | ⟨rfl, ⟨short, rfl⟩ | ⟨rfl, rest⟩⟩⟩)
    · exact .undecodable refused
    · exact .value read other
    · exact .trailing read short
    · rcases rest with ⟨error, refused, rfl⟩ | ⟨form, wrote, other, rfl⟩
      · exact .unencodable read refused
      · exact .encoding read wrote other
  · intro disagreement
    cases disagreement with
    | undecodable refused => exact .inl ⟨_, refused, rfl⟩
    | value read other => exact .inr ⟨_, read, .inl ⟨other, rfl⟩⟩
    | trailing read short =>
        exact .inr ⟨_, read, .inr ⟨rfl, .inl ⟨short, rfl⟩⟩⟩
    | unencodable read refused =>
        exact .inr ⟨_, read, .inr ⟨rfl, .inr ⟨rfl, .inl ⟨_, refused, rfl⟩⟩⟩⟩
    | encoding read wrote other =>
        exact .inr ⟨_, read, .inr ⟨rfl, .inr ⟨rfl, .inr
          ⟨_, wrote, other, rfl⟩⟩⟩⟩

/-- What has one form only is not refused for how it is written. -/
theorem Disagreement.of_canonical (canonical : codec.Canonical)
    (wrong : Disagreement codec display expected encoded cause) :
    (∀ error, cause ≠ .unencodable error) ∧
      ∀ stood written, cause ≠ .encodingMismatch stood written := by
  cases wrong with
  | undecodable refused => exact ⟨nofun, nofun⟩
  | value read other => exact ⟨nofun, nofun⟩
  | trailing read short => exact ⟨nofun, nofun⟩
  | unencodable read refused =>
      rw [canonical read] at refused
      cases refused
  | encoding read wrote other =>
      rw [canonical read, List.take_length] at wrote
      cases wrote
      exact (other rfl).elim

/-- A tag that has been read has a form. -/
theorem Disagreement.tag_encodable {display : Tag → String} {expected : Tag}
    (wrong : Disagreement Codec.tag display expected encoded cause) :
    ∀ error, cause ≠ .unencodable error := by
  cases wrong with
  | undecodable refused => exact nofun
  | value read other => exact nofun
  | trailing read short => exact nofun
  | encoding read wrote other => exact nofun
  | unencodable read refused =>
      obtain ⟨tier, member, _, fits, _⟩ := Tag.decode_ok read
      obtain ⟨form, wrote, _⟩ := Tag.encode_of_fits member fits
      have encoded : Codec.tag.encode expected = .ok form := wrote
      rw [encoded] at refused
      cases refused

theorem tag_agreement_mismatch_iff {tag : Tag} {stood written : String} :
    agreement Codec.tag showTag tag encoded =
        .error (.encodingMismatch stood written) ↔
      ∃ form, tag.encode = .ok form ∧ tag.Overlong encoded ∧
        stood = Hex.encode encoded ∧ written = Hex.encode form := by
  rw [agreement_error_iff]
  constructor
  · intro wrong
    cases wrong with
    | encoding read wrote other =>
        exact ⟨_, wrote, Tag.overlong_iff.mpr ⟨read, _, wrote, other⟩, rfl, rfl⟩
  · rintro ⟨form, wrote, overlong, rfl, rfl⟩
    obtain ⟨read, again, same, other⟩ := Tag.overlong_iff.mp overlong
    rw [wrote] at same
    cases same
    exact .encoding read wrote other

end Agreements

theorem number_eq {α : Type} [DecidableEq α] (codec : Codec α)
    (decimal? hex? : String → Option α) (display : α → String)
    (one : NumberCase) :
    number codec decimal? hex? display one =
      statedNumber decimal? hex? one >>= fun said =>
        agreement codec display said.1 said.2 := by
  unfold number statedNumber
  cases value "value_dec" one.decimal decimal? with
  | error cause => rfl
  | ok expected =>
      cases value "value_hex" one.hex hex? with
      | error cause => rfl
      | ok again =>
          by_cases same : again = expected
          · cases hexBytes one.encoded <;>
              simp [same, bind, Except.bind, pure, Except.pure]
          · simp [same, bind, Except.bind, throw, throwThe,
              MonadExceptOf.throw]

theorem tag_eq (one : TagCase) :
    tag one = statedTag one >>= fun said =>
      agreement Codec.tag showTag said.1 said.2 := by
  unfold tag statedTag
  cases hexBytes one.encoded <;> rfl

theorem bytes_eq (one : BytesCase) :
    bytes one = statedBytes one >>= fun said =>
      agreement Codec.bytes Hex.encode said.1 said.2 := by
  unfold bytes statedBytes
  cases hexBytes one.payload with
  | error cause => rfl
  | ok payload =>
      by_cases counted : payload.length = one.length.toNat
      · cases hexBytes one.encoded <;>
          simp [counted, bind, Except.bind, pure, Except.pure]
      · simp [counted, bind, Except.bind, throw, throwThe,
          MonadExceptOf.throw]

theorem text_eq (one : TextCase) :
    text one = statedText one >>= fun said =>
      agreement Codec.closedText id said.1 said.2 := by
  unfold text statedText
  cases hexBytes one.encoded <;> rfl

/-- A case is checked by comparing what it says with itself. -/
theorem entry_eq {kind : Kind} (one : kind.Case) :
    entry one = stated one >>= fun said =>
      agreement kind.codec Kind.Subject.display said.1 said.2 := by
  cases kind with
  | unsigned => exact number_eq _ _ _ _ one
  | signed => exact number_eq _ _ _ _ one
  | tag => exact tag_eq one
  | bytes => exact bytes_eq one
  | text => exact text_eq one

/-! ## What is said of the texts -/

/-- A text does not spell what it should. -/
inductive Misspelled : Nonconformity → Prop where
  | hex (fault : Hex.Fault) : Misspelled (.invalidHex fault)
  | value (member text : String) : Misspelled (.invalidValue member text)

theorem hexBytes_error {text : String} {cause : Nonconformity}
    (failed : hexBytes text = .error cause) : Misspelled cause := by
  obtain ⟨fault, _, rfl⟩ := mapError_error_iff.mp failed
  exact .hex fault

theorem value_error {α : Type} {member text : String}
    {read? : String → Option α} {cause : Nonconformity}
    (failed : value member text read? = .error cause) : Misspelled cause := by
  unfold value at failed
  cases spelled : read? text with
  | some found =>
      rw [spelled] at failed
      cases failed
  | none =>
      rw [spelled] at failed
      cases failed
      exact .value member text

/-- Bytes are stated last, next to what has been read of the case. -/
theorem paired_error {α : Type} {expected : α} {text : String}
    {cause : Nonconformity}
    (failed : (hexBytes text >>= fun encoded => pure (expected, encoded)) =
      .error cause) : Misspelled cause := by
  rcases bind_error_iff.mp failed with early | ⟨encoded, _, late⟩
  · exact hexBytes_error early
  · cases late

theorem statedNumber_error {α : Type} [DecidableEq α]
    {decimal? hex? : String → Option α} {one : NumberCase}
    {cause : Nonconformity}
    (failed : statedNumber decimal? hex? one = .error cause) :
    Misspelled cause := by
  simp only [statedNumber, bind_error_iff, refusal_error_iff] at failed
  rcases failed with early | ⟨_, _, again | ⟨_, _, ⟨_, rfl⟩ | ⟨_, paired⟩⟩⟩
  · exact value_error early
  · exact value_error again
  · exact .value _ _
  · exact paired_error (bind_error_iff.mpr paired)

theorem statedBytes_error {one : BytesCase} {cause : Nonconformity}
    (failed : statedBytes one = .error cause) : Misspelled cause := by
  simp only [statedBytes, bind_error_iff, refusal_error_iff] at failed
  rcases failed with early | ⟨_, _, ⟨_, rfl⟩ | ⟨_, paired⟩⟩
  · exact hexBytes_error early
  · exact .value _ _
  · exact paired_error (bind_error_iff.mpr paired)

theorem stated_error {kind : Kind} {one : kind.Case} {cause : Nonconformity}
    (failed : stated one = .error cause) : Misspelled cause := by
  cases kind with
  | unsigned => exact statedNumber_error failed
  | signed => exact statedNumber_error failed
  | tag => exact paired_error failed
  | bytes => exact statedBytes_error failed
  | text => exact paired_error failed

theorem Misspelled.not_written {cause : Nonconformity}
    (misspelled : Misspelled cause) :
    (∀ error, cause ≠ .unencodable error) ∧
      ∀ stood written, cause ≠ .encodingMismatch stood written := by
  cases misspelled with
  | hex fault => exact ⟨nofun, nofun⟩
  | value member text => exact ⟨nofun, nofun⟩

theorem paired_ok {α : Type} {content expected : α} {text : String}
    {encoded : List UInt8}
    (said : (hexBytes text >>= fun encoded => pure (content, encoded)) =
      .ok (expected, encoded)) : expected = content ∧ Spells text encoded := by
  obtain ⟨bytes, spelled, done⟩ := bind_ok_iff.mp said
  cases done
  exact ⟨rfl, hexBytes_ok_iff.mp spelled⟩

theorem statedTag_of_spells {one : TagCase} {encoded : List UInt8}
    (spells : Spells one.encoded encoded) :
    statedTag one = .ok (one.tag, encoded) := by
  rw [statedTag, hexBytes_ok_iff.mpr spells]
  rfl

theorem statedNumber_spells {α : Type} [DecidableEq α]
    {decimal? hex? : String → Option α} {one : NumberCase} {expected : α}
    {encoded : List UInt8}
    (said : statedNumber decimal? hex? one = .ok (expected, encoded)) :
    Spells one.encoded encoded := by
  simp only [statedNumber, bind_ok_iff, refusal_ok_iff] at said
  obtain ⟨_, _, _, _, _, paired⟩ := said
  exact (paired_ok (bind_ok_iff.mpr paired)).2

theorem statedBytes_spells {one : BytesCase} {expected encoded : List UInt8}
    (said : statedBytes one = .ok (expected, encoded)) :
    Spells one.encoded encoded := by
  simp only [statedBytes, bind_ok_iff, refusal_ok_iff] at said
  obtain ⟨_, _, _, paired⟩ := said
  exact (paired_ok (bind_ok_iff.mpr paired)).2

theorem stated_spells {kind : Kind} {one : kind.Case}
    {expected : kind.Subject} {encoded : List UInt8}
    (said : stated one = .ok (expected, encoded)) :
    Spells (encodedText one) encoded := by
  cases kind with
  | unsigned => exact statedNumber_spells said
  | signed => exact statedNumber_spells said
  | tag => exact (paired_ok said).2
  | bytes => exact statedBytes_spells said
  | text => exact (paired_ok said).2

/-! ## Checks through buffers -/

/-- Memory as long as the bytes of the case can be had. -/
def Allocated {kind : Kind} (one : kind.Case) : Prop :=
  ∀ encoded, Spells (encodedText one) encoded →
    ∃ memory, Buffer.owned encoded.length = .ok memory

/-- Checks a case through buffers.  Tags go through none. -/
def entryInBuffers {kind : Kind} (one : kind.Case) :
    Except Nonconformity Unit := do
  let (expected, encoded) ← stated one
  if kind = .tag then
    agreement kind.codec Kind.Subject.display expected encoded
  else
    agreementInBuffers kind.codec Kind.Subject.display expected encoded

/-- Checks cases in order through buffers, and answers how many there are. -/
def casesInBuffers {kind : Kind} (list : List kind.Case) :
    Except CaseFailure Nat := do
  list.forM fun one =>
    (entryInBuffers one).mapError fun cause => { id := one.id, cause }
  return list.length

theorem entryInBuffers_eq {kind : Kind} {one : kind.Case}
    (allocated : Allocated one) : entryInBuffers one = entry one := by
  rw [entryInBuffers, entry_eq]
  cases said : stated one with
  | error cause => rfl
  | ok outcome =>
      obtain ⟨expected, encoded⟩ := outcome
      have within : encoded.length ≤ Buffer.allocationLimit := by
        obtain ⟨memory, made⟩ := allocated encoded (stated_spells said)
        refine Nat.le_of_not_lt fun beyond => ?_
        rw [Buffer.owned, if_pos beyond] at made
        cases made
      by_cases tagged : kind = .tag
      · exact if_pos tagged
      · exact (if_neg tagged).trans (agreementInBuffers_eq kind.codec_resumes
          (Kind.codec_canonical tagged) _ _ within)

theorem casesInBuffers_eq {kind : Kind} {list : List kind.Case}
    (allocated : ∀ one ∈ list, Allocated one) :
    casesInBuffers list = Check.cases list := by
  have judged : ∀ one ∈ list,
      ((entryInBuffers one).mapError fun cause =>
        ({ id := one.id, cause } : CaseFailure)) =
      (entry one).mapError fun cause => { id := one.id, cause } := by
    intro one member
    rw [entryInBuffers_eq (allocated one member)]
  rw [casesInBuffers, Check.cases, forM_congr judged]

/-! ## What fails a case -/

theorem entry_error {kind : Kind} {one : kind.Case} {cause : Nonconformity}
    (failed : entry one = .error cause) :
    Misspelled cause ∨ ∃ expected encoded,
      Disagreement kind.codec Kind.Subject.display expected encoded cause := by
  rw [entry_eq] at failed
  rcases bind_error_iff.mp failed with early | ⟨said, _, wrong⟩
  · exact .inl (stated_error early)
  · exact .inr ⟨_, _, agreement_error_iff.mp wrong⟩

theorem entry_encodable {kind : Kind} {one : kind.Case} {cause : Nonconformity}
    (failed : entry one = .error cause) :
    ∀ error, cause ≠ .unencodable error := by
  rcases entry_error failed with misspelled | ⟨expected, encoded, wrong⟩
  · exact misspelled.not_written.1
  · by_cases tagged : kind = .tag
    · subst tagged
      exact wrong.tag_encodable
    · exact (wrong.of_canonical (Kind.codec_canonical tagged)).1

theorem entry_matched {kind : Kind} (other : kind ≠ .tag) {one : kind.Case}
    {cause : Nonconformity} (failed : entry one = .error cause) :
    ∀ stood written, cause ≠ .encodingMismatch stood written := by
  rcases entry_error failed with misspelled | ⟨expected, encoded, wrong⟩
  · exact misspelled.not_written.2
  · exact (wrong.of_canonical (Kind.codec_canonical other)).2

theorem tag_mismatch_iff {one : TagCase} {stood written : String} :
    tag one = .error (.encodingMismatch stood written) ↔
      ∃ encoded form, Spells one.encoded encoded ∧
        one.tag.encode = .ok form ∧ one.tag.Overlong encoded ∧
        stood = Hex.encode encoded ∧ written = Hex.encode form := by
  rw [tag_eq]
  constructor
  · intro failed
    rcases bind_error_iff.mp failed with
      early | ⟨⟨expected, encoded⟩, said, wrong⟩
    · exact ((paired_error early).not_written.2 _ _ rfl).elim
    · obtain ⟨rfl, spells⟩ := paired_ok said
      obtain ⟨form, shown⟩ := tag_agreement_mismatch_iff.mp wrong
      exact ⟨encoded, form, spells, shown⟩
  · rintro ⟨encoded, form, spells, shown⟩
    rw [statedTag_of_spells spells]
    exact tag_agreement_mismatch_iff.mpr ⟨form, shown⟩

/-! ## Lists -/

theorem cases_error_iff {kind : Kind} {list : List kind.Case}
    {failure : CaseFailure} :
    Check.cases list = .error failure ↔
      ∃ front one behind cause, list = front ++ one :: behind ∧
        (∀ earlier ∈ front, entry earlier = .ok ()) ∧
        entry one = .error cause ∧ failure = { id := one.id, cause } := by
  have accepted : ∀ {one : kind.Case}, verdict one = .ok () ↔
      entry one = .ok () := mapError_ok_iff
  constructor
  · intro failed
    rcases forall_or_first verdict list with
      sound | ⟨front, one, behind, early, rfl, sound, refused⟩
    · rw [cases_of_ok sound] at failed
      cases failed
    · rw [cases_of_error sound refused] at failed
      cases failed
      obtain ⟨cause, judged, rfl⟩ := verdict_error refused
      exact ⟨front, one, behind, cause, rfl,
        fun earlier member => accepted.mp (sound earlier member), judged, rfl⟩
  · rintro ⟨front, one, behind, cause, rfl, sound, judged, rfl⟩
    apply cases_of_error
    · exact fun earlier member => accepted.mpr (sound earlier member)
    · rw [verdict, judged]
      rfl

/-- Checks do not differ for going through buffers that can be had.  A list is
never refused because a value cannot be written, and because a value is written
otherwise only if its first case that does not conform states a tag whose bytes
are that very tag in a wider tier than it needs. -/
theorem written_otherwise_iff_overlong_tag :
    (∀ (kind : Kind) (list : List kind.Case),
      (∀ one ∈ list, Allocated one) →
        casesInBuffers list = Check.cases list) ∧
    (∀ (kind : Kind) (list : List kind.Case) (failure : CaseFailure),
      Check.cases list = .error failure →
        (∀ error, failure.cause ≠ .unencodable error) ∧
        (kind ≠ .tag → ∀ stood written,
          failure.cause ≠ .encodingMismatch stood written)) ∧
    (∀ (list : List (Kind.Case .tag)) (id stood written : String),
      Check.cases list =
          .error { id, cause := .encodingMismatch stood written } ↔
        ∃ (front : List (Kind.Case .tag)) (one : Kind.Case .tag)
          (behind : List (Kind.Case .tag)) (encoded form : List UInt8),
          list = front ++ one :: behind ∧
          (∀ earlier ∈ front, Conforms earlier) ∧ id = one.id ∧
          Spells (encodedText one) encoded ∧
          (TagCase.tag one).Overlong encoded ∧
          (TagCase.tag one).encode = .ok form ∧
          stood = Hex.encode encoded ∧ written = Hex.encode form) := by
  refine ⟨fun _ _ => casesInBuffers_eq, ?_, ?_⟩
  · intro kind list failure failed
    obtain ⟨front, one, behind, cause, rfl, _, judged, rfl⟩ :=
      cases_error_iff.mp failed
    exact ⟨entry_encodable judged, fun other => entry_matched other judged⟩
  · intro list id stood written
    rw [cases_error_iff]
    constructor
    · rintro ⟨front, one, behind, cause, rfl, sound, judged, same⟩
      cases same
      obtain ⟨encoded, form, spells, wrote, overlong, shown⟩ :=
        tag_mismatch_iff.mp judged
      exact ⟨front, one, behind, encoded, form, rfl,
        fun earlier member => tag_entry_ok_iff.mp (sound earlier member),
        rfl, spells, overlong, wrote, shown⟩
    · rintro ⟨front, one, behind, encoded, form, rfl, sound, rfl, spells,
        overlong, wrote, shown⟩
      exact ⟨front, one, behind, _, rfl,
        fun earlier member => tag_entry_ok_iff.mpr (sound earlier member),
        tag_mismatch_iff.mpr ⟨encoded, form, spells, wrote, overlong, shown⟩,
        rfl⟩

example :
    let wide : Kind.Case .tag := (⟨"wide", 1, 0, "8100"⟩ : TagCase)
    Check.cases [wide] =
      .error { id := "wide", cause := .encodingMismatch "8100" "08" } := by
  decide

end Check

end TagWire
