import TagWire.Outcome
import TagWire.Proofs.Buffer.RoundTrip
import TagWire.Proofs.Forms
import TagWire.Vector.Check

/-!
# What the checks accept

A case conforms if its texts spell one value and the written form of that value;
nothing is said of reading.  The checks do read, compare, measure and write
again, and come to the same: a form is read as its value to the last byte, so
the tests before the last one refuse nothing that the last one accepts.

Nor does it matter that a check may read from a view of the bytes and write to
new memory that is as long as they are.  A value that was read from all of the
bytes is written as these bytes, and they fit.
-/

namespace TagWire

namespace Hex

theorem decodeFrom_length {position : Nat} {read text bytes : List UInt8}
    (decoded : decodeFrom position read text = .ok bytes) :
    2 * bytes.length = 2 * read.length + text.length := by
  fun_induction decodeFrom position read text with
  | case1 position read =>
      cases decoded
      simp
  | case2 position read last => cases decoded
  | case3 position read high low rest high? => cases decoded
  | case4 position read high low rest highValue high? low? => cases decoded
  | case5 position read high low rest highValue high? lowValue low? induction =>
      have shorter := induction decoded
      simp only [List.length_cons] at shorter ⊢
      omega

/-- Two digits stand for each byte. -/
theorem decode_length {text bytes : List UInt8}
    (decoded : decode text = .ok bytes) : text.length = 2 * bytes.length := by
  unfold decode at decoded
  split at decoded
  · cases decoded
  · have counted := decodeFrom_length decoded
    simp only [List.length_nil] at counted
    omega

end Hex

namespace Check

/-- A text spells bytes in hexadecimal. -/
def Spells (text : String) (bytes : List UInt8) : Prop :=
  Hex.decode (Utf8.encode text) = .ok bytes

/-- The texts of a case spell one value and the written form of that value. -/
def Conforms : {kind : Kind} → kind.Case → Prop
  | .unsigned, (entry : NumberCase) =>
    ∃ number, Numeral.unsignedDecimal? entry.decimal = some number ∧
      Numeral.unsignedHex? entry.hex = some number ∧
      Spells entry.encoded (Varint.encode number)
  | .signed, (entry : NumberCase) =>
    ∃ number, Numeral.signedDecimal? entry.decimal = some number ∧
      Numeral.signedHex? entry.hex = some number ∧
      Spells entry.encoded (Varint.encode (Zigzag.encode number))
  | .tag, (entry : TagCase) =>
    entry.index.toNat ≤ Tag.maxIndex ∧
      ∃ form, Tag.encode ⟨entry.typeCode, entry.index⟩ = .ok form ∧
        Spells entry.encoded form
  | .bytes, (entry : BytesCase) =>
    ∃ payload, Spells entry.payload payload ∧
      payload.length = entry.length.toNat ∧
      Spells entry.encoded
        (Varint.encode (UInt64.ofNat payload.length) ++ payload)
  | .text, (entry : TextCase) =>
    let content := Utf8.encode entry.content
    Spells entry.encoded
      (Varint.encode (UInt64.ofNat (content.length + 1)) ++ content ++ [0])

theorem hexBytes_ok_iff {text : String} {bytes : List UInt8} :
    hexBytes text = .ok bytes ↔ Spells text bytes :=
  mapError_ok_iff

theorem value_ok_iff {α : Type} {member text : String}
    {read? : String → Option α} {spelled : α} :
    value member text read? = .ok spelled ↔ read? text = some spelled := by
  unfold value
  cases read? text <;> simp

theorem agreement_ok_iff {α : Type} [DecidableEq α] {codec : Codec α}
    {display : α → String} {expected : α} {encoded : List UInt8} :
    agreement codec display expected encoded = .ok () ↔
      codec.decode encoded = .ok (expected, encoded.length) ∧
        codec.encode expected = .ok encoded := by
  simp only [agreement, bind_ok_iff, mapError_ok_iff, refusal_ok_iff,
    lastRefusal_ok_iff]
  constructor
  · rintro ⟨⟨decoded, consumed⟩, read, same, whole, written, wrote, again⟩
    simp only [ne_eq, Decidable.not_not] at same whole again
    rw [read, wrote, same, whole, again]
    exact ⟨rfl, rfl⟩
  · rintro ⟨read, wrote⟩
    exact ⟨_, read, by simp, by simp, _, wrote, by simp⟩

/-- Checking is writing: what is written as these bytes is also read from
them. -/
theorem agreement_iff_encode {α : Type} [DecidableEq α] {codec : Codec α}
    {display : α → String} {expected : α} {encoded : List UInt8}
    (reads : codec.encode expected = .ok encoded →
      Decoder.Reads codec.decode encoded expected) :
    agreement codec display expected encoded = .ok () ↔
      codec.encode expected = .ok encoded := by
  rw [agreement_ok_iff]
  constructor
  · rintro ⟨_, wrote⟩
    exact wrote
  · intro wrote
    have read := reads wrote []
    rw [List.append_nil] at read
    exact ⟨read, wrote⟩

theorem agreement_iff_form {α : Type} [DecidableEq α] {codec : Codec α}
    {display : α → String} {expected : α} {form encoded : List UInt8}
    (wrote : codec.encode expected = .ok form)
    (reads : form = encoded →
      Decoder.Reads codec.decode encoded expected) :
    agreement codec display expected encoded = .ok () ↔ form = encoded := by
  have written : codec.encode expected = .ok encoded ↔ form = encoded := by
    rw [wrote, Except.ok.injEq]
  rw [agreement_iff_encode fun same => reads (written.mp same), written]

theorem number_ok_iff {α : Type} [DecidableEq α] {codec : Codec α}
    {decimal? hex? : String → Option α} {display : α → String}
    {entry : NumberCase}
    (reads : ∀ number form, codec.encode number = .ok form →
      Decoder.Reads codec.decode form number) :
    number codec decimal? hex? display entry = .ok () ↔
      ∃ spelled, decimal? entry.decimal = some spelled ∧
        hex? entry.hex = some spelled ∧
        ∃ form, codec.encode spelled = .ok form ∧
          Spells entry.encoded form := by
  simp only [number, bind_ok_iff, value_ok_iff, refusal_ok_iff,
    hexBytes_ok_iff, agreement_iff_encode (reads _ _)]
  constructor
  · rintro ⟨spelled, decimal, again, hex, same, form, spells, wrote⟩
    simp only [ne_eq, Decidable.not_not] at same
    subst same
    exact ⟨again, decimal, hex, form, wrote, spells⟩
  · rintro ⟨spelled, decimal, hex, form, wrote, spells⟩
    exact ⟨spelled, decimal, spelled, hex, by simp, form, spells, wrote⟩

/-- The text that spells the bytes of a case. -/
def encodedText : {kind : Kind} → kind.Case → String
  | .unsigned, (entry : NumberCase) | .signed, (entry : NumberCase) =>
    entry.encoded
  | .tag, (entry : TagCase) => entry.encoded
  | .bytes, (entry : BytesCase) => entry.encoded
  | .text, (entry : TextCase) => entry.encoded

/-- The bytes of the case are spelled by a text that memory can hold. -/
def Held {kind : Kind} (entry : kind.Case) : Prop :=
  (Utf8.encode (encodedText entry)).length ≤ Buffer.allocationLimit

theorem Held.addressed {kind : Kind} {entry : kind.Case} (held : Held entry)
    {form : List UInt8} (spells : Spells (encodedText entry) form) :
    form.length < Word.limit := by
  have counted := Hex.decode_length spells
  have limits := Buffer.allocationLimit_lt
  unfold Held at held
  have same : Buffer.addressLimit = Word.limit := rfl
  omega

theorem tag_ok_iff {entry : TagCase} :
    tag entry = .ok () ↔
      ∃ form, Tag.encode ⟨entry.typeCode, entry.index⟩ = .ok form ∧
        Spells entry.encoded form := by
  have reads : ∀ form, Codec.tag.encode ⟨entry.typeCode, entry.index⟩ =
      .ok form → Decoder.Reads Codec.tag.decode form
        ⟨entry.typeCode, entry.index⟩ :=
    fun form wrote => Tag.decode_encode_append wrote
  simp only [tag, bind_ok_iff, hexBytes_ok_iff,
    agreement_iff_encode (reads _)]
  constructor
  · rintro ⟨form, spells, wrote⟩
    exact ⟨form, wrote, spells⟩
  · rintro ⟨form, wrote, spells⟩
    exact ⟨form, spells, wrote⟩

theorem bytes_ok_iff {entry : BytesCase}
    (addressed : ∀ {form}, Spells entry.encoded form →
      form.length < Word.limit) :
    bytes entry = .ok () ↔
      ∃ payload, Spells entry.payload payload ∧
        payload.length = entry.length.toNat ∧
        Spells entry.encoded (Payload.frame payload) := by
  have agrees : ∀ {payload form}, Spells entry.encoded form →
      (agreement Codec.bytes Hex.encode payload form = .ok () ↔
        Payload.frame payload = form) := by
    intro payload form spells
    apply agreement_iff_form rfl
    rintro rfl
    exact Codec.bytes_reads (addressed spells)
  simp only [bytes, bind_ok_iff, hexBytes_ok_iff, refusal_ok_iff, ne_eq,
    Decidable.not_not]
  constructor
  · rintro ⟨payload, given, counted, form, spells, agreed⟩
    cases (agrees spells).mp agreed
    exact ⟨payload, given, counted, spells⟩
  · rintro ⟨payload, given, counted, spells⟩
    exact ⟨payload, given, counted, _, spells, (agrees spells).mpr rfl⟩

theorem text_ok_iff {entry : TextCase}
    (addressed : ∀ {form}, Spells entry.encoded form →
      form.length < Word.limit) :
    text entry = .ok () ↔
      Spells entry.encoded
        (Payload.frame (Payload.ofClosedText entry.content)) := by
  have agrees : ∀ {form}, Spells entry.encoded form →
      (agreement Codec.closedText id entry.content form = .ok () ↔
        Payload.frame (Payload.ofClosedText entry.content) = form) := by
    intro form spells
    apply agreement_iff_form rfl
    rintro rfl
    exact Codec.closedText_reads (addressed spells)
  simp only [text, bind_ok_iff, hexBytes_ok_iff]
  constructor
  · rintro ⟨form, spells, agreed⟩
    cases (agrees spells).mp agreed
    exact spells
  · intro spells
    exact ⟨_, spells, (agrees spells).mpr rfl⟩

theorem tag_entry_ok_iff {one : Kind.Case .tag} :
    entry one = .ok () ↔ Conforms one := by
  apply tag_ok_iff.trans
  constructor
  · rintro ⟨form, wrote, spells⟩
    exact ⟨Tag.index_le_of_encode wrote, form, wrote, spells⟩
  · rintro ⟨_, form, wrote, spells⟩
    exact ⟨form, wrote, spells⟩

/-- A case is accepted exactly if it conforms.  The bytes that it spells are
read where every one of them has an address. -/
theorem entry_ok_iff_of_addressed {kind : Kind} {one : kind.Case}
    (addressed : ∀ {form}, Spells (encodedText one) form →
      form.length < Word.limit) :
    entry one = .ok () ↔ Conforms one := by
  cases kind with
  | unsigned =>
      have reads : ∀ number form, Codec.varint.encode number = .ok form →
          Decoder.Reads Codec.varint.decode form number := by
        intro number form wrote
        cases wrote
        exact Codec.varint_reads number
      apply (number_ok_iff reads).trans
      simp only [Conforms, Codec.varint, Except.ok.injEq, exists_eq_left']
  | signed =>
      have reads : ∀ number form, Codec.signedVarint.encode number = .ok form →
          Decoder.Reads Codec.signedVarint.decode form number := by
        intro number form wrote
        cases wrote
        exact Codec.signedVarint_reads number
      apply (number_ok_iff reads).trans
      simp only [Conforms, Codec.signedVarint, Except.ok.injEq,
        exists_eq_left']
  | tag => exact tag_entry_ok_iff
  | bytes => exact bytes_ok_iff addressed
  | text =>
      apply (text_ok_iff addressed).trans
      simp only [Conforms, Payload.frame, Payload.ofClosedText,
        List.length_append, List.length_singleton, List.append_assoc]

theorem entry_ok_iff {kind : Kind} {one : kind.Case} (held : Held one) :
    entry one = .ok () ↔ Conforms one :=
  entry_ok_iff_of_addressed held.addressed

/-! ## Checks that go through buffers -/

section Buffers

open Buffer

variable {α : Type}

/-- Does something with a buffer, and calls what it fails for a nonconformity. -/
def attempt (action : BufferM α) (name : WireError → Nonconformity)
    (buffer : Buffer) : Except Nonconformity (α × Buffer) :=
  match action buffer with
  | .ok answer after => .ok (answer, after)
  | .error error _ => .error (name error)

/-- Checks bytes and a value against each other by taking the value from a view
of the bytes and appending it to new memory. -/
def agreementInBuffers [DecidableEq α] (codec : Codec α) (display : α → String)
    (expected : α) (encoded : List UInt8) : Except Nonconformity Unit := do
  let (decoded, reader) ← attempt (next codec) .undecodable (view encoded)
  if decoded ≠ expected then
    throw (.valueMismatch (display expected) (display decoded))
  if reader.remainder ≠ 0 then
    throw (.trailingBytes reader.position reader.extent)
  let memory ← (owned encoded.length).mapError .unencodable
  let (_, writer) ← attempt (append codec expected) .unencodable memory
  if writer.written ≠ encoded then
    throw (.encodingMismatch (Hex.encode encoded) (Hex.encode writer.written))

/-- A value finds the room for its bytes in new memory that has as much. -/
theorem append_to_new_memory {codec : Codec α} {value : α}
    {form : List UInt8} {capacity : Nat} (fits : form.length ≤ capacity)
    (available : capacity ≤ allocationLimit)
    (wrote : codec.encode value = .ok form) :
    ∃ memory writer, owned capacity = .ok memory ∧
      append codec value memory = .ok () writer ∧ writer.written = form := by
  have made : owned capacity = .ok (atStart (.owned capacity)
      (List.replicate capacity 0)) := if_neg (Nat.not_lt_of_le available)
  have sound := (Built.owned made).sound
  have room : form.length ≤ (atStart (.owned capacity)
      (List.replicate capacity 0)).remainder := by
    simpa [remainder, extent, atStart] using fits
  have writable : (atStart (.owned capacity)
      (List.replicate capacity 0)).holding ≠ .view := by
    simp [atStart]
  obtain ⟨done, _⟩ := write_in_room sound writable room
  have effect := write_ok sound.inside done
  refine ⟨_, _, made, ?_, effect.written_eq⟩
  rw [append, wrote]
  exact done

/-- It makes no difference to a check whether it goes through buffers. -/
theorem agreementInBuffers_eq [DecidableEq α] {codec : Codec α}
    (resumes : Resumes 0 Prod.snd codec.decode) (canonical : codec.Canonical)
    (display : α → String) (expected : α) {encoded : List UInt8}
    (held : encoded.length ≤ allocationLimit) :
    agreementInBuffers codec display expected encoded =
      agreement codec display expected encoded := by
  cases read : codec.decode encoded with
  | error error =>
      have refused : next codec (view encoded) =
          .error error (view encoded) := by
        have unread : (view encoded).unread = encoded := rfl
        simp only [next, takeWith, unread, read]
      simp [agreementInBuffers, agreement, attempt, refused, read,
        Except.mapError, bind, Except.bind]
  | ok outcome =>
      obtain ⟨decoded, consumed⟩ := outcome
      have present : consumed ≤ encoded.length := resumes.consumed_le read
      have taken : next codec (view encoded) =
          .ok decoded ((view encoded).advance consumed) :=
        takeWith_of_decode read
      have place : ((view encoded).advance consumed).position = consumed :=
        Nat.zero_add consumed
      have whole : ((view encoded).advance consumed).extent =
          encoded.length := rfl
      have left : ((view encoded).advance consumed).remainder =
          encoded.length - consumed := by
        rw [remainder, place, whole]
      by_cases same : decoded = expected
      · by_cases last : consumed = encoded.length
        · -- The value has no other form, so what is appended fits exactly.
          have wrote := canonical read
          rw [last] at left
          rw [same, last, List.take_length] at wrote
          obtain ⟨memory, writer, made, appended, bytes⟩ :=
            append_to_new_memory (Nat.le_refl _) held wrote
          simp [agreementInBuffers, agreement, attempt, taken, left, read,
            same, last, wrote, made, appended, bytes, Except.mapError, bind,
            Except.bind]
        · have behind : encoded.length - consumed ≠ 0 := by omega
          simp [agreementInBuffers, agreement, attempt, taken, left, place,
            whole, read, same, last, behind, Except.mapError, bind,
            Except.bind, throw, throwThe, MonadExceptOf.throw]
      · simp [agreementInBuffers, agreement, attempt, taken, read, same,
          Except.mapError, bind, Except.bind, throw, throwThe,
          MonadExceptOf.throw]

end Buffers

/-! ## Lists of cases -/

section Sequences

variable {ε α : Type} {check : α → Except ε Unit}

theorem forM_cons (one : α) (list : List α) :
    (one :: list).forM check = check one >>= fun _ => list.forM check := rfl

theorem forM_congr {other : α → Except ε Unit} {list : List α}
    (same : ∀ one ∈ list, check one = other one) :
    list.forM check = list.forM other := by
  induction list with
  | nil => rfl
  | cons one list induction =>
      rw [forM_cons, forM_cons, same one List.mem_cons_self,
        induction fun later member =>
          same later (List.mem_cons_of_mem _ member)]

theorem forM_append_of_ok {front : List α}
    (sound : ∀ one ∈ front, check one = .ok ()) (rest : List α) :
    (front ++ rest).forM check = rest.forM check := by
  induction front with
  | nil => rfl
  | cons one front induction =>
      rw [List.cons_append, forM_cons, sound one List.mem_cons_self]
      exact induction fun other member =>
        sound other (List.mem_cons_of_mem _ member)

theorem forM_ok {list : List α} (sound : ∀ one ∈ list, check one = .ok ()) :
    list.forM check = .ok () := by
  have whole := forM_append_of_ok sound []
  rw [List.append_nil] at whole
  exact whole

theorem forM_error {front : List α} {one : α} {error : ε}
    (sound : ∀ earlier ∈ front, check earlier = .ok ())
    (refused : check one = .error error) (rest : List α) :
    (front ++ one :: rest).forM check = .error error := by
  rw [forM_append_of_ok sound, forM_cons, refused]
  rfl

/-- Either all are sound, or there is a first one that is not. -/
theorem forall_or_first (check : α → Except ε Unit) (list : List α) :
    (∀ one ∈ list, check one = .ok ()) ∨
      ∃ front one behind error, list = front ++ one :: behind ∧
        (∀ earlier ∈ front, check earlier = .ok ()) ∧
        check one = .error error := by
  induction list with
  | nil => exact .inl nofun
  | cons one list induction =>
      cases judged : check one with
      | error error => exact .inr ⟨[], one, list, error, rfl, nofun, judged⟩
      | ok answer =>
          rcases induction with
            sound | ⟨front, other, behind, error, rfl, sound, refused⟩
          · left
            simpa [judged] using sound
          · refine .inr
              ⟨one :: front, other, behind, error, rfl, ?_, refused⟩
            simpa [judged] using sound

end Sequences

/-- What is said of a case: it is accepted, or fails under its name. -/
def verdict {kind : Kind} (one : kind.Case) : Except CaseFailure Unit :=
  (entry one).mapError fun cause => { id := one.id, cause }

theorem verdict_ok_iff {kind : Kind} {one : kind.Case} (held : Held one) :
    verdict one = .ok () ↔ Conforms one :=
  mapError_ok_iff.trans (entry_ok_iff held)

theorem verdict_error {kind : Kind} {one : kind.Case} {failure : CaseFailure}
    (failed : verdict one = .error failure) :
    ∃ cause, entry one = .error cause ∧ failure = { id := one.id, cause } := by
  unfold verdict at failed
  cases judged : entry one with
  | ok answer =>
      rw [judged] at failed
      cases failed
  | error cause =>
      rw [judged] at failed
      cases failed
      exact ⟨cause, rfl, rfl⟩

theorem cases_of_ok {kind : Kind} {list : List kind.Case}
    (sound : ∀ one ∈ list, verdict one = .ok ()) :
    Check.cases list = .ok list.length := by
  have judged : Check.cases list =
      list.forM verdict >>= fun _ => .ok list.length := rfl
  rw [judged, forM_ok sound]
  rfl

theorem cases_of_error {kind : Kind} {front : List kind.Case}
    {one : kind.Case} {failure : CaseFailure}
    (sound : ∀ earlier ∈ front, verdict earlier = .ok ())
    (failed : verdict one = .error failure) (rest : List kind.Case) :
    Check.cases (front ++ one :: rest) = .error failure := by
  have judged : Check.cases (front ++ one :: rest) =
      (front ++ one :: rest).forM verdict >>= fun _ =>
        .ok (front ++ one :: rest).length := rfl
  rw [judged, forM_error sound failed]
  rfl

/-- A list of cases is accepted, with their number, exactly if every case
conforms.  Otherwise there is a first one that does not, and its failure, under
its name, is that of the list whatever follows it. -/
theorem lists_accepted_iff_conforming {kind : Kind} (list : List kind.Case)
    (held : ∀ one ∈ list, Held one) :
    (∀ count, Check.cases list = .ok count ↔
        count = list.length ∧ ∀ one ∈ list, Conforms one) ∧
      ((¬∀ one ∈ list, Conforms one) →
        ∃ front one behind cause, list = front ++ one :: behind ∧
          (∀ earlier ∈ front, Conforms earlier) ∧ ¬Conforms one ∧
          entry one = .error cause ∧
          ∀ rest, Check.cases (front ++ one :: rest) =
            .error { id := one.id, cause }) := by
  rcases forall_or_first verdict list with
    sound | ⟨front, one, behind, failure, rfl, sound, failed⟩
  · have conforming : ∀ one ∈ list, Conforms one := fun one member =>
      (verdict_ok_iff (held one member)).mp (sound one member)
    constructor
    · intro count
      rw [cases_of_ok sound, Except.ok.injEq]
      exact ⟨fun same => ⟨same.symm, conforming⟩, fun same => same.1.symm⟩
    · intro broken
      exact (broken conforming).elim
  · have member : one ∈ front ++ one :: behind :=
      List.mem_append_right _ List.mem_cons_self
    have nonconforming : ¬Conforms one := by
      rw [← verdict_ok_iff (held one member), failed]
      exact nofun
    constructor
    · intro count
      rw [cases_of_error sound failed]
      constructor
      · exact nofun
      · rintro ⟨_, conforming⟩
        exact (nonconforming (conforming one member)).elim
    · intro _
      obtain ⟨cause, judged, rfl⟩ := verdict_error failed
      refine ⟨front, one, behind, cause, rfl, ?_, nonconforming, judged,
        cases_of_error sound failed⟩
      intro earlier memberEarlier
      apply (verdict_ok_iff _).mp (sound earlier memberEarlier)
      exact held earlier (List.mem_append_left _ memberEarlier)

/-- The second case has a byte too many, which fails the list under its name. -/
theorem lists_accepted_iff_conforming_up_to_trailing_byte :
    let small : Kind.Case .unsigned :=
      (⟨"small", "300", "0x12C", "80AC"⟩ : NumberCase)
    let loose : Kind.Case .unsigned :=
      (⟨"loose", "+0", "0x00", "0000"⟩ : NumberCase)
    (∀ one ∈ [small, loose], Held one) ∧ (∀ one ∈ [small], Conforms one) ∧
      (¬∀ one ∈ [small, loose], Conforms one) ∧
      Check.cases [small, loose] =
        .error { id := "loose", cause := .trailingBytes 1 2 } := by
  intro small loose
  have held : ∀ one ∈ [small, loose], Held one := by
    intro one member
    simp only [List.mem_cons, List.not_mem_nil, or_false] at member
    rcases member with rfl | rfl
    · unfold Held
      decide
    · unfold Held
      decide
  have heldSmall : ∀ one ∈ [small], Held one := fun one member =>
    held one (List.mem_cons.mpr (.inl (List.mem_singleton.mp member)))
  have accepted : Check.cases [small] = .ok 1 := by decide
  have refused : Check.cases [small, loose] =
      .error { id := "loose", cause := .trailingBytes 1 2 } := by decide
  have acceptedIff := (lists_accepted_iff_conforming _ heldSmall).1
  have refusedIff := (lists_accepted_iff_conforming _ held).1
  refine ⟨held, ((acceptedIff 1).mp accepted).2, ?_, refused⟩
  intro conforming
  have impossible := (refusedIff 2).mpr ⟨rfl, conforming⟩
  rw [refused] at impossible
  cases impossible

end Check

end TagWire
