import TagWire.Codec

/-!
# Reading bytes that arrive piece by piece

A decoder may be run before all bytes are there.  Its answer, and its complaint
about wrong bytes, then hold for good, and a complaint about missing bytes
says how many more must come before anything can change.

The laws are proved for decoders in the middle of an item: `Resumes start`
speaks only of bytes with the first `start` of them there already.  The steps of
an item compose in this form, and a whole item is the case of no such bytes.
-/

namespace TagWire

namespace WireError

/-- Bytes that have been read are wrong, whatever follows them. -/
def IsFault : WireError → Prop
  | malformedTag _ | varintOverflow | lengthOverflow _ | invalidText _
  | missingTerminator | unknownFieldType _ | unsupportedFieldType _ => True
  | _ => False

end WireError

namespace Decoder

theorem run_ok {count : Nat} {bytes group : List UInt8} {length : Nat}
    (read : run count bytes = .ok (group, length)) :
    length = count ∧ group = bytes.take count ∧ group.length = count := by
  simp only [run] at read
  split at read
  · cases read
  · rename_i present
    cases read
    have most := List.length_take_le count bytes
    exact ⟨rfl, rfl, by omega⟩

end Decoder

/-- More bytes never change what a decoder has settled, and what is settled
depends on the consumed bytes only. -/
structure Incremental {α : Type} (consumed : α → Nat)
    (decode : List UInt8 → Except WireError α) : Prop where
  /-- An answer stays, and is an answer to its consumed bytes alone. -/
  answer : ∀ {bytes answer}, decode bytes = .ok answer →
    consumed answer ≤ bytes.length ∧
      (∀ more, decode (bytes ++ more) = .ok answer) ∧
      ∀ other, other.take (consumed answer) = bytes.take (consumed answer) →
        decode other = .ok answer
  /-- An error is a fault or a lack of bytes. -/
  error_cases : ∀ {bytes error}, decode bytes = .error error →
    error.IsFault ∨
      ∃ needed remainder, error = .unexpectedEnd needed remainder
  /-- An error other than a lack of bytes stays. -/
  fault : ∀ {bytes error}, decode bytes = .error error →
    (∀ needed remainder, error ≠ .unexpectedEnd needed remainder) →
      ∀ more, decode (bytes ++ more) = .error error
  /-- A lack of bytes stays until the missing ones have come. -/
  lack : ∀ {bytes needed remainder},
    decode bytes = .error (.unexpectedEnd needed remainder) →
      remainder < needed ∧
        ∀ more, more.length < needed - remainder →
          decode (bytes ++ more) =
            .error (.unexpectedEnd needed (remainder + more.length))
  /-- Whatever is cut off from an item that fills the bytes is missed. -/
  cut : ∀ {bytes answer}, decode bytes = .ok answer →
    consumed answer = bytes.length →
      ∀ shorter, shorter <+: bytes → shorter ≠ bytes →
        ∃ needed remainder,
          decode shorter = .error (.unexpectedEnd needed remainder)

/-- The laws for a decoder whose first `start` bytes have been seen. -/
structure Resumes {α : Type} (start : Nat) (consumed : α → Nat)
    (decode : List UInt8 → Except WireError α) : Prop where
  answered : ∀ {bytes answer}, start ≤ bytes.length →
    decode bytes = .ok answer →
      start ≤ consumed answer ∧ consumed answer ≤ bytes.length ∧
        ∀ other, other.take (consumed answer) = bytes.take (consumed answer) →
          decode other = .ok answer
  failed : ∀ {bytes error}, start ≤ bytes.length →
    decode bytes = .error error →
      (error.IsFault ∧ ∀ more, decode (bytes ++ more) = .error error) ∨
        ∃ needed remainder, error = .unexpectedEnd needed remainder ∧
          remainder < needed ∧
            ∀ more, more.length < needed - remainder →
              decode (bytes ++ more) =
                .error (.unexpectedEnd needed (remainder + more.length))

namespace Resumes

variable {α β : Type} {start : Nat} {consumed : α → Nat} {total : β → Nat}

theorem answered_append {decode : List UInt8 → Except WireError α}
    (resumes : Resumes start consumed decode)
    {bytes : List UInt8} {answer : α} (present : start ≤ bytes.length)
    (read : decode bytes = .ok answer) (more : List UInt8) :
    decode (bytes ++ more) = .ok answer := by
  obtain ⟨_, within, determined⟩ := resumes.answered present read
  exact determined _ (List.take_append_of_le_length within)

theorem incremental {decode : List UInt8 → Except WireError α}
    (resumes : Resumes 0 consumed decode) : Incremental consumed decode := by
  have settled : ∀ {bytes error}, decode bytes = .error error →
      (∀ needed remainder, error ≠ .unexpectedEnd needed remainder) →
        ∀ more, decode (bytes ++ more) = .error error := by
    intro bytes error refused other
    rcases resumes.failed (Nat.zero_le _) refused with
      ⟨_, stays⟩ | ⟨needed, remainder, lacking, _⟩
    · exact stays
    · exact (other needed remainder lacking).elim
  refine {
    answer := ?_
    error_cases := ?_
    fault := settled
    lack := ?_
    cut := ?_ }
  · intro bytes answer read
    obtain ⟨_, within, determined⟩ :=
      resumes.answered (Nat.zero_le _) read
    exact ⟨within, resumes.answered_append (Nat.zero_le _) read,
      determined⟩
  · intro bytes error refused
    rcases resumes.failed (Nat.zero_le _) refused with
      ⟨fault, _⟩ | ⟨needed, remainder, lacking, _⟩
    · exact .inl fault
    · exact .inr ⟨needed, remainder, lacking⟩
  · intro bytes needed remainder lacking
    rcases resumes.failed (Nat.zero_le _) lacking with
      ⟨fault, _⟩ | ⟨_, _, same, missing, stays⟩
    · exact fault.elim
    · cases same
      exact ⟨missing, stays⟩
  · intro bytes answer read full shorter beginning proper
    obtain ⟨rest, rfl⟩ := beginning
    cases outcome : decode shorter with
    | ok early =>
        have stays :=
          resumes.answered_append (Nat.zero_le _) outcome rest
        have within := (resumes.answered (Nat.zero_le _) outcome).2.1
        rw [read] at stays
        cases stays
        rw [full, List.length_append] at within
        have nothing : rest = [] :=
          List.eq_nil_of_length_eq_zero (by omega)
        exact (proper (by rw [nothing, List.append_nil])).elim
    | error error =>
        rcases resumes.failed (Nat.zero_le _) outcome with
          ⟨_, stays⟩ | ⟨needed, remainder, lacking, _⟩
        · have refused := stays rest
          rw [read] at refused
          cases refused
        · exact ⟨needed, remainder, by rw [lacking]⟩

/-- A step that depends on the bytes before it only. -/
theorem window {decode : List UInt8 → Except WireError α}
    (determined : ∀ bytes, decode (bytes.take start) = decode bytes)
    (consumes : ∀ {bytes answer}, decode bytes = .ok answer →
      consumed answer = start)
    (faults : ∀ {bytes error}, decode bytes = .error error →
      error.IsFault) :
    Resumes start consumed decode := by
  constructor
  · intro bytes answer present read
    have exactly := consumes read
    refine ⟨Nat.le_of_eq exactly.symm, by omega, ?_⟩
    intro other same
    rw [exactly] at same
    rw [← determined, same, determined, read]
  · intro bytes error present refused
    refine .inl ⟨faults refused, ?_⟩
    intro more
    rw [← determined, List.take_append_of_le_length present, determined,
      refused]

theorem pure {answer : α} (consumes : consumed answer = start) :
    Resumes start consumed fun _ => .ok answer :=
  window (fun _ => rfl) (fun read => by cases read; exact consumes)
    (fun refused => by cases refused)

theorem fail {error : WireError} (fault : error.IsFault) :
    Resumes start consumed fun _ => .error error :=
  window (fun _ => rfl) (fun read => by cases read)
    (fun refused => by cases refused; exact fault)

/-- A step behind another one, both counting from the start of the item. -/
theorem bind {first : List UInt8 → Except WireError α}
    {next : α → List UInt8 → Except WireError β}
    (firstResumes : Resumes start consumed first)
    (nextResumes : ∀ answer, Resumes (consumed answer) total (next answer)) :
    Resumes start total fun bytes =>
      first bytes >>= fun answer => next answer bytes := by
  constructor
  · intro bytes result present read
    cases opened : first bytes with
    | error error =>
        rw [opened] at read
        cases read
    | ok answer =>
        rw [opened] at read
        obtain ⟨behind, inside, firstDetermined⟩ :=
          firstResumes.answered present opened
        obtain ⟨further, within, nextDetermined⟩ :=
          (nextResumes answer).answered inside read
        refine ⟨Nat.le_trans behind further, within, ?_⟩
        intro other same
        have sameFirst : other.take (consumed answer) =
            bytes.take (consumed answer) := by
          have cut := congrArg (List.take (consumed answer)) same
          rwa [List.take_take, List.take_take, Nat.min_eq_left further]
            at cut
        simp only [firstDetermined other sameFirst]
        exact nextDetermined other same
  · intro bytes error present refused
    cases opened : first bytes with
    | error early =>
        rw [opened] at refused
        cases refused
        rcases firstResumes.failed present opened with
          ⟨fault, stays⟩ | ⟨needed, remainder, rfl, missing, stays⟩
        · refine .inl ⟨fault, fun more => ?_⟩
          simp only [stays more]
          rfl
        · refine .inr ⟨needed, remainder, rfl, missing, ?_⟩
          intro more few
          simp only [stays more few]
          rfl
    | ok answer =>
        rw [opened] at refused
        have inside := (firstResumes.answered present opened).2.1
        have again := firstResumes.answered_append present opened
        rcases (nextResumes answer).failed inside refused with
          ⟨fault, stays⟩ | ⟨needed, remainder, rfl, missing, stays⟩
        · refine .inl ⟨fault, fun more => ?_⟩
          simp only [again more]
          exact stays more
        · refine .inr ⟨needed, remainder, rfl, missing, ?_⟩
          intro more few
          simp only [again more]
          exact stays more few

theorem map {decode : List UInt8 → Except WireError α} {change : α → β}
    (resumes : Resumes start consumed decode)
    (keeps : ∀ answer, total (change answer) = consumed answer) :
    Resumes start total fun bytes => (decode bytes).map change := by
  have same : (fun bytes => (decode bytes).map change) =
      fun bytes => decode bytes >>= fun answer => .ok (change answer) := by
    funext bytes
    cases decode bytes <;> rfl
  rw [same]
  exact resumes.bind fun answer => Resumes.pure (keeps answer)

theorem run {count : Nat} (covers : start ≤ count) :
    Resumes start Prod.snd (Decoder.run count) := by
  constructor
  · rintro bytes ⟨group, length⟩ present read
    obtain ⟨rfl, rfl, sized⟩ := Decoder.run_ok read
    have within : length ≤ bytes.length := by
      rw [List.length_take] at sized
      omega
    refine ⟨covers, within, ?_⟩
    intro other same
    simp only at same
    simp only [Decoder.run, same, sized, Nat.lt_irrefl, if_false]
  · intro bytes error present refused
    simp only [Decoder.run] at refused
    split at refused
    · rename_i short
      rw [List.length_take] at short
      cases refused
      refine .inr ⟨count, bytes.length, rfl, by omega, ?_⟩
      intro more few
      simp only [Decoder.run]
      rw [if_pos (by rw [List.length_take, List.length_append]; omega),
        List.length_append]
    · cases refused

/-- A whole item behind the bytes that are there. -/
theorem drop {decode : List UInt8 → Except WireError α}
    (resumes : Resumes 0 consumed decode) :
    Resumes start (fun answer => start + consumed answer)
      fun bytes => decode (bytes.drop start) := by
  have shifted : ∀ {bytes : List UInt8}, start ≤ bytes.length →
      ∀ more, (bytes ++ more).drop start = bytes.drop start ++ more :=
    fun present _ => List.drop_append_of_le_length present
  constructor
  · intro bytes answer present read
    obtain ⟨_, within, determined⟩ :=
      resumes.answered (Nat.zero_le _) read
    rw [List.length_drop] at within
    refine ⟨Nat.le_add_right _ _, by omega, ?_⟩
    intro other same
    apply determined
    have cut := congrArg (List.drop start) same
    rwa [List.drop_take, List.drop_take, Nat.add_sub_cancel_left] at cut
  · intro bytes error present refused
    rcases resumes.failed (Nat.zero_le _) refused with
      ⟨fault, stays⟩ | ⟨needed, remainder, rfl, missing, stays⟩
    · refine .inl ⟨fault, fun more => ?_⟩
      rw [shifted present]
      exact stays more
    · refine .inr ⟨needed, remainder, rfl, missing, ?_⟩
      intro more few
      rw [shifted present]
      exact stays more few

end Resumes

end TagWire
