import TagWire.Proofs.Buffer.Twins
import TagWire.Proofs.Packet.FixedMemory

/-!
# Cleared memory is as good as new

Clearing moves the cursor and nothing else: the old bytes stand where they stood,
and memory that has grown stays grown.  None of this can be seen afterwards.  What
is asked of cleared memory and of memory made anew comes out alike, call by call,
whether it is asked of the memory or of a writer over it.
-/

namespace TagWire

namespace Writer

open Buffer

/-- The bytes of the record of a field, as far as it can be written. -/
def recordLength (field : Field) : Nat := formLength field.encode

theorem writeRecord_twins (field : Field) {growable : Bool}
    {left right : Buffer} (twins : Twins growable left right) :
    Parallel (Scarce growable (left.position + recordLength field))
      (Twins.From growable left.position (recordLength field))
      (writeRecord field left) (writeRecord field right) := by
  cases tagged : field.tag.encode with
  | error error =>
      rw [writeRecord_eq, writeRecord_eq, tagged]
      exact .refused (twins.stays _)
  | ok tag =>
      obtain ⟨body, valued⟩ := field.value.encode_total
      have sized : recordLength field = tag.length + body.length := by
        rw [recordLength,
          Field.encode_ok.mpr ⟨tag, body, tagged, valued, rfl⟩, formLength,
          List.length_append]
      have tagging : Parallel
          (Scarce growable (left.position + recordLength field))
          (Twins.From growable left.position tag.length)
          (write tag left) (write tag right) := by
        apply (twins.write tag).mono
        · apply Scarce.mono
          omega
        · exact fun _ _ states => states
      rw [writeRecord, tagged, valued]
      apply tagging.bind
      · rintro ⟨⟩ middle other ⟨twin, later, bounded⟩
        apply (twin.write body).mono
        · apply Scarce.mono
          omega
        · rintro after last ⟨final, further, ended⟩
          exact ⟨final, by omega, by omega⟩
      · rintro middle other ⟨twin, later, bounded⟩
        exact ⟨twin, later, by omega⟩

/-- Two writers over twins, with as many records and as open. -/
structure Twins (growable : Bool) (left right : Writer) : Prop where
  memory : Buffer.Twins growable left.buffer right.buffer
  fieldCount_eq : left.fieldCount = right.fieldCount
  finished_eq : left.finished = right.finished

/-- Twins whose cursor is no further than a place. -/
def Twins.Upto (growable : Bool) (limit : Nat) (left right : Writer) : Prop :=
  Twins growable left right ∧ left.buffer.position ≤ limit

theorem append_twins (field : Field) {growable : Bool} {left right : Writer}
    (twins : Twins growable left right) :
    Parallel (Scarce growable (left.buffer.position + recordLength field))
      (Twins.Upto growable (left.buffer.position + recordLength field))
      (append field left) (append field right) := by
  cases closed : left.finished with
  | true =>
      have rightClosed := twins.finished_eq.symm.trans closed
      rw [append_finished closed, append_finished rightClosed]
      exact .refused ⟨twins, Nat.le_add_right _ _⟩
  | false =>
      have rightOpened := twins.finished_eq.symm.trans closed
      have records := writeRecord_twins field twins.memory
      rw [append_opened closed, append_opened rightOpened]
      generalize writeRecord field left.buffer = leftDone at records
      generalize writeRecord field right.buffer = rightDone at records
      cases records with
      | answered states =>
          obtain ⟨twin, _, bounded⟩ := states
          exact .answered
            ⟨⟨twin, by rw [twins.fieldCount_eq], rfl⟩, bounded⟩
      | refused states =>
          obtain ⟨twin, later, _⟩ := states
          -- A tag may stand behind the cursor that has gone back, in one memory
          -- over stale bytes and in the other over zeros.
          have back := twin.moveTo later
          rw [← twins.memory.position_eq]
          exact .refused
            ⟨⟨back, twins.fieldCount_eq, twins.finished_eq⟩,
              Nat.le_add_right _ _⟩
      | starved lacking starving =>
          apply Parallel.starved lacking
          rcases starving with ⟨requested, after, rfl⟩ | ⟨requested, after, rfl⟩
          · exact .inl ⟨requested, _, rfl⟩
          · exact .inr ⟨requested, _, rfl⟩

theorem finish_twins {growable : Bool} {left right : Writer}
    (twins : Twins growable left right) :
    Parallel
      (Scarce growable (left.buffer.position + recordLength Field.ending))
      (Twins.Upto growable (left.buffer.position + recordLength Field.ending))
      (finish left) (finish right) := by
  apply (append_twins Field.ending twins).bind
  · rintro ⟨⟩ after other ⟨twin, bounded⟩
    have sameBytes : after.bytes = other.bytes := twin.memory.written_eq
    have answered : Parallel
        (Scarce growable (left.buffer.position + recordLength Field.ending))
        (Twins.Upto growable
          (left.buffer.position + recordLength Field.ending))
        (.ok after.bytes after) (.ok other.bytes other) := by
      rw [sameBytes]
      exact .answered ⟨twin, bounded⟩
    exact answered
  · exact fun _ _ states => states

namespace Call

/-- Makes the call, and answers what the caller is answered: the packet, if it
is being finished. -/
def reply : Call → WriterM (Option (List UInt8))
  | append field => do
    Writer.append field
    return none
  | appendEof => do
    Writer.appendEof
    return none
  | finish => return some (← Writer.finish)
  | clear => do
    modify Writer.clear
    return none

/-- The length of the record that the call is to add. -/
def size (call : Call) : Nat := (call.field?.map recordLength).getD 0

theorem reply_twins (call : Call) {growable : Bool} {left right : Writer}
    (twins : Twins growable left right) :
    Parallel (Scarce growable (left.buffer.position + call.size))
      (Twins.Upto growable (left.buffer.position + call.size))
      (call.reply left) (call.reply right) := by
  cases call with
  | append field =>
      apply (append_twins field twins).bind
      · exact fun _ _ _ states => .answered states
      · exact fun _ _ states => states
  | appendEof =>
      apply (append_twins Field.ending twins).bind
      · exact fun _ _ _ states => .answered states
      · exact fun _ _ states => states
  | finish =>
      apply (finish_twins twins).bind
      · exact fun _ _ _ states => .answered states
      · exact fun _ _ states => states
  | clear =>
      have cleared : Twins growable left.clear right.clear :=
        ⟨twins.memory.clear, rfl, rfl⟩
      exact .answered ⟨cleared, Nat.zero_le _⟩

end Call

/-- What can be seen of a writer. -/
structure Sight where
  bytes : List UInt8
  fieldCount : Nat
  finished : Bool
  deriving DecidableEq, Repr

def sight (writer : Writer) : Sight where
  bytes := writer.bytes
  fieldCount := writer.fieldCount
  finished := writer.finished

theorem Twins.sight_eq {growable : Bool} {left right : Writer}
    (twins : Twins growable left right) : left.sight = right.sight := by
  have sameBytes : left.bytes = right.bytes := twins.memory.written_eq
  rw [sight, sight, sameBytes, twins.fieldCount_eq, twins.finished_eq]

end Writer

namespace Buffer

/-- Memory that was made anew to take the place of old memory: of the buffer's
own with any capacity, or of the same extent and held in the same way, with any
bytes in it. -/
inductive Replaces (old : Buffer) : Buffer → Prop where
  | owned {allocated capacity : Nat} {fresh : Buffer} :
      old.holding = .owned allocated → Buffer.owned capacity = .ok fresh →
      Replaces old fresh
  | cloned {content : List UInt8} :
      old.holding = .cloned → content.length = old.extent →
      Replaces old (cloned content)
  | adopted {content : List UInt8} :
      old.holding = .adopted → content.length = old.extent →
      Replaces old (adopted content)
  | borrowed {beyond content : List UInt8} :
      old.holding = .borrowed beyond → content.length = old.extent →
      Replaces old (borrowed content)

theorem Replaces.twins {old fresh : Buffer} (replaces : Replaces old fresh) :
    Twins old.holding.isGrowable old.clear fresh := by
  have fixed : ∀ {holding : Holding} {content : List UInt8},
      old.holding.isFixed = true → holding.isFixed = true →
      content.length = old.extent →
      Twins old.holding.isGrowable old.clear (atStart holding content) := by
    intro holding content oldFixed newFixed sized
    apply Twins.of_start rfl rfl
    · rfl
    · rw [Holding.not_growable_of_fixed oldFixed]
      exact Holding.not_growable_of_fixed newFixed
    · exact Holding.ne_view_of_fixed oldFixed
    · exact Holding.ne_view_of_fixed newFixed
    · intro _
      exact sized.symm
  cases replaces with
  | @owned allocated capacity fresh held made =>
      have grows : old.holding.isGrowable = true := by
        rw [held]
        rfl
      unfold Buffer.owned at made
      split at made
      · cases made
      · cases made
        apply Twins.of_start rfl rfl
        · rfl
        · exact grows.symm
        · intro viewed
          have viewed : old.holding = .view := viewed
          rw [held] at viewed
          cases viewed
        · exact nofun
        · intro rigid
          rw [grows] at rigid
          cases rigid
  | cloned held sized => exact fixed (by rw [held]; rfl) rfl sized
  | adopted held sized => exact fixed (by rw [held]; rfl) rfl sized
  | borrowed held sized => exact fixed (by rw [held]; rfl) rfl sized

/-- Two records of calls agree.  They are the same unless a call got no memory,
which takes memory that can grow, and more of it wanted in all than half of the
most that can be had. -/
structure Alike {α ω : Type} (growable : Bool) (wanted : Nat)
    (left right : List (Except WireError α × ω)) : Prop where
  agree : Agree (Scarce growable wanted) left right
  served : (∀ entry ∈ left ++ right, ∀ requested,
    entry.1 ≠ .error (.allocationFailed requested)) → left = right
  plenty : growable = false ∨ 2 * wanted ≤ allocationLimit → left = right

theorem Alike.of_agree {α ω : Type} {growable : Bool} {start wanted : Nat}
    {left right : List (Except WireError α × ω)}
    (agree : Agree (Scarce growable (start + wanted)) left right)
    (fromStart : start = 0) : Alike growable wanted left right := by
  rw [fromStart, Nat.zero_add] at agree
  refine ⟨agree, agree.eq_of_served, ?_⟩
  intro plenty
  apply agree.eq
  rintro ⟨grows, lacking⟩
  rcases plenty with rigid | enough
  · rw [grows] at rigid
    cases rigid
  · exact Nat.not_lt_of_le enough lacking

/-- Clearing leaves the old bytes where they are, and no caller can tell.
Whatever was done to memory before, and however long it has become, calls on it
and on memory made anew come out alike, one by one, and leave the same to be
seen, as long as neither asks for memory that is not to be had. -/
theorem cleared_memory_is_as_new {old fresh : Buffer}
    (replaces : Replaces old fresh) :
    old.clear.content = old.content ∧
      (∀ (writer : Writer) (calls : List Writer.Call), writer.buffer = old →
        Alike old.holding.isGrowable (calls.map Writer.Call.size).sum
          (watch Writer.Call.reply Writer.sight calls writer.clear)
          (watch Writer.Call.reply Writer.sight calls
            (Writer.ofBuffer fresh))) ∧
      ∀ additions : List Addition,
        Alike old.holding.isGrowable (additions.map Addition.size).sum
          (watch Addition.perform written additions old.clear)
          (watch Addition.perform written additions fresh) := by
  have twins := replaces.twins
  refine ⟨rfl, ?_, ?_⟩
  · rintro writer calls rfl
    have writers : Writer.Twins writer.buffer.holding.isGrowable writer.clear
        (Writer.ofBuffer fresh) := ⟨twins, rfl, rfl⟩
    have agree := watch_agree (Writer.Twins writer.buffer.holding.isGrowable)
      (fun held => held.buffer.position) Writer.Call.size
      (Scarce writer.buffer.holding.isGrowable) Scarce.mono
      (fun _ _ => Writer.Twins.sight_eq)
      (fun call _ _ => call.reply_twins) calls writers
    exact .of_agree agree rfl
  · intro additions
    have agree := watch_agree (Twins old.holding.isGrowable)
      Buffer.position Addition.size
      (Scarce old.holding.isGrowable) Scarce.mono
      (fun _ _ => Twins.written_eq)
      (fun addition _ _ => addition.perform_twins) additions twins
    exact .of_agree agree rfl

/-- A packet is left half done in memory that has grown to sixty-four bytes.
Once it is cleared the next packet comes out as in memory of one byte. -/
theorem cleared_memory_is_as_new_behind_stale_text :
    let stale := leaves (Writer.append ⟨1, .text "stale"⟩)
      (Writer.ofBuffer (atStart (.owned 0) []))
    let calls : List Writer.Call :=
      [.append ⟨1048576, .bool true⟩, .append ⟨2, .bool true⟩, .finish,
        .append ⟨3, .bool false⟩]
    stale.buffer.extent = 64 ∧
      stale.clear.buffer.content.take 3 = [49, 6, 115] ∧
      watch Writer.Call.reply Writer.sight calls stale.clear =
        watch Writer.Call.reply Writer.sight calls
          (Writer.ofBuffer (atStart (.owned 1) [0])) ∧
      watch Writer.Call.reply Writer.sight calls stale.clear =
        [(.error (.indexOutOfRange 1048576), ⟨[], 0, false⟩),
          (.ok none, ⟨[10, 1], 1, false⟩),
          (.ok (some [10, 1, 0]), ⟨[10, 1, 0], 2, true⟩),
          (.error .packetFinished, ⟨[10, 1, 0], 2, true⟩)] := by
  intro stale calls
  have made : Buffer.owned 1 = .ok (atStart (.owned 1) [0]) := rfl
  have replaces : Replaces stale.buffer (atStart (.owned 1) [0]) :=
    .owned rfl made
  obtain ⟨_, writers, _⟩ := cleared_memory_is_as_new replaces
  have alike := writers stale calls rfl
  have same := alike.plenty (.inr (by decide))
  exact ⟨by decide, by decide, same, same.trans rfl⟩

end Buffer

end TagWire
