import TagWire.Json.Parser
import TagWire.Proofs.Json.Tokens

/-!
# The grammar of JSON

The rules that build values of tokens, and that reading is complete for them:
a text that the grammar spells a value with is read as this value.
-/

namespace TagWire

namespace Json

mutual

/-- The tokens of a value. -/
inductive ValueTokens : Value → List Token → Prop
  | null : ValueTokens .null [.null]
  | bool (truth : Bool) : ValueTokens (.bool truth) [.bool truth]
  | number (natural? : Option Nat) :
      ValueTokens (.number natural?) [.number natural?]
  | string (content? : Option String) :
      ValueTokens (.string content?) [.string content?]
  | emptyArray : ValueTokens (.array []) [.leftBracket, .rightBracket]
  | array {elements : List Value} {found : List Token}
      (inside : ElementTokens elements found) :
      ValueTokens (.array elements) (.leftBracket :: (found ++ [.rightBracket]))
  | emptyObject : ValueTokens (.object []) [.leftBrace, .rightBrace]
  | object {members : List (Option String × Value)} {found : List Token}
      (inside : MemberTokens members found) :
      ValueTokens (.object members) (.leftBrace :: (found ++ [.rightBrace]))

/-- The tokens of one or more elements. -/
inductive ElementTokens : List Value → List Token → Prop
  | last {value : Value} {found : List Token}
      (element : ValueTokens value found) : ElementTokens [value] found
  | more {value : Value} {values : List Value} {front behind : List Token}
      (element : ValueTokens value front)
      (others : ElementTokens values behind) :
      ElementTokens (value :: values) (front ++ .comma :: behind)

/-- The tokens of one or more members. -/
inductive MemberTokens : List (Option String × Value) → List Token → Prop
  | last (key? : Option String) {value : Value} {found : List Token}
      (member : ValueTokens value found) :
      MemberTokens [(key?, value)] (.string key? :: .colon :: found)
  | more (key? : Option String) {value : Value}
      {members : List (Option String × Value)} {front behind : List Token}
      (member : ValueTokens value front)
      (others : MemberTokens members behind) :
      MemberTokens ((key?, value) :: members)
        (.string key? :: .colon :: (front ++ .comma :: behind))

end

/-- The text spells the value. -/
def Spells (text : List Char) (value : Value) : Prop :=
  ∃ found, TextSpelling found text ∧ ValueTokens value found

/-! ## Reading -/

theorem ValueTokens.head {value : Value} {found : List Token}
    (written : ValueTokens value found) :
    ∃ token behind, found = token :: behind ∧ token ≠ .rightBracket := by
  cases written <;> exact ⟨_, _, rfl, nofun⟩

theorem ElementTokens.head {elements : List Value} {found : List Token}
    (written : ElementTokens elements found) :
    ∃ token behind, found = token :: behind ∧ token ≠ .rightBracket := by
  cases written with
  | last element => exact element.head
  | @more _ _ front behind element others =>
      obtain ⟨token, middle, rfl, other⟩ := element.head
      exact ⟨token, middle ++ .comma :: behind, rfl, other⟩

theorem MemberTokens.head {members : List (Option String × Value)}
    {found : List Token} (written : MemberTokens members found) :
    ∃ key? behind, found = .string key? :: behind := by
  cases written <;> exact ⟨_, _, rfl⟩

mutual

/-- A container takes one step more than what is inside, and so does each of its
elements; their tokens are at least as many. -/
theorem valueFrom_of_tokens {value : Value} {found : List Token}
    (written : ValueTokens value found) {fuel : Nat}
    (enough : found.length ≤ fuel) (rest : List Token) :
    valueFrom fuel (found ++ rest) = some (value, rest) := by
  cases fuel with
  | zero =>
      obtain ⟨token, behind, rfl, _⟩ := written.head
      exact (Nat.not_succ_le_zero _ enough).elim
  | succ fuel =>
      cases written with
      | @array elements inner inside =>
          have innerEnough : inner.length + 1 ≤ fuel := by
            rw [List.length_cons, List.length_append] at enough
            exact Nat.le_of_succ_le_succ enough
          have read := elementsFrom_of_tokens inside innerEnough [] rest
          obtain ⟨token, behind, rfl, other⟩ := inside.head
          rw [List.cons_append] at read
          simp only [List.cons_append, List.append_assoc, List.nil_append]
          rw [valueFrom]
          · exact read
          · rintro _ ⟨⟩
            exact other rfl
      | @object members inner inside =>
          have innerEnough : inner.length + 1 ≤ fuel := by
            rw [List.length_cons, List.length_append] at enough
            exact Nat.le_of_succ_le_succ enough
          have read := membersFrom_of_tokens inside innerEnough [] rest
          obtain ⟨key?, behind, rfl⟩ := inside.head
          rw [List.cons_append] at read
          simp only [List.cons_append, List.append_assoc, List.nil_append]
          rw [valueFrom]
          · exact read
          · rintro _ ⟨⟩
      | _ => rfl

theorem elementsFrom_of_tokens {elements : List Value} {found : List Token}
    (written : ElementTokens elements found) {fuel : Nat}
    (enough : found.length + 1 ≤ fuel) (read : List Value)
    (rest : List Token) :
    elementsFrom fuel read (found ++ .rightBracket :: rest) =
      some (.array (read.reverse ++ elements), rest) := by
  cases fuel with
  | zero => exact (Nat.not_succ_le_zero _ enough).elim
  | succ fuel =>
      have within := Nat.le_of_succ_le_succ enough
      cases written with
      | last element =>
          rw [elementsFrom, valueFrom_of_tokens element within]
          simp only [List.reverse_cons]
      | more element others =>
          rw [List.length_append] at within
          have front := Nat.le_trans (Nat.le_add_right _ _) within
          have behind := Nat.le_trans (Nat.le_add_left _ _) within
          rw [List.append_assoc, elementsFrom, valueFrom_of_tokens element front]
          simp only [List.cons_append]
          rw [elementsFrom_of_tokens others behind, List.reverse_cons,
            List.append_assoc, List.singleton_append]

theorem membersFrom_of_tokens {members : List (Option String × Value)}
    {found : List Token} (written : MemberTokens members found) {fuel : Nat}
    (enough : found.length + 1 ≤ fuel)
    (read : List (Option String × Value)) (rest : List Token) :
    membersFrom fuel read (found ++ .rightBrace :: rest) =
      some (.object (read.reverse ++ members), rest) := by
  cases fuel with
  | zero => exact (Nat.not_succ_le_zero _ enough).elim
  | succ fuel =>
      have within := Nat.le_of_succ_le_succ enough
      cases written with
      | @last key? value found member =>
          have inside : found.length ≤ fuel := by
            simp only [List.length_cons] at within
            omega
          rw [List.cons_append, List.cons_append, membersFrom,
            valueFrom_of_tokens member inside]
          simp only [List.reverse_cons]
      | @more key? value members front behind member others =>
          simp only [List.length_cons, List.length_append] at within
          have frontEnough : front.length ≤ fuel := by omega
          have behindEnough : behind.length + 1 ≤ fuel := by omega
          rw [List.cons_append, List.cons_append, List.append_assoc, membersFrom,
            valueFrom_of_tokens member frontEnough]
          simp only [List.cons_append]
          rw [membersFrom_of_tokens others behindEnough, List.reverse_cons,
            List.append_assoc, List.singleton_append]

end

/-- Reading is complete: a text has the value that it spells. -/
theorem parse_of_spells {text : String} {value : Value}
    (spells : Spells text.toList value) : parse text = some value := by
  obtain ⟨found, spelling, written⟩ := spells
  have enough : found.length ≤ 2 * found.length :=
    Nat.le_mul_of_pos_left found.length (Nat.succ_pos 1)
  have read := valueFrom_of_tokens written enough []
  rw [List.append_nil] at read
  simp only [parse, tokens_of_spelling spelling, Option.bind_eq_bind,
    Option.bind_some, read]
  rfl

end Json

end TagWire
