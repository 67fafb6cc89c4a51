import TagWire.Outcome
import TagWire.Proofs.Json.Printing
import TagWire.Vector.File

/-!
# Cases as JSON objects

A case is written as an object with a member for each name of its schema.  The
names are different, and every member fits its shape, so reading the object by
its names gives the case back.
-/

namespace TagWire

/-! ## Reading members -/

namespace VectorFile

/-- Where names are different, a member is the only one of its name. -/
theorem filter_named {α : Type} {members : List (String × α)}
    (different : (members.map Prod.fst).Nodup) {member : String × α}
    (inside : member ∈ members) :
    members.filter (fun other => other.1 == member.1) = [member] := by
  obtain ⟨front, behind, rfl⟩ := List.append_of_mem inside
  rw [List.map_append, List.map_cons, List.nodup_append,
    List.nodup_cons] at different
  obtain ⟨_, ⟨notBehind, _⟩, apart⟩ := different
  have before : front.filter (fun other => other.1 == member.1) = [] := by
    rw [List.filter_eq_nil_iff]
    intro other found same
    exact apart other.1 (List.mem_map_of_mem found) member.1
      List.mem_cons_self (beq_iff_eq.mp same)
  have after : behind.filter (fun other => other.1 == member.1) = [] := by
    rw [List.filter_eq_nil_iff]
    intro other found same
    rw [← beq_iff_eq.mp same] at notBehind
    exact notBehind (List.mem_map_of_mem found)
  rw [List.filter_append, List.filter_cons, beq_self_eq_true, if_pos rfl,
    before, after, List.nil_append]

/-- The members of an object are found by their names if these are different. -/
theorem members?_object (members : List (String × Json.Value))
    (different : (members.map Prod.fst).Nodup) :
    members? (members.map Prod.fst)
        (.object (members.map fun member => (some member.1, member.2))) =
      some (members.map Prod.snd) := by
  rw [members?, mapM_restores, Option.bind_eq_bind, Option.bind_some]
  · apply mapM_found
    intro member inside
    rw [filter_named different inside]
  · intro member _
    rfl

end VectorFile

/-! ## Cases as values -/

/-- The scalar may stand in a member of this shape. -/
def Json.Scalar.Fits : Json.Scalar → Shape → Prop
  | .text _, .text => True
  | .natural value, .natural bits => value < Nat.pow 2 bits
  | _, _ => False

theorem VectorFile.scalar?_of_fits {scalar : Json.Scalar} {shape : Shape}
    (fits : scalar.Fits shape) : scalar? shape scalar.value = some scalar := by
  cases scalar with
  | text content =>
      cases shape with
      | text => rfl
      | natural bits => exact fits.elim
  | natural value =>
      cases shape with
      | text => exact fits.elim
      | natural bits => exact if_pos fits

theorem VectorFile.mapM_scalar? {schema : List (String × Shape)}
    {scalars : List Json.Scalar} (sized : schema.length = scalars.length)
    (fit : ∀ pair ∈ schema.zip scalars, pair.2.Fits pair.1.2) :
    (schema.zip (scalars.map Json.Scalar.value)).mapM
        (fun (member, value) => scalar? member.2 value) =
      some scalars := by
  have found : ∀ pair ∈ schema.zip scalars,
      scalar? pair.1.2 pair.2.value = some pair.2 :=
    fun pair inside => scalar?_of_fits (fit pair inside)
  have answers := List.map_snd_zip (Nat.le_of_eq sized.symm)
  rw [List.zip_map_right]
  calc
    _ = some ((schema.zip scalars).map Prod.snd) := mapM_found found
    _ = some scalars := congrArg some answers

namespace Kind.Case

variable {kind : Kind}

def members (one : kind.Case) : List (String × Json.Scalar) :=
  (kind.schema.map Prod.fst).zip one.toScalars

/-- What the object says that a case is written as. -/
def value (one : kind.Case) : Json.Value := Json.objectValue one.members

theorem length_toScalars (one : kind.Case) :
    kind.schema.length = one.toScalars.length := by
  cases kind <;> rfl

theorem toScalars_fit (one : kind.Case) :
    ∀ pair ∈ kind.schema.zip one.toScalars, pair.2.Fits pair.1.2 := by
  cases kind with
  | unsigned => simp [schema, toScalars, Json.Scalar.Fits]
  | signed => simp [schema, toScalars, Json.Scalar.Fits]
  | tag =>
      have typeCode : (TagCase.typeCode one).toNat < Nat.pow 2 8 :=
        UInt8.toNat_lt _
      have index : (TagCase.index one).toNat < Nat.pow 2 32 :=
        UInt32.toNat_lt _
      simp only [schema, toScalars, List.zip_cons_cons, List.forall_mem_cons,
        Json.Scalar.Fits, typeCode, index, true_and]
      exact List.forall_mem_nil _
  | bytes =>
      have length : (BytesCase.length one).toNat < Nat.pow 2 64 :=
        UInt64.toNat_lt _
      simp only [schema, toScalars, List.zip_cons_cons, List.forall_mem_cons,
        Json.Scalar.Fits, length, true_and]
      exact List.forall_mem_nil _
  | text => simp [schema, toScalars, Json.Scalar.Fits]

theorem ofScalars?_toScalars (one : kind.Case) :
    ofScalars? kind one.toScalars = some one := by
  cases kind with
  | unsigned => rfl
  | signed => rfl
  | tag =>
      simp only [toScalars, ofScalars?, UInt8.ofNat_toNat, UInt32.ofNat_toNat]
      rfl
  | bytes =>
      simp only [toScalars, ofScalars?, UInt64.ofNat_toNat]
      rfl
  | text => rfl

theorem schema_nodup (kind : Kind) : (kind.schema.map Prod.fst).Nodup := by
  cases kind <;> decide

theorem case?_value (one : kind.Case) :
    VectorFile.case? kind one.value = some one := by
  have sized : (kind.schema.map Prod.fst).length = one.toScalars.length := by
    rw [List.length_map, one.length_toScalars]
  let valued := one.members.map fun member => (member.1, member.2.value)
  have keys : valued.map Prod.fst = kind.schema.map Prod.fst := by
    rw [List.map_map]
    exact List.map_fst_zip (Nat.le_of_eq sized)
  have values : valued.map Prod.snd = one.toScalars.map Json.Scalar.value := by
    have scalars : one.members.map Prod.snd = one.toScalars :=
      List.map_snd_zip (Nat.le_of_eq sized.symm)
    rw [List.map_map, ← scalars, List.map_map]
    rfl
  have found := VectorFile.members?_object valued (keys ▸ schema_nodup kind)
  have same : Json.Value.object
      (valued.map fun member => (some member.1, member.2)) = one.value := by
    rw [List.map_map]
    rfl
  rw [keys, values, same] at found
  simp only [VectorFile.case?, found, Option.bind_eq_bind, Option.bind_some,
    VectorFile.mapM_scalar? one.length_toScalars one.toScalars_fit,
    one.ofScalars?_toScalars]

theorem print_writes (one : kind.Case) : Json.Writes one.print one.value :=
  Json.printObject_writes one.members

theorem not_mem_print (one : kind.Case) : '\n' ∉ one.print :=
  Json.not_mem_printObject one.members

end Kind.Case

end TagWire
