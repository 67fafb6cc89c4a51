import TagWire.Number.Word

/-!
# Sums of words

A sum of two words may be beyond every word.  It has then wrapped around, and is
smaller than either of its parts; otherwise it is the sum of the numbers.  Where
a sum must not fail, the largest word stands for every one beyond.
-/

namespace TagWire

namespace Word

variable {left right sum : UInt64}

/-- The sum of two words, if it is a word. -/
def sum? (left right : UInt64) : Option UInt64 :=
  let sum := left + right
  if sum < left then none else some sum

/-- The sum has wrapped around exactly if it is smaller than what was added
to. -/
theorem add_lt_left_iff :
    left + right < left ↔ limit ≤ left.toNat + right.toNat := by
  have leftWord : left.toNat < limit := left.toNat_lt
  have rightWord : right.toNat < limit := right.toNat_lt
  have wrapped : (left + right).toNat =
      (left.toNat + right.toNat) % limit :=
    UInt64.toNat_add left right
  have size : limit = 18446744073709551616 := rfl
  rw [UInt64.lt_iff_toNat_lt, wrapped]
  rw [size] at leftWord rightWord ⊢
  omega

theorem sum?_eq_none (beyond : limit ≤ left.toNat + right.toNat) :
    sum? left right = none :=
  if_pos (add_lt_left_iff.mpr beyond)

theorem toNat_add_of_lt (word : left.toNat + right.toNat < limit) :
    (left + right).toNat = left.toNat + right.toNat := by
  rw [UInt64.toNat_add]
  exact Nat.mod_eq_of_lt word

theorem sum?_eq_some (word : left.toNat + right.toNat < limit) :
    ∃ sum, sum? left right = some sum ∧
      sum.toNat = left.toNat + right.toNat := by
  refine ⟨left + right, if_neg ?_, toNat_add_of_lt word⟩
  rw [add_lt_left_iff]
  exact Nat.not_le_of_lt word

/-- Twice a word, or the largest word if that is no word. -/
def twice (word : UInt64) : UInt64 :=
  (sum? word word).getD (UInt64.ofNat (limit - 1))

theorem toNat_twice (word : UInt64) :
    (twice word).toNat = min (2 * word.toNat) (limit - 1) := by
  have size : limit = 18446744073709551616 := rfl
  by_cases beyond : limit ≤ word.toNat + word.toNat
  · have largest : (UInt64.ofNat (limit - 1)).toNat = limit - 1 :=
      UInt64.toNat_ofNat_of_lt' (by decide)
    rw [twice, sum?_eq_none beyond, Option.getD_none, largest]
    omega
  · obtain ⟨sum, formed, value⟩ := sum?_eq_some (Nat.lt_of_not_le beyond)
    rw [twice, formed, Option.getD_some, value]
    omega

end Word

end TagWire
