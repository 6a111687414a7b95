/-!
# Words

The values that programs compute with: integers that fit in 64 bits with a sign. Arithmetic is
done on `Int`, and a result outside the range is no word.
-/

namespace Lending

/-- An integer between -2^63 and 2^63 - 1. -/
structure Word where
  val : Int
  lower : -9223372036854775808 ≤ val
  upper : val ≤ 9223372036854775807
deriving DecidableEq

namespace Word

/-- The word with the given value, if it is in range. -/
def ofInt? (value : Int) : Option Word :=
  if lower : -9223372036854775808 ≤ value then
    if upper : value ≤ 9223372036854775807 then
      some ⟨value, lower, upper⟩
    else none
  else none

instance : Inhabited Word := ⟨⟨0, by decide, by decide⟩⟩

instance : Repr Word := ⟨fun word precedence => reprPrec word.val precedence⟩

/-- The word in decimal. -/
def render (word : Word) : String :=
  toString word.val

@[simp]
theorem ofInt?_val (word : Word) : ofInt? word.val = some word := by
  simp [ofInt?, word.lower, word.upper]

theorem val_of_ofInt? {value : Int} {word : Word} (found : ofInt? value = some word) :
    word.val = value := by
  unfold ofInt? at found
  split at found <;> try split at found
  all_goals simp at found
  exact found ▸ rfl

end Word

end Lending
