import PlayerLookup.Batch
import PlayerLookup.Failure
import PlayerLookup.Word

/-! Cutting a list into parts of a size that a caller gives: a size must be at least one, and no
larger than a machine word can hold. -/

set_option autoImplicit false

namespace PlayerLookup.Batch

/-- Consecutive parts of a size, the last one perhaps shorter, if the size is one. -/
def parts {α : Type} (size : Int) (items : List α) : Except Failure (List (List α)) :=
  if size < 1 then .error (.misuse (.partSize size))
  else if Word.largest < size then .error .partTooLarge
  else .ok (chunks size.toNat items)

end PlayerLookup.Batch
