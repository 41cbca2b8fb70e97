/-! Batches of keys: dropping repeats, and cutting a list into parts of a given size. The parts
of a list, put together again, are the list, and dropping repeats keeps the first of each key in
its place. -/

set_option autoImplicit false

namespace PlayerLookup.Batch

variable {α κ : Type}

/-- The items whose key is neither in `seen` nor the key of an earlier item. -/
def uniqueFrom [DecidableEq κ] (key : α → κ) (seen : List κ) : List α → List α
  | [] => []
  | x :: xs =>
    if key x ∈ seen then uniqueFrom key seen xs
    else x :: uniqueFrom key (key x :: seen) xs

def uniqueBy [DecidableEq κ] (key : α → κ) (items : List α) : List α :=
  uniqueFrom key [] items

def unique [DecidableEq α] (items : List α) : List α :=
  uniqueBy id items

/-- Puts an item in the place of the one with its key, or after the others. -/
def putInPlace [DecidableEq κ] (key : α → κ) (x : α) : List α → List α
  | [] => [x]
  | y :: rest => if key y = key x then x :: rest else y :: putInPlace key x rest

/-- The last item of each key, in the place of the first. -/
def latestBy [DecidableEq κ] (key : α → κ) (items : List α) : List α :=
  items.foldl (fun done x => putInPlace key x done) []

/-- Consecutive parts of `size` items, the last one perhaps shorter; size zero counts as one. -/
def chunks (size : Nat) : List α → List (List α)
  | [] => []
  | x :: xs => (x :: xs.take (size - 1)) :: chunks size (xs.drop (size - 1))
termination_by items => items.length
decreasing_by simp only [List.length_drop, List.length_cons]; omega

end PlayerLookup.Batch
