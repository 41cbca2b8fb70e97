/-! Dictionaries: at most one value for each key, as a list of entries, the latest first. -/

set_option autoImplicit false

namespace PlayerLookup

abbrev Dictionary (κ ν : Type) := List (κ × ν)

namespace Dictionary

variable {κ ν : Type} [DecidableEq κ]

def get? (d : Dictionary κ ν) (k : κ) : Option ν := d.lookup k

def erase (d : Dictionary κ ν) (k : κ) : Dictionary κ ν := d.filter fun e => e.1 != k

def set (d : Dictionary κ ν) (k : κ) (v : ν) : Dictionary κ ν := (k, v) :: d.erase k

/-- Without a key that is there; a key that is not there cannot be removed. -/
def remove? (d : Dictionary κ ν) (k : κ) : Option (Dictionary κ ν) :=
  if (d.get? k).isSome then some (d.erase k) else none

end Dictionary

end PlayerLookup
