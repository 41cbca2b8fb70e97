/-! Bounds that machine words set to numbers. -/

set_option autoImplicit false

namespace PlayerLookup.Word

/-- One more than the largest number that a signed word of 64 bits holds. -/
def bound : Nat := 9223372036854775808

/-- The largest number that a signed word of 64 bits holds. -/
def largest : Int := 9223372036854775807

end PlayerLookup.Word
