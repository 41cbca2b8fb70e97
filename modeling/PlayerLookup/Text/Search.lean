/-! Finding a word in a text. -/

set_option autoImplicit false

namespace PlayerLookup.Text

def holdsWord (word : List Char) : List Char → Bool
  | [] => word.isEmpty
  | c :: rest => word.isPrefixOf (c :: rest) || holdsWord word rest

def contains (s word : String) : Bool := holdsWord word.toList s.toList

end PlayerLookup.Text
