import PlayerLookup.Profile
import PlayerLookup.Proofs.Foundations.Lookup
import PlayerLookup.Proofs.Identifier.Stored

/-! Which texts write an id, and what is made of them. Once its dashes are dropped such a text is 32
hexadecimal digits of ASCII, but one newline may come after them. Putting dashes in keeps the digits
only; dropping the dashes keeps the newline too. -/

set_option autoImplicit false

namespace PlayerLookup.PlayerId

/-! ## The digits of a text -/

def hexAlphabet : List Char := "0123456789ABCDEFabcdef".toList

theorem isHexDigit_iff_mem (c : Char) : isHexDigit c = true ↔ c ∈ hexAlphabet := by
  constructor
  · intro h
    exact forall_isHexDigit (P := (· ∈ hexAlphabet)) (by decide) h
  · have hall : hexAlphabet.all isHexDigit = true := by decide
    exact List.all_eq_true.mp hall c

/-- As many hexadecimal digits as an id has, of either case, and nothing else. -/
structure Digits (cs : List Char) : Prop where
  length_eq : cs.length = 32
  mem : ∀ c ∈ cs, c ∈ hexAlphabet

variable {cs ds : List Char}

theorem Digits.isHexDigit (h : Digits ds) {c : Char} (hc : c ∈ ds) : isHexDigit c = true :=
  (isHexDigit_iff_mem c).mpr (h.mem c hc)

theorem Digits.of_leading (h : leadingDigits? cs = some ds) :
    Digits ds ∧ (cs = ds ∨ cs = ds ++ ['\n']) := by
  unfold leadingDigits? at h
  dsimp only at h
  split at h
  · next hhead =>
    obtain ⟨hlen, hall, hrest⟩ := hhead
    have hds : cs.take digitCount = ds := Option.some.inj h
    rw [hds] at hlen hall
    have hsplit : ds ++ cs.drop digitCount = cs := by rw [← hds, List.take_append_drop]
    refine ⟨⟨hlen, fun c hc => (isHexDigit_iff_mem c).mp (List.all_eq_true.mp hall c hc)⟩, ?_⟩
    rcases hrest with hrest | hrest
    · rw [hrest, List.append_nil] at hsplit
      exact Or.inl hsplit.symm
    · rw [hrest] at hsplit
      exact Or.inr hsplit.symm
  · cases h

theorem Digits.leading (h : Digits ds) {rest : List Char} (hrest : rest = [] ∨ rest = ['\n']) :
    leadingDigits? (ds ++ rest) = some ds := by
  have htake : (ds ++ rest).take digitCount = ds := List.take_left' h.length_eq
  have hdrop : (ds ++ rest).drop digitCount = rest := List.drop_left' h.length_eq
  have hall : ds.all PlayerId.isHexDigit = true := List.all_eq_true.mpr fun c hc => h.isHexDigit hc
  unfold leadingDigits?
  dsimp only
  rw [htake, hdrop, if_pos ⟨h.length_eq, hall, hrest⟩]

/-! ## Groups -/

/-- The characters in groups of 8, 4, 4, 4 and 12, with a dash between each two groups. -/
def InGroups (ds cs : List Char) : Prop :=
  ∃ a b c d e : List Char, [a, b, c, d, e].map List.length = [8, 4, 4, 4, 12] ∧
    ds = [a, b, c, d, e].flatten ∧ cs = ['-'].intercalate [a, b, c, d, e]

theorem Digits.inGroups (h : Digits ds) : InGroups ds (grouped ds) := by
  have hlen := h.length_eq
  have hjoin : ∀ i j, (ds.drop i).take j ++ ds.drop (i + j) = ds.drop i := by
    intro i j
    rw [← List.drop_drop, List.take_append_drop]
  have hlast : (ds.drop 20).take 12 = ds.drop 20 :=
    List.take_of_length_le (by rw [List.length_drop]; omega)
  refine ⟨ds.take 8, (ds.drop 8).take 4, (ds.drop 12).take 4, (ds.drop 16).take 4,
    (ds.drop 20).take 12, ?_, ?_, ?_⟩
  · simp only [List.map_cons, List.map_nil, List.length_take, List.length_drop, hlen]
    decide
  · simp only [List.flatten_cons, List.flatten_nil, List.append_nil]
    rw [hlast, hjoin 16 4, hjoin 12 4, hjoin 8 4, List.take_append_drop]
  · simp [grouped, List.intercalate]

/-! ## Texts -/

/-- The text without its dashes is these digits, and what comes after them. -/
def Spelled (t : String) (ds rest : List Char) : Prop :=
  Digits ds ∧ withoutDashes t.toList = ds ++ rest

/-- What is made of a text: its digits in groups, its digits with what came after them, and the id
that has these digits in lower case, as which the groups are read too. Dropping the dashes of the
groups leaves the digits only, and putting dashes in where there are none makes the same groups. -/
structure ReadAs (t : String) (ds rest : List Char) (dashed : String) (id : PlayerId) : Prop where
  dashed_eq : addDashes t = .ok dashed
  inGroups : InGroups ds dashed.toList
  stripped_eq : stripDashes t = .ok (String.ofList (ds ++ rest))
  parsed_eq : parse t = .ok id
  digits_eq : id.digits = ds.map Char.toLower
  lenient : read? dashed = some id
  dashed_stripped : stripDashes dashed = .ok (String.ofList ds)
  stripped_dashed : addDashes (String.ofList (ds ++ rest)) = .ok dashed

/-- The text is refused by all that read ids, as a bad value. -/
structure Refused (t : String) : Prop where
  addDashes_eq : addDashes t = .error (.invalidId t)
  stripDashes_eq : stripDashes t = .error (.invalidId t)
  parse_eq : parse t = .error (.invalidId t)
  isIn : (Failure.invalidId t).isIn .badValue = true

variable {t : String} {rest : List Char}

theorem refused_of_leading (h : leadingDigits? (withoutDashes t.toList) = none) : Refused t where
  addDashes_eq := by rw [addDashes, addDashes?, h]; rfl
  stripDashes_eq := by rw [stripDashes, stripDashes?, h]; rfl
  parse_eq := by rw [parse, parse?, h]; rfl
  isIn := rfl

theorem Spelled.addDashes (h : Spelled t ds rest) (hrest : rest = [] ∨ rest = ['\n']) :
    addDashes t = .ok (String.ofList (grouped ds)) := by
  rw [PlayerId.addDashes, addDashes?, h.2, h.1.leading hrest]
  rfl

theorem Spelled.stripDashes (h : Spelled t ds rest) (hrest : rest = [] ∨ rest = ['\n']) :
    stripDashes t = .ok (String.ofList (ds ++ rest)) := by
  rw [PlayerId.stripDashes, stripDashes?, h.2, h.1.leading hrest]
  rfl

theorem Spelled.parse (h : Spelled t ds rest) (hrest : rest = [] ∨ rest = ['\n']) :
    parse t = .ok ⟨BitVec.ofNat 128 (natOfHex ds)⟩ := by
  rw [PlayerId.parse, parse?, h.2, h.1.leading hrest]
  rfl

theorem Digits.spelled_grouped (h : Digits ds) : Spelled (String.ofList (grouped ds)) ds [] := by
  refine ⟨h, ?_⟩
  rw [String.toList_ofList, withoutDashes_grouped h.length_eq fun c hc => h.isHexDigit hc,
    List.append_nil]

theorem Spelled.without_dashes (h : Spelled t ds rest) :
    Spelled (String.ofList (ds ++ rest)) ds rest := by
  have hdrop : withoutDashes (withoutDashes t.toList) = withoutDashes t.toList := by
    rw [withoutDashes, withoutDashes, List.filter_filter]
    simp only [Bool.and_self]
  refine ⟨h.1, ?_⟩
  rw [String.toList_ofList, ← h.2, hdrop]

theorem Spelled.readAs (h : Spelled t ds rest) (hrest : rest = [] ∨ rest = ['\n']) :
    ReadAs t ds rest (String.ofList (grouped ds)) ⟨BitVec.ofNat 128 (natOfHex ds)⟩ where
  dashed_eq := h.addDashes hrest
  inGroups := by
    rw [String.toList_ofList]
    exact h.1.inGroups
  stripped_eq := h.stripDashes hrest
  parsed_eq := h.parse hrest
  digits_eq := digits_ofNat_natOfHex h.1.length_eq fun c hc => h.1.isHexDigit hc
  lenient := read?_grouped h.1.length_eq fun c hc => h.1.isHexDigit hc
  dashed_stripped := by
    have hstripped := h.1.spelled_grouped.stripDashes (Or.inl rfl)
    rw [List.append_nil] at hstripped
    exact hstripped
  stripped_dashed := h.without_dashes.addDashes hrest

/-- **What writes an id.** A text is read just if it is 32 hexadecimal digits once its dashes are
dropped, or these and a newline; any other text is refused by all that read ids. Of a text without
the newline both forms are forms of the same digits, and each can be had from the other; with it the
form without dashes has the newline at its end, the other one has not. -/
theorem id_text_accepted_up_to_newline (t : String) :
    (∀ ds, Spelled t ds [] → ∃ dashed id, ReadAs t ds [] dashed id) ∧
      (∀ ds, Spelled t ds ['\n'] → ∃ dashed id, ReadAs t ds ['\n'] dashed id) ∧
      ((¬ ∃ ds, Spelled t ds [] ∨ Spelled t ds ['\n']) → Refused t) := by
  refine ⟨fun ds h => ⟨_, _, h.readAs (Or.inl rfl)⟩, fun ds h => ⟨_, _, h.readAs (Or.inr rfl)⟩,
    fun hnone => refused_of_leading ?_⟩
  cases hleading : leadingDigits? (withoutDashes t.toList) with
  | none => rfl
  | some ds =>
    obtain ⟨hds, hcs | hcs⟩ := Digits.of_leading hleading
    · exact absurd ⟨ds, Or.inl ⟨hds, by rw [hcs, List.append_nil]⟩⟩ hnone
    · exact absurd ⟨ds, Or.inr ⟨hds, hcs⟩⟩ hnone

/-- The digits of an id with a newline after them are 33 characters without a dash. They are read
all the same, and the newline stays where nothing but digits should be left. -/
theorem newline_after_digits_read :
    (withoutDashes "00000000000000000000000000000001\n".toList).length = 33 ∧
      addDashes "00000000000000000000000000000001\n" =
        .ok "00000000-0000-0000-0000-000000000001" ∧
      stripDashes "00000000000000000000000000000001\n" =
        .ok "00000000000000000000000000000001\n" ∧
      parse "00000000000000000000000000000001\n" = .ok ⟨1⟩ :=
  ⟨by decide +kernel, Except.eq_ok_of_toOption (by decide +kernel),
    Except.eq_ok_of_toOption (by decide +kernel), Except.eq_ok_of_toOption (by decide +kernel)⟩

end PlayerLookup.PlayerId
