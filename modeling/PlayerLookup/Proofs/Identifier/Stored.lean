import PlayerLookup.PlayerId.Lenient
import PlayerLookup.Proofs.Identifier.Digits

/-! The lenient reading of ids gives back every id from its canonical text: nothing that it drops or
tolerates occurs in such a text. -/

set_option autoImplicit false

namespace PlayerLookup.PlayerId

open Text

/-! ## What is dropped around an id -/

theorem withoutWord_eq_self (c₀ : Char) (word : List Char) {cs : List Char} (h : c₀ ∉ cs) :
    withoutWord (c₀ :: word) cs = cs := by
  induction cs with
  | nil => rw [withoutWord]
  | cons c cs ih =>
    obtain ⟨hc, hcs⟩ := not_or.mp (fun hm => h (List.mem_cons.mpr hm))
    have hpre : (c₀ :: word).isPrefixOf (c :: cs) = false := by
      simp [List.isPrefixOf, hc]
    rw [withoutWord, if_neg (by simp [hpre]), ih hcs]

theorem dropWhile_eq_self {p : Char → Bool} {cs : List Char} (h : ∀ c ∈ cs, p c = false) :
    cs.dropWhile p = cs := by
  cases cs with
  | nil => rfl
  | cons c cs => simp [h c List.mem_cons_self]

theorem trimWhile_eq_self {p : Char → Bool} {cs : List Char} (h : ∀ c ∈ cs, p c = false) :
    trimWhile p cs = cs := by
  have hback : ∀ c ∈ cs.reverse, p c = false := fun c hc => h c (List.mem_reverse.mp hc)
  rw [trimWhile, dropEndWhile, dropWhile_eq_self h, dropWhile_eq_self hback, List.reverse_reverse]

/-! ## Digits as a lenient number -/

theorem isSpace_of_isHexDigit {c : Char} (h : isHexDigit c = true) : isSpace c = false := by
  rw [isHexDigit_iff] at h
  simp only [isSpace, Bool.or_eq_false_iff, Bool.and_eq_false_iff, decide_eq_false_iff_not,
    beq_eq_false_iff_ne]
  omega

theorem lenientDigit?_of_isHexDigit {c : Char} (h : isHexDigit c = true) :
    lenientDigit? c = some ((hexValue? c).getD 0) := by
  obtain ⟨d, hd⟩ := Option.isSome_iff_exists.mp h
  simp [lenientDigit?, hd]

theorem lenientNumber?_digits (value : Nat) (afterDigit : Bool) (cs : List Char)
    (h : ∀ c ∈ cs, isHexDigit c = true) (hsome : afterDigit = true ∨ cs ≠ []) :
    lenientNumber? value afterDigit cs =
      some (cs.foldl (fun n c => 16 * n + (hexValue? c).getD 0) value) := by
  induction cs generalizing value afterDigit with
  | nil =>
    have htrue : afterDigit = true := hsome.resolve_right (fun hne => hne rfl)
    rw [htrue]
    rfl
  | cons c cs ih =>
    have hc : isHexDigit c = true := h c List.mem_cons_self
    have hund : c ≠ '_' := ne_of_isHexDigit hc (by decide)
    rw [lenientNumber?, if_neg hund, lenientDigit?_of_isHexDigit hc]
    exact ih _ true (fun d hd => h d (List.mem_cons_of_mem c hd)) (Or.inl rfl)

theorem lenientHex?_digits {cs : List Char} (h : ∀ c ∈ cs, isHexDigit c = true) (hne : cs ≠ []) :
    lenientHex? cs = some (natOfHex cs) := by
  have hnumber : lenientNumber? 0 false cs = some (natOfHex cs) :=
    lenientNumber?_digits 0 false cs h (Or.inr hne)
  rw [lenientHex?, trimWhile_eq_self fun c hc => isSpace_of_isHexDigit (h c hc)]
  match cs, h, hnumber with
  | [], _, hnumber => exact hnumber
  | [c], h, hnumber =>
    have hplus : c ≠ '+' := ne_of_isHexDigit (h c List.mem_cons_self) (by decide)
    split <;> simp_all
  | c :: d :: cs, h, hnumber =>
    have hplus : c ≠ '+' := ne_of_isHexDigit (h c List.mem_cons_self) (by decide)
    have hd : isHexDigit d = true := h d (List.mem_cons_of_mem c List.mem_cons_self)
    have hx : d ≠ 'x' := ne_of_isHexDigit hd (by decide)
    have hX : d ≠ 'X' := ne_of_isHexDigit hd (by decide)
    split <;> simp_all

/-! ## The canonical text -/

theorem not_mem_grouped {cs : List Char} (h : ∀ c ∈ cs, isHexDigit c = true) {c : Char}
    (hdash : c ≠ '-') (hc : isHexDigit c = false) : c ∉ grouped cs := by
  intro hm
  rcases mem_grouped hm with rfl | hm
  · exact hdash rfl
  · rw [h c hm] at hc
    cases hc

theorem read?_grouped {cs : List Char} (hlen : cs.length = digitCount)
    (h : ∀ c ∈ cs, isHexDigit c = true) :
    read? (String.ofList (grouped cs)) = some ⟨BitVec.ofNat 128 (natOfHex cs)⟩ := by
  have hu : 'u' ∉ grouped cs := not_mem_grouped h (by decide) (by decide)
  have hbrace : ∀ c ∈ grouped cs, decide (c = '\x7b' ∨ c = '\x7d') = false := by
    intro c hc
    refine decide_eq_false ?_
    rintro (rfl | rfl)
    · exact not_mem_grouped h (by decide) (by decide) hc
    · exact not_mem_grouped h (by decide) (by decide) hc
  have hne : cs ≠ [] := by
    rintro rfl
    cases hlen
  unfold read?
  rw [show "urn:".toList = 'u' :: ['r', 'n', ':'] from rfl,
    show "uuid:".toList = 'u' :: ['u', 'i', 'd', ':'] from rfl, String.toList_ofList,
    withoutWord_eq_self _ _ hu, withoutWord_eq_self _ _ hu]
  dsimp only
  rw [trimWhile_eq_self hbrace, withoutDashes_grouped hlen h]
  simp only [hlen, if_true, lenientHex?_digits h hne, Option.map_some]

theorem read?_text (id : PlayerId) : read? id.text = some id := by
  have hread := read?_grouped (length_digits id) fun c hc => isHexDigit_of_mem_digits hc
  rw [natOfHex_digits, BitVec.ofNat_toNat, BitVec.setWidth_eq] at hread
  exact hread

end PlayerLookup.PlayerId
