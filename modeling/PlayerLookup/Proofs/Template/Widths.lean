import PlayerLookup.Proofs.Template.Filling

/-! Templates filled in with two ids. Where no layout has fields of its own, and the parts of texts
that fields step into are written equally wide for equally long texts, a template does not look at
which digits it is given: it fails in the same way for both ids, or it comes to texts that are
equally wide, piece by piece. Equal texts then have equal pieces. -/

set_option autoImplicit false

namespace PlayerLookup.Template

/-- Two texts of hexadecimal digits that are equally long. -/
structure Alike (v w : List Char) : Prop where
  length_eq : v.length = w.length
  left : ∀ c ∈ v, PlayerId.isHexDigit c = true
  right : ∀ c ∈ w, PlayerId.isHexDigit c = true

def EquallyLong (v w : List Char) : Prop := v.length = w.length

variable {v w : List Char}

/-! ## Quoted digits -/

theorem quotedChar_of_isHexDigit {c : Char} (h : PlayerId.isHexDigit c = true) :
    Text.quotedChar '\x27' c = [c] :=
  PlayerId.forall_isHexDigit (P := fun c => Text.quotedChar '\x27' c = [c]) (by decide) h

theorem quoted_of_isHexDigit (h : ∀ c ∈ v, PlayerId.isHexDigit c = true) :
    (Text.quoted (String.ofList v)).toList = '\x27' :: v ++ ['\x27'] := by
  have hnone : v.contains '\x27' = false := by
    rw [← Bool.not_eq_true, List.contains_iff_mem]
    exact fun hm => PlayerId.ne_of_isHexDigit (h _ hm) (by decide) rfl
  have hshown : v.flatMap (Text.quotedChar '\x27') = v := by
    rw [List.flatMap_congr fun c hc => quotedChar_of_isHexDigit (h c hc)]
    exact List.flatMap_singleton' v
  rw [Text.quoted, String.toList_ofList, String.toList_ofList, Text.enclosingQuote, hnone]
  simp only [Bool.false_and, Bool.false_eq_true, if_false, hshown]

theorem asciiOnly_quoted (h : ∀ c ∈ v, PlayerId.isHexDigit c = true) :
    asciiOnly ('\x27' :: v ++ ['\x27']) = '\x27' :: v ++ ['\x27'] := by
  have hsmall : ∀ c ∈ '\x27' :: v ++ ['\x27'], c.toNat < 128 := by
    intro c hc
    simp only [List.cons_append, List.mem_cons, List.mem_append, List.not_mem_nil, or_false] at hc
    rcases hc with rfl | hc | rfl
    · decide
    · have hdigit := (PlayerId.isHexDigit_iff c).mp (h c hc)
      omega
    · decide
  rw [asciiOnly, List.flatMap_congr fun c hc => if_pos (hsmall c hc)]
  exact List.flatMap_singleton' _

/-! ## Fields -/

/-- Two values that are written equally wide, in any layout, or with one fault. -/
def EvenWritten (p q : Written) : Prop :=
  ∀ conversion, Agree (fun textIn textIn' => ∀ spec, Agree EquallyLong (textIn spec) (textIn' spec))
    (p conversion) (q conversion)

/-- The parts that the name of a field may step into are written equally wide for ids. -/
def Parts.EvenIn (parts : Parts) (name : List Char) : Prop :=
  ∀ steps part rest, steps <:+ name → step steps = .ok (some (.part part, rest)) →
    ∀ v w, Alike v w → Agree EvenWritten (parts v part rest) (parts w part rest)

theorem Parts.evenIn_of_no_point (parts : Parts) {name : List Char} (h : '.' ∉ name) :
    parts.EvenIn name := by
  intro steps part rest hsuffix hstep
  unfold step at hstep
  split at hstep
  · cases hstep
  · exact absurd (hsuffix.mem List.mem_cons_self) h
  · -- Square brackets lead to characters.
    split at hstep
    · cases hstep
    · split at hstep <;> cases hstep
  · cases hstep

theorem suffix_of_step {cs rest : List Char} {s : Step} (h : step cs = .ok (some (s, rest))) :
    rest <:+ cs := by
  unfold step at h
  split at h
  · cases h
  · next cs =>
    split at h
    · cases h
    · cases h
      exact (List.dropWhile_suffix _).trans (List.suffix_cons _ _)
  · next cs =>
    split at h
    · cases h
    · next hdrop =>
      split at h
      · cases h
      · cases h
        refine List.IsSuffix.trans ?_ (List.suffix_cons _ _)
        exact (List.suffix_cons _ rest).trans (hdrop ▸ List.dropWhile_suffix _)
  · cases h

theorem agree_item (h : Alike v w) (name : List Char) :
    Agree Alike (item v name) (item w name) := by
  unfold item
  cases index? name with
  | error fault => exact .error fault
  | ok i =>
    cases i with
    | none => exact .error _
    | some i =>
      by_cases hi : i < v.length
      · have hi' : i < w.length := h.length_eq ▸ hi
        dsimp only [bind, Except.bind]
        rw [List.getElem?_eq_getElem hi, List.getElem?_eq_getElem hi']
        refine .ok ⟨rfl, fun c hc => ?_, fun c hc => ?_⟩
        · rw [List.mem_singleton.mp hc]
          exact h.left _ (List.getElem_mem hi)
        · rw [List.mem_singleton.mp hc]
          exact h.right _ (List.getElem_mem hi')
      · have hi' : ¬ i < w.length := h.length_eq ▸ hi
        dsimp only [bind, Except.bind]
        rw [List.getElem?_eq_none (Nat.le_of_not_lt hi),
          List.getElem?_eq_none (Nat.le_of_not_lt hi')]
        exact .error _

theorem agree_convert (h : Alike v w) (conversion : Option Char) :
    Agree EquallyLong (convert conversion v) (convert conversion w) := by
  have hquoted : EquallyLong ('\x27' :: v ++ ['\x27']) ('\x27' :: w ++ ['\x27']) := by
    simp [EquallyLong, h.length_eq]
  cases conversion with
  | none => exact .ok h.length_eq
  | some c =>
    dsimp only [convert]
    rw [quoted_of_isHexDigit h.left, quoted_of_isHexDigit h.right, asciiOnly_quoted h.left,
      asciiOnly_quoted h.right]
    split
    · exact .ok h.length_eq
    · split
      · exact .ok hquoted
      · split
        · exact .ok hquoted
        · exact .error _

theorem Layout.agree_apply (l : Layout) (h : EquallyLong v w) :
    Agree EquallyLong (l.apply v) (l.apply w) := by
  unfold Layout.apply
  split
  · exact .error _
  · cases l.sign with
    | some c => exact .error _
    | none =>
      dsimp only
      split
      · exact .error _
      · split
        · exact .error _
        · split
          · exact .error _
          · -- The width and the precision count characters and nothing else.
            cases l.precision with
            | none =>
              refine .ok ?_
              simp only [EquallyLong, List.length_append, List.length_replicate]
              rw [h]
            | some n =>
              refine .ok ?_
              simp only [EquallyLong, List.length_append, List.length_replicate, List.length_take]
              rw [h]

theorem agree_laidOut (spec : List Char) (h : EquallyLong v w) :
    Agree EquallyLong (laidOut v spec) (laidOut w spec) := by
  unfold laidOut
  split
  · exact .ok h
  · cases layout spec with
    | error fault => exact .error fault
    | ok l => exact l.agree_apply h

theorem evenWritten_written (h : Alike v w) : EvenWritten (written v) (written w) :=
  fun conversion => (agree_convert h conversion).bind fun _ _ hvalue =>
    .ok fun spec => agree_laidOut spec hvalue

theorem agree_follow {parts : Parts} {name : List Char} (hparts : parts.EvenIn name)
    (h : Alike v w) (fuel : Nat) {steps : List Char} (hsuffix : steps <:+ name) :
    Agree EvenWritten (follow parts fuel v steps) (follow parts fuel w steps) := by
  induction fuel generalizing v w steps with
  | zero => exact .ok (evenWritten_written h)
  | succ fuel ih =>
    rw [follow, follow]
    cases hstep : step steps with
    | error fault => exact .error fault
    | ok next =>
      match next with
      | none => exact .ok (evenWritten_written h)
      | some (.part part, rest) => exact hparts steps part rest hsuffix hstep v w h
      | some (.item part, rest) =>
        exact (agree_item h part).bind fun _ _ hitem =>
          ih hitem ((suffix_of_step hstep).trans hsuffix)

theorem agree_lookUp {parts : Parts} {name : List Char} (hparts : parts.EvenIn name)
    (h : Alike v w) (key : String) :
    Agree EvenWritten (lookUp parts [(key, v)] name) (lookUp parts [(key, w)] name) := by
  unfold lookUp
  dsimp only
  cases index? (name.takeWhile fun c => !isStepMark c) with
  | error fault => exact .error fault
  | ok i =>
    cases i with
    | some i => exact .error _
    | none =>
      dsimp only [bind, Except.bind]
      split
      · exact .error _
      · rw [List.lookup_cons, List.lookup_cons]
        cases String.ofList (name.takeWhile fun c => !isStepMark c) == key with
        | false => exact .error _
        | true => exact agree_follow hparts h _ (List.drop_suffix _ name)

/-! ## Pieces and whole templates -/

/-- No layout of the template has fields of its own, and what fields step into is even. -/
structure Flat (parts : Parts) (template : List Char) : Prop where
  nested : ∀ f, .field f ∈ ofText template → f.nested = false
  even : ∀ f, .field f ∈ ofText template → parts.EvenIn f.name

variable {parts : Parts}

/-- The field that is nothing but a key in braces. -/
def bareField (key : String) : Piece := .field ⟨key.toList, none, [], false⟩

theorem Piece.agree_text (h : Alike v w) (key : String) (depth : Nat) {p : Piece}
    (hnested : ∀ f, p = .field f → f.nested = false)
    (heven : ∀ f, p = .field f → parts.EvenIn f.name) :
    Agree EquallyLong (p.text parts [(key, v)] depth) (p.text parts [(key, w)] depth) := by
  cases p with
  | literal text => exact .ok rfl
  | broken fault => exact .error fault
  | field f =>
    have hflat : ¬ f.nested = true := by simp [hnested f rfl]
    dsimp only [Piece.text]
    refine (agree_lookUp (heven f rfl) h key).bind fun found found' hfound => ?_
    refine (hfound f.conversion).bind fun textIn textIn' htextIn => ?_
    rw [if_neg hflat, if_neg hflat]
    exact htextIn f.layout

/-- Lists of texts that are equally long one by one are told apart by what they make up. -/
theorem eq_of_flatten_eq {vs ws : List (List Char)} (h : List.Forall₂ EquallyLong vs ws)
    (hflatten : vs.flatten = ws.flatten) : vs = ws := by
  induction h with
  | nil => rfl
  | cons hlength _ ih =>
    rw [List.flatten_cons, List.flatten_cons] at hflatten
    obtain ⟨rfl, hrest⟩ := List.append_inj hflatten hlength
    rw [ih hrest]

/-- A flat template fails for both texts, with one fault, or makes two texts of them. Those are
different if they are, and if some piece comes to just the text that it is filled in with. -/
theorem Flat.agree_fill {template : List Char} (hflat : Flat parts template) (h : Alike v w)
    {key : String} {depth : Nat} {p : Piece} (hp : p ∈ ofText template)
    (hv : p.text parts [(key, v)] depth = .ok v) (hw : p.text parts [(key, w)] depth = .ok w) :
    Agree (fun a b => a = b → v = w) (fill parts [(key, v)] (depth + 1) template)
      (fill parts [(key, w)] (depth + 1) template) := by
  have hagree : Agree (List.Forall₂ EquallyLong)
      ((ofText template).mapM (Piece.text parts [(key, v)] depth))
      ((ofText template).mapM (Piece.text parts [(key, w)] depth)) :=
    .mapM fun q hq => Piece.agree_text h key depth (fun f hf => hflat.nested f (hf ▸ hq))
      fun f hf => hflat.even f (hf ▸ hq)
  rw [fill_succ, fill_succ]
  rcases hagree.both_fail_or_both_ok with ⟨fault, hvs, hws⟩ | ⟨vs, ws, hvs, hws, hlong⟩
  · rw [hvs, hws]
    exact .error fault
  · rw [hvs, hws]
    refine .ok fun hflatten => ?_
    obtain rfl := eq_of_flatten_eq hlong hflatten
    obtain ⟨t, -, ht, ht'⟩ :=
      exists_of_forall₂_of_mem (forall₂_of_mapM hvs) (forall₂_of_mapM hws) hp
    rw [hv] at ht
    rw [hw] at ht'
    rw [Except.ok.inj ht, Except.ok.inj ht']

theorem infix_fill {values : List (String × List Char)} {depth : Nat} {template text t : List Char}
    (h : fill parts values (depth + 1) template = .ok text) {p : Piece} (hp : p ∈ ofText template)
    (ht : p.text parts values depth = .ok t) : t <:+: text := by
  rw [fill_succ] at h
  cases hts : (ofText template).mapM (Piece.text parts values depth) with
  | error fault =>
    rw [hts] at h
    cases h
  | ok ts =>
    rw [hts] at h
    obtain rfl := Except.ok.inj h
    have hall := forall₂_of_mapM hts
    obtain ⟨t', hmem, ht', -⟩ := exists_of_forall₂_of_mem hall hall hp
    rw [ht] at ht'
    rw [Except.ok.inj ht']
    exact List.infix_of_mem_flatten hmem

end PlayerLookup.Template
