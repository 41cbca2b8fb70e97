import PlayerLookup.Proofs.Identifier.Accepted
import PlayerLookup.Remote.Client

/-! The ways to write an id. Its digits may stand in either case and dashes may stand anywhere
between them: every such text is read as the id, and so it is in a record of the remote service. The
text that is sent to the service for an id is one of them. -/

set_option autoImplicit false

namespace PlayerLookup

open PlayerId (withoutDashes isHexDigit)
open Text (hexDigit)

namespace PlayerId

/-! ## Spellings -/

/-- The second list is made from the first: each letter in either case, and dashes anywhere. -/
inductive Respelled : List Char → List Char → Prop where
  | nil : Respelled [] []
  | dash {ds cs : List Char} (h : Respelled ds cs) : Respelled ds ('-' :: cs)
  | digit {d c : Char} {ds cs : List Char} (hc : c = d ∨ c = d.toUpper) (h : Respelled ds cs) :
      Respelled (d :: ds) (c :: cs)

theorem respelled_nil_iff {ds : List Char} : Respelled ds [] ↔ ds = [] := by
  constructor
  · rintro ⟨⟩
    rfl
  · rintro rfl
    exact .nil

theorem nil_respelled_cons_iff {c : Char} {cs : List Char} :
    Respelled [] (c :: cs) ↔ c = '-' ∧ Respelled [] cs := by
  constructor
  · rintro ⟨⟩
    exact ⟨rfl, ‹_›⟩
  · rintro ⟨rfl, h⟩
    exact .dash h

theorem cons_respelled_cons_iff {d c : Char} {ds cs : List Char} :
    Respelled (d :: ds) (c :: cs) ↔
      (c = '-' ∧ Respelled (d :: ds) cs) ∨ ((c = d ∨ c = d.toUpper) ∧ Respelled ds cs) := by
  constructor
  · intro h
    cases h with
    | dash h => exact Or.inl ⟨rfl, h⟩
    | digit hc h => exact Or.inr ⟨hc, h⟩
  · rintro (⟨rfl, h⟩ | ⟨hc, h⟩)
    · exact .dash h
    · exact .digit hc h

instance Respelled.decidable : (ds cs : List Char) → Decidable (Respelled ds cs)
  | _, [] => decidable_of_iff _ respelled_nil_iff.symm
  | [], _ :: cs =>
    have := Respelled.decidable [] cs
    decidable_of_iff _ nil_respelled_cons_iff.symm
  | d :: ds, _ :: cs =>
    have := Respelled.decidable (d :: ds) cs
    have := Respelled.decidable ds cs
    decidable_of_iff _ cons_respelled_cons_iff.symm

def IsLower (c : Char) : Prop := ∃ k < 16, c = hexDigit k

theorem IsLower.of_mem_digits {id : PlayerId} {c : Char} (h : c ∈ id.digits) : IsLower c :=
  exists_of_mem_hexPadded h

theorem IsLower.cased {c d : Char} (hd : IsLower d) (hc : c = d ∨ c = d.toUpper) :
    isHexDigit c = true ∧ c.toLower = d := by
  have hall : ∀ k < 16, (isHexDigit (hexDigit k) = true ∧ (hexDigit k).toLower = hexDigit k) ∧
      (isHexDigit (hexDigit k).toUpper = true ∧ (hexDigit k).toUpper.toLower = hexDigit k) := by
    decide
  obtain ⟨k, hk, rfl⟩ := hd
  rcases hc with rfl | rfl
  · exact (hall k hk).1
  · exact (hall k hk).2

variable {ds cs : List Char}

theorem Respelled.cased (h : Respelled ds cs) (hds : ∀ d ∈ ds, IsLower d) :
    (∀ c ∈ withoutDashes cs, isHexDigit c = true) ∧ (withoutDashes cs).map Char.toLower = ds := by
  induction h with
  | nil => exact ⟨fun c hc => absurd hc List.not_mem_nil, rfl⟩
  | dash _ ih =>
    rw [withoutDashes_dash]
    exact ih hds
  | @digit d c ds cs hc _ ih =>
    obtain ⟨hhex, hlower⟩ := (hds d List.mem_cons_self).cased hc
    obtain ⟨hrest, hmap⟩ := ih fun e he => hds e (List.mem_cons_of_mem d he)
    have hdash : (c != '-') = true := bne_iff_ne.mpr (ne_of_isHexDigit hhex (by decide))
    have hkept : withoutDashes (c :: cs) = c :: withoutDashes cs := List.filter_cons_of_pos hdash
    rw [hkept]
    refine ⟨fun e he => ?_, ?_⟩
    · rcases List.mem_cons.mp he with rfl | he
      · exact hhex
      · exact hrest e he
    · rw [List.map_cons, hlower, hmap]

variable {id : PlayerId} {t : String}

theorem Respelled.of_id (h : Respelled id.digits t.toList) :
    Spelled t (withoutDashes t.toList) [] ∧
      (withoutDashes t.toList).map Char.toLower = id.digits := by
  obtain ⟨hhex, hmap⟩ := h.cased fun d hd => .of_mem_digits hd
  have hlen : (withoutDashes t.toList).length = 32 := by
    rw [← List.length_map Char.toLower, hmap]
    exact length_digits id
  refine ⟨⟨⟨hlen, fun c hc => (isHexDigit_iff_mem c).mp (hhex c hc)⟩, ?_⟩, hmap⟩
  rw [List.append_nil]

theorem Respelled.parse_eq (h : Respelled id.digits t.toList) : parse t = .ok id := by
  obtain ⟨hspelled, hmap⟩ := h.of_id
  have hread := hspelled.readAs (Or.inl rfl)
  have hsame : _ = id := digits_injective (hread.digits_eq.trans hmap)
  rw [hread.parsed_eq, hsame]

theorem respelled_self (ds : List Char) : Respelled ds ds := by
  induction ds with
  | nil => exact .nil
  | cons d ds ih => exact .digit (Or.inl rfl) ih

theorem respelled_dashless (id : PlayerId) : Respelled id.digits id.dashless.toList := by
  rw [dashless, String.toList_ofList]
  exact respelled_self id.digits

theorem stripDashes_text (id : PlayerId) : stripDashes id.text = .ok id.dashless := by
  have hgroups : withoutDashes id.text.toList = id.digits := by
    rw [text, String.toList_ofList]
    exact withoutDashes_grouped (length_digits id) fun c hc => isHexDigit_of_mem_digits hc
  have hdigits : Digits id.digits :=
    ⟨length_digits id, fun c hc => (isHexDigit_iff_mem c).mp (isHexDigit_of_mem_digits hc)⟩
  have hspelled : Spelled id.text id.digits [] := ⟨hdigits, by rw [hgroups, List.append_nil]⟩
  rw [hspelled.stripDashes (Or.inl rfl), List.append_nil]
  rfl

end PlayerId

namespace Remote

/-! ## Records -/

/-- What the record of a player has under `id` and `name`, beside anything else. -/
structure RecordOf (id name : String) (members : List (String × Document)) : Prop where
  id_eq : members.lookup "id" = some (.text id)
  name_eq : members.lookup "name" = some (.text name)

theorem RecordOf.profileOf {t : String} {p : Profile} {members : List (String × Document)}
    (h : RecordOf t p.name.text members) (hparse : PlayerId.parse t = .ok p.id) :
    profileOf (.record members) = .ok p := by
  have hid : present? (.record members) "id" = some (.text t) := by
    rw [present?, Document.member?, h.id_eq]
  have hname : present? (.record members) "name" = some (.text p.name.text) := by
    rw [present?, Document.member?, h.name_eq]
  have hmake : Profile.make p.id p.name.text = .ok p := by
    rw [Profile.make, Name.ofText?, dif_neg p.name.nonempty]
  rw [Remote.profileOf, hid, hname]
  dsimp only [Document.display]
  rw [hparse]
  dsimp only [Except.bind]
  rw [hmake]

theorem RecordOf.decodeProfile {σ : Type} {t : String} {p : Profile}
    {members : List (String × Document)} (h : RecordOf t p.name.text members)
    (hparse : PlayerId.parse t = .ok p.id) :
    (decodeProfile (.record members) : Lookup σ (Option Profile)) = pure (some p) := by
  rw [Remote.decodeProfile, h.profileOf hparse]
  rfl

/-- What is sent for an id: its canonical text without the dashes, in the address of its history. -/
structure Sends {σ : Type} (r : Remote σ) (id : PlayerId) (sent : String) : Prop where
  stripped : PlayerId.stripDashes id.text = .ok sent
  address : r.historyUrl id = (Template.fillIn r.platform.parts r.settings.historyUrl
    [("uuid", sent.toList)]).mapError .template

theorem sends_dashless {σ : Type} (r : Remote σ) (id : PlayerId) : r.Sends id id.dashless where
  stripped := PlayerId.stripDashes_text id
  address := by
    rw [historyUrl, PlayerId.dashless, String.toList_ofList]
    cases Template.fillIn r.platform.parts r.settings.historyUrl [("uuid", id.digits)] <;> rfl

end Remote

/-- **Every spelling of an id is read as the id.** A text made from the digits of an id, each letter
in either case and with dashes at any places, is read as the id, and a record with it and with a
name is decoded to the profile of both. What is sent to the remote service for the id is such a
text. -/
theorem respelled_id_is_read {σ : Type} (p : Profile) {t : String}
    (h : PlayerId.Respelled p.id.digits t.toList) :
    PlayerId.parse t = .ok p.id ∧
      (∀ members, Remote.RecordOf t p.name.text members →
        (Remote.decodeProfile (.record members) : Lookup σ (Option Profile)) = pure (some p)) ∧
      ∀ r : Remote σ, ∃ sent, r.Sends p.id sent ∧ PlayerId.Respelled p.id.digits sent.toList ∧
        PlayerId.parse sent = .ok p.id :=
  ⟨h.parse_eq, fun _ hrecord => hrecord.decodeProfile h.parse_eq,
    fun r => ⟨_, r.sends_dashless p.id, p.id.respelled_dashless, p.id.respelled_dashless.parse_eq⟩⟩

/-- An id in both cases, and with dashes at unusual places. -/
theorem respelled_id_is_read_in_both_cases :
    let p : Profile := ⟨⟨0xabcdef0123456789abcdef0123456789⟩, ⟨"Ash", by decide⟩⟩
    PlayerId.Respelled p.id.digits "-aBCDEF01-23456789abcdeF01234567--89".toList ∧
      PlayerId.parse "-aBCDEF01-23456789abcdeF01234567--89" = .ok p.id ∧
      (Remote.decodeProfile (.record [("id", .text "-aBCDEF01-23456789abcdeF01234567--89"),
        ("name", .text "Ash")]) : Lookup Unit (Option Profile)) = pure (some p) := by
  intro p
  have h : PlayerId.Respelled p.id.digits "-aBCDEF01-23456789abcdeF01234567--89".toList := by
    decide +kernel
  obtain ⟨hparse, hdecode, -⟩ := respelled_id_is_read (σ := Unit) p h
  exact ⟨h, hparse, hdecode _ ⟨rfl, rfl⟩⟩

end PlayerLookup
