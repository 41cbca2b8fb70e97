import PlayerLookup.Proofs.Remote.Histories

/-! Records of the remote service that cannot be used. In the answer to names it is the id or the
name that is at fault, in a history the name alone; the last record of a history that gives a name
decides what is found for an id. -/

set_option autoImplicit false

namespace PlayerLookup

def Document.Lacks (entry : Document) (name : String) : Prop :=
  entry.member? name = none ∨ entry.member? name = some .null

namespace Remote

/-! ## Records that cannot be used -/

/-- What makes a record in the answer to names useless. -/
inductive UselessProfile (entry : Document) : Prop where
  | notARecord (h : ∀ members, entry ≠ .record members)
  | withoutId (h : entry.Lacks "id")
  | withoutName (h : entry.Lacks "name")
  | badId {id : Document} {f : Failure} (hid : entry.member? "id" = some id)
      (h : PlayerId.parse id.display = .error f)
  | emptyName {name : Document} (hname : entry.member? "name" = some name) (h : name.display = "")

/-- What makes a record of a history useless. -/
inductive UselessName (entry : Document) : Prop where
  | notARecord (h : ∀ members, entry ≠ .record members)
  | withoutName (h : entry.Lacks "name")
  | emptyName {name : Document} (hname : entry.member? "name" = some name) (h : name.display = "")

/-- The name that a record of a history gives. -/
def GivesName (entry : Document) (n : Name) : Prop :=
  ∃ name, entry.member? "name" = some name ∧ ¬ entry.Lacks "name" ∧ name.display = n.text

theorem present?_cases (entry : Document) (name : String) :
    (entry.Lacks name ∧ present? entry name = none) ∨
      ∃ d, entry.member? name = some d ∧ ¬ entry.Lacks name ∧ present? entry name = some d := by
  unfold present? Document.Lacks
  cases entry.member? name with
  | none => exact Or.inl ⟨Or.inl rfl, rfl⟩
  | some d =>
    cases d with
    | null => exact Or.inl ⟨Or.inr rfl, rfl⟩
    | _ => exact Or.inr ⟨_, rfl, by simp, rfl⟩

theorem UselessProfile.profileOf_eq {entry : Document} (h : UselessProfile entry) :
    ∃ u, profileOf entry = .error u := by
  cases entry with
  | record members =>
    obtain ⟨-, hid⟩ | ⟨id, hmember, hhas, hid⟩ := present?_cases (.record members) "id"
    · exact ⟨_, by rw [profileOf, hid]⟩
    obtain ⟨-, hname⟩ | ⟨name, hmember', hhas', hname⟩ := present?_cases (.record members) "name"
    · exact ⟨_, by rw [profileOf, hid, hname]⟩
    rw [profileOf, hid, hname]
    dsimp only
    cases hparse : PlayerId.parse id.display with
    | error f => exact ⟨_, rfl⟩
    | ok parsed =>
      have hempty : name.display = "" := by
        rcases h with h | h | h | ⟨hm, h⟩ | ⟨hm, h⟩
        · exact absurd rfl (h members)
        · exact absurd h hhas
        · exact absurd h hhas'
        · rw [hmember] at hm
          cases hm
          rw [hparse] at h
          cases h
        · rw [hmember'] at hm
          cases hm
          exact h
      rw [hempty]
      exact ⟨_, rfl⟩
  | _ => exact ⟨_, rfl⟩

theorem UselessName.profileAt_eq {entry : Document} (h : UselessName entry) (id : PlayerId) :
    ∃ u, profileAt id entry = .error u := by
  obtain ⟨-, hname⟩ | ⟨name, hmember, hhas, hname⟩ := present?_cases entry "name"
  · exact ⟨_, by rw [profileAt, hname]⟩
  rw [profileAt, hname]
  dsimp only
  have hempty : name.display = "" := by
    rcases h with h | h | ⟨hm, h⟩
    · cases entry with
      | record members => exact absurd rfl (h members)
      | _ => cases hmember
    · exact absurd h hhas
    · rw [hmember] at hm
      cases hm
      exact h
  rw [hempty]
  exact ⟨_, rfl⟩

theorem GivesName.profileAt_eq {entry : Document} {n : Name} (h : GivesName entry n)
    (id : PlayerId) : profileAt id entry = .ok ⟨id, n⟩ := by
  obtain ⟨name, hmember, hhas, hn⟩ := h
  obtain ⟨hlacks, -⟩ | ⟨name', hmember', -, hname⟩ := present?_cases entry "name"
  · exact absurd hlacks hhas
  · rw [hmember] at hmember'
    cases hmember'
    rw [profileAt, hname]
    dsimp only
    rw [hn, Profile.make_text]

theorem uselessName_or_givesName (entry : Document) :
    UselessName entry ∨ ∃ n, GivesName entry n := by
  obtain ⟨hlacks, -⟩ | ⟨name, hmember, hhas, -⟩ := present?_cases entry "name"
  · exact Or.inl (.withoutName hlacks)
  · obtain hempty | ⟨n, hn⟩ := Name.empty_or_text name.display
    · exact Or.inl (.emptyName hmember hempty)
    · exact Or.inr ⟨n, name, hmember, hhas, hn.symm⟩

theorem UselessProfile.toOption_eq {entry : Document} (h : UselessProfile entry) :
    (profileOf entry).toOption = none := by
  obtain ⟨u, hu⟩ := h.profileOf_eq
  rw [hu]
  rfl

theorem UselessName.toOption_eq {entry : Document} (h : UselessName entry) (id : PlayerId) :
    (profileAt id entry).toOption = none := by
  obtain ⟨u, hu⟩ := h.profileAt_eq id
  rw [hu]
  rfl

/-! ## The last name of a history -/

/-- The name in the last record of a history that gives one; all records after it are useless. -/
inductive LastName : Document → Option Name → Prop where
  | last {before after : List Document} {entry : Document} {n : Name} (h : GivesName entry n)
      (hafter : ∀ e ∈ after, UselessName e) : LastName (.list (before ++ entry :: after)) (some n)
  | none {items : List Document} (h : ∀ e ∈ items, UselessName e) : LastName (.list items) none
  | notAList {d : Document} (h : ∀ items, d ≠ .list items) : LastName d none

theorem filterMap_eq_nil_of_useless {items : List Document} (h : ∀ e ∈ items, UselessName e)
    (id : PlayerId) : (items.filterMap fun e => (profileAt id e).toOption) = [] :=
  List.filterMap_eq_nil_iff.mpr fun e he => (h e he).toOption_eq id

theorem LastName.lastUsable_eq {d : Document} {found : Option Name} (h : LastName d found)
    (id : PlayerId) : lastUsable id d = found.map (⟨id, ·⟩) := by
  cases h with
  | @last before after entry n h hafter =>
    have hlate : ((entry :: after).filterMap fun e => (profileAt id e).toOption) = [⟨id, n⟩] := by
      rw [List.filterMap_cons, h.profileAt_eq, filterMap_eq_nil_of_useless hafter]
      rfl
    rw [lastUsable, List.filterMap_append, hlate, List.getLast?_concat]
    rfl
  | none h =>
    rw [lastUsable, filterMap_eq_nil_of_useless h]
    rfl
  | notAList h =>
    cases d with
    | list items => exact absurd rfl (h items)
    | _ => rfl

theorem exists_lastName (d : Document) : ∃ found, LastName d found := by
  cases d with
  | list items =>
    induction items using List.reverseRecOn with
    | nil => exact ⟨none, .none fun e he => absurd he List.not_mem_nil⟩
    | append_singleton items e ih =>
      have hlate : ∀ {es : List Document}, UselessName e → (∀ e' ∈ es, UselessName e') →
          ∀ e' ∈ es ++ [e], UselessName e' := by
        intro es he hes e' he'
        rcases List.mem_append.mp he' with he' | he'
        · exact hes e' he'
        · exact List.mem_singleton.mp he' ▸ he
      obtain he | ⟨n, he⟩ := uselessName_or_givesName e
      · obtain ⟨found, hfound⟩ := ih
        cases hfound with
        | @last before after entry n hentry hafter =>
          refine ⟨some n, ?_⟩
          rw [List.append_assoc, List.cons_append]
          exact .last hentry (hlate he hafter)
        | none hall => exact ⟨none, .none (hlate he hall)⟩
        | notAList hnot => exact absurd rfl (hnot items)
      · exact ⟨some n, .last he fun e' he' => absurd he' List.not_mem_nil⟩
  | _ => exact ⟨none, .notAList (by simp)⟩

theorem LastName.unique {d : Document} {found other : Option Name} (h : LastName d found)
    (hother : LastName d other) : found = other := by
  have hinj : Function.Injective (Profile.mk ⟨0⟩) := fun n n' hn => (Profile.mk.inj hn).2
  exact Option.map_injective hinj ((h.lastUsable_eq ⟨0⟩).symm.trans (hother.lastUsable_eq ⟨0⟩))

end Remote

end PlayerLookup
