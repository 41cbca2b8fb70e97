import PlayerLookup.Proofs.Pipeline.Interleaving
import PlayerLookup.Proofs.Pipeline.Stored

/-! Whether the cache has the last answer of the remote source, once jobs that were worked on by
turns are over. A job stores all that it found, also what it read from the cache; so what another
job stored meanwhile is lost if the first one had read something older before. Nothing else can get
lost. -/

set_option autoImplicit false

namespace PlayerLookup

variable {σ : Type}

/-! ## What was done with a profile -/

namespace Pool

variable {K κ : Type}

/-- Of the source of the label some job has a profile that takes away the name or the holder. -/
def Rivalled (pool : Pool σ K κ) (label : String) (p : Profile) : Prop :=
  ∃ q ∈ pool.answers label, q.Displaces p

/-- Some job had of the source of the label a profile that takes away the name or the holder, and
stored it only after another job had stored the profile in question. -/
def Overtaken (pool : Pool σ K κ) (label : String) (p : Profile) : Prop :=
  ∃ i j q read stored late, i ≠ j ∧ q.Displaces p ∧ q ∈ read ∧ p ∈ stored ∧ q ∈ late ∧
    [(j, Deed.answered label read), (i, .stored stored), (j, .stored late)].Sublist pool.deeds

/-- So far nothing got lost. What the remote source gave is stored, or is about to be, and what is
stored is held; a job that would take it away again has read that from the cache before. -/
structure Unharmed (cached remote : String) (m : Memory) (p : Profile) (pool : Pool σ K κ) :
    Prop where
  answered : ∀ i ps, (i, Deed.answered remote ps) ∈ pool.deeds → p ∈ ps →
    (∃ qs, (i, Deed.stored qs) ∈ pool.deeds ∧ p ∈ qs) ∨
      ∃ a, pool.AtWork i a ∧ a.members = [] ∧ p ∈ a.found
  held : ∀ i ps, (i, Deed.stored ps) ∈ pool.deeds → p ∈ ps → m.Holds p
  stands : ∀ i a, pool.AtWork i a → p ∈ a.found → Stands a.found p
  read : ∀ j a q, pool.AtWork j a → q ∈ a.found → q.Displaces p →
    ∃ ps, q ∈ ps ∧ (j, Deed.answered cached ps) ∈ pool.deeds ∧
      ∀ i qs, (i, Deed.stored qs) ∈ pool.deeds → p ∈ qs →
        [(j, Deed.answered cached ps), (i, .stored qs)].Sublist pool.deeds

variable {cached remote : String} {m m' : Memory} {p : Profile} {pool : Pool σ K κ} {i : Nat}
  {a : Asking σ K κ} {d : Deed} {next : Course σ K κ}

theorem sublist_deeds_workedOn {es : List (Nat × Deed)} (h : es.Sublist pool.deeds) :
    es.Sublist (pool.workedOn i d next).deeds := h.trans (List.sublist_append_left _ _)

theorem Rivalled.workedOn (h : pool.Rivalled remote p) :
    (pool.workedOn i d next).Rivalled remote p := by
  obtain ⟨q, hanswer, hdisplaces⟩ := h
  obtain ⟨j, ps, hdeed, hq⟩ := mem_answers.mp hanswer
  exact ⟨q, mem_answers.mpr ⟨j, ps, mem_deeds_workedOn.mpr (Or.inl hdeed), hq⟩, hdisplaces⟩

theorem Overtaken.workedOn (h : pool.Overtaken cached p) :
    (pool.workedOn i d next).Overtaken cached p := by
  obtain ⟨j, k, q, read, stored, late, hne, hdisplaces, hread, hstored, hlate, hdeeds⟩ := h
  exact ⟨j, k, q, read, stored, late, hne, hdisplaces, hread, hstored, hlate,
    sublist_deeds_workedOn hdeeds⟩

/-- What a step of one job has to see to, so that nothing gets lost by it. -/
structure Harmless (cached remote : String) (m : Memory) (p : Profile) (pool : Pool σ K κ) (i : Nat)
    (a : Asking σ K κ) (d : Deed) (next : Course σ K κ) : Prop where
  answered : ∀ ps, d = .answered remote ps → p ∈ ps →
    ∃ b, next = .asking b ∧ b.members = [] ∧ p ∈ b.found
  finished : a.members = [] → p ∈ a.found → d = .stored a.found
  held : ∀ j ps, (j, Deed.stored ps) ∈ (pool.workedOn i d next).deeds → p ∈ ps → m.Holds p
  stands : ∀ b, next = .asking b → p ∈ b.found → Stands b.found p
  read : ∀ b q, next = .asking b → q ∈ b.found → q.Displaces p →
    ∃ ps, q ∈ ps ∧ (i, Deed.answered cached ps) ∈ (pool.workedOn i d next).deeds ∧
      ∀ j qs, (j, Deed.stored qs) ∈ (pool.workedOn i d next).deeds → p ∈ qs →
        [(i, Deed.answered cached ps), (j, .stored qs)].Sublist (pool.workedOn i d next).deeds

theorem Unharmed.workedOn (h : pool.Unharmed cached remote m p) (hi : pool.AtWork i a)
    (hstep : pool.Harmless cached remote m' p i a d next) :
    (pool.workedOn i d next).Unharmed cached remote m' p where
  answered j ps hdeed hp := by
    rcases mem_deeds_workedOn.mp hdeed with hold | hnew
    · rcases h.answered j ps hold hp with ⟨qs, hqs, hmem⟩ | ⟨b, hj, hmembers, hfound⟩
      · exact Or.inl ⟨qs, mem_deeds_workedOn.mpr (Or.inl hqs), hmem⟩
      · by_cases hij : j = i
        · -- A job that had the profile and nobody left to ask can only have stored it now.
          subst hij
          obtain rfl := hi.unique hj
          refine Or.inl ⟨a.found, mem_deeds_workedOn.mpr (Or.inr ?_), hfound⟩
          rw [hstep.finished hmembers hfound]
        · exact Or.inr ⟨b, (atWork_workedOn hi d next j b).mpr (Or.inr ⟨hij, hj⟩), hmembers, hfound⟩
    · obtain ⟨rfl, rfl⟩ := Prod.mk.inj hnew
      obtain ⟨b, hb, hmembers, hfound⟩ := hstep.answered ps rfl hp
      exact Or.inr ⟨b, (atWork_workedOn hi _ next j b).mpr (Or.inl ⟨rfl, hb⟩), hmembers, hfound⟩
  held := hstep.held
  stands j b hj hp := by
    rcases (atWork_workedOn hi d next j b).mp hj with ⟨-, hb⟩ | ⟨-, hj⟩
    · exact hstep.stands b hb hp
    · exact h.stands j b hj hp
  read j b q hj hq hdisplaces := by
    rcases (atWork_workedOn hi d next j b).mp hj with ⟨rfl, hb⟩ | ⟨-, hj⟩
    · exact hstep.read b q hb hq hdisplaces
    · obtain ⟨ps, hmem, hdeed, hlater⟩ := h.read j b q hj hq hdisplaces
      refine ⟨ps, hmem, mem_deeds_workedOn.mpr (Or.inl hdeed), fun k qs hstored hp => ?_⟩
      rcases mem_deeds_workedOn.mp hstored with hold | hnew
      · exact sublist_deeds_workedOn (hlater k qs hold hp)
      · rw [hnew]
        exact (List.singleton_sublist.mpr hdeed).append (List.Sublist.refl [_])

/-- What can have become of a profile that the remote source gave. -/
def Accounted (cached remote : String) (m : Memory) (p : Profile) (pool : Pool σ K κ) : Prop :=
  pool.Rivalled remote p ∨ pool.Overtaken cached p ∨ pool.Unharmed cached remote m p

theorem Accounted.workedOn (h : pool.Accounted cached remote m p) (hi : pool.AtWork i a)
    (hstep : pool.Unharmed cached remote m p → (pool.workedOn i d next).Rivalled remote p ∨
      (pool.workedOn i d next).Overtaken cached p ∨
        pool.Harmless cached remote m' p i a d next) :
    (pool.workedOn i d next).Accounted cached remote m' p := by
  rcases h with hrivalled | hovertaken | hunharmed
  · exact Or.inl hrivalled.workedOn
  · exact Or.inr (Or.inl hovertaken.workedOn)
  · rcases hstep hunharmed with hrivalled | hovertaken | hharmless
    · exact Or.inl hrivalled
    · exact Or.inr (Or.inl hovertaken)
    · exact Or.inr (Or.inr (hunharmed.workedOn hi hharmless))

/-! ## Steps by which nothing gets lost -/

theorem Unharmed.failed (h : pool.Unharmed cached remote m p) (hmembers : a.members ≠ [])
    (f : Failure) (result : Except Failure (List Profile)) :
    pool.Harmless cached remote m p i a (.failed f) (.ended result) where
  answered ps hd := by cases hd
  finished hnone := absurd hnone hmembers
  held j ps hdeed := by
    rcases mem_deeds_workedOn.mp hdeed with hold | hnew
    · exact h.held j ps hold
    · cases hnew
  stands b hb := by cases hb
  read b q hb := by cases hb

/-- Something that goes against the profile is found by a job, and the profile was stored. -/
def Threatened (pool : Pool σ K κ) (a : Asking σ K κ) (p : Profile) : Prop :=
  ∃ q ∈ a.found, q.Displaces p ∧ ∃ j ps, (j, Deed.stored ps) ∈ pool.deeds ∧ p ∈ ps

theorem Unharmed.overtaken (h : pool.Unharmed cached remote m p) (hi : pool.AtWork i a)
    (hover : ∀ j ps, (j, Deed.stored ps) ∈ pool.deeds → ∀ b, ¬ pool.AtWork j b)
    (hlate : pool.Threatened a p) (result : Except Failure (List Profile)) :
    (pool.workedOn i (.stored a.found) (.ended result)).Overtaken cached p := by
  obtain ⟨q, hq, hdisplaces, j, ps, hdeed, hp⟩ := hlate
  obtain ⟨read, hread, -, hlater⟩ := h.read i a q hi hq hdisplaces
  have hne : j ≠ i := by
    rintro rfl
    exact hover j ps hdeed a hi
  refine ⟨j, i, q, read, ps, a.found, hne, hdisplaces, hread, hp, hq, ?_⟩
  exact (hlater j ps hdeed hp).append (List.Sublist.refl [(i, Deed.stored a.found)])

theorem Unharmed.stored (h : pool.Unharmed cached remote m p) (hi : pool.AtWork i a)
    (hm : m.Coherent) (hm' : m'.Reflects (m.all ++ a.found)) (hlate : ¬ pool.Threatened a p)
    (result : Except Failure (List Profile)) :
    pool.Harmless cached remote m' p i a (.stored a.found) (.ended result) where
  answered ps hd := by cases hd
  finished _ _ := rfl
  held j ps hdeed hp := by
    rw [hm'.holds_iff, stands_append]
    rcases mem_deeds_workedOn.mp hdeed with hold | hnew
    · refine Or.inr ⟨(hm.reflects_all.holds_iff p).mp (h.held j ps hold hp), ?_⟩
      intro q hq hdisplaces
      exact hlate ⟨q, hq, hdisplaces, j, ps, hold, hp⟩
    · cases hnew
      exact Or.inl (h.stands i a hi hp)
  stands b hb := by cases hb
  read b q hb := by cases hb

variable [DecidableEq κ] {normal : K → κ} {keyOf : Profile → K} {label : String}
  {answer : List Profile}

/-- Nothing gets lost by an answer if all of it that the job accepts and that goes against the
profile is held at that moment. -/
theorem Unharmed.told (h : pool.Unharmed cached remote m p) (hi : pool.AtWork i a)
    (hmembers : a.members ≠ []) (hm : m.Coherent)
    (hremote : label = remote → a.members.tail = [] ∧
      (p ∈ answer → p ∈ (a.progress.accept normal keyOf answer).1))
    (hcached : ∀ q ∈ (a.progress.accept normal keyOf answer).1, q.Displaces p →
      label = cached ∧ q ∈ answer ∧ m.Holds q)
    (hnone : p ∈ a.found ++ (a.progress.accept normal keyOf answer).1 →
      ∀ q ∈ (a.progress.accept normal keyOf answer).1, ¬ q.Displaces p) :
    pool.Harmless cached remote m p i a (.answered label answer)
      (.asking (a.told normal keyOf answer)) where
  answered ps hd hp := by
    obtain ⟨rfl, rfl⟩ := Deed.answered.inj hd
    obtain ⟨hlast, haccepted⟩ := hremote rfl
    exact ⟨_, rfl, hlast, List.mem_append_right _ (haccepted hp)⟩
  finished hnil := absurd hnil hmembers
  held j ps hdeed := by
    rcases mem_deeds_workedOn.mp hdeed with hold | hnew
    · exact h.held j ps hold
    · cases hnew
  stands b hb hp := by
    cases hb
    refine (stands_append _ _ _).mpr ?_
    rcases List.mem_append.mp hp with hfound | haccepted
    · exact Or.inr ⟨h.stands i a hi hfound, hnone hp⟩
    · exact Or.inl (stands_of_not_displaced haccepted (hnone hp))
  read b q hb hq hdisplaces := by
    cases hb
    rcases List.mem_append.mp hq with hfound | haccepted
    · obtain ⟨ps, hmem, hdeed, hlater⟩ := h.read i a q hi hfound hdisplaces
      refine ⟨ps, hmem, mem_deeds_workedOn.mpr (Or.inl hdeed), fun j qs hstored hp => ?_⟩
      rcases mem_deeds_workedOn.mp hstored with hold | hnew
      · exact sublist_deeds_workedOn (hlater j qs hold hp)
      · cases hnew
    · -- It is held at this moment, so the profile is not, and no job can have stored it before.
      obtain ⟨rfl, hmem, hholds⟩ := hcached q haccepted hdisplaces
      refine ⟨answer, hmem, mem_deeds_workedOn.mpr (Or.inr rfl), fun j qs hstored hp => ?_⟩
      rcases mem_deeds_workedOn.mp hstored with hold | hnew
      · exact absurd hdisplaces (hm.not_displaces (h.held j qs hold hp) hholds)
      · cases hnew

end Pool

end PlayerLookup
