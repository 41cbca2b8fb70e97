import PlayerLookup.Pipeline
import PlayerLookup.Proofs.Cache.History
import PlayerLookup.Proofs.Combined.Answering

/-! Sources that answer from what stays as it is: pinned profiles, a host's registry, a cache in
memory. -/

set_option autoImplicit false

namespace PlayerLookup

variable {σ : Type} {kept : σ → Prop} {own : Event → Prop}

theorem LocalMap.id_of_byId? {m : LocalMap} {id : PlayerId} {p : Profile}
    (h : m.byId? id = some p) : p.id = id := by
  obtain ⟨n, -, rfl⟩ := Option.map_eq_some_iff.mp h
  rfl

theorem Source.answers_localMap {cell : Cell σ LocalMap} {m : LocalMap}
    (h : ∀ s, kept s → cell.get s = m) :
    (Source.localMap cell).byId.Answers kept own Profile.id m.byId? := by
  refine Queries.answers_ofOne (fun _ _ => LocalMap.id_of_byId?) fun id => ?_
  refine Lookup.gives_of_still fun s hs => ?_
  rw [Lookup.run_bind_quiet (cell.run_read s), h s hs]
  rfl

/-! ## A registry -/

section

variable {τ : Type} {view : σ → τ} {r : Registry σ}

theorem Registry.dependsOn_findId (hname : ∀ id, (r.nameOf id).DependsOn view) (id : PlayerId) :
    (r.findId id).DependsOn view := by
  refine (hname id).bind fun found => ?_
  cases found with
  | none => exact Lookup.dependsOn_pure none
  | some text =>
    exact (Lookup.dependsOn_ofExcept _).bind fun p => Lookup.dependsOn_pure (some p)

theorem Registry.dependsOn_findName (hid : ∀ name, (r.idOf name).DependsOn view)
    (hname : ∀ id, (r.nameOf id).DependsOn view) (name : String) :
    (r.findName name).DependsOn view := by
  refine (hid name).bind fun found => ?_
  cases found with
  | none => exact Lookup.dependsOn_pure none
  | some id =>
    exact (hname id).bind fun _ => (Lookup.dependsOn_ofExcept _).bind fun p =>
      Lookup.dependsOn_pure (some p)

end

/-- The profile of an id for which a name is known; an empty name counts as none. -/
def Registry.named (nameOf : PlayerId → Option String) (id : PlayerId) : Option Profile := do
  let text ← nameOf id
  let n ← Name.ofText? text
  return ⟨id, n⟩

theorem Registry.id_of_named {nameOf : PlayerId → Option String} {id : PlayerId} {p : Profile}
    (h : named nameOf id = some p) : p.id = id := by
  obtain ⟨text, -, hn⟩ := Option.bind_eq_some_iff.mp h
  obtain ⟨n, -, hp⟩ := Option.bind_eq_some_iff.mp hn
  cases hp
  rfl

theorem Source.answers_host {r : Registry σ} {nameOf : PlayerId → Option String}
    (h : ∀ id, (r.nameOf id).Gives kept own (nameOf id)) (hne : ∀ id, nameOf id ≠ some "") :
    (Source.host r).byId.Answers kept own Profile.id (Registry.named nameOf) := by
  refine Queries.answers_ofOne (fun _ _ => Registry.id_of_named) fun id => ?_
  have hfixed := h id
  have hname := hne id
  refine hfixed.bind ?_
  cases htext : nameOf id with
  | none =>
    have hnone : Registry.named nameOf id = none := by
      rw [Registry.named, htext]
      rfl
    rw [hnone]
    exact Lookup.gives_pure none
  | some text =>
    have htextne : text ≠ "" := by
      rintro rfl
      exact hname htext
    have hn : Name.ofText? text = some ⟨text, htextne⟩ := dif_neg htextne
    have hsome : Registry.named nameOf id = some ⟨id, ⟨text, htextne⟩⟩ := by
      rw [Registry.named, htext, Option.bind_eq_bind, Option.bind_some, hn]
      rfl
    rw [hsome]
    refine Lookup.Gives.bind (a := (⟨id, ⟨text, htextne⟩⟩ : Profile)) ?_ (Lookup.gives_pure _)
    refine Lookup.gives_of_still fun s _ => ?_
    rw [Profile.make, hn]
    rfl

/-! ## A memory -/

theorem Memory.profiles_unique (m : Memory) (ids : List PlayerId) :
    m.profiles (Batch.unique ids) = m.profiles ids := by
  rw [profiles, profiles, Batch.unique_unique]

theorem Memory.holders_unique (m : Memory) (names : List String) :
    m.holders (Batch.unique names) = m.holders names := by
  rw [holders, holders, Batch.unique_unique]

theorem Memory.find?_profiles (m : Memory) (id : PlayerId) :
    (m.profiles [id]).find? (·.id == id) = m.profile? id := by
  have hone : m.profiles [id] = (m.profile? id).toList := by
    change [id].filterMap m.profile? = _
    rw [List.filterMap_cons]
    cases m.profile? id <;> rfl
  rw [hone]
  cases hp : m.profile? id with
  | none => rfl
  | some p =>
    have hid := ((m.profile?_eq_some_iff id p).mp hp).1
    rw [Option.toList_some, List.find?_cons, hid, beq_self_eq_true]

theorem Memory.name_of_holder? {m : Memory} {name : String} {p : Profile}
    (h : m.holder? name = some p) : p.name.text = name := by
  obtain ⟨n, hn, hid⟩ := Option.bind_eq_some_iff.mp h
  obtain ⟨id, -, hp⟩ := Option.bind_eq_some_iff.mp hid
  cases hp
  exact (ofText?_eq_some_iff name n).mp hn

theorem Memory.find?_holders (m : Memory) (name : String) :
    (m.holders [name]).find? (·.name.text == name) = m.holder? name := by
  have hone : m.holders [name] = (m.holder? name).toList := by
    change [name].filterMap m.holder? = _
    rw [List.filterMap_cons]
    cases m.holder? name <;> rfl
  rw [hone]
  cases hp : m.holder? name with
  | none => rfl
  | some p =>
    rw [Option.toList_some, List.find?_cons, name_of_holder? hp, beq_self_eq_true]

variable {cell : Cell σ Memory} {m : Memory}

theorem Source.answers_cached (h : ∀ s, kept s → (cell.get s).profile? = m.profile?) :
    (Source.cached (Cache.memory cell)).byId.Answers kept own Profile.id m.profile? := by
  refine Queries.answers_of_one (fun id p hp => ((m.profile?_eq_some_iff id p).mp hp).1)
    (fun id => ?_) fun ids => ?_
  · refine Lookup.gives_of_still fun s hs => ?_
    change Run.mk [] s (.ok (((cell.get s).profiles [id]).find? _)) = _
    rw [Memory.find?_profiles, h s hs]
  · refine Lookup.gives_of_still fun s hs => ?_
    change Run.mk [] s (.ok ((cell.get s).profiles (Batch.unique ids))) = _
    rw [Memory.profiles_unique, Memory.profiles, h s hs]

theorem Source.answers_cached_names (h : ∀ s, kept s → (cell.get s).holder? = m.holder?) :
    (Source.cached (Cache.memory cell)).byName.Answers kept own (·.name.text) m.holder? := by
  refine Queries.answers_of_one (fun name p hp => Memory.name_of_holder? hp)
    (fun name => ?_) fun names => ?_
  · refine Lookup.gives_of_still fun s hs => ?_
    change Run.mk [] s (.ok (((cell.get s).holders [name]).find? _)) = _
    rw [Memory.find?_holders, h s hs]
  · refine Lookup.gives_of_still fun s hs => ?_
    change Run.mk [] s (.ok ((cell.get s).holders (Batch.unique names))) = _
    rw [Memory.holders_unique, Memory.holders, h s hs]

end PlayerLookup
