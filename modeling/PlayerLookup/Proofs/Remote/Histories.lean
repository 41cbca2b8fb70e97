import PlayerLookup.Proofs.Combined.Answering
import PlayerLookup.Remote.Client

/-! The remote source where each id has one history, each request for names has one answer, and no
request fails. An id is then always answered with the last record of its history that can be used,
and names with all the records that can be used. -/

set_option autoImplicit false

namespace PlayerLookup.Remote

variable {σ : Type}

/-! ## One request -/

/-- From kept states the request is answered with the document. -/
def Serves (r : Remote σ) (kept : σ → Prop) (request : Request) (d : Document) : Prop :=
  ∀ s, kept s → ∃ events t response, (r.send request).run s = ⟨events, t, .ok response⟩ ∧ kept t ∧
    response.document = .ok d

variable {r : Remote σ} {kept : σ → Prop} {request : Request} {d : Document}

theorem Serves.sendOnce (h : r.Serves kept request d) :
    (r.sendOnce request).Gives kept (fun _ => True) d := by
  intro s hs
  obtain ⟨events, t, response, hsend, ht, hdocument⟩ := h s hs
  refine ⟨.request request r.settings.timeout :: events, t, ?_, ht, fun _ _ => trivial⟩
  have hemit : (Lookup.emit (.request request r.settings.timeout) : Lookup σ Unit).run s =
      ⟨[.request request r.settings.timeout], s, .ok ()⟩ := rfl
  rw [Remote.sendOnce, Lookup.run_bind_ok hemit, Lookup.run_bind_ok hsend, hdocument]
  change Run.mk (_ ++ (events ++ [])) t (.ok d) = _
  rw [List.append_nil]
  rfl

theorem Serves.exchange (h : r.Serves kept request d) (service : String) :
    (r.exchange request service).Gives kept (fun _ => True) d := by
  have htry : (r.sendOnce request).attempt.Gives kept (fun _ => True) (.ok d) := h.sendOnce.attempt
  rw [Remote.exchange, exchangeFrom]
  exact htry.bind (Lookup.gives_pure d)

/-! ## Records -/

theorem gives_usable? (found : Except Unusable Profile) :
    (usable? found : Lookup σ (Option Profile)).Gives kept (fun _ => True) found.toOption := by
  cases found with
  | ok p => exact Lookup.gives_pure (some p)
  | error u => exact (Lookup.gives_log trivial).bind (Lookup.gives_pure none)

/-- The profile of the last record that can be used. -/
def lastUsable (id : PlayerId) : Document → Option Profile
  | .list items => (items.filterMap fun entry => (profileAt id entry).toOption).getLast?
  | _ => none

theorem gives_decodeHistory (id : PlayerId) (entries : Document) :
    (decodeHistory id entries : Lookup σ (Option Profile)).Gives kept (fun _ => True)
      (lastUsable id entries) := by
  cases entries with
  | list items =>
    have hall : (Lookup.forEach items fun entry => usable? (profileAt id entry) :
        Lookup σ (List (Option Profile))).Gives kept (fun _ => True)
          (items.map fun entry => (profileAt id entry).toOption) :=
      .forEach fun entry => gives_usable? (profileAt id entry)
    have hlast := hall.map fun found => (found.filterMap fun p => p).getLast?
    rw [List.filterMap_map] at hlast
    exact hlast
  | _ => exact (Lookup.gives_log trivial).bind (Lookup.gives_pure none)

theorem id_of_profileAt {id : PlayerId} {entry : Document} {p : Profile}
    (h : profileAt id entry = .ok p) : p.id = id := by
  unfold profileAt at h
  cases hname : present? entry "name" with
  | none =>
    rw [hname] at h
    cases h
  | some name =>
    rw [hname] at h
    dsimp only at h
    unfold Profile.make at h
    cases hn : Name.ofText? name.display with
    | none =>
      rw [hn] at h
      cases h
    | some n =>
      rw [hn] at h
      cases h
      rfl

theorem id_of_lastUsable {id : PlayerId} {entries : Document} {p : Profile}
    (h : lastUsable id entries = some p) : p.id = id := by
  cases entries with
  | list items =>
    obtain ⟨entry, -, hentry⟩ := List.mem_filterMap.mp (List.mem_of_getLast? h)
    cases hprofile : profileAt id entry with
    | error u =>
      rw [hprofile] at hentry
      cases hentry
    | ok q =>
      rw [hprofile] at hentry
      cases hentry
      exact id_of_profileAt hprofile
  | _ => cases h

/-! ## Ids -/

/-- Every id has an address, and from kept states its history there is always the same. -/
def FixedHistories (r : Remote σ) (kept : σ → Prop) (history : PlayerId → Document) : Prop :=
  ∀ id, ∃ url, r.historyUrl id = .ok url ∧ r.Serves kept (.history url) (history id)

theorem FixedHistories.answers {history : PlayerId → Document}
    (h : r.FixedHistories kept history) :
    (Source.remote r).byId.Answers kept (fun _ => True) Profile.id
      fun id => lastUsable id (history id) := by
  refine Queries.answers_ofOne (fun _ _ => id_of_lastUsable) fun id => ?_
  obtain ⟨url, hurl, hserves⟩ := h id
  rw [queryId, hurl]
  refine (Lookup.gives_of_still fun _ _ => rfl).bind ?_
  refine (Lookup.gives_log trivial).bind ?_
  exact (hserves.exchange "name history service").bind (gives_decodeHistory id (history id))

/-! ## Names -/

/-- The profiles of the records that can be used. -/
def usable : Document → List Profile
  | .list items => items.filterMap fun entry => (profileOf entry).toOption
  | _ => []

/-- From kept states names are always answered with the same document. -/
def FixedNames (r : Remote σ) (kept : σ → Prop) (answer : List String → Document) : Prop :=
  ∀ names, r.Serves kept (.profiles r.settings.profilesUrl names) (answer names)

theorem gives_decodeProfiles (items : List Document) :
    (decodeProfiles items : Lookup σ (List Profile)).Gives kept (fun _ => True)
      (usable (.list items)) := by
  have hall : (Lookup.forEach items decodeProfile : Lookup σ (List (Option Profile))).Gives kept
      (fun _ => True) (items.map fun entry => (profileOf entry).toOption) :=
    .forEach fun entry => gives_usable? (profileOf entry)
  have husable := hall.map fun found => found.filterMap id
  rw [List.filterMap_map] at husable
  exact husable

theorem FixedNames.queryNames {answer : List String → Document} (h : r.FixedNames kept answer)
    {names : List String} (hne : names ≠ []) :
    (r.queryNames names).Gives kept (fun _ => True) (usable (answer names)) := by
  rw [Remote.queryNames, if_neg (by simpa using hne)]
  refine (Lookup.gives_log trivial).bind ?_
  refine ((h names).exchange "profile lookup service").bind ?_
  cases answer names with
  | list items =>
    exact (gives_decodeProfiles items).bind ((Lookup.gives_log trivial).bind (Lookup.gives_pure _))
  | _ => exact (Lookup.gives_log trivial).bind (Lookup.gives_pure [])

/-! ## One document for all -/

def entryOf (p : Profile) : Document :=
  .record [("id", .text p.id.dashless), ("name", .text p.name.text)]

def called (name : String) : Document := .record [("name", .text name)]

/-- A remote service that answers every request with the same document. -/
def saying (d : Document) : Remote σ where
  settings := ⟨"minecraft", "https://api.mojang.com/profiles/minecraft",
    RemoteSettings.defaultHistoryUrl, 0, .whole 0, none⟩
  send _ := return .holding d
  cancelled? := none
  platform := .patient Template.noParts

theorem fixedNames_saying : (saying d : Remote σ).FixedNames kept fun _ => d :=
  fun _ s hs => ⟨[], s, _, rfl, hs, rfl⟩

end PlayerLookup.Remote
