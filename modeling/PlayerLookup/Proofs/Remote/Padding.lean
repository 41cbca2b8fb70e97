import PlayerLookup.Proofs.Cache.History
import PlayerLookup.Proofs.Foundations.Matching
import PlayerLookup.Proofs.Remote.Requests
import PlayerLookup.Proofs.Remote.Useless

/-! Records that cannot be used among those of the remote service. Wherever they stand in the lists
that it answers with, they change nothing but the log: the same requests are made, and the same
profiles are found or the same failure ends the call. -/

set_option autoImplicit false

namespace PlayerLookup

namespace Remote

/-! ## Lists with useless records added -/

/-- The second list is the first with records of a kind put in anywhere. -/
inductive Padded (useless : Document → Prop) : List Document → List Document → Prop where
  | nil : Padded useless [] []
  | keep (entry : Document) {items items' : List Document} (h : Padded useless items items') :
      Padded useless (entry :: items) (entry :: items')
  | insert {entry : Document} (hentry : useless entry) {items items' : List Document}
      (h : Padded useless items items') : Padded useless items (entry :: items')

/-- The same document, or a list with records of a kind put in. -/
inductive Pads (useless : Document → Prop) : Document → Document → Prop where
  | same (d : Document) : Pads useless d d
  | list {items items' : List Document} (h : Padded useless items items') :
      Pads useless (.list items) (.list items')

theorem Padded.filterMap_eq {α : Type} {useless : Document → Prop} {items items' : List Document}
    (h : Padded useless items items') {f : Document → Option α}
    (hf : ∀ entry, useless entry → f entry = none) : items.filterMap f = items'.filterMap f := by
  induction h with
  | nil => rfl
  | keep entry _ ih =>
    rw [List.filterMap_cons, List.filterMap_cons, ih]
  | insert hentry _ ih => rw [List.filterMap_cons_none (hf _ hentry), ih]

theorem Padded.usable_eq {items items' : List Document} (h : Padded UselessProfile items items') :
    usable (.list items) = usable (.list items') :=
  h.filterMap_eq fun _ hentry => hentry.toOption_eq

theorem Padded.lastUsable_eq {items items' : List Document} (h : Padded UselessName items items')
    (id : PlayerId) : lastUsable id (.list items) = lastUsable id (.list items') :=
  congrArg List.getLast? (h.filterMap_eq fun _ hentry => hentry.toOption_eq id)

/-! ## A remote service and one that answers with more -/

/-- The records that are useless in the answer to a request. -/
def Useless : Request → Document → Prop
  | .profiles .. => UselessProfile
  | .history _ => UselessName

variable {σ : Type}

/-- The same remote service, with another way to it. -/
def sending (r : Remote σ) (send : Request → Lookup σ Response) : Remote σ := { r with send }

/-- Whatever is asked for, it is answered in the same way, except that useless records may have been
put into a list. -/
def PadsAnswers (r : Remote σ) (send : Request → Lookup σ Response) : Prop :=
  ∀ request, Lookup.Matches
    (fun response response' => Agree (Pads (Useless request)) response.document response'.document)
    (r.send request) (send request)

open Lookup (Matches matches_refl matches_self matches_pure matches_ofExcept)

variable {r : Remote σ} {send : Request → Lookup σ Response}

theorem PadsAnswers.sendOnce (h : r.PadsAnswers send) (request : Request) :
    Matches (Pads (Useless request)) (r.sendOnce request) ((r.sending send).sendOnce request) := by
  refine (matches_self _).bind_eq fun _ => ?_
  exact (h request).bind fun _ _ hdocument => matches_ofExcept hdocument

/-- By induction on the retries that are left: an attempt that fails, fails for both alike. -/
theorem PadsAnswers.exchangeFrom (h : r.PadsAnswers send) (request : Request) (service : String)
    (left : Nat) (delay : Amount) :
    Matches (Pads (Useless request)) (r.exchangeFrom request service left delay)
      ((r.sending send).exchangeFrom request service left delay) := by
  induction left generalizing delay with
  | zero =>
    rw [Remote.exchangeFrom, Remote.exchangeFrom]
    refine (h.sendOnce request).attempt.bind fun outcome outcome' houtcome => ?_
    cases houtcome with
    | ok hpads => exact matches_pure hpads
    | error f => exact matches_refl .same _
  | succ n ih =>
    rw [Remote.exchangeFrom, Remote.exchangeFrom]
    refine (h.sendOnce request).attempt.bind fun outcome outcome' houtcome => ?_
    cases houtcome with
    | ok hpads => exact matches_pure hpads
    | error f =>
      dsimp only
      split
      · refine (matches_self _).bind_eq fun _ => ?_
        exact (matches_self _).bind_eq fun _ => ih delay.twice
      · exact matches_refl .same _

theorem PadsAnswers.exchange (h : r.PadsAnswers send) (request : Request) (service : String) :
    Matches (Pads (Useless request)) (r.exchange request service)
      ((r.sending send).exchange request service) :=
  h.exchangeFrom request service r.settings.retries r.settings.retryDelay

/-! ## Names -/

theorem matches_decodeProfiles {items items' : List Document}
    (h : Padded UselessProfile items items') :
    Matches Eq (decodeProfiles items : Lookup σ (List Profile)) (decodeProfiles items') := by
  have hgives : ∀ items, (decodeProfiles items : Lookup σ (List Profile)).Gives (fun _ => True)
      (fun _ => True) (usable (.list items)) := gives_decodeProfiles
  exact Lookup.matches_of_logs (logs_decodeProfiles items) (logs_decodeProfiles items')
    (fun _ => (hgives items).result_eq trivial) (fun _ => (hgives items').result_eq trivial)
    h.usable_eq

theorem PadsAnswers.queryNames (h : r.PadsAnswers send) (names : List String) :
    Matches Eq (r.queryNames names) ((r.sending send).queryNames names) := by
  rw [Remote.queryNames, Remote.queryNames]
  split
  · exact matches_self _
  · refine (matches_self _).bind_eq fun _ => ?_
    refine (h.exchange (.profiles r.settings.profilesUrl names) _).bind fun d d' hpads => ?_
    cases hpads with
    | same => exact matches_self _
    | list hpadded => exact (matches_decodeProfiles hpadded).bind_eq fun _ => matches_self _

theorem PadsAnswers.queryBodies (h : r.PadsAnswers send) (bodies : List (List String)) :
    Matches Eq (r.queryBodies bodies) ((r.sending send).queryBodies bodies) := by
  induction bodies with
  | nil => exact matches_self _
  | cons names rest ih =>
    rw [Remote.queryBodies, Remote.queryBodies]
    exact (h.queryNames names).bind_eq fun _ => ih.bind_eq fun _ => matches_self _

theorem PadsAnswers.findNames (h : r.PadsAnswers send) (names : List String) :
    Matches Eq (r.findNames names) ((r.sending send).findNames names) :=
  (h.queryBodies (bodies names)).bind_eq fun _ => matches_self _

/-! ## Ids -/

theorem result_decodeHistory (id : PlayerId) (d : Document) (s : σ) :
    ((decodeHistory id d).run s).result = .ok (lastUsable id d) := by
  have hgives : (decodeHistory id d : Lookup σ (Option Profile)).Gives (fun _ => True)
      (fun _ => True) (lastUsable id d) := gives_decodeHistory id d
  exact hgives.result_eq trivial

theorem matches_decodeHistory (id : PlayerId) {d d' : Document} (h : Pads UselessName d d') :
    Matches Eq (decodeHistory id d : Lookup σ (Option Profile)) (decodeHistory id d') := by
  refine Lookup.matches_of_logs (logs_decodeHistory id d) (logs_decodeHistory id d')
    (result_decodeHistory id d) (result_decodeHistory id d') ?_
  cases h with
  | same => rfl
  | list hpadded => exact hpadded.lastUsable_eq id

theorem PadsAnswers.queryId (h : r.PadsAnswers send) (id : PlayerId) :
    Matches Eq (r.queryId id) ((r.sending send).queryId id) := by
  refine (matches_self (Lookup.ofExcept (r.historyUrl id))).bind_eq fun url => ?_
  refine (matches_self _).bind_eq fun _ => ?_
  exact (h.exchange (.history url) _).bind fun _ _ hpads => matches_decodeHistory id hpads

theorem PadsAnswers.collect (h : r.PadsAnswers send) (ids : List PlayerId) :
    Matches Eq (Queries.collect r.queryId ids) (Queries.collect (r.sending send).queryId ids) := by
  induction ids with
  | nil => exact matches_self _
  | cons id rest ih =>
    rw [Queries.collect, Queries.collect]
    exact (h.queryId id).bind_eq fun _ => ih.bind_eq fun _ => matches_self _

theorem result_queryId {id : PlayerId} {url : String} {s : σ} {d : Document}
    (hurl : r.historyUrl id = .ok url)
    (hd : ((r.exchange (.history url) "name history service").run s).result = .ok d) :
    ((r.queryId id).run s).result = .ok (lastUsable id d) := by
  rcases hexchange : (r.exchange (.history url) "name history service").run s with
    ⟨events, t, result⟩
  rw [hexchange] at hd
  obtain rfl : result = .ok d := hd
  have hmade : (Lookup.ofExcept (r.historyUrl id)).run s = ⟨[], s, .ok url⟩ := by
    rw [hurl]
    rfl
  have hlog : (logRequest ("GET " ++ url) : Lookup σ Unit).run s =
      ⟨[.log ⟨.trace, .remoteSource, "GET " ++ url, none⟩], s, .ok ()⟩ := rfl
  rw [Remote.queryId, Lookup.run_bind_ok hmade, Lookup.run_bind_ok hlog,
    Lookup.run_bind_ok hexchange]
  exact result_decodeHistory id d t

/-- What is found for an id is the one last name of its history, if there is one. -/
def FindsLastName (r : Remote σ) (id : PlayerId) : Prop :=
  ∀ url s d, r.historyUrl id = .ok url →
    ((r.exchange (.history url) "name history service").run s).result = .ok d →
    ∃ found, (∀ other, LastName d other ↔ other = found) ∧
      (((Source.remote r).byId.one id).run s).result = .ok (found.map (⟨id, ·⟩))

theorem findsLastName (r : Remote σ) (id : PlayerId) : r.FindsLastName id := by
  intro url s d hurl hd
  obtain ⟨found, hfound⟩ := exists_lastName d
  refine ⟨found, fun other => ⟨fun hother => hother.unique hfound, ?_⟩, ?_⟩
  · rintro rfl
    exact hfound
  · rw [← hfound.lastUsable_eq id]
    exact result_queryId hurl hd

end Remote

/-- **Records that cannot be used change nothing.** If useless records are put anywhere into the
lists that a remote service answers with, every lookup of names and every lookup of ids goes as
before, to the same profiles or to the same failure and with the same requests on the way. The
lookup of one id gives the last name of its history, or nothing if there is none, whatever else is
in the history. -/
theorem unusable_records_change_nothing {σ : Type} (r : Remote σ)
    {send : Request → Lookup σ Response} (h : r.PadsAnswers send) :
    (∀ names, Lookup.Matches Eq ((Source.remote r).byName.all names)
        ((Source.remote (r.sending send)).byName.all names)) ∧
      (∀ ids, Lookup.Matches Eq ((Source.remote r).byId.all ids)
        ((Source.remote (r.sending send)).byId.all ids)) ∧
      (∀ id, r.FindsLastName id) :=
  ⟨h.findNames, fun ids => h.collect (Batch.unique ids), r.findsLastName⟩

/-! ## Useless records of every kind -/

namespace Strewn

def ash : Profile := ⟨⟨1⟩, .ash⟩

def profiles : Document := .list [Remote.entryOf ash]

/-- No record, no id, no name, an id that is none, and an empty name. -/
def moreProfiles : Document :=
  .list [.int 7, Remote.called "Birch", Remote.entryOf ash,
    .record [("id", .int 2), ("name", .null)], .record [("id", .text "2"), ("name", .text "Birch")],
    .record [("id", .text (PlayerId.dashless ⟨2⟩)), ("name", .text "")]]

def history : Document := .list [Remote.called "Oak", Remote.entryOf ash]

/-- No record, no name, a name that is null, and an empty one, all but the first at the end. -/
def moreHistory : Document :=
  .list [Remote.called "Oak", .null, Remote.entryOf ash, .record [], .record [("name", .null)],
    Remote.called ""]

def send (profiles history : Document) : Request → Lookup Unit Response
  | .profiles _ _ => return .holding profiles
  | .history _ => return .holding history

def remote : Remote Unit := (Remote.saying .null).sending (send profiles history)

theorem padded_profiles : Remote.Pads Remote.UselessProfile profiles moreProfiles := by
  have hbad : PlayerId.parse (Document.text "2").display = .error (.invalidId "2") := by rfl
  refine .list (.insert ?noRecord (.insert ?noId (.keep (Remote.entryOf ash) (.insert ?noName
    (.insert ?badId (.insert ?emptyName .nil))))))
  case noRecord => exact .notARecord fun members h => nomatch h
  case noId => exact .withoutId (Or.inl rfl)
  case noName => exact .withoutName (Or.inr rfl)
  case badId => exact .badId rfl hbad
  case emptyName => exact .emptyName rfl rfl

theorem padded_history : Remote.Pads Remote.UselessName history moreHistory := by
  refine .list (.keep (Remote.called "Oak") (.insert ?noRecord (.keep (Remote.entryOf ash)
    (.insert ?noName (.insert ?nullName (.insert ?emptyName .nil))))))
  case noRecord => exact .notARecord fun members h => nomatch h
  case noName => exact .withoutName (Or.inl rfl)
  case nullName => exact .withoutName (Or.inr rfl)
  case emptyName => exact .emptyName rfl rfl

theorem padsAnswers : remote.PadsAnswers (send moreProfiles moreHistory) := by
  intro request
  cases request with
  | profiles url names => exact Lookup.matches_pure (.ok padded_profiles)
  | history url => exact Lookup.matches_pure (.ok padded_history)

end Strewn

theorem unusable_records_change_nothing_strewn :
    Strewn.remote.PadsAnswers (Strewn.send Strewn.moreProfiles Strewn.moreHistory) ∧
      (((Source.remote (Strewn.remote.sending
        (Strewn.send Strewn.moreProfiles Strewn.moreHistory))).byName.all ["ash"]).run ()).result =
        .ok [Strewn.ash] ∧
      (((Source.remote (Strewn.remote.sending
        (Strewn.send Strewn.moreProfiles Strewn.moreHistory))).byId.all [⟨1⟩]).run ()).result =
        .ok [Strewn.ash] := by
  obtain ⟨hnames, hids, -⟩ := unusable_records_change_nothing Strewn.remote Strewn.padsAnswers
  refine ⟨Strewn.padsAnswers, ?_, ?_⟩
  · rw [← (hnames ["ash"] ()).result.eq]
    exact Except.eq_ok_of_toOption (by decide +kernel)
  · rw [← (hids [⟨1⟩] ()).result.eq]
    exact Except.eq_ok_of_toOption (by decide +kernel)

end PlayerLookup
