import PlayerLookup.Proofs.Combined.Progress
import PlayerLookup.Proofs.Foundations.Lookup
import PlayerLookup.Source.Combined

/-! Batches asked of a combination. Its members take turns: each is asked for the keys that are open
after the turns before it, and the answer has of each key the first profile that any of them gave.
-/

set_option autoImplicit false

namespace PlayerLookup

variable {σ K κ : Type} [DecidableEq κ]

/-! ## Members one by one -/

namespace Queries

variable {normal : K → κ} {keyOf : Profile → K} {pr : Progress K κ} {label : String}
  {q : Queries σ K} {rest : List (String × Queries σ K)} {s t u : σ} {events more : List Event}

/-- What is said in the log of a member that answered. -/
def resolvedRecord (label : String) (found asked : Nat) : LogRecord :=
  ⟨.debug, .combinedSource, label ++ " resolved " ++ toString found ++ "/" ++ toString asked
    ++ " keys", none⟩

theorem collectMembers_complete (h : pr.isComplete = true)
    (members : List (String × Queries σ K)) :
    (collectMembers normal keyOf members pr).run s = ⟨[], s, .ok []⟩ := by
  cases members with
  | nil => rfl
  | cons m rest =>
    rw [collectMembers, if_pos h]
    rfl

theorem collectMembers_failed (h : ¬ pr.isComplete = true) {f : Failure}
    (hrun : (q.all pr.missing).run s = ⟨events, t, .error f⟩) :
    (collectMembers normal keyOf ((label, q) :: rest) pr).run s = ⟨events, t, .error f⟩ := by
  rw [collectMembers, if_neg h]
  exact Lookup.run_bind_error hrun _

theorem collectMembers_answered (h : ¬ pr.isComplete = true) {found : List Profile}
    {r : Except Failure (List Profile)}
    (hrun : (q.all pr.missing).run s = ⟨events, t, .ok found⟩)
    (hmore : (collectMembers normal keyOf rest (pr.accept normal keyOf found).2).run t =
      ⟨more, u, r⟩) :
    (collectMembers normal keyOf ((label, q) :: rest) pr).run s =
      ⟨events ++ .log (resolvedRecord label found.length pr.missing.length) :: more, u,
        r.map fun ps => (pr.accept normal keyOf found).1 ++ ps⟩ := by
  rw [collectMembers, if_neg h, Lookup.run_bind_ok hrun]
  have hlog : (Lookup.log .debug .combinedSource (label ++ " resolved " ++ toString found.length
      ++ "/" ++ toString pr.missing.length ++ " keys") none : Lookup σ Unit).run t =
      ⟨[.log (resolvedRecord label found.length pr.missing.length)], t, .ok ()⟩ := rfl
  dsimp only
  rw [Lookup.run_bind_ok hlog, Lookup.run_bind_pure hmore]
  rfl

end Queries

/-! ## Turns -/

/-- A member's turn: what it was asked for, and how that went. -/
structure Turn (σ K : Type) where
  label : String
  source : Queries σ K
  asked : List K
  outcome : Run σ (List Profile)

namespace Turn

def member (t : Turn σ K) : String × Queries σ K := (t.label, t.source)

def found (t : Turn σ K) : List Profile := t.outcome.result.toOption.getD []

/-- The failure that ended the turn, if one did. -/
def failure? (t : Turn σ K) : Option Failure :=
  match t.outcome.result with
  | .ok _ => none
  | .error f => some f

/-- What could be seen of the turn; one that did not fail is told of in the log. -/
def events (t : Turn σ K) : List Event :=
  match t.outcome.result with
  | .ok found =>
    t.outcome.events ++ [.log (Queries.resolvedRecord t.label found.length t.asked.length)]
  | .error _ => t.outcome.events

def leftBy (s : σ) (turns : List (Turn σ K)) : σ := turns.foldl (fun _ t => t.outcome.state) s

theorem leftBy_cons (s : σ) (t : Turn σ K) (turns : List (Turn σ K)) :
    leftBy s (t :: turns) = leftBy t.outcome.state turns := rfl

end Turn

variable (normal : K → κ) (keyOf : Profile → K) (keys : List K)

/-- A turn as it has to be after the turns before it: asked for are the open keys, of which there is
one, and there are turns after it only if it did not fail. -/
structure Turn.Follows (earlier : List Profile) (s : σ) (before : List (Turn σ K)) (t : Turn σ K)
    (after : List (Turn σ K)) : Prop where
  asked_eq : t.asked = openKeys normal keyOf keys (earlier ++ before.flatMap Turn.found)
  asked_ne_nil : t.asked ≠ []
  outcome_eq : t.outcome = (t.source.all t.asked).run (Turn.leftBy s before)
  last_of_failure : t.failure? ≠ none → after = []

/-- Members have had their turns in order, each at most once, until all had one, or no key was open
any more, or one failed. -/
structure InTurn (earlier : List Profile) (s : σ) (members : List (String × Queries σ K))
    (turns : List (Turn σ K)) : Prop where
  in_order : turns.map Turn.member <+: members
  follows : ∀ before t after, turns = before ++ t :: after →
    t.Follows normal keyOf keys earlier s before after
  complete : turns.findSome? Turn.failure? = none →
    turns.map Turn.member = members ∨
      openKeys normal keyOf keys (earlier ++ turns.flatMap Turn.found) = []

/-- The profiles of several turns, of each key the first that was given and no other. -/
structure FirstOfEach (key : Profile → κ) (turns : List (Turn σ K)) (ps : List Profile) :
    Prop where
  eq_unique : ps = Batch.uniqueBy key (turns.flatMap Turn.found)
  distinct : (ps.map key).Nodup
  first : ∀ k, ps.find? (fun p => key p == k) =
    turns.findSome? fun t => t.found.find? fun p => key p == k
  kept : ∀ t ∈ turns, ∀ p ∈ t.found, key p ∈ ps.map key

/-- A batch is answered by members in turn. -/
structure AnsweredInTurn (members : List (String × Queries σ K)) (batch : Lookup σ (List Profile))
    (s : σ) (turns : List (Turn σ K)) : Prop where
  in_turn : InTurn normal keyOf keys [] s members turns
  events_eq : (batch.run s).events = turns.flatMap Turn.events
  state_eq : (batch.run s).state = Turn.leftBy s turns
  failed : ∀ f, turns.findSome? Turn.failure? = some f → (batch.run s).result = .error f
  answered : turns.findSome? Turn.failure? = none → ∃ ps, (batch.run s).result = .ok ps ∧
    FirstOfEach (fun p => normal (keyOf p)) turns ps

/-! ## The first of each key -/

theorem firstOfEach_unique (key : Profile → κ) (turns : List (Turn σ K)) :
    FirstOfEach key turns (Batch.uniqueBy key (turns.flatMap Turn.found)) where
  eq_unique := rfl
  distinct := Batch.nodup_map_uniqueBy key _
  first k := by
    rw [Batch.uniqueBy, Batch.find?_uniqueFrom key [] _ k List.not_mem_nil, List.find?_flatMap]
  kept t ht p hp := by
    rw [Batch.mem_map_uniqueBy]
    exact List.mem_map_of_mem (List.mem_flatMap.mpr ⟨t, ht, hp⟩)

/-! ## One turn more -/

variable {normal keyOf keys} {earlier : List Profile} {s : σ} {label : String} {q : Queries σ K}
  {rest : List (String × Queries σ K)}

theorem inTurn_of_complete {members : List (String × Queries σ K)}
    (h : openKeys normal keyOf keys earlier = []) :
    InTurn normal keyOf keys earlier s members [] where
  in_order := List.nil_prefix
  follows before t after h := by simp at h
  complete _ := Or.inr (by simpa using h)

theorem inTurn_nil : InTurn normal keyOf keys earlier s [] [] where
  in_order := List.nil_prefix
  follows before t after h := by simp at h
  complete _ := Or.inl rfl

theorem follows_first (hopen : openKeys normal keyOf keys earlier ≠ []) {t : Turn σ K}
    (hasked : t.asked = openKeys normal keyOf keys earlier)
    (houtcome : t.outcome = (t.source.all t.asked).run s) {after : List (Turn σ K)}
    (hlast : t.failure? ≠ none → after = []) :
    t.Follows normal keyOf keys earlier s [] after where
  asked_eq := by simpa using hasked
  asked_ne_nil := by rwa [hasked]
  outcome_eq := houtcome
  last_of_failure := hlast

theorem inTurn_failed (hopen : openKeys normal keyOf keys earlier ≠ []) {t : Turn σ K}
    (hmember : t.member = (label, q)) (hasked : t.asked = openKeys normal keyOf keys earlier)
    (houtcome : t.outcome = (t.source.all t.asked).run s) {f : Failure}
    (hf : t.failure? = some f) :
    InTurn normal keyOf keys earlier s ((label, q) :: rest) [t] where
  in_order := by
    rw [List.map_singleton, hmember]
    exact List.prefix_append [(label, q)] rest
  follows before t' after hsplit := by
    obtain ⟨rfl, hcons⟩ | ⟨bs, rfl, hturns⟩ := List.cons_eq_append_iff.mp hsplit
    · obtain ⟨rfl, rfl⟩ := List.cons.inj hcons
      exact follows_first hopen hasked houtcome fun _ => rfl
    · simp at hturns
  complete h := by simp [hf] at h

theorem inTurn_cons (hopen : openKeys normal keyOf keys earlier ≠ []) {t : Turn σ K}
    {turns : List (Turn σ K)} (hmember : t.member = (label, q))
    (hasked : t.asked = openKeys normal keyOf keys earlier)
    (houtcome : t.outcome = (t.source.all t.asked).run s) (hf : t.failure? = none)
    (h : InTurn normal keyOf keys (earlier ++ t.found) t.outcome.state rest turns) :
    InTurn normal keyOf keys earlier s ((label, q) :: rest) (t :: turns) where
  in_order := by
    rw [List.map_cons, hmember]
    exact List.prefix_cons_inj _ |>.mpr h.in_order
  follows before t' after hsplit := by
    obtain ⟨rfl, hcons⟩ | ⟨bs, rfl, hturns⟩ := List.cons_eq_append_iff.mp hsplit
    · obtain ⟨rfl, rfl⟩ := List.cons.inj hcons
      exact follows_first hopen hasked houtcome fun hne => absurd hf hne
    · obtain ⟨hasked', hne, houtcome', hlast⟩ := h.follows bs t' after hturns
      refine ⟨?_, hne, houtcome', hlast⟩
      rw [hasked', List.flatMap_cons, List.append_assoc]
  complete hnone := by
    rw [List.findSome?_cons, hf] at hnone
    rw [List.map_cons, hmember, List.flatMap_cons, ← List.append_assoc]
    rcases h.complete hnone with hall | hclosed
    · exact Or.inl (by rw [hall])
    · exact Or.inr hclosed

/-! ## All turns -/

/-- What comes of turns when the keys in `seen` were answered before them. -/
def mergedFrom (key : Profile → κ) (seen : List κ) (turns : List (Turn σ K)) :
    Except Failure (List Profile) :=
  match turns.findSome? Turn.failure? with
  | some f => .error f
  | none => .ok (Batch.uniqueFrom key seen (turns.flatMap Turn.found))

theorem mergedFrom_cons (key : Profile → κ) (seen : List κ) {t : Turn σ K}
    (hf : t.failure? = none) (turns : List (Turn σ K)) :
    mergedFrom key seen (t :: turns) =
      (mergedFrom key (seen ++ t.found.map key) turns).map fun more =>
        Batch.uniqueFrom key seen t.found ++ more := by
  unfold mergedFrom
  rw [List.findSome?_cons, hf, List.flatMap_cons, Batch.uniqueFrom_append]
  cases turns.findSome? Turn.failure? <;> rfl

/-- A progress that knows the profiles of earlier turns lets the members take the next ones. -/
theorem collectMembers_run (members : List (String × Queries σ K)) :
    ∀ earlier pr s, pr.Knows normal keyOf keys earlier → ∃ turns,
      InTurn normal keyOf keys earlier s members turns ∧
      (Queries.collectMembers normal keyOf members pr).run s =
        ⟨turns.flatMap Turn.events, Turn.leftBy s turns,
          mergedFrom (fun p => normal (keyOf p)) (earlier.map fun p => normal (keyOf p))
            turns⟩ := by
  -- By induction on the members; what the progress knows stands for the turns already taken.
  induction members with
  | nil =>
    intro earlier pr s _
    exact ⟨[], inTurn_nil, rfl⟩
  | cons m rest ih =>
    intro earlier pr s h
    obtain ⟨label, q⟩ := m
    by_cases hcomplete : pr.isComplete = true
    · exact ⟨[], inTurn_of_complete (h.isComplete_iff.mp hcomplete),
        Queries.collectMembers_complete hcomplete _⟩
    · have hopen : openKeys normal keyOf keys earlier ≠ [] := fun hnil =>
        hcomplete (h.isComplete_iff.mpr hnil)
      let t : Turn σ K := ⟨label, q, pr.missing, (q.all pr.missing).run s⟩
      have hasked : t.asked = openKeys normal keyOf keys earlier := h.missing_eq
      rcases hrun : (q.all pr.missing).run s with ⟨events, u, result⟩
      have houtcome : t.outcome = ⟨events, u, result⟩ := hrun
      cases result with
      | error f =>
        have hfailure : t.failure? = some f := by rw [Turn.failure?, houtcome]
        refine ⟨[t], inTurn_failed hopen rfl hasked rfl hfailure, ?_⟩
        rw [Queries.collectMembers_failed hcomplete hrun]
        simp [mergedFrom, hfailure, Turn.leftBy, Turn.events, houtcome]
      | ok found =>
        have hfailure : t.failure? = none := by rw [Turn.failure?, houtcome]
        have hfound : t.found = found := by rw [Turn.found, houtcome]; rfl
        obtain ⟨haccepted, hknows⟩ := h.accept found
        obtain ⟨turns, hturns, hmore⟩ := ih (earlier ++ found) _ u hknows
        refine ⟨t :: turns, inTurn_cons hopen rfl hasked rfl hfailure ?_, ?_⟩
        · rw [hfound, houtcome]
          exact hturns
        · have hevents : t.events =
              events ++ [.log (Queries.resolvedRecord label found.length pr.missing.length)] := by
            rw [Turn.events, houtcome]
          rw [Queries.collectMembers_answered hcomplete hrun hmore, mergedFrom_cons _ _ hfailure,
            hfound, haccepted, ← List.map_append, List.flatMap_cons, hevents, List.append_assoc,
            Turn.leftBy_cons, houtcome]
          rfl

theorem combined_answeredInTurn (normal : K → κ) (keyOf : Profile → K)
    (members : List (String × Queries σ K)) (keys : List K) (s : σ) :
    ∃ turns, AnsweredInTurn normal keyOf keys members
      ((Queries.combined normal keyOf members).all keys) s turns := by
  obtain ⟨turns, hturns, hrun⟩ :=
    collectMembers_run members [] _ s (Progress.knows_ofKeys normal keyOf keys)
  have hall : ((Queries.combined normal keyOf members).all keys).run s = _ := hrun
  refine ⟨turns, hturns, by rw [hall], by rw [hall], fun f hf => ?_, fun hnone => ?_⟩
  · rw [hall]
    dsimp only
    rw [mergedFrom, hf]
  · refine ⟨_, ?_, firstOfEach_unique _ turns⟩
    rw [hall]
    dsimp only
    rw [mergedFrom, hnone]
    rfl

/-- What comes of a batch that is answered in turns is the first profile of each key. -/
theorem AnsweredInTurn.firstOfEach {members : List (String × Queries σ K)}
    {batch : Lookup σ (List Profile)} {turns : List (Turn σ K)} {ps : List Profile}
    (h : AnsweredInTurn normal keyOf keys members batch s turns)
    (hok : (batch.run s).result = .ok ps) : FirstOfEach (fun p => normal (keyOf p)) turns ps := by
  cases hfailure : turns.findSome? Turn.failure? with
  | some f =>
    rw [h.failed f hfailure] at hok
    cases hok
  | none =>
    obtain ⟨qs, hqs, hfirst⟩ := h.answered hfailure
    rw [hqs] at hok
    rwa [← Except.ok.inj hok]

theorem FirstOfEach.exists_turn {key : Profile → κ} {turns : List (Turn σ K)} {ps : List Profile}
    (h : FirstOfEach key turns ps) {p : Profile} (hp : p ∈ ps) : ∃ t ∈ turns, p ∈ t.found := by
  rw [h.eq_unique] at hp
  exact List.mem_flatMap.mp ((Batch.uniqueFrom_sublist key [] _).subset hp)

/-- **A combination asks its members in turn.** Whatever the members are and answer, and wherever
one fails, a batch by names or by ids gives each member in order just the keys that are open after
those before it, and has of each key the first profile that was given. -/
theorem combined_answers_in_turn (caseSensitive : Bool) (members : List (Source σ)) (s : σ) :
    (∀ names, ∃ turns, AnsweredInTurn (matchingForm caseSensitive) (·.name.text) names
      (members.map fun m => (m.label, m.byName))
      ((Source.combined caseSensitive members).byName.all names) s turns) ∧
    ∀ ids, ∃ turns, AnsweredInTurn id Profile.id ids (members.map fun m => (m.label, m.byId))
      ((Source.combined caseSensitive members).byId.all ids) s turns :=
  ⟨fun names => combined_answeredInTurn _ _ _ names s,
    fun ids => combined_answeredInTurn _ _ _ ids s⟩

end PlayerLookup
