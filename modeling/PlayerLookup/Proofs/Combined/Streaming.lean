import PlayerLookup.Proofs.Cache.History
import PlayerLookup.Proofs.Combined.Leaves
import PlayerLookup.Proofs.Combined.Nesting
import PlayerLookup.Proofs.Foundations.Streaming

/-! Deliveries of a combination beside its batches. If each member streams what it answers in a
batch, so does the combination: its visitor gets the profiles of the batch in their order, and its
members are asked for the same keys in the same order, both up to the stop. -/

set_option autoImplicit false

namespace PlayerLookup

variable {σ τ K κ α : Type} [DecidableEq κ] {normal : K → κ} {keyOf : Profile → K}
  {view : σ → τ} {visitor : Profile → Lookup σ Document}

/-! ## Through a progress -/

namespace Delivery

variable {after closed : α → σ → Prop} {d : Delivery σ α} {s : σ} {ps : List Profile}

theorem Closes.forward (h : d.Closes closed s) {pr : Progress K κ}
    (hstop : pr.stopRequested = true) :
    (pr.forward normal keyOf d).Closes (fun r _ => r.2.stopRequested = true) s := by
  induction h with
  | done _ => exact .done hstop
  | read _ ih => exact .read ih
  | write _ ih => exact .write ih

theorem Streams.forward (h : d.Streams view after closed s ps) (pr : Progress K κ) :
    (pr.forward normal keyOf d).Streams view
      (fun r t => after r.1 t ∧ r.2 = (pr.accept normal keyOf ps).2)
      (fun r _ => r.2.stopRequested = true) s (pr.accept normal keyOf ps).1 := by
  induction h generalizing pr with
  | done h => exact .done ⟨h, rfl⟩
  | read _ ih => exact .read (ih pr)
  | write _ ih => exact .write (ih pr)
  | @give p next s ps _ hstops ih =>
    by_cases hp : normal (keyOf p) ∈ pr.reported
    · rw [Progress.forward_give_reported hp, Progress.accept_reported hp]
      exact ih (.bool true) s (by simp) rfl pr
    · rw [Progress.forward_give_fresh hp, Progress.accept_fresh hp]
      refine .give (fun answer t hne ht => ?_) fun t ht => (hstops t ht).forward rfl
      rw [Progress.answered, Document.stops_eq_false hne]
      exact ih answer t hne ht (pr.marked (normal (keyOf p)))

end Delivery

/-! ## Member by member -/

/-- What a member delivers for the keys still missing, as it is passed on. -/
def Progress.passing (normal : K → κ) (keyOf : Profile → K) (pr : Progress K κ) (q : Queries σ K) :
    Delivery σ (Unit × Progress K κ) :=
  pr.forward normal keyOf (q.visit pr.missing)

theorem Delivery.Streams.passing (normal : K → κ) (keyOf : Profile → K)
    {after closed : Unit → σ → Prop} {q : Queries σ K} {pr : Progress K κ} {s : σ}
    {ps : List Profile} (h : (q.visit pr.missing).Streams view after closed s ps) :
    (pr.passing normal keyOf q).Streams view
      (fun r t => after r.1 t ∧ r.2 = (pr.accept normal keyOf ps).2)
      (fun r _ => r.2.stopRequested = true) s (pr.accept normal keyOf ps).1 := h.forward pr

/-- What a member was asked for while a visitor was served, and the steps of that. -/
structure Stream (σ K : Type) where
  source : Queries σ K
  asked : List K
  steps : List (Delivery.Step σ)

namespace Stream

def call (st : Stream σ K) : Queries σ K × List K := (st.source, st.asked)

def verdict (st : Stream σ K) : Verdict :=
  Verdict.first Handover.verdict (st.steps.filterMap Delivery.Step.handover?)

end Stream

/-- Whom the combination asked in a batch, and for what. -/
def Turn.call (t : Turn σ K) : Queries σ K × List K := (t.source, t.asked)

namespace Queries

/-- The members as they are asked one after the other for a visitor. -/
def streams (normal : K → κ) (keyOf : Profile → K) (visitor : Profile → Lookup σ Document) :
    List (Queries σ K) → Progress K κ → σ → List (Stream σ K)
  | [], _, _ => []
  | q :: rest, pr, s =>
    if pr.isComplete || pr.stopRequested then []
    else
      ⟨q, pr.missing, (pr.passing normal keyOf q).steps visitor s⟩ ::
        match ((pr.passing normal keyOf q).run visitor).run s with
        | ⟨_, t, .ok r⟩ => streams normal keyOf visitor rest r.2 t
        | ⟨_, _, .error _⟩ => []

theorem steps_visitMembers (members : List (Queries σ K)) (pr : Progress K κ) (s : σ) :
    (visitMembers normal keyOf members pr).steps visitor s =
      (streams normal keyOf visitor members pr s).flatMap Stream.steps := by
  induction members generalizing pr s with
  | nil => rfl
  | cons q rest ih =>
    rw [visitMembers, streams]
    by_cases hdone : (pr.isComplete || pr.stopRequested) = true
    · rw [if_pos hdone, if_pos hdone]
      rfl
    · change (if _ then _ else pr.passing normal keyOf q >>= fun r =>
        visitMembers normal keyOf rest r.2 : Delivery σ Unit).steps visitor s = _
      rw [if_neg hdone, if_neg hdone, Delivery.steps_bind]
      rcases ((pr.passing normal keyOf q).run visitor).run s with ⟨events, t, _ | r⟩
      · rfl
      · exact congrArg (_ ++ ·) (ih r.2 t)

end Queries

/-! ## Turns one by one -/

variable {keys : List K} {earlier : List Profile} {s : σ} {m : String × Queries σ K}
  {rest : List (String × Queries σ K)} {turns : List (Turn σ K)}

/-- When no turn failed, either no key was open or the first member had its turn before the others.
-/
theorem InTurn.first_turn (h : InTurn normal keyOf keys earlier s (m :: rest) turns)
    (hnone : turns.findSome? Turn.failure? = none) :
    (turns = [] ∧ openKeys normal keyOf keys earlier = []) ∨
      ∃ t more, turns = t :: more ∧ t.member = m ∧
        t.Follows normal keyOf keys earlier s [] more ∧
        (∃ events u found, t.outcome = ⟨events, u, .ok found⟩) ∧
        more.findSome? Turn.failure? = none ∧
        InTurn normal keyOf keys (earlier ++ t.found) t.outcome.state rest more := by
  cases turns with
  | nil =>
    rcases h.complete hnone with hall | hclosed
    · cases hall
    · exact Or.inl ⟨rfl, by simpa using hclosed⟩
  | cons t more =>
    rw [List.findSome?_cons] at hnone
    cases hfailure : t.failure? with
    | some f =>
      rw [hfailure] at hnone
      cases hnone
    | none =>
      rw [hfailure] at hnone
      obtain ⟨hmember, horder⟩ := List.cons_prefix_cons.mp h.in_order
      refine Or.inr ⟨t, more, rfl, hmember, h.follows [] t more rfl, ?_, hnone, horder, ?_, ?_⟩
      · rcases houtcome : t.outcome with ⟨events, u, result⟩
        rw [Turn.failure?, houtcome] at hfailure
        cases result with
        | ok found => exact ⟨events, u, found, rfl⟩
        | error f => cases hfailure
      · intro before t' after hsplit
        obtain ⟨hasked, hne, houtcome, hlast⟩ :=
          h.follows (t :: before) t' after (by rw [hsplit]; rfl)
        refine ⟨?_, hne, houtcome, hlast⟩
        rw [hasked, List.flatMap_cons, List.append_assoc]
      · intro hmore
        have hcomplete := h.complete (by rw [List.findSome?_cons, hfailure]; exact hmore)
        rw [List.map_cons, List.flatMap_cons, ← List.append_assoc] at hcomplete
        rcases hcomplete with hall | hclosed
        · exact Or.inl (List.cons.inj hall).2
        · exact Or.inr hclosed

/-! ## Deliveries beside batches -/

namespace Queries

/-- A visit by a progress beside the turns that members take by it and the profiles accepted. -/
structure StreamedAs (normal : K → κ) (keyOf : Profile → K)
    (visitor : Profile → Lookup σ Document) (members : List (Queries σ K)) (pr : Progress K κ)
    (u : σ) (turns : List (Turn σ K)) (ps : List Profile) : Prop where
  given : UpToStop Handover.verdict (·.profile)
    ((visitMembers normal keyOf members pr).handovers visitor u) ps
  asked : UpToStop Stream.verdict Stream.call (streams normal keyOf visitor members pr u)
    (turns.map Turn.call)
  ends : (∀ h ∈ (visitMembers normal keyOf members pr).handovers visitor u, h.verdict ≠ .fails) →
    (((visitMembers normal keyOf members pr).run visitor).run u).result = .ok ()

theorem streams_over {pr : Progress K κ} (h : (pr.isComplete || pr.stopRequested) = true)
    (members : List (Queries σ K)) (u : σ) : streams normal keyOf visitor members pr u = [] := by
  cases members with
  | nil => rfl
  | cons q rest => rw [streams, if_pos h]

theorem streamedAs_complete {pr : Progress K κ} (h : pr.isComplete = true)
    (members : List (Queries σ K)) (u : σ) :
    StreamedAs normal keyOf visitor members pr u [] [] := by
  have hdone : (pr.isComplete || pr.stopRequested) = true := by rw [h, Bool.true_or]
  refine ⟨?_, ?_, fun _ => by rw [visitMembers_over hdone]; rfl⟩
  · rw [visitMembers_over hdone]
    exact .nil
  · rw [streams_over hdone]
    exact .nil

section Cons

variable {q : Queries σ K} {rest : List (Queries σ K)} {pr : Progress K κ} {u v : σ}
  {events : List Event} (hopen : ¬ (pr.isComplete || pr.stopRequested) = true)
include hopen

theorem visitMembers_cons : visitMembers normal keyOf (q :: rest) pr =
    pr.passing normal keyOf q >>= fun r =>
      visitMembers normal keyOf rest r.2 := by
  rw [visitMembers, if_neg hopen]
  rfl

theorem streams_cons_ok {r : Unit × Progress K κ}
    (hrun : ((pr.passing normal keyOf q).run visitor).run u =
      ⟨events, v, .ok r⟩) :
    streams normal keyOf visitor (q :: rest) pr u =
      ⟨q, pr.missing, (pr.passing normal keyOf q).steps visitor u⟩ ::
        streams normal keyOf visitor rest r.2 v := by
  rw [streams, if_neg hopen, hrun]

theorem streams_cons_error {e : Failure}
    (hrun : ((pr.passing normal keyOf q).run visitor).run u =
      ⟨events, v, .error e⟩) :
    streams normal keyOf visitor (q :: rest) pr u =
      [⟨q, pr.missing, (pr.passing normal keyOf q).steps visitor u⟩] := by
  rw [streams, if_neg hopen, hrun]

variable {t : Turn σ K} {turns : List (Turn σ K)} {given more : List Profile}
  (hcall : t.call = (q, pr.missing))
include hcall

theorem StreamedAs.goesOn {r : Unit × Progress K κ}
    (hrun : ((pr.passing normal keyOf q).run visitor).run u =
      ⟨events, v, .ok r⟩)
    (hgiven : UpToStop Handover.verdict (·.profile)
      ((pr.passing normal keyOf q).handovers visitor u) given)
    (hverdict : Verdict.first Handover.verdict
      ((pr.passing normal keyOf q).handovers visitor u) = .goesOn)
    (hrest : StreamedAs normal keyOf visitor rest r.2 v turns more) :
    StreamedAs normal keyOf visitor (q :: rest) pr u (t :: turns) (given ++ more) where
  given := by
    rw [visitMembers_cons hopen, Delivery.handovers_bind_ok visitor hrun]
    exact hgiven.append hverdict hrest.given
  asked := by
    rw [streams_cons_ok hopen hrun, List.map_cons, hcall]
    exact .goesOn hverdict hrest.asked
  ends hall := by
    rw [visitMembers_cons hopen, Delivery.handovers_bind_ok visitor hrun] at hall
    rw [visitMembers_cons hopen, Delivery.run_bind, Lookup.run_bind_ok hrun]
    exact hrest.ends fun h hh => hall h (List.mem_append_right _ hh)

theorem StreamedAs.stopped {r : Unit × Progress K κ} (hstop : r.2.stopRequested = true)
    (hrun : ((pr.passing normal keyOf q).run visitor).run u =
      ⟨events, v, .ok r⟩)
    (hgiven : UpToStop Handover.verdict (·.profile)
      ((pr.passing normal keyOf q).handovers visitor u) given)
    (hverdict : Verdict.first Handover.verdict
      ((pr.passing normal keyOf q).handovers visitor u) = .stops) :
    StreamedAs normal keyOf visitor (q :: rest) pr u (t :: turns) (given ++ more) := by
  have hover : (r.2.isComplete || r.2.stopRequested) = true := by rw [hstop, Bool.or_true]
  have hnone : (pure () : Delivery σ Unit).handovers visitor v = [] := rfl
  refine ⟨?_, ?_, fun _ => ?_⟩
  · rw [visitMembers_cons hopen, Delivery.handovers_bind_ok visitor hrun,
      visitMembers_over hover, hnone, List.append_nil]
    exact hgiven.append_right hverdict more
  · rw [streams_cons_ok hopen hrun, streams_over hover, List.map_cons, hcall]
    exact .stopped _ hverdict
  · rw [visitMembers_cons hopen, Delivery.run_bind, Lookup.run_bind_ok hrun,
      visitMembers_over hover]
    rfl

theorem StreamedAs.failed
    (hgiven : UpToStop Handover.verdict (·.profile)
      ((pr.passing normal keyOf q).handovers visitor u) given)
    (hverdict : Verdict.first Handover.verdict
      ((pr.passing normal keyOf q).handovers visitor u) = .fails) :
    StreamedAs normal keyOf visitor (q :: rest) pr u (t :: turns) (given ++ more) := by
  obtain ⟨after, hafter⟩ : ∃ after,
      (visitMembers normal keyOf (q :: rest) pr).handovers visitor u =
        (pr.passing normal keyOf q).handovers visitor u ++ after := by
    rw [visitMembers_cons hopen]
    rcases hrun : ((pr.passing normal keyOf q).run visitor).run u with
      ⟨events, v, _ | r⟩
    · exact ⟨[], by rw [Delivery.handovers_bind_error visitor hrun, List.append_nil]⟩
    · exact ⟨_, Delivery.handovers_bind_ok visitor hrun _⟩
  refine ⟨?_, ?_, fun hall => ?_⟩
  · rw [hafter]
    exact hgiven.append_failed hverdict after more
  · rw [List.map_cons, hcall]
    rcases hrun : ((pr.passing normal keyOf q).run visitor).run u with
      ⟨events, v, _ | r⟩
    · rw [streams_cons_error hopen hrun]
      exact .failed _ _ hverdict
    · rw [streams_cons_ok hopen hrun]
      exact .failed _ _ hverdict
  · obtain ⟨h, hh, hfails⟩ := Verdict.exists_of_first hverdict
    rw [hafter] at hall
    exact absurd hfails (hall h (List.mem_append_left after hh))

theorem streamedAs_cons {s : σ} {ps : List Profile}
    (hstreams : (q.visit pr.missing).Streams view (fun _ v => view v = view s) (fun _ _ => True)
      u ps)
    (hvisitor : ∀ p s, view ((visitor p).run s).state = view s)
    (hrest : ∀ v, view v = view s →
      StreamedAs normal keyOf visitor rest (pr.accept normal keyOf ps).2 v turns more) :
    StreamedAs normal keyOf visitor (q :: rest) pr u (t :: turns)
      ((pr.accept normal keyOf ps).1 ++ more) := by
  obtain ⟨hgiven, hend⟩ := (hstreams.passing normal keyOf).run hvisitor
  rcases hrun : ((pr.passing normal keyOf q).run visitor).run u with
    ⟨events, v, result⟩
  rw [hrun] at hend
  cases hverdict : Verdict.first Handover.verdict
      ((pr.passing normal keyOf q).handovers visitor u) with
  | goesOn =>
    rw [hverdict] at hend
    obtain ⟨r, rfl, hview, hr⟩ := hend
    refine StreamedAs.goesOn hopen hcall hrun hgiven hverdict ?_
    rw [hr]
    exact hrest v hview
  | stops =>
    rw [hverdict] at hend
    obtain ⟨r, rfl, hstop⟩ := hend
    exact StreamedAs.stopped hopen hcall hstop hrun hgiven hverdict
  | fails => exact StreamedAs.failed hopen hcall hgiven hverdict

end Cons

theorem streamedAs_of_inTurn (hvisitor : ∀ p s, view ((visitor p).run s).state = view s)
    (members : List (String × Queries σ K)) (hmembers : ∀ m ∈ members, m.2.StreamsBatches view) :
    ∀ earlier pr s u turns, pr.Knows normal keyOf keys earlier → pr.stopRequested = false →
      InTurn normal keyOf keys earlier s members turns →
      turns.findSome? Turn.failure? = none → view u = view s →
      StreamedAs normal keyOf visitor (members.map Prod.snd) pr u turns
        (Batch.uniqueFrom (fun p => normal (keyOf p)) (earlier.map fun p => normal (keyOf p))
          (turns.flatMap Turn.found)) := by
  -- By induction on the members; what the progress knows stands for the turns already taken.
  induction members with
  | nil =>
    intro earlier pr s u turns _ _ hturns _ _
    obtain rfl : turns = [] := List.map_eq_nil_iff.mp (List.prefix_nil.mp hturns.in_order)
    exact ⟨.nil, .nil, fun _ => rfl⟩
  | cons m rest ih =>
    intro earlier pr s u turns hknows hgoing hturns hnone hview
    obtain ⟨rfl, hclosed⟩ | ⟨t, more, rfl, hmember, hfollows, ⟨events, v, found, houtcome⟩, hmore,
      hturns'⟩ := hturns.first_turn hnone
    · exact streamedAs_complete (hknows.isComplete_iff.mpr hclosed) _ u
    · have hasked : t.asked = pr.missing := by
        rw [hknows.missing_eq, hfollows.asked_eq, List.flatMap_nil, List.append_nil]
      have hopen : ¬ (pr.isComplete || pr.stopRequested) = true := by
        rw [hgoing, Bool.or_false, hknows.isComplete_iff, ← hknows.missing_eq, ← hasked]
        exact hfollows.asked_ne_nil
      have hfound : t.found = found := by rw [Turn.found, houtcome]; rfl
      have hsource : t.source = m.2 := congrArg Prod.snd hmember
      have hrun : (m.2.all pr.missing).run s = ⟨events, v, .ok found⟩ := by
        rw [← hsource, ← hasked, ← houtcome]
        exact hfollows.outcome_eq.symm
      have hstreams := hmembers m List.mem_cons_self pr.missing s u found hview (by rw [hrun])
      rw [hrun] at hstreams
      obtain ⟨haccepted, hknows'⟩ := hknows.accept found
      rw [List.flatMap_cons, Batch.uniqueFrom_append, hfound, ← haccepted, ← List.map_append]
      rw [hfound, houtcome] at hturns'
      have hcall : t.call = (m.2, pr.missing) := by rw [Turn.call, hsource, hasked]
      refine streamedAs_cons hopen hcall hstreams hvisitor fun w hw => ?_
      refine ih (fun m' hm' => hmembers m' (List.mem_cons_of_mem m hm')) _ _ v w more hknows' ?_
        hturns' hmore hw
      rw [Progress.stopRequested_accept, hgoing]

end Queries

/-- A visit from one state beside a batch from another one. In the batch the members take turns; up
to a stop the visitor gets the profiles of its answer, and the members are asked for what they were
asked for in their turns. If the visitor does not fail, neither does the visit. -/
structure StreamsAnswered (normal : K → κ) (keyOf : Profile → K) (keys : List K)
    (members : List (String × Queries σ K)) (visitor : Profile → Lookup σ Document) (s u : σ)
    (turns : List (Turn σ K)) (streams : List (Stream σ K)) (ps : List Profile) : Prop where
  batch : AnsweredInTurn normal keyOf keys members
    ((Queries.combined normal keyOf members).all keys) s turns
  streams_eq : streams = Queries.streams normal keyOf visitor (members.map Prod.snd)
    (Progress.ofKeys normal keys) u
  steps_eq : ((Queries.combined normal keyOf members).visit keys).steps visitor u =
    streams.flatMap Stream.steps
  asked : UpToStop Stream.verdict Stream.call streams (turns.map Turn.call)
  given : UpToStop Handover.verdict (·.profile)
    (((Queries.combined normal keyOf members).visit keys).handovers visitor u) ps
  ends : (∀ h ∈ ((Queries.combined normal keyOf members).visit keys).handovers visitor u,
      h.verdict ≠ .fails) →
    ((((Queries.combined normal keyOf members).visit keys).run visitor).run u).result = .ok ()

theorem combined_streamsAnswered (hvisitor : ∀ p s, view ((visitor p).run s).state = view s)
    {members : List (String × Queries σ K)} (hmembers : ∀ m ∈ members, m.2.StreamsBatches view)
    {s u : σ} (hview : view u = view s) {ps : List Profile}
    (hps : (((Queries.combined normal keyOf members).all keys).run s).result = .ok ps) :
    ∃ turns streams, StreamsAnswered normal keyOf keys members visitor s u turns streams ps := by
  obtain ⟨turns, hbatch⟩ := combined_answeredInTurn normal keyOf members keys s
  have hnone : turns.findSome? Turn.failure? = none := by
    cases hf : turns.findSome? Turn.failure? with
    | none => rfl
    | some f =>
      have herror := hbatch.failed f hf
      rw [hps] at herror
      cases herror
  obtain ⟨ps', hps', hfirst⟩ := hbatch.answered hnone
  rw [hps] at hps'
  obtain rfl := Except.ok.inj hps'
  have hvisit : Queries.StreamedAs normal keyOf visitor (members.map Prod.snd)
      (Progress.ofKeys normal keys) u turns ps := by
    rw [hfirst.eq_unique]
    exact Queries.streamedAs_of_inTurn hvisitor members hmembers [] _ s u turns
      (Progress.knows_ofKeys normal keyOf keys) rfl hbatch.in_turn hnone hview
  exact ⟨turns, _, hbatch, rfl, Queries.steps_visitMembers _ _ u, hvisit.asked, hvisit.given,
    hvisit.ends⟩

/-- **A combination streams its batches.** Let all members stream what they answer in batches, and
let the visitor leave what they look at alone. Then from every state that looks like the one in
which a batch of names or of ids has an answer, the visitor gets that answer in order up to the
profile that it stops at, and no member is asked for anything after the stop, and before it for just
the keys that it is asked for in the batch. -/
theorem combined_streams_its_batches (caseSensitive : Bool) (members : List (Source σ))
    (hvisitor : ∀ p s, view ((visitor p).run s).state = view s) {s u : σ}
    (hview : view u = view s) :
    ((∀ m ∈ members, m.byName.StreamsBatches view) → ∀ names ps,
      (((Source.combined caseSensitive members).byName.all names).run s).result = .ok ps →
      ∃ turns streams, StreamsAnswered (matchingForm caseSensitive) (·.name.text) names
        (members.map fun m => (m.label, m.byName)) visitor s u turns streams ps) ∧
    ((∀ m ∈ members, m.byId.StreamsBatches view) → ∀ ids ps,
      (((Source.combined caseSensitive members).byId.all ids).run s).result = .ok ps →
      ∃ turns streams, StreamsAnswered id Profile.id ids (members.map fun m => (m.label, m.byId))
        visitor s u turns streams ps) := by
  refine ⟨fun hmembers names ps hps => ?_, fun hmembers ids ps hps => ?_⟩
  · refine combined_streamsAnswered hvisitor (fun m hm => ?_) hview hps
    obtain ⟨source, hsource, rfl⟩ := List.mem_map.mp hm
    exact hmembers source hsource
  · refine combined_streamsAnswered hvisitor (fun m hm => ?_) hview hps
    obtain ⟨source, hsource, rfl⟩ := List.mem_map.mp hm
    exact hmembers source hsource

/-! ## Sources that stream -/

theorem Source.streamsBatches_localMap (cell : Cell σ LocalMap) :
    (Source.localMap cell).byName.StreamsBatches cell.get ∧
      (Source.localMap cell).byId.StreamsBatches cell.get :=
  ⟨Queries.streamsBatches_ofOne fun _ => (Lookup.dependsOn_read id).bind fun _ =>
      Lookup.dependsOn_pure _,
    Queries.streamsBatches_ofOne fun _ => (Lookup.dependsOn_read id).bind fun _ =>
      Lookup.dependsOn_pure _⟩

theorem Source.streamsBatches_host {r : Registry σ} (hid : ∀ name, (r.idOf name).DependsOn view)
    (hname : ∀ id, (r.nameOf id).DependsOn view) :
    (Source.host r).byName.StreamsBatches view ∧ (Source.host r).byId.StreamsBatches view :=
  ⟨Queries.streamsBatches_ofOne (Registry.dependsOn_findName hid hname),
    Queries.streamsBatches_ofOne (Registry.dependsOn_findId hname)⟩

/-! ## A stop at the second of three members -/

namespace Relay

def state : List Profile × LocalMap :=
  ([], LocalMap.empty.putAll [⟨⟨3⟩, .cedar⟩, ⟨⟨2⟩, .birch⟩, ⟨⟨1⟩, .birch⟩])

def members : List (Source (List Profile × LocalMap)) :=
  [.host (.fixed (fun _ => none) fun id => if id = ⟨1⟩ then some "Ash" else none),
    .localMap .second,
    .host (.fixed (fun _ => none) fun id => if id = ⟨4⟩ then some "Cedar" else none)]

def note (p : Profile) : Lookup (List Profile × LocalMap) Document := do
  Cell.first.modify (· ++ [p])
  return if p.id = ⟨3⟩ then .bool false else .null

theorem note_leaves (p : Profile) (s : List Profile × LocalMap) :
    ((note p).run s).state.2 = s.2 := rfl

theorem streams_fixed (nameOf : PlayerId → Option String) :
    (Source.host (.fixed (fun _ => none) nameOf) :
      Source (List Profile × LocalMap)).byId.StreamsBatches Prod.snd :=
  (Source.streamsBatches_host (fun _ => Lookup.dependsOn_pure _)
    fun _ => Lookup.dependsOn_pure _).2

theorem streamsBatches : ∀ m ∈ members, m.byId.StreamsBatches Prod.snd := by
  intro m hm
  simp only [members, List.mem_cons, List.not_mem_nil, or_false] at hm
  rcases hm with rfl | rfl | rfl
  · exact streams_fixed _
  · exact (Source.streamsBatches_localMap .second).2
  · exact streams_fixed _

theorem answer_eq :
    (((Source.combined false members).byId.all [⟨2⟩, ⟨3⟩, ⟨1⟩, ⟨4⟩]).run state).result =
      .ok [⟨⟨1⟩, .ash⟩, ⟨⟨2⟩, .birch⟩, ⟨⟨3⟩, .cedar⟩, ⟨⟨4⟩, .cedar⟩] :=
  Except.eq_ok_of_toOption (by decide +kernel)

end Relay

/-- The batch has four profiles of three members, the visitor gets three of two. -/
theorem combined_streams_its_batches_relay :
    (∀ m ∈ Relay.members, m.byId.StreamsBatches Prod.snd) ∧
      (∃ turns streams, StreamsAnswered id Profile.id [⟨2⟩, ⟨3⟩, ⟨1⟩, ⟨4⟩]
        (Relay.members.map fun m => (m.label, m.byId)) Relay.note Relay.state Relay.state
        turns streams [⟨⟨1⟩, .ash⟩, ⟨⟨2⟩, .birch⟩, ⟨⟨3⟩, .cedar⟩, ⟨⟨4⟩, .cedar⟩]) ∧
      (((Source.combined false Relay.members).byId.visit [⟨2⟩, ⟨3⟩, ⟨1⟩, ⟨4⟩]).handovers
        Relay.note Relay.state).map (·.profile) =
          [⟨⟨1⟩, .ash⟩, ⟨⟨2⟩, .birch⟩, ⟨⟨3⟩, .cedar⟩] :=
  ⟨Relay.streamsBatches,
    (combined_streams_its_batches false Relay.members Relay.note_leaves rfl).2
      Relay.streamsBatches _ _ Relay.answer_eq,
    by decide +kernel⟩

end PlayerLookup
