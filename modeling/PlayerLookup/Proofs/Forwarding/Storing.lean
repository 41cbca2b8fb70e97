import PlayerLookup.Proofs.Cache.History
import PlayerLookup.Proofs.Combined.Leaves
import PlayerLookup.Proofs.Forwarding.Unaware
import PlayerLookup.Proofs.Pipeline.Stored

/-! A source that stores what another one finds, beside the other one asked directly. To those who
ask it makes no difference, even if the cache fails; the cache is given each profile before those
who ask are. -/

set_option autoImplicit false

namespace PlayerLookup

variable {σ ω τ K α : Type}

/-! ## Caches with a record of their calls -/

/-- The calls that put profiles into a cache: none for no profile. -/
def Cache.callsFor (ps : List Profile) : List (List Profile) := if ps.isEmpty then [] else [ps]

/-- Whether it fails or not, the cache writes down what it is given and leaves the rest as it is;
its failures may be caught. -/
structure Cache.Recorded (calls : Cell σ (List (List Profile))) (rest : σ → τ) (c : Cache σ) :
    Prop where
  call : ∀ ps s, calls.get ((c.putAll ps).run s).state = calls.get s ++ [ps]
  apart : ∀ ps s, rest ((c.putAll ps).run s).state = rest s
  ordinary : ∀ ps s f, ((c.putAll ps).run s).result = .error f → f.isOrdinary = true

variable {calls : Cell σ (List (List Profile))} {rest : σ → τ} {c : Cache σ}

theorem Cache.Recorded.keep_run (h : c.Recorded calls rest) (ps : List Profile) (s : σ) :
    ∃ events t, (c.keep ps).run s = ⟨events, t, .ok ()⟩ ∧ rest t = rest s ∧
      calls.get t = calls.get s ++ callsFor ps := by
  unfold Cache.keep callsFor
  by_cases hempty : ps.isEmpty = true
  · rw [if_pos hempty, if_pos hempty, List.append_nil]
    exact ⟨[], s, rfl, rfl, rfl⟩
  · rw [if_neg hempty, if_neg hempty]
    have hcall := h.call ps s
    have hrest := h.apart ps s
    rcases hput : (c.putAll ps).run s with ⟨events, t, result⟩
    rw [hput] at hcall hrest
    cases result with
    | ok _ => exact ⟨events, t, Lookup.rescue_run_ok hput, hrest, hcall⟩
    | error f =>
      refine ⟨_, t, Lookup.rescue_run_ordinary hput ?_, hrest, hcall⟩
      exact h.ordinary ps s f (by rw [hput])

/-! ## One key and batches -/

/-- The first run, begun from a state, is as good as the second one, and the cache was given what
was found. -/
structure Run.StoredThrough (calls : Cell σ (List (List Profile))) (rest : σ → τ)
    (found : α → List Profile) (s : σ) (r r' : Run σ α) : Prop where
  result_eq : r.result = r'.result
  rest_eq : rest r.state = rest r'.state
  calls_eq : calls.get r.state =
    calls.get s ++ Cache.callsFor ((r'.result.toOption.map found).getD [])

theorem Lookup.Unaware.storedThrough {m : Lookup σ α} (hm : m.Unaware calls rest)
    (hc : c.Recorded calls rest) (found : α → List Profile) {s u : σ} (h : rest s = rest u) :
    ((do
      let a ← m
      c.keep (found a)
      return a : Lookup σ α).run s).StoredThrough calls rest found s (m.run u) := by
  obtain ⟨hresult, hrest⟩ := hm.depends u s h
  have hleaves := hm.leaves s
  rcases hrun : m.run s with ⟨events, t, result⟩
  rw [hrun] at hresult hrest hleaves
  dsimp only at hresult hrest hleaves
  cases result with
  | error f =>
    rw [Lookup.run_bind_error hrun]
    refine ⟨hresult, hrest, ?_⟩
    rw [← hresult, hleaves]
    exact (List.append_nil _).symm
  | ok a =>
    obtain ⟨more, v, hkeep, hv, hcalls⟩ := hc.keep_run (found a) t
    rw [Lookup.run_bind_ok hrun, Lookup.run_bind_ok hkeep]
    refine ⟨hresult, hv.trans hrest, ?_⟩
    rw [← hresult]
    change calls.get v = _
    rw [hcalls, hleaves]
    rfl

/-! ## Deliveries -/

/-- The visitor that has the profile stored before it visits. -/
def Cache.storing (c : Cache σ) (visitor : Profile → Lookup σ Document) (p : Profile) :
    Lookup σ Document := do
  c.keep [p]
  visitor p

/-- The result of a run and the state that it left. -/
def Run.ending (r : Run σ α) : Except Failure α × σ := (r.result, r.state)

/-- Between the state at first, the visits and the state at last the cache is called once for each
visit, just before it, with the profile that is handed over, and not at all besides. -/
inductive CalledBefore (calls : Cell σ (List (List Profile))) :
    σ → List (Handover σ) → σ → Prop where
  | nil {s t : σ} (h : calls.get t = calls.get s) : CalledBefore calls s [] t
  | cons {s t : σ} {h : Handover σ} {hs : List (Handover σ)}
      (call : calls.get h.before = calls.get s ++ [[h.profile]])
      (more : CalledBefore calls h.outcome.state hs t) : CalledBefore calls s (h :: hs) t

/-- The visits went alike: in both the visitor gave the same answer and left the same rest. -/
structure Handover.AnsweredLike (rest : σ → τ) (h h' : Handover σ) : Prop where
  result_eq : h.outcome.result = h'.outcome.result
  rest_eq : rest h.outcome.state = rest h'.outcome.state

/-- Two calls go along with each other: they hand over the same profiles and end alike, if it does
not happen that the visitor itself treats a profile differently. -/
inductive Alongside (rest : σ → τ) :
    List (Handover σ) → Except Failure α × σ → List (Handover σ) → Except Failure α × σ → Prop where
  | ended {result : Except Failure α} {t v : σ} (same : rest t = rest v) :
      Alongside rest [] (result, t) [] (result, v)
  | parted {h h' : Handover σ} {hs hs' : List (Handover σ)} {e e' : Except Failure α × σ}
      (profile_eq : h.profile = h'.profile) (same : rest h.before = rest h'.before)
      (differ : ¬ h.AnsweredLike rest h') : Alongside rest (h :: hs) e (h' :: hs') e'
  | together {h h' : Handover σ} {hs hs' : List (Handover σ)} {e e' : Except Failure α × σ}
      (profile_eq : h.profile = h'.profile) (same : rest h.before = rest h'.before)
      (alike : h.AnsweredLike rest h') (more : Alongside rest hs e hs' e') :
      Alongside rest (h :: hs) e (h' :: hs') e'

theorem Alongside.same {hs hs' : List (Handover σ)} {e e' : Except Failure α × σ}
    (halong : Alongside rest hs e hs' e')
    (h : ∀ g ∈ hs, ∀ g' ∈ hs', g.profile = g'.profile → rest g.before = rest g'.before →
      g.AnsweredLike rest g') :
    hs.map Handover.exchange = hs'.map Handover.exchange ∧ e.1 = e'.1 ∧ rest e.2 = rest e'.2 := by
  induction halong with
  | ended same => exact ⟨rfl, rfl, same⟩
  | parted profile_eq same differ =>
    exact absurd (h _ List.mem_cons_self _ List.mem_cons_self profile_eq same) differ
  | @together g g' hs hs' e e' profile_eq same alike _ ih =>
    obtain ⟨hmap, hend⟩ := ih fun k hk k' hk' =>
      h k (List.mem_cons_of_mem g hk) k' (List.mem_cons_of_mem g' hk')
    refine ⟨?_, hend⟩
    rw [List.map_cons, List.map_cons, hmap, Handover.exchange, profile_eq, alike.result_eq]
    rfl

theorem CalledBefore.of_eq {s s' t : σ} {hs : List (Handover σ)} (h : CalledBefore calls s hs t)
    (heq : calls.get s = calls.get s') : CalledBefore calls s' hs t := by
  cases h with
  | nil h => exact .nil (h.trans heq)
  | cons call more => exact .cons (by rw [call, heq]) more

theorem CalledBefore.calls_eq {s t : σ} {hs : List (Handover σ)} (h : CalledBefore calls s hs t)
    (hvisits : ∀ g ∈ hs, calls.get g.outcome.state = calls.get g.before) :
    calls.get t = calls.get s ++ hs.map fun g => [g.profile] := by
  induction h with
  | nil h => rw [h, List.map_nil, List.append_nil]
  | @cons s t g hs call _ ih =>
    rw [ih fun k hk => hvisits k (List.mem_cons_of_mem g hk), hvisits g List.mem_cons_self, call,
      List.map_cons, List.append_assoc, List.singleton_append]

namespace Delivery

variable (visitor : Profile → Lookup σ Document)

/-- What is left to do with a profile after the attempt to store it. -/
def onceKept (p : Profile) (next : Except Failure Document → Delivery σ α) :
    Except Failure Unit → Delivery σ α
  | .ok _ => .give p next
  | .error f => next (.error f)

theorem keeping_give (c : Cache σ) (p : Profile) (next : Except Failure Document → Delivery σ α) :
    (give p next).keeping c = .read fun s =>
      .write ((c.keep [p]).run s).events ((c.keep [p]).run s).state
        (onceKept p (fun answer => (next answer).keeping c) ((c.keep [p]).run s).result) := by
  rw [keeping]
  rfl

theorem run_keeping (c : Cache σ) (d : Delivery σ α) :
    (d.keeping c).run visitor = d.run (c.storing visitor) := by
  induction d with
  | done result => rfl
  | read next ih =>
    funext s
    exact congrFun (ih s) s
  | write events t next ih => rw [keeping, run_write, run_write, ih]
  | give p next ih =>
    funext s
    rw [keeping_give]
    change ((write ((c.keep [p]).run s).events ((c.keep [p]).run s).state (onceKept p
        (fun answer => (next answer).keeping c) ((c.keep [p]).run s).result)).run visitor).run s =
      ((give p next).run (c.storing visitor)).run s
    rw [run_write_run]
    -- If the keeping fails its failure is what the source hears in place of an answer.
    rcases hkeep : (c.keep [p]).run s with ⟨events, t, result⟩
    cases result with
    | error f =>
      have hstoring : (c.storing visitor p).run s = ⟨events, t, .error f⟩ :=
        Lookup.run_bind_error hkeep _
      rw [run_give_of_visit _ hstoring, ← ih]
      rfl
    | ok _ =>
      rcases hvisit : (visitor p).run t with ⟨more, u, answer⟩
      have hstoring : (c.storing visitor p).run s = ⟨events ++ more, u, answer⟩ := by
        rw [Cache.storing, Lookup.run_bind_ok hkeep, hvisit]
      rw [run_give_of_visit _ hstoring, ← ih, onceKept, run_give_of_visit _ hvisit,
        List.append_assoc]

section Kept

variable {p : Profile} {s t : σ} {events : List Event}
  (hkeep : (c.keep [p]).run s = ⟨events, t, .ok ()⟩)
include hkeep

theorem handovers_keeping_give (next : Except Failure Document → Delivery σ α) :
    ((give p next).keeping c).handovers visitor s =
      ⟨p, t, (visitor p).run t⟩ ::
        ((next ((visitor p).run t).result).keeping c).handovers visitor
          ((visitor p).run t).state := by
  rw [keeping_give]
  change (onceKept p _ ((c.keep [p]).run s).result).handovers visitor
    ((c.keep [p]).run s).state = _
  rw [hkeep]
  rfl

theorem ending_keeping_give (next : Except Failure Document → Delivery σ α) :
    ((((give p next).keeping c).run visitor).run s).ending =
      ((((next ((visitor p).run t).result).keeping c).run visitor).run
        ((visitor p).run t).state).ending := by
  rw [keeping_give]
  change (((onceKept p _ ((c.keep [p]).run s).result).run visitor).run
    ((c.keep [p]).run s).state).ending = _
  rw [hkeep]
  rfl

end Kept

/-- What the source hears from the visitor is what the visitor says to those it is handed to. -/
theorem exchanges_storing (hc : c.Recorded calls rest) (d : Delivery σ α) (s : σ) :
    (d.handovers (c.storing visitor) s).map Handover.exchange =
      ((d.keeping c).handovers visitor s).map Handover.exchange := by
  induction d generalizing s with
  | done result => rfl
  | read next ih => exact ih s s
  | write events t next ih => exact ih t
  | give p next ih =>
    obtain ⟨events, t, hkeep, -⟩ := hc.keep_run [p] s
    have hstoring : (c.storing visitor p).run s = ⟨events ++ ((visitor p).run t).events,
        ((visitor p).run t).state, ((visitor p).run t).result⟩ := by
      rw [Cache.storing, Lookup.run_bind_ok hkeep]
    rw [handovers_give, handovers_keeping_give visitor hkeep, hstoring, List.map_cons,
      List.map_cons, ih]
    rfl

variable {d d' : Delivery σ α} {s u : σ}

theorem Unaware.calledBefore (h : d.Unaware calls rest s d' u) (hc : c.Recorded calls rest) :
    CalledBefore calls s ((d.keeping c).handovers visitor s)
      (((d.keeping c).run visitor).run s).state := by
  induction h with
  | done result _ => exact .nil rfl
  | readLeft _ ih => exact ih
  | readRight _ ih => exact ih
  | writeLeft leaves _ ih => exact ih.of_eq leaves
  | writeRight _ _ ih => exact ih
  | @give p next next' s u _ _ ih =>
    obtain ⟨events, t, hkeep, -, hcalls⟩ := hc.keep_run [p] s
    have hend : ((((Delivery.give p next).keeping c).run visitor).run s).state = _ :=
      congrArg Prod.snd (ending_keeping_give visitor hkeep next)
    rw [handovers_keeping_give visitor hkeep, hend]
    exact .cons hcalls (ih _ _ _ rfl)

theorem Unaware.alongside (h : d.Unaware calls rest s d' u) (hc : c.Recorded calls rest) :
    Alongside rest ((d.keeping c).handovers visitor s) (((d.keeping c).run visitor).run s).ending
      (d'.handovers visitor u) ((d'.run visitor).run u).ending := by
  -- Looks and writes are no handovers. At a handover the keeping comes first, and that changes only
  -- what the two calls do not share.
  induction h with
  | done result same => exact .ended same
  | readLeft _ ih => exact ih
  | readRight _ ih => exact ih
  | writeLeft _ _ ih => exact ih
  | writeRight _ _ ih => exact ih
  | @give p next next' s u same _ ih =>
    obtain ⟨events, t, hkeep, hrest, -⟩ := hc.keep_run [p] s
    rw [handovers_keeping_give visitor hkeep, ending_keeping_give visitor hkeep, handovers_give]
    by_cases halike : (⟨p, t, (visitor p).run t⟩ : Handover σ).AnsweredLike rest
        ⟨p, u, (visitor p).run u⟩
    · have hresult : ((visitor p).run t).result = ((visitor p).run u).result := halike.result_eq
      refine .together rfl (hrest.trans same) halike ?_
      change Alongside rest _ _ ((next' ((visitor p).run u).result).handovers visitor _)
        (((next' ((visitor p).run u).result).run visitor).run _).ending
      rw [← hresult]
      exact ih _ _ _ halike.rest_eq
    · exact .parted rfl (hrest.trans same) halike

theorem outcome_of_mem_handovers {d : Delivery σ α} {s : σ} {h : Handover σ}
    (hmem : h ∈ d.handovers visitor s) : h.outcome = (visitor h.profile).run h.before := by
  induction d generalizing s with
  | done result => exact absurd hmem List.not_mem_nil
  | read next ih => exact ih s hmem
  | write events t next ih => exact ih hmem
  | give p next ih =>
    rw [handovers_give] at hmem
    rcases List.mem_cons.mp hmem with rfl | hmem
    · rfl
    · exact ih _ hmem

end Delivery

/-! ## The source that stores, beside the source itself -/

/-- A call that stores beside a direct one, with the same visitor, from states with the same rest.
Whoever gives the profiles hears from the visitor what it says; the cache is called for each profile
just before the visitor gets it; and if the visitor does not treat a profile differently in the two
calls, neither do they differ. -/
structure Delivery.GivesThrough (calls : Cell σ (List (List Profile))) (rest : σ → τ)
    (c : Cache σ) (visitor : Profile → Lookup σ Document) (storing direct : Delivery σ Unit)
    (s u : σ) : Prop where
  run_eq : storing.run visitor = direct.run (c.storing visitor)
  heard : (direct.handovers (c.storing visitor) s).map Handover.exchange =
    (storing.handovers visitor s).map Handover.exchange
  stored : CalledBefore calls s (storing.handovers visitor s) ((storing.run visitor).run s).state
  stored_all : (∀ p, (visitor p).LeavesAlone calls) →
    calls.get ((storing.run visitor).run s).state =
      calls.get s ++ (storing.handovers visitor s).map fun h => [h.profile]
  alongside : Alongside rest (storing.handovers visitor s) ((storing.run visitor).run s).ending
    (direct.handovers visitor u) ((direct.run visitor).run u).ending
  same : (∀ p, (visitor p).DependsOn rest) →
    (storing.handovers visitor s).map Handover.exchange =
        (direct.handovers visitor u).map Handover.exchange ∧
      ((storing.run visitor).run s).result = ((direct.run visitor).run u).result ∧
      rest ((storing.run visitor).run s).state = rest ((direct.run visitor).run u).state

theorem Delivery.Unaware.givesThrough {d : Delivery σ Unit} {s u : σ}
    (h : d.Unaware calls rest s d u) (hc : c.Recorded calls rest)
    (visitor : Profile → Lookup σ Document) :
    (d.keeping c).GivesThrough calls rest c visitor d s u where
  run_eq := run_keeping visitor c d
  heard := exchanges_storing visitor hc d s
  stored := h.calledBefore visitor hc
  stored_all hvisitor := by
    refine (h.calledBefore visitor hc).calls_eq fun g hg => ?_
    rw [outcome_of_mem_handovers visitor hg]
    exact hvisitor g.profile g.before
  alongside := h.alongside visitor hc
  same hvisitor := by
    refine (h.alongside visitor hc).same fun g hg g' hg' hprofile hbefore => ?_
    obtain ⟨hresult, hrest⟩ := hvisitor g.profile g'.before g.before hbefore
    refine ⟨?_, ?_⟩
    · rw [outcome_of_mem_handovers visitor hg, outcome_of_mem_handovers visitor hg', hresult,
        hprofile]
    · rw [outcome_of_mem_handovers visitor hg, outcome_of_mem_handovers visitor hg', hrest,
        hprofile]

/-- Queries that store beside direct ones, in all three ways to ask. -/
structure Queries.WritesThrough (calls : Cell σ (List (List Profile))) (rest : σ → τ) (c : Cache σ)
    (storing direct : Queries σ K) : Prop where
  one : ∀ k s u, rest s = rest u →
    ((storing.one k).run s).StoredThrough calls rest Option.toList s ((direct.one k).run u)
  all : ∀ keys s u, rest s = rest u →
    ((storing.all keys).run s).StoredThrough calls rest id s ((direct.all keys).run u)
  visit : ∀ keys visitor s u, rest s = rest u →
    (storing.visit keys).GivesThrough calls rest c visitor (direct.visit keys) s u

theorem Queries.Unaware.writesThrough {q : Queries σ K} (hq : q.Unaware calls rest)
    (hc : c.Recorded calls rest) : (q.keeping c).WritesThrough calls rest c q where
  one k _ _ h := (hq.one k).storedThrough hc Option.toList h
  all keys _ _ h := (hq.all keys).storedThrough hc id h
  visit keys visitor s u h := (hq.visit keys s u h).givesThrough hc visitor

/-! ## What the memory has when the visitor comes -/

/-- Asked for its id and for its name, the memory has the profile. -/
structure Cell.Finds (cell : Cell σ Memory) (p : Profile) (s : σ) : Prop where
  byId : ((Source.cached (.memory cell)).byId.one p.id).run s = ⟨[], s, .ok (some p)⟩
  byName : ((Source.cached (.memory cell)).byName.one p.name.text).run s = ⟨[], s, .ok (some p)⟩

variable {cell : Cell σ Memory}

theorem Cell.finds_of_holds {p : Profile} {s : σ} (hs : (cell.get s).Coherent)
    (hp : (cell.get s).Holds p) : cell.Finds p s where
  byId := by
    change Run.mk [] s (.ok (((cell.get s).profiles [p.id]).find? _)) = _
    rw [Memory.find?_profiles, ((cell.get s).profile?_eq_some_iff p.id p).mpr ⟨rfl, hp⟩]
  byName := by
    change Run.mk [] s (.ok (((cell.get s).holders [p.name.text]).find? _)) = _
    rw [Memory.find?_holders, (Memory.holder?_eq_some_iff hs p.name.text p).mpr ⟨rfl, hp⟩]

theorem Delivery.Unaware.finds {d d' : Delivery σ α} {s u : σ} (h : d.Unaware cell rest s d' u)
    {visitor : Profile → Lookup σ Document}
    (hvisitor : ∀ p s, (cell.get s).Coherent → (cell.get ((visitor p).run s).state).Coherent)
    (hs : (cell.get s).Coherent) :
    ∀ g ∈ (d.keeping (.memory cell)).handovers visitor s, cell.Finds g.profile g.before := by
  induction h with
  | done result _ => exact fun g hg => absurd hg List.not_mem_nil
  | readLeft _ ih => exact ih hs
  | readRight _ ih => exact ih hs
  | writeLeft leaves _ ih => exact ih (by rwa [leaves])
  | writeRight _ _ ih => exact ih hs
  | @give p next next' s u _ _ ih =>
    obtain ⟨t, hkeep, ht, -⟩ := Cache.keep_memory_run [p] hs.reflects_all
    have hp : (cell.get t).Holds p := by
      rw [ht.holds_iff, stands_concat]
      exact Or.inl rfl
    rw [handovers_keeping_give visitor hkeep]
    intro g hg
    rcases List.mem_cons.mp hg with rfl | hg
    · exact Cell.finds_of_holds ht.coherent hp
    · exact ih _ _ _ rfl (hvisitor p t ht.coherent) g hg

/-- **A source that stores what it finds is to its callers the source itself.** With a cache that
may fail at any call, what is returned, what is handed over, what the source hears of the visits and
how the call ends are the same as without; and the cache is given just what is found, before anybody
else is. With a memory, everything can be read from it by id and by name as soon as the visitor gets
it. -/
theorem forwarding_writes_through (rest : σ → τ) (source : Source σ) :
    (∀ (calls : Cell σ (List (List Profile))) (c : Cache σ), c.Recorded calls rest →
      source.Unaware calls rest →
      (Source.forwarding c source).byName.WritesThrough calls rest c source.byName ∧
        (Source.forwarding c source).byId.WritesThrough calls rest c source.byId) ∧
    ∀ cell : Cell σ Memory, source.Unaware cell rest → ∀ visitor : Profile → Lookup σ Document,
      (∀ p s, (cell.get s).Coherent → (cell.get ((visitor p).run s).state).Coherent) →
      ∀ s, (cell.get s).Coherent →
      (∀ names, ∀ h ∈ ((Source.forwarding (.memory cell) source).byName.visit names).handovers
          visitor s, cell.Finds h.profile h.before) ∧
        ∀ ids, ∀ h ∈ ((Source.forwarding (.memory cell) source).byId.visit ids).handovers
          visitor s, cell.Finds h.profile h.before := by
  refine ⟨fun calls c hc hsource => ?_, fun cell hsource visitor hvisitor s hs => ?_⟩
  · exact ⟨hsource.byName.writesThrough hc, hsource.byId.writesThrough hc⟩
  · exact ⟨fun names => (hsource.byName.visit names s s rfl).finds hvisitor hs,
      fun ids => (hsource.byId.visit ids s s rfl).finds hvisitor hs⟩

/-! ## A cache that fails for one player -/

namespace Ledger

abbrev State := (List (List Profile) × Memory) × LocalMap

def book : Cell State (List (List Profile)) := Cell.first.within .first

def memory : Cell State Memory := Cell.first.within .second

def cache : Cache State where
  label := "Ledger"
  putAll ps := do
    book.modify (· ++ [ps])
    if ps.any (·.id == ⟨1⟩) then Lookup.fail (.foreign .ordinary "OSError" "disk full") else return
  getAll _ := return []
  getAllByName? := none

theorem putAll_run (ps : List Profile) (s : State) : (cache.putAll ps).run s =
    ⟨[], ((s.1.1 ++ [ps], s.1.2), s.2), if ps.any (·.id == ⟨1⟩) then
      .error (.foreign .ordinary "OSError" "disk full") else .ok ()⟩ := by
  have hcall : (book.modify (· ++ [ps])).run s = ⟨[], ((s.1.1 ++ [ps], s.1.2), s.2), .ok ()⟩ := rfl
  change (book.modify (· ++ [ps]) >>= fun _ => _).run s = _
  rw [Lookup.run_bind_quiet hcall]
  split <;> rfl

theorem recorded : cache.Recorded book Prod.snd where
  call ps s := by rw [putAll_run]; rfl
  apart ps s := by rw [putAll_run]
  ordinary ps s f hf := by
    rw [putAll_run] at hf
    dsimp only at hf
    split at hf
    · obtain rfl := Except.error.inj hf
      decide
    · cases hf

def source : Source State := .localMap .second

def state : State :=
  (([], .empty), LocalMap.empty.putAll [⟨⟨1⟩, .ash⟩, ⟨⟨2⟩, .birch⟩, ⟨⟨3⟩, .cedar⟩])

def visitor (p : Profile) : Lookup State Document :=
  return if p.id = ⟨2⟩ then .bool false else .null

end Ledger

/-- The second of three players is the last one that the cache is given, and the first one is given
to the visitor although the cache fails. -/
theorem forwarding_writes_through_ledger :
    Ledger.cache.Recorded Ledger.book Prod.snd ∧
      Ledger.source.Unaware Ledger.book Prod.snd ∧
      (Source.forwarding Ledger.cache Ledger.source).byId.WritesThrough Ledger.book Prod.snd
        Ledger.cache Ledger.source.byId ∧
      Ledger.book.get
          ((((Source.forwarding Ledger.cache Ledger.source).byId.visit [⟨1⟩, ⟨2⟩, ⟨3⟩]).run
            Ledger.visitor).run Ledger.state).state =
        [[⟨⟨1⟩, .ash⟩], [⟨⟨2⟩, .birch⟩]] ∧
      ∀ h ∈ ((Source.forwarding (.memory Ledger.memory) Ledger.source).byId.visit
          [⟨1⟩, ⟨2⟩, ⟨3⟩]).handovers Ledger.visitor Ledger.state,
        Ledger.memory.Finds h.profile h.before :=
  have hcalls := Source.unaware_localMap Ledger.book .second
  have hmemory := Source.unaware_localMap Ledger.memory .second
  have hwrites := forwarding_writes_through Prod.snd Ledger.source
  ⟨Ledger.recorded, hcalls, (hwrites.1 _ _ Ledger.recorded hcalls).2, by decide +kernel,
    (hwrites.2 _ hmemory Ledger.visitor (fun _ _ hs => hs) Ledger.state Memory.coherent_empty).2 _⟩

end PlayerLookup
