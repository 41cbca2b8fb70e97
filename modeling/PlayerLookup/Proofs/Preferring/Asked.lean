import PlayerLookup.Proofs.Combined.Leaves
import PlayerLookup.Proofs.Remote.Untouched
import PlayerLookup.Source.Preferring

/-! What the source that prefers live and cached answers asks its resolver for. A single key is
asked for if neither the preferred source nor the cache answers at all, a batch is matched with the
answers key by key: it passes on the keys that no answer has as its own. -/

set_option autoImplicit false

namespace PlayerLookup

variable {σ K α β τ : Type}

/-! ## Keeping a book -/

/-- The queries with a book in which the keys of every call are written down before it is made. -/
def Queries.booked (book : Cell σ (List (List K))) (q : Queries σ K) : Queries σ K where
  one k := do
    book.modify (· ++ [[k]])
    q.one k
  all keys := do
    book.modify (· ++ [keys])
    q.all keys
  visit keys := do
    Delivery.ofLookup (book.modify (· ++ [keys]))
    q.visit keys

/-- The lookup adds these entries to a book, whatever becomes of it. -/
def Lookup.Books (book : Cell σ (List β)) (m : Lookup σ α) (s : σ) (entries : List β) : Prop :=
  book.get (m.run s).state = book.get s ++ entries

namespace Lookup

variable {book : Cell σ (List β)} {d : Cell σ τ} {entries : List β} {s : σ}

theorem LeavesAlone.books {m : Lookup σ α} (h : m.LeavesAlone book) (s : σ) :
    m.Books book s [] := by
  rw [Books, h s, List.append_nil]

theorem books_modify (book : Cell σ (List β)) (entries : List β) (s : σ) :
    (book.modify (· ++ entries)).Books book s entries := book.get_set s _

/-- What follows a lookup that leaves the book alone, and goes well, adds what it adds by itself. -/
theorem Books.after {m : Lookup σ α} {f : α → Lookup σ τ} {t : σ} {a : α} (h : m.LeavesAlone book)
    (hm : m.Yields s t a) (hf : (f a).Books book t entries) : (m >>= f).Books book s entries := by
  obtain ⟨events, hrun⟩ := hm
  have ht := h s
  rw [hrun] at ht
  rw [Books, run_bind_ok hrun, hf, ht]

theorem Books.before {m : Lookup σ α} {f : α → Lookup σ τ} (hm : m.Books book s entries)
    (h : ∀ a, (f a).LeavesAlone book) : (m >>= f).Books book s entries := by
  rw [Books] at hm ⊢
  rcases hrun : m.run s with ⟨events, t, result⟩
  rw [hrun] at hm
  cases result with
  | error e =>
    rw [run_bind_error hrun]
    exact hm
  | ok a =>
    rw [run_bind_ok hrun, h a t]
    exact hm

/-- A lookup whose first step fails has failed, and nothing after that step adds to the book. -/
theorem LeavesAlone.fails_bind {m : Lookup σ α} {f : α → Lookup σ τ} {events : List Event} {t : σ}
    {e : Failure} (h : m.LeavesAlone book) (hrun : m.run s = ⟨events, t, .error e⟩) :
    (∃ e, ((m >>= f).run s).result = .error e) ∧ (m >>= f).Books book s [] := by
  have ht := h s
  rw [hrun] at ht
  refine ⟨⟨e, ?_⟩, ?_⟩
  · rw [run_bind_error hrun]
  · rw [Books, run_bind_error hrun, ht, List.append_nil]

theorem Books.fails_after {m : Lookup σ α} {f : α → Lookup σ τ} {t : σ} {a : α}
    (h : m.LeavesAlone book) (hm : m.Yields s t a)
    (hf : (∃ e, ((f a).run t).result = .error e) ∧ (f a).Books book t entries) :
    (∃ e, ((m >>= f).run s).result = .error e) ∧ (m >>= f).Books book s entries := by
  obtain ⟨⟨e, hfails⟩, hbooks⟩ := hf
  refine ⟨⟨e, ?_⟩, Books.after h hm hbooks⟩
  obtain ⟨events, hrun⟩ := hm
  rw [run_bind_ok hrun, hfails]

theorem LeavesAlone.rescue {m : Lookup σ α} {handle : Failure → Lookup σ α} (hm : m.LeavesAlone d)
    (hhandle : ∀ f, (handle f).LeavesAlone d) : (m.rescue handle).LeavesAlone d := by
  refine hm.attempt.bind fun result => ?_
  cases result with
  | ok a => exact leavesAlone_pure a
  | error f =>
    dsimp only
    split_ifs
    · exact hhandle f
    · exact leavesAlone_fail f

end Lookup

/-- Neither single keys nor batches change a part of the state. -/
structure Queries.Spares (d : Cell σ τ) (q : Queries σ K) : Prop where
  one : ∀ k, (q.one k).LeavesAlone d
  all : q.LeavesAlone d

theorem Queries.spares_ofOne [DecidableEq K] {d : Cell σ τ} {one : K → Lookup σ (Option Profile)}
    (h : ∀ k, (one k).LeavesAlone d) : (ofOne one).Spares d :=
  ⟨h, leavesAlone_ofOne h⟩

/-- Neither storing nor reading by name changes a part of the state. -/
structure Cache.LeavesAlone (d : Cell σ τ) (c : Cache σ) : Prop where
  put : ∀ ps, (c.putAll ps).LeavesAlone d
  get : c.nameQueries.Spares d

theorem Cache.LeavesAlone.keep {d : Cell σ τ} {c : Cache σ} (h : c.LeavesAlone d)
    (ps : List Profile) : (c.keep ps).LeavesAlone d := by
  unfold Cache.keep
  split_ifs
  · exact Lookup.leavesAlone_pure ()
  · exact (h.put ps).rescue fun f => Lookup.leavesAlone_log

theorem Cache.leavesAlone_memory {cell : Cell σ Memory} {d : Cell σ τ} (h : cell.Apart d) :
    (Cache.memory cell).LeavesAlone d where
  put ps := by
    change (storeInMemory cell ps).LeavesAlone d
    induction ps with
    | nil => exact Lookup.leavesAlone_pure ()
    | cons p rest ih =>
      refine (Lookup.leavesAlone_read cell).bind fun m => ?_
      cases m.store p with
      | error f => exact Lookup.leavesAlone_fail f
      | ok m' => exact Lookup.LeavesAlone.bind (fun s => h s m') fun _ => ih
  get := ⟨fun _ _ => rfl, fun _ _ => rfl⟩

namespace Queries

/-! ## Single keys -/

section

variable {c : Cache σ} {preferred : Option (Queries σ K)} {cached resolver : Queries σ K} {k : K}
  {s : σ} {book : Cell σ (List (List K))}

/-- The preferred source answers the key, or it does not and the cache does after that. -/
def AnsweredBefore (c : Cache σ) (preferred : Option (Queries σ K)) (cached : Queries σ K) (k : K)
    (s : σ) : Prop :=
  (∃ t p, (liveOne c preferred k).Yields s t (some p)) ∨
    ∃ t u p, (liveOne c preferred k).Yields s t none ∧ (cached.one k).Yields t u (some p)

def OpenBefore (c : Cache σ) (preferred : Option (Queries σ K)) (cached : Queries σ K) (k : K)
    (s : σ) : Prop :=
  ∃ t u, (liveOne c preferred k).Yields s t none ∧ (cached.one k).Yields t u none

/-- The resolver is asked for the key just if it is open, unless the call failed before that. -/
def AsksUnlessAnswered (c : Cache σ) (preferred : Option (Queries σ K)) (cached : Queries σ K)
    (book : Cell σ (List (List K))) (k : K) (s : σ) (call : Lookup σ α) : Prop :=
  (AnsweredBefore c preferred cached k s ∧ call.Books book s []) ∨
    (OpenBefore c preferred cached k s ∧ call.Books book s [[k]]) ∨
    ((∃ f, (call.run s).result = .error f) ∧ call.Books book s [])

theorem LeavesAlone.liveOne {d : Cell σ τ} (hcache : c.LeavesAlone d)
    (h : ∀ q, preferred = some q → q.Spares d) (k : K) :
    (Queries.liveOne c preferred k).LeavesAlone d := by
  cases hsome : preferred with
  | none => exact Lookup.leavesAlone_pure none
  | some q =>
    exact ((h q hsome).one k).bind fun found => (hcache.keep found.toList).bind fun _ =>
      Lookup.leavesAlone_pure found

theorem books_one_booked (hcache : c.LeavesAlone book) (hresolver : resolver.Spares book) (k : K)
    (s : σ) : (((resolver.booked book).keeping c).one k).Books book s [[k]] := by
  have hcall : ((resolver.booked book).one k).Books book s [[k]] :=
    (Lookup.books_modify book [[k]] s).before fun _ => hresolver.one k
  exact hcall.before fun found => (hcache.keep found.toList).bind fun _ =>
    Lookup.leavesAlone_pure found

theorem asksUnlessAnswered_preferOne (hcache : c.LeavesAlone book) (hcached : cached.Spares book)
    (hpreferred : ∀ q, preferred = some q → q.Spares book) (hresolver : resolver.Spares book)
    (k : K) (s : σ) :
    AsksUnlessAnswered c preferred cached book k s
      (preferOne c preferred cached (resolver.booked book) k) := by
  have hlive := LeavesAlone.liveOne hcache hpreferred k
  unfold preferOne
  rcases hrun : (liveOne c preferred k).run s with ⟨events, t, result⟩
  match result with
  | .error f => exact Or.inr (Or.inr (hlive.fails_bind hrun))
  | .ok (some p) =>
    exact Or.inl ⟨Or.inl ⟨t, p, events, hrun⟩, Lookup.Books.after hlive ⟨events, hrun⟩
      ((Lookup.leavesAlone_pure (some p)).books t)⟩
  | .ok none =>
    have hone := hcached.one k
    rcases hrun' : (cached.one k).run t with ⟨events', u, result'⟩
    match result' with
    | .error f =>
      exact Or.inr (Or.inr
        (Lookup.Books.fails_after hlive ⟨events, hrun⟩ (hone.fails_bind hrun')))
    | .ok (some p) =>
      exact Or.inl ⟨Or.inr ⟨t, u, p, ⟨events, hrun⟩, events', hrun'⟩,
        Lookup.Books.after hlive ⟨events, hrun⟩ (Lookup.Books.after hone ⟨events', hrun'⟩
          ((Lookup.leavesAlone_pure (some p)).books u))⟩
    | .ok none =>
      exact Or.inr (Or.inl ⟨⟨t, u, ⟨events, hrun⟩, events', hrun'⟩,
        Lookup.Books.after hlive ⟨events, hrun⟩ (Lookup.Books.after hone ⟨events', hrun'⟩
          (books_one_booked hcache hresolver k u))⟩)

end

/-! ## Batches -/

def callFor (keys : List K) : List (List K) := if keys.isEmpty then [] else [keys]

theorem flatten_callFor (keys : List K) : (callFor keys).flatten = keys := by
  cases keys with
  | nil => rfl
  | cons k rest => exact List.flatten_singleton

section

variable {c : Cache σ} {preferred : Option (Queries σ K)} {resolver : Queries σ K}
  {book : Cell σ (List (List K))}

theorem leavesAlone_askIfAny {d : Cell σ τ} {ask : List K → Lookup σ (List Profile)}
    (h : ∀ keys, (ask keys).LeavesAlone d) (keys : List K) : (askIfAny ask keys).LeavesAlone d := by
  unfold askIfAny
  split_ifs
  · exact Lookup.leavesAlone_pure []
  · exact h keys

theorem LeavesAlone.liveAll {d : Cell σ τ} (hcache : c.LeavesAlone d)
    (h : ∀ q, preferred = some q → q.Spares d) (keys : List K) :
    (Queries.liveAll c preferred keys).LeavesAlone d := by
  cases hsome : preferred with
  | none => exact Lookup.leavesAlone_pure []
  | some q =>
    exact leavesAlone_askIfAny (fun keys => ((h q hsome).all keys).bind fun found =>
      (hcache.keep found).bind fun _ => Lookup.leavesAlone_pure found) keys

theorem books_askIfAny_booked (hcache : c.LeavesAlone book) (hresolver : resolver.Spares book)
    (keys : List K) (s : σ) :
    (askIfAny ((resolver.booked book).keeping c).all keys).Books book s (callFor keys) := by
  unfold askIfAny callFor
  split_ifs with hempty
  · exact (Lookup.leavesAlone_pure []).books s
  · have hcall : ((resolver.booked book).all keys).Books book s [keys] :=
      (Lookup.books_modify book [keys] s).before fun _ => hresolver.all keys
    exact hcall.before fun found => (hcache.keep found).bind fun _ => Lookup.leavesAlone_pure found

end

variable [DecidableEq K] {keyOf : Profile → K} {c : Cache σ} {preferred : Option (Queries σ K)}
  {cached resolver : Queries σ K} {keys : List K} {s : σ} {book : Cell σ (List (List K))}

theorem mem_unanswered {found : List Profile} {k : K} :
    k ∈ unanswered keyOf found keys ↔ k ∈ keys ∧ ∀ p ∈ found, keyOf p ≠ k := by
  simp [unanswered]

/-- The keys that a batch passes on: once at most, none twice, in their order, those that are the
key of no profile among the live answers and of none among the known ones. -/
structure PassesUnmatched (keyOf : Profile → K) (live known : List Profile) (keys : List K)
    (passed : List (List K)) : Prop where
  once : passed.length ≤ 1
  in_order : passed.flatten.Sublist keys.eraseDups
  mem_iff : ∀ k, k ∈ passed.flatten ↔
    k ∈ keys ∧ (∀ p ∈ live, keyOf p ≠ k) ∧ ∀ p ∈ known, keyOf p ≠ k

theorem passesUnmatched_callFor (live known : List Profile) (keys : List K) :
    PassesUnmatched keyOf live known keys
      (callFor (unanswered keyOf known (unanswered keyOf live (Batch.unique keys)))) where
  once := by
    unfold callFor
    split_ifs
    · exact Nat.zero_le 1
    · exact Nat.le_refl 1
  in_order := by
    rw [flatten_callFor, ← Batch.unique_eq_eraseDups]
    exact List.filter_sublist.trans List.filter_sublist
  mem_iff k := by
    rw [flatten_callFor, mem_unanswered, mem_unanswered, Batch.mem_unique, and_assoc]

/-- A batch asks the resolver for the keys that match no answer, after the live answers were stored
and the cache was asked for what they left open. If the call does not get that far, it fails, and
the resolver is not asked. -/
def AsksForUnmatched (keyOf : Profile → K) (c : Cache σ) (preferred : Option (Queries σ K))
    (cached : Queries σ K) (book : Cell σ (List (List K))) (keys : List K) (s : σ)
    (call : Lookup σ α) : Prop :=
  (∃ live t known u passed, (liveAll c preferred keys.eraseDups).Yields s t live ∧
    (askIfAny cached.all (unanswered keyOf live keys.eraseDups)).Yields t u known ∧
    PassesUnmatched keyOf live known keys passed ∧ call.Books book s passed) ∨
  ((∃ f, (call.run s).result = .error f) ∧ call.Books book s [])

theorem asksForUnmatched_preferAll (hcache : c.LeavesAlone book) (hcached : cached.Spares book)
    (hpreferred : ∀ q, preferred = some q → q.Spares book) (hresolver : resolver.Spares book)
    (keys : List K) (s : σ) :
    AsksForUnmatched keyOf c preferred cached book keys s
      (preferAll keyOf c preferred cached (resolver.booked book) keys) := by
  have hlive := LeavesAlone.liveAll hcache hpreferred keys.eraseDups
  have hknown := fun live : List Profile =>
    leavesAlone_askIfAny hcached.all (unanswered keyOf live keys.eraseDups)
  unfold preferAll
  simp only [Batch.unique_eq_eraseDups]
  rcases hrun : (liveAll c preferred keys.eraseDups).run s with ⟨events, t, result⟩
  cases result with
  | error f => exact Or.inr (hlive.fails_bind hrun)
  | ok live =>
    rcases hrun' : (askIfAny cached.all (unanswered keyOf live keys.eraseDups)).run t with
      ⟨events', u, result'⟩
    cases result' with
    | error f =>
      exact Or.inr
        (Lookup.Books.fails_after hlive ⟨events, hrun⟩ ((hknown live).fails_bind hrun'))
    | ok known =>
      have hpasses : PassesUnmatched keyOf live known keys _ :=
        passesUnmatched_callFor live known keys
      rw [Batch.unique_eq_eraseDups] at hpasses
      refine Or.inl ⟨live, t, known, u, _, ⟨events, hrun⟩, ⟨events', hrun'⟩, hpasses, ?_⟩
      refine Lookup.Books.after hlive ⟨events, hrun⟩ ?_
      refine Lookup.Books.after (hknown live) ⟨events', hrun'⟩ ?_
      exact (books_askIfAny_booked hcache hresolver _ u).before fun looked =>
        Lookup.leavesAlone_log.bind fun _ => Lookup.leavesAlone_pure _

end Queries

/-! ## Names -/

/-- **The resolver gets the names that no answer spells.** Whatever the preferred source, the cache
and the resolver are, a single name is passed on to the resolver just if neither of the others
answers it in any way. A batch is passed on in one call at most: the names in it that are the name
of no profile the preferred source answered the batch with, and of none the cache answered with
after those were stored. -/
theorem preferring_asks_for_unmatched_names (c : Cache σ) (preferred : Option (Source σ))
    (resolver : Source σ) (book : Cell σ (List (List String))) (hcache : c.LeavesAlone book)
    (hpreferred : ∀ source, preferred = some source → source.byName.Spares book)
    (hresolver : resolver.byName.Spares book) (s : σ) :
    (∀ name, Queries.AsksUnlessAnswered c (preferred.map Source.byName) c.nameQueries book name s
      ((Source.preferring c preferred
        { resolver with byName := resolver.byName.booked book }).byName.one name)) ∧
    ∀ names, Queries.AsksForUnmatched (·.name.text) c (preferred.map Source.byName) c.nameQueries
      book names s ((Source.preferring c preferred
        { resolver with byName := resolver.byName.booked book }).byName.all names) := by
  have hlive : ∀ q, preferred.map Source.byName = some q → q.Spares book := by
    intro q hq
    obtain ⟨source, hsource, rfl⟩ := Option.map_eq_some_iff.mp hq
    exact hpreferred source hsource
  exact ⟨fun name => Queries.asksUnlessAnswered_preferOne hcache hcache.get hlive hresolver name s,
    fun names => Queries.asksForUnmatched_preferAll hcache hcache.get hlive hresolver names s⟩

section

variable {c : Cache σ} {preferred : Option (Queries σ String)} {cached : Queries σ String}
  {names : List String} {s t u : σ} {live known : List Profile} {passed : List (List String)}

theorem Queries.PassesUnmatched.not_held {cell : Cell σ Memory}
    (h : PassesUnmatched (·.name.text) live known names passed)
    (hknown : (askIfAny (Cache.memory cell).nameQueries.all
      (unanswered (·.name.text) live names.eraseDups)).Yields t u known)
    {name : String} (hname : name ∈ passed.flatten) : (cell.get t).holder? name = none := by
  obtain ⟨hin, hlive, hunknown⟩ := (h.mem_iff name).mp hname
  have hopen : name ∈ unanswered (·.name.text) live names.eraseDups :=
    mem_unanswered.mpr ⟨List.mem_eraseDups.mpr hin, hlive⟩
  generalize unanswered (·.name.text) live names.eraseDups = left at hknown hopen
  obtain ⟨events, hrun⟩ := hknown
  rw [askIfAny, if_neg (by simpa using List.ne_nil_of_mem hopen)] at hrun
  obtain rfl : (cell.get t).holders (Batch.unique left) = known :=
    Except.ok.inj (Run.mk.inj hrun).2.2
  by_contra hheld
  obtain ⟨p, hp⟩ := Option.ne_none_iff_exists'.mp hheld
  refine hunknown p ?_ (Memory.name_of_holder? hp)
  rw [Memory.holders_unique]
  exact List.mem_filterMap.mpr ⟨name, (Batch.mem_unique left name).mpr hopen, hp⟩

/-- A name that the preferred source answers in the same spelling is not passed on, nor is one that
is the spelling of an answer to another name. -/
theorem Queries.PassesUnmatched.not_spelled {kept : σ → Prop} {own : Event → Prop}
    {one : String → Lookup σ (Option Profile)} {answer : String → Option Profile}
    (h : PassesUnmatched (·.name.text) live known names passed)
    (hone : ∀ name, (one name).Gives kept own (answer name)) (hs : kept s)
    (hlive : (liveAll c (some (ofOne one)) names.eraseDups).Yields s t live)
    {name other : String} {p : Profile} (hname : name ∈ passed.flatten) (hother : other ∈ names)
    (hp : answer other = some p) : p.name.text ≠ name := by
  refine ((h.mem_iff name).mp hname).2.1 p ?_
  obtain ⟨events, hrun⟩ := hlive
  have hne : ¬ names.eraseDups.isEmpty = true := by
    rw [List.isEmpty_iff]
    exact List.ne_nil_of_mem (List.mem_eraseDups.mpr hother)
  rw [liveAll, askIfAny, if_neg hne] at hrun
  obtain ⟨first, v, found, hfound, hrest⟩ := Lookup.result_bind_eq_ok
    (congrArg Run.result hrun : ((_ >>= _ : Lookup σ _).run s).result = _)
  obtain ⟨_, _, _, -, hpure⟩ := Lookup.result_bind_eq_ok hrest
  obtain rfl : found = live := Except.ok.inj hpure
  obtain ⟨first', v', hgives, -⟩ := gives_collect hone (Batch.unique names.eraseDups) s hs
  have hsame := hgives.symm.trans hfound
  rw [← Except.ok.inj (Run.mk.inj hsame).2.2]
  exact List.mem_filterMap.mpr ⟨other, (Batch.mem_unique _ other).mpr
    (List.mem_eraseDups.mpr hother), hp⟩

end

/-! ## A name in another spelling -/

namespace Spelling

def cell : Cell (Memory × List (List String)) Memory := Cell.first

def book : Cell (Memory × List (List String)) (List (List String)) := Cell.second

def linden : Profile := ⟨⟨1⟩, ⟨"Linden", by decide⟩⟩

def host : Source (Memory × List (List String)) :=
  .host (.fixed (fun name => if Text.fold name = "linden" then some linden.id else none)
    fun _ => some "Linden")

def nobody : Source (Memory × List (List String)) :=
  .host (.fixed (fun _ => none) fun _ => none)

def source : Source (Memory × List (List String)) :=
  .preferring (.memory cell) (some host) { nobody with byName := nobody.byName.booked book }

def state : Memory × List (List String) := (.empty, [])

theorem leavesAlone_cache : (Cache.memory cell).LeavesAlone book :=
  Cache.leavesAlone_memory fun _ _ => rfl

theorem spares_host : host.byName.Spares book :=
  Queries.spares_ofOne (Registry.leavesAlone_findName (fun _ _ => rfl) fun _ _ => rfl)

theorem spares_nobody : nobody.byName.Spares book :=
  Queries.spares_ofOne (Registry.leavesAlone_findName (fun _ _ => rfl) fun _ _ => rfl)

end Spelling

theorem preferring_asks_for_unmatched_names_linden :
    (Cache.memory Spelling.cell).LeavesAlone Spelling.book ∧
      (∀ source, some Spelling.host = some source → source.byName.Spares Spelling.book) ∧
      Spelling.nobody.byName.Spares Spelling.book ∧
      Queries.AsksForUnmatched (·.name.text) (.memory Spelling.cell) (some Spelling.host.byName)
        (Cache.memory Spelling.cell).nameQueries Spelling.book ["Linden", "Ash", "Linden"]
        Spelling.state (Spelling.source.byName.all ["Linden", "Ash", "Linden"]) ∧
      Spelling.book.get ((Spelling.source.byName.all ["Linden", "Ash", "Linden"]).run
        Spelling.state).state = [["Ash"]] := by
  have hhost : ∀ source, some Spelling.host = some source →
      source.byName.Spares Spelling.book := by
    rintro _ ⟨⟩
    exact Spelling.spares_host
  exact ⟨Spelling.leavesAlone_cache, hhost, Spelling.spares_nobody,
    (preferring_asks_for_unmatched_names (.memory Spelling.cell) (some Spelling.host)
      Spelling.nobody Spelling.book Spelling.leavesAlone_cache hhost Spelling.spares_nobody
      Spelling.state).2 ["Linden", "Ash", "Linden"], by decide +kernel⟩

/-- A name that the host answers in another spelling is passed on by a batch, though not when it is
asked for alone. -/
theorem answered_name_passed_on :
    ((Spelling.host.byName.one "linden").run Spelling.state).result = .ok (some Spelling.linden) ∧
      Spelling.book.get ((Spelling.source.byName.one "linden").run Spelling.state).state = [] ∧
      Spelling.book.get ((Spelling.source.byName.all ["linden"]).run Spelling.state).state =
        [["linden"]] :=
  ⟨by with_unfolding_all rfl, by decide +kernel, by decide +kernel⟩

end PlayerLookup
