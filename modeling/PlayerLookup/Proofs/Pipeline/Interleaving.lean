import PlayerLookup.Proofs.Parallel.Jobs
import PlayerLookup.Source.Combined
import PlayerLookup.Source.Forwarding

/-! Jobs that are worked on by turns. A job asks the members of a combination one by one and then
stores what it found; between two of its steps other jobs may take steps of their own. Jobs that
nobody comes between go as the workers run them. -/

set_option autoImplicit false

namespace PlayerLookup

variable {σ K κ : Type}

/-! ## Jobs and what they do -/

inductive Deed where
  | answered (label : String) (found : List Profile)
  | stored (ps : List Profile)
  | failed (f : Failure)

/-- A job that still has something to do: the members it has not come to, what it knows of its keys,
and what it found. -/
structure Asking (σ K κ : Type) where
  members : List (String × Queries σ K)
  progress : Progress K κ
  found : List Profile

inductive Course (σ K κ : Type) where
  | asking (a : Asking σ K κ)
  | ended (result : Except Failure (List Profile))

def Course.isOver : Course σ K κ → Bool
  | .asking _ => false
  | .ended _ => true

/-- Jobs, and what they did, in order. -/
structure Pool (σ K κ : Type) where
  courses : List (Course σ K κ)
  deeds : List (Nat × Deed)

namespace Pool

def allOver (pool : Pool σ K κ) : Bool := pool.courses.all Course.isOver

/-- All that the source of the label gave to the jobs. -/
def answers (pool : Pool σ K κ) (label : String) : List Profile :=
  pool.deeds.flatMap fun e =>
    match e.2 with
    | .answered l found => if l = label then found else []
    | _ => []

theorem mem_answers {pool : Pool σ K κ} {label : String} {p : Profile} :
    p ∈ pool.answers label ↔
      ∃ i found, (i, Deed.answered label found) ∈ pool.deeds ∧ p ∈ found := by
  rw [answers, List.mem_flatMap]
  constructor
  · rintro ⟨⟨i, d⟩, hdeed, hp⟩
    cases d with
    | answered l found =>
      by_cases hl : l = label
      · subst hl
        exact ⟨i, found, hdeed, by simpa using hp⟩
      · simp [hl] at hp
    | stored ps => exact absurd hp List.not_mem_nil
    | failed f => exact absurd hp List.not_mem_nil
  · rintro ⟨i, found, hdeed, hp⟩
    exact ⟨_, hdeed, by simpa using hp⟩

/-- The job of the number has something to do yet. -/
def AtWork (pool : Pool σ K κ) (i : Nat) (a : Asking σ K κ) : Prop :=
  pool.courses[i]? = some (.asking a)

def workedOn (pool : Pool σ K κ) (i : Nat) (deed : Deed) (next : Course σ K κ) : Pool σ K κ :=
  ⟨pool.courses.set i next, pool.deeds ++ [(i, deed)]⟩

variable {pool : Pool σ K κ} {i : Nat} {a : Asking σ K κ}

theorem course_workedOn (h : pool.AtWork i a) (deed : Deed)
    (next : Course σ K κ) : (pool.workedOn i deed next).courses[i]? = some next :=
  List.getElem?_set_self (List.getElem?_eq_some_iff.mp h).1

theorem atWork_workedOn (h : pool.AtWork i a) (deed : Deed) (next : Course σ K κ) (j : Nat)
    (b : Asking σ K κ) : (pool.workedOn i deed next).AtWork j b ↔
      (j = i ∧ next = .asking b) ∨ (j ≠ i ∧ pool.AtWork j b) := by
  by_cases hij : j = i
  · subst hij
    rw [AtWork, course_workedOn h, Option.some.injEq]
    simp
  · have hother : (pool.workedOn i deed next).courses[j]? = pool.courses[j]? :=
      List.getElem?_set_ne (Ne.symm hij)
    rw [AtWork, hother]
    simp [hij, AtWork]

theorem AtWork.unique {b : Asking σ K κ} (h : pool.AtWork i a) (h' : pool.AtWork i b) : a = b := by
  rw [AtWork, h] at h'
  exact Course.asking.inj (Option.some.inj h')

theorem mem_deeds_workedOn {deed : Deed} {next : Course σ K κ} {e : Nat × Deed} :
    e ∈ (pool.workedOn i deed next).deeds ↔ e ∈ pool.deeds ∨ e = (i, deed) := by
  rw [workedOn, List.mem_append, List.mem_singleton]

end Pool

/-! ## The steps of a job -/

def Asking.store (c : Cache σ) (found : List Profile) : Lookup σ (Deed × Course σ K κ) := do
  match ← (c.keep found).attempt with
  | .ok _ => return (.stored found, .ended (.ok found))
  | .error f => return (.failed f, .ended (.error f))

variable [DecidableEq κ]

section

variable (normal : K → κ) (keyOf : Profile → K) (c : Cache σ)

namespace Asking

def start (members : List (String × Queries σ K)) (keys : List K) : Asking σ K κ :=
  ⟨members, Progress.ofKeys normal keys, []⟩

/-- A job after the next member gave its answer. -/
def told (a : Asking σ K κ) (answer : List Profile) : Asking σ K κ :=
  let accepted := a.progress.accept normal keyOf answer
  ⟨a.members.tail, accepted.2, a.found ++ accepted.1⟩

def answeredRecord (label : String) (answer : List Profile) (pr : Progress K κ) : LogRecord where
  level := .debug
  component := .combinedSource
  message := label ++ " resolved " ++ toString answer.length ++ "/" ++ toString pr.missing.length
    ++ " keys"

/-- The step in which a member is asked for the keys that are still missing. -/
def ask (label : String) (q : Queries σ K) (a : Asking σ K κ) : Lookup σ (Deed × Course σ K κ) := do
  match ← (q.all a.progress.missing).attempt with
  | .ok answer =>
    Lookup.emit (.log (answeredRecord label answer a.progress))
    return (.answered label answer, .asking (a.told normal keyOf answer))
  | .error f => return (.failed f, .ended (.error f))

def step (a : Asking σ K κ) : Lookup σ (Deed × Course σ K κ) :=
  match a.members with
  | [] => store c a.found
  | (label, q) :: _ =>
    if a.progress.isComplete then store c a.found else a.ask normal keyOf label q

end Asking

/-- What is still to be done by a job, without a break. -/
def Course.finish : Course σ K κ → Lookup σ (List Profile)
  | .asking a => do
    let more ← Queries.collectMembers normal keyOf a.members a.progress
    c.keep (a.found ++ more)
    return a.found ++ more
  | .ended result => Lookup.ofExcept result

theorem Course.finish_start (members : List (String × Queries σ K)) (keys : List K) :
    (Course.asking (Asking.start normal members keys)).finish normal keyOf c =
      ((Queries.combined normal keyOf members).keeping c).all keys := rfl

end

section

variable {normal : K → κ} {keyOf : Profile → K} {c : Cache σ} {a : Asking σ K κ} {label : String}
  {q : Queries σ K} {rest : List (String × Queries σ K)} {s t : σ} {events : List Event}

namespace Asking

theorem step_last (h : a.members = [] ∨ a.progress.isComplete = true) :
    a.step normal keyOf c = store c a.found := by
  obtain ⟨_ | ⟨⟨label, q⟩, rest⟩, pr, found⟩ := a
  · rfl
  · exact if_pos (h.resolve_left (List.cons_ne_nil _ _))

theorem step_ask (h : a.members = (label, q) :: rest) (hopen : ¬ a.progress.isComplete = true) :
    a.step normal keyOf c = a.ask normal keyOf label q := by
  unfold step
  rw [h]
  exact if_neg hopen

theorem step_stored (hlast : a.members = [] ∨ a.progress.isComplete = true)
    (h : (c.keep a.found).run s = ⟨events, t, .ok ()⟩) :
    (a.step normal keyOf c).run s = ⟨events, t, .ok (.stored a.found, .ended (.ok a.found))⟩ := by
  have htry := Lookup.run_attempt (c.keep a.found) s
  rw [h] at htry
  rw [step_last hlast, store, Lookup.run_bind_ok htry]
  simp

theorem step_not_stored (hlast : a.members = [] ∨ a.progress.isComplete = true) {f : Failure}
    (h : (c.keep a.found).run s = ⟨events, t, .error f⟩) :
    (a.step normal keyOf c).run s = ⟨events, t, .ok (.failed f, .ended (.error f))⟩ := by
  have htry := Lookup.run_attempt (c.keep a.found) s
  rw [h] at htry
  rw [step_last hlast, store, Lookup.run_bind_ok htry]
  simp

theorem step_answered (hmembers : a.members = (label, q) :: rest)
    (hopen : ¬ a.progress.isComplete = true) {answer : List Profile}
    (h : (q.all a.progress.missing).run s = ⟨events, t, .ok answer⟩) :
    (a.step normal keyOf c).run s =
      ⟨events ++ [.log (answeredRecord label answer a.progress)], t,
        .ok (.answered label answer, .asking (a.told normal keyOf answer))⟩ := by
  have htry := Lookup.run_attempt (q.all a.progress.missing) s
  rw [h] at htry
  rw [step_ask hmembers hopen, ask, Lookup.run_bind_ok htry]
  rfl

theorem step_not_answered (hmembers : a.members = (label, q) :: rest)
    (hopen : ¬ a.progress.isComplete = true) {f : Failure}
    (h : (q.all a.progress.missing).run s = ⟨events, t, .error f⟩) :
    (a.step normal keyOf c).run s = ⟨events, t, .ok (.failed f, .ended (.error f))⟩ := by
  have htry := Lookup.run_attempt (q.all a.progress.missing) s
  rw [h] at htry
  rw [step_ask hmembers hopen, ask, Lookup.run_bind_ok htry]
  simp

end Asking

namespace Course

theorem finish_last (h : a.members = [] ∨ a.progress.isComplete = true) :
    (Course.asking a).finish normal keyOf c = do
      c.keep a.found
      return a.found := by
  have hnone : Queries.collectMembers normal keyOf a.members a.progress =
      (pure [] : Lookup σ (List Profile)) := by
    cases hmembers : a.members with
    | nil => rfl
    | cons m rest =>
      rw [hmembers] at h
      rw [Queries.collectMembers, if_pos (h.resolve_left (List.cons_ne_nil m rest))]
  rw [finish, hnone, pure_bind, List.append_nil]

theorem finish_ask (h : a.members = (label, q) :: rest) (hopen : ¬ a.progress.isComplete = true) :
    (Course.asking a).finish normal keyOf c = (do
      let answer ← q.all a.progress.missing
      Lookup.emit (.log (Asking.answeredRecord label answer a.progress))
      (Course.asking (a.told normal keyOf answer)).finish normal keyOf c) := by
  rw [finish, h, Queries.collectMembers, if_neg hopen]
  simp only [finish, Asking.told, h, List.tail_cons, bind_assoc, pure_bind, List.append_assoc]
  rfl

end Course

end

/-! ## Jobs by turns -/

namespace Pool

variable (normal : K → κ) (keyOf : Profile → K) (c : Cache σ)

def start (members : List (String × Queries σ K)) (parts : List (List K)) : Pool σ K κ :=
  ⟨parts.map fun keys => .asking (.start normal members keys), []⟩

def workOn (i : Nat) (pool : Pool σ K κ) : Lookup σ (Pool σ K κ) :=
  match pool.courses[i]? with
  | some (.asking a) => do
    let r ← a.step normal keyOf c
    return pool.workedOn i r.1 r.2
  | _ => return pool

def interleave (order : List Nat) (pool : Pool σ K κ) : Lookup σ (Pool σ K κ) :=
  match order with
  | [] => return pool
  | i :: rest => do interleave rest (← pool.workOn normal keyOf c i)

variable {normal keyOf c} {pool : Pool σ K κ} {i : Nat} {a : Asking σ K κ} {s t : σ}
  {events : List Event} {result : Except Failure (List Profile)}

theorem workOn_over (h : pool.courses[i]? = some (.ended result)) :
    pool.workOn normal keyOf c i = pure pool := by
  unfold workOn
  rw [h]

theorem workOn_none (h : pool.courses[i]? = none) : pool.workOn normal keyOf c i = pure pool := by
  unfold workOn
  rw [h]

theorem workOn_run (h : pool.AtWork i a) {deed : Deed} {next : Course σ K κ}
    (hstep : (a.step normal keyOf c).run s = ⟨events, t, .ok (deed, next)⟩) :
    (pool.workOn normal keyOf c i).run s = ⟨events, t, .ok (pool.workedOn i deed next)⟩ := by
  unfold workOn
  rw [h]
  dsimp only
  rw [Lookup.run_bind_ok hstep]
  simp

theorem interleave_append (xs ys : List Nat) (pool : Pool σ K κ) :
    pool.interleave normal keyOf c (xs ++ ys) =
      (do interleave normal keyOf c ys (← pool.interleave normal keyOf c xs)) := by
  induction xs generalizing pool with
  | nil => rw [List.nil_append, interleave, pure_bind]
  | cons i rest ih => simp only [List.cons_append, interleave, ih, bind_assoc]

theorem workOn_deeds {pool' : Pool σ K κ}
    (h : (pool.workOn normal keyOf c i).run s = ⟨events, t, .ok pool'⟩) :
    pool'.deeds = pool.deeds ∨ ∃ d, pool'.deeds = pool.deeds ++ [(i, d)] := by
  cases hcourse : pool.courses[i]? with
  | none =>
    rw [workOn_none hcourse] at h
    cases h
    exact Or.inl rfl
  | some course =>
    cases course with
    | ended result =>
      rw [workOn_over hcourse] at h
      cases h
      exact Or.inl rfl
    | asking a =>
      rcases hstep : (a.step normal keyOf c).run s with ⟨first, u, result⟩
      unfold workOn at h
      rw [hcourse] at h
      dsimp only at h
      cases result with
      | error f =>
        rw [Lookup.run_bind_error hstep] at h
        cases h
      | ok r =>
        rw [Lookup.run_bind_ok hstep] at h
        cases h
        exact Or.inr ⟨r.1, rfl⟩

theorem interleave_deeds {order : List Nat} {pool' : Pool σ K κ}
    (h : (pool.interleave normal keyOf c order).run s = ⟨events, t, .ok pool'⟩) :
    ∃ deeds, pool'.deeds = pool.deeds ++ deeds ∧ (deeds.map Prod.fst).Sublist order := by
  induction order generalizing pool s events with
  | nil =>
    cases h
    exact ⟨[], (List.append_nil _).symm, List.Sublist.refl []⟩
  | cons i rest ih =>
    rcases hstep : (pool.workOn normal keyOf c i).run s with ⟨first, u, result⟩
    cases result with
    | error f =>
      rw [interleave, Lookup.run_bind_error hstep] at h
      cases h
    | ok pool₁ =>
      rcases hrest : (pool₁.interleave normal keyOf c rest).run u with ⟨more, v, last⟩
      rw [interleave, Lookup.run_bind_ok hstep, hrest] at h
      obtain ⟨-, rfl, rfl⟩ := Run.mk.inj h
      obtain ⟨deeds, hdeeds, hsublist⟩ := ih hrest
      rcases workOn_deeds hstep with hsame | ⟨d, hnew⟩
      · exact ⟨deeds, by rw [hdeeds, hsame], hsublist.cons i⟩
      · refine ⟨(i, d) :: deeds, ?_, hsublist.cons_cons i⟩
        rw [hdeeds, hnew, List.append_assoc, List.singleton_append]

/-! ## Jobs one after the other -/

theorem interleave_over (h : pool.courses[i]? = some (.ended result)) (n : Nat) :
    pool.interleave normal keyOf c (List.replicate n i) = pure pool := by
  induction n with
  | zero => rfl
  | succ n ih => rw [List.replicate_succ, interleave, workOn_over h, pure_bind, ih]

theorem interleave_ended (h : pool.AtWork i a) (n : Nat) {deed : Deed}
    (hstep : (a.step normal keyOf c).run s = ⟨events, t, .ok (deed, .ended result)⟩) :
    (pool.interleave normal keyOf c (List.replicate (n + 1) i)).run s =
      ⟨events, t, .ok (pool.workedOn i deed (.ended result))⟩ := by
  rw [List.replicate_succ, interleave, Lookup.run_bind_ok (workOn_run h hstep),
    interleave_over (course_workedOn h deed _)]
  simp

/-- The other pool differs in one job, which has come to its result, and in what was done. -/
def Completes (pool : Pool σ K κ) (i : Nat) (result : Except Failure (List Profile))
    (pool' : Pool σ K κ) : Prop := pool'.courses = pool.courses.set i (.ended result)

theorem interleave_last (h : pool.AtWork i a)
    (hlast : a.members = [] ∨ a.progress.isComplete = true) (n : Nat)
    (hfinish : ((Course.asking a).finish normal keyOf c).run s = ⟨events, t, result⟩) :
    ∃ pool', (pool.interleave normal keyOf c (List.replicate (n + 1) i)).run s =
      ⟨events, t, .ok pool'⟩ ∧ pool.Completes i result pool' := by
  have hkept := Lookup.run_map (c.keep a.found) (fun _ => a.found) s
  rw [Course.finish_last hlast] at hfinish
  obtain ⟨rfl, rfl, rfl⟩ := Run.mk.inj (hkept.symm.trans hfinish)
  rcases hrun : (c.keep a.found).run s with ⟨events, t, kept⟩
  cases kept with
  | ok _ => exact ⟨_, interleave_ended h n (Asking.step_stored hlast hrun), rfl⟩
  | error f => exact ⟨_, interleave_ended h n (Asking.step_not_stored hlast hrun), rfl⟩

/-- Without a break a job comes to what is still to be done by it, whatever the other jobs did
before. -/
theorem interleave_replicate (h : pool.AtWork i a) {n : Nat}
    (hn : a.members.length < n)
    (hfinish : ((Course.asking a).finish normal keyOf c).run s = ⟨events, t, result⟩) :
    ∃ pool', (pool.interleave normal keyOf c (List.replicate n i)).run s =
      ⟨events, t, .ok pool'⟩ ∧ pool.Completes i result pool' := by
  -- By induction on the steps that are left.
  induction n generalizing pool a s t events result with
  | zero => exact absurd hn (Nat.not_lt_zero _)
  | succ n ih =>
    by_cases hlast : a.members = [] ∨ a.progress.isComplete = true
    · exact interleave_last h hlast n hfinish
    obtain ⟨hmembers, hopen⟩ := not_or.mp hlast
    obtain ⟨⟨label, q⟩, rest, hmembers⟩ := List.exists_cons_of_ne_nil hmembers
    rw [Course.finish_ask hmembers hopen] at hfinish
    rcases hall : (q.all a.progress.missing).run s with ⟨first, u, answer⟩
    cases answer with
    | error f =>
      rw [Lookup.run_bind_error hall] at hfinish
      obtain ⟨rfl, rfl, rfl⟩ := Run.mk.inj hfinish
      exact ⟨_, interleave_ended h n (Asking.step_not_answered hmembers hopen hall), rfl⟩
    | ok answer =>
      have hstep : (a.step normal keyOf c).run s = _ := Asking.step_answered hmembers hopen hall
      have hlog : (Lookup.emit (.log (Asking.answeredRecord label answer a.progress))).run u =
        ⟨[.log (Asking.answeredRecord label answer a.progress)], u, .ok ()⟩ := rfl
      rw [Lookup.run_bind_ok hall, Lookup.run_bind_ok hlog] at hfinish
      rcases hrest : ((Course.asking (a.told normal keyOf answer)).finish normal keyOf c).run u
        with ⟨more, v, last⟩
      rw [hrest] at hfinish
      obtain ⟨rfl, rfl, rfl⟩ := Run.mk.inj hfinish
      have hless : (a.told normal keyOf answer).members.length < n := by
        rw [hmembers] at hn
        simpa [Asking.told, hmembers] using hn
      obtain ⟨pool', hsteps, hcompletes⟩ :=
        ih (course_workedOn h (.answered label answer) _) hless hrest
      refine ⟨pool', ?_, ?_⟩
      · rw [List.replicate_succ, interleave, Lookup.run_bind_ok (workOn_run h hstep), hsteps]
        simp only [List.append_assoc]
      · rw [Completes, hcompletes, workedOn, List.set_set]

/-- **Jobs that nobody comes between go as the workers run them.** If every job is worked on until
it is over before the next one is begun, the same is seen, the state is the same, and each job has
come to the outcome that it has as a batch. -/
theorem interleave_runAll {members : List (String × Queries σ K)} {jobs : List (Nat × List K)}
    (hdistinct : (jobs.map Prod.fst).Nodup)
    (hstart : ∀ job ∈ jobs, pool.AtWork job.1 (.start normal members job.2))
    {n : Nat} (hn : members.length < n) (s : σ) :
    ∃ events t outcomes pool',
      (Workers.runAll jobs ((Queries.combined normal keyOf members).keeping c).all).run s =
        ⟨events, t, .ok outcomes⟩ ∧
      (pool.interleave normal keyOf c (jobs.flatMap fun job => List.replicate n job.1)).run s =
        ⟨events, t, .ok pool'⟩ ∧
      (∀ o ∈ outcomes, pool'.courses[o.1]? = some (.ended o.2)) ∧
      ∀ j, j ∉ jobs.map Prod.fst → pool'.courses[j]? = pool.courses[j]? := by
  induction jobs generalizing pool s with
  | nil => exact ⟨[], s, [], pool, rfl, rfl, fun o ho => absurd ho List.not_mem_nil, fun j _ => rfl⟩
  | cons job rest ih =>
    obtain ⟨hnew, hdistinct⟩ := List.nodup_cons.mp hdistinct
    rcases hjob : ((Course.asking (.start normal members job.2)).finish normal keyOf c).run s
      with ⟨first, u, result⟩
    have hbegun := hstart job List.mem_cons_self
    obtain ⟨pool₁, hsteps, hcompletes⟩ := interleave_replicate hbegun hn hjob
    have hother : ∀ j, j ≠ job.1 → pool₁.courses[j]? = pool.courses[j]? := fun j hj => by
      rw [hcompletes, List.getElem?_set_ne hj.symm]
    have hover : pool₁.courses[job.1]? = some (.ended result) := by
      rw [hcompletes]
      exact List.getElem?_set_self (List.getElem?_eq_some_iff.mp hbegun).1
    have hbefore : ∀ other ∈ rest, pool₁.AtWork other.1 (.start normal members other.2) := by
      intro other hmem
      rw [AtWork, hother _ fun heq => hnew (heq ▸ List.mem_map_of_mem hmem)]
      exact hstart other (List.mem_cons_of_mem job hmem)
    obtain ⟨more, t, outcomes, pool₂, hrest, hmore, houtcomes, hothers⟩ := ih hdistinct hbefore u
    refine ⟨first ++ more, t, (job.1, result) :: outcomes, pool₂, ?_, ?_, fun o ho => ?_,
      fun j hj => ?_⟩
    · have hwork : (((Queries.combined normal keyOf members).keeping c).all job.2).attempt.run s =
          ⟨first, u, .ok result⟩ := by
        rw [Lookup.run_attempt, ← Course.finish_start, hjob]
      rw [Workers.runAll_cons, Lookup.run_bind_ok hwork, Lookup.run_bind_ok hrest]
      simp
    · rw [List.flatMap_cons, interleave_append, Lookup.run_bind_ok hsteps, hmore]
    · rcases List.mem_cons.mp ho with rfl | ho
      · rw [hothers job.1 hnew]
        exact hover
      · exact houtcomes o ho
    · rw [List.map_cons] at hj
      rw [hothers j (List.not_mem_of_not_mem_cons hj), hother j (List.ne_of_not_mem_cons hj)]

end Pool

end PlayerLookup
