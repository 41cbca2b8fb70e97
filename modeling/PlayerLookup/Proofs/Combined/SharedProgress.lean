import Mathlib.Logic.Function.Basic
import PlayerLookup.Proofs.Combined.Progress

/-! A progress that callers share. Every call has the lock from its start to its end, so whatever
the callers do, their calls come one after the other in some order. What a call is told follows from
the calls that came before it, whoever made them: of the calls that mark a key the first is told so,
and nothing is missing that was marked or marked that is missing. -/

set_option autoImplicit false

namespace PlayerLookup.Progress

variable {ι K κ : Type}

/-! ## Calls and callers -/

inductive Call (K : Type) where
  | markFound (key : K)
  | missing
  | isComplete
  | requestStop
  | stopRequested

inductive Answer (K : Type) where
  | truth (value : Bool)
  | keys (ks : List K)
  | nothing

/-- A caller, by the call to make next; what comes after it may depend on the answer. -/
inductive Caller (K : Type) where
  | finished
  | calls (call : Call K) (next : Answer K → Caller K)

structure Entry (ι K : Type) where
  caller : ι
  call : Call K
  answer : Answer K

/-- The entries are calls of the caller, in the order in which it makes them. -/
def Caller.Makes : Caller K → List (Entry ι K) → Prop
  | _, [] => True
  | .finished, _ :: _ => False
  | .calls call next, e :: rest => e.call = call ∧ (next e.answer).Makes rest

variable [DecidableEq κ]

/-- What a call is told, and the progress after it. -/
def serve (normal : K → κ) (pr : Progress K κ) : Call K → Answer K × Progress K κ
  | .markFound key =>
    let (first, after) := pr.markFound normal key
    (.truth first, after)
  | .missing => (.keys pr.missing, pr)
  | .isComplete => (.truth pr.isComplete, pr)
  | .requestStop => (.nothing, pr.requestStop)
  | .stopRequested => (.truth pr.stopRequested, pr)

/-- The calls that callers make when the lock goes to them in the given order. To a caller that has
finished the lock is of no use. -/
def interleave [DecidableEq ι] (normal : K → κ) :
    List ι → (ι → Caller K) → Progress K κ → List (Entry ι K)
  | [], _, _ => []
  | i :: order, callers, pr =>
    match callers i with
    | .finished => interleave normal order callers pr
    | .calls call next =>
      let (answer, after) := pr.serve normal call
      ⟨i, call, answer⟩ ::
        interleave normal order (Function.update callers i (next answer)) after

/-! ## What calls are told -/

/-- The keys that calls have marked, be it for the first time or not. -/
def marksIn (log : List (Entry ι K)) : List K :=
  log.filterMap fun e =>
    match e.call with
    | .markFound key => some key
    | _ => none

/-- The answer to a call, said in terms of the calls before it. -/
def Entry.ToldRight (normal : K → κ) (keys : List K) (before : List (Entry ι K))
    (e : Entry ι K) : Prop :=
  match e.call with
  | .markFound key => ∃ first, e.answer = .truth first ∧
      (first = true ↔ ∀ m ∈ marksIn before, normal m ≠ normal key)
  | .missing => e.answer = .keys ((keys.eraseDupsBy fun a b => normal a == normal b).filter
      fun k => ∀ m ∈ marksIn before, normal m ≠ normal k)
  | .isComplete => ∃ complete, e.answer = .truth complete ∧
      (complete = true ↔ ∀ k ∈ keys, ∃ m ∈ marksIn before, normal m = normal k)
  | .requestStop => e.answer = .nothing
  | .stopRequested => ∃ stop, e.answer = .truth stop ∧
      (stop = true ↔ ∃ earlier ∈ before, earlier.call = .requestStop)

variable {normal : K → κ} {keys : List K}

omit [DecidableEq κ] in
theorem not_mem_map_iff {ms : List K} {k : K} :
    normal k ∉ ms.map normal ↔ ∀ m ∈ ms, normal m ≠ normal k := by
  simp only [List.mem_map, not_exists, not_and, ne_eq]

theorem unmarkedKeys_map (ms : List K) :
    unmarkedKeys normal keys (ms.map normal) =
      (keys.eraseDupsBy fun a b => normal a == normal b).filter
        fun k => ∀ m ∈ ms, normal m ≠ normal k := by
  rw [unmarkedKeys, Batch.uniqueBy_eq_eraseDupsBy]
  refine List.filter_congr fun k _ => ?_
  rw [decide_eq_decide]
  exact not_mem_map_iff

/-- Nothing is left just if every requested key has been marked, in whatever spelling. -/
theorem unmarkedKeys_eq_nil_iff (ms : List K) :
    unmarkedKeys normal keys (ms.map normal) = [] ↔
      ∀ k ∈ keys, ∃ m ∈ ms, normal m = normal k := by
  calc unmarkedKeys normal keys (ms.map normal) = []
      ↔ ∀ form ∈ (Batch.uniqueBy normal keys).map normal, form ∈ ms.map normal := by
        rw [unmarkedKeys, List.filter_eq_nil_iff, List.forall_mem_map]
        simp only [decide_eq_true_eq, not_not]
    _ ↔ ∀ form ∈ keys.map normal, form ∈ ms.map normal := by
        simp only [Batch.mem_map_uniqueBy]
    _ ↔ ∀ k ∈ keys, ∃ m ∈ ms, normal m = normal k := by
        rw [List.forall_mem_map]
        simp only [List.mem_map]

/-! ## A call, and all calls -/

/-- The progress is what the calls of the log made of it. -/
structure Records (normal : K → κ) (keys : List K) (log : List (Entry ι K)) (pr : Progress K κ) :
    Prop where
  marks : pr.Marks normal keys ((marksIn log).map normal)
  stop_iff : pr.stopRequested = true ↔ ∃ e ∈ log, e.call = .requestStop

variable {log : List (Entry ι K)} {pr : Progress K κ}

theorem marksIn_concat (log : List (Entry ι K)) (e : Entry ι K) :
    marksIn (log ++ [e]) = marksIn log ++ marksIn [e] := List.filterMap_append

theorem stop_concat_iff {e : Entry ι K} : (∃ e' ∈ log ++ [e], e'.call = .requestStop) ↔
    (∃ e' ∈ log, e'.call = .requestStop) ∨ e.call = .requestStop := by
  simp only [List.mem_append, List.mem_singleton]
  constructor
  · rintro ⟨e', he' | rfl, hcall⟩
    · exact Or.inl ⟨e', he', hcall⟩
    · exact Or.inr hcall
  · rintro (⟨e', he', hcall⟩ | hcall)
    · exact ⟨e', Or.inl he', hcall⟩
    · exact ⟨e, Or.inr rfl, hcall⟩

theorem Records.quiet (h : pr.Records normal keys log) {e : Entry ι K} (hmarks : marksIn [e] = [])
    (hstop : e.call ≠ .requestStop) : pr.Records normal keys (log ++ [e]) where
  marks := by
    rw [marksIn_concat, hmarks, List.append_nil]
    exact h.marks
  stop_iff := by
    rw [h.stop_iff, stop_concat_iff]
    simp [hstop]

theorem Records.markFound (h : pr.Records normal keys log) {e : Entry ι K} {key : K}
    (hcall : e.call = .markFound key) :
    (pr.markFound normal key).2.Records normal keys (log ++ [e]) := by
  have hmarks : (marksIn (log ++ [e])).map normal = (marksIn log).map normal ++ [normal key] := by
    rw [marksIn_concat, List.map_append]
    simp [marksIn, hcall]
  have hstop : e.call ≠ .requestStop := by simp [hcall]
  by_cases hkey : normal key ∈ pr.reported
  · rw [markFound_reported hkey]
    refine ⟨?_, ?_⟩
    · rw [hmarks]
      exact h.marks.again hkey
    · rw [h.stop_iff, stop_concat_iff]
      simp [hstop]
  · rw [markFound_fresh hkey]
    refine ⟨?_, ?_⟩
    · rw [hmarks]
      exact h.marks.marked (normal key)
    · rw [stop_concat_iff, ← h.stop_iff]
      simp [hstop, Progress.marked]

theorem Records.requestStop (h : pr.Records normal keys log) {e : Entry ι K}
    (hcall : e.call = .requestStop) : pr.requestStop.Records normal keys (log ++ [e]) where
  marks := by
    have hmarks : marksIn [e] = [] := by simp [marksIn, hcall]
    rw [marksIn_concat, hmarks, List.append_nil]
    exact ⟨h.marks.remaining_eq, h.marks.mem_reported⟩
  stop_iff := by
    rw [stop_concat_iff]
    simp [Progress.requestStop, hcall]

theorem Records.serve (h : pr.Records normal keys log) (i : ι) (call : Call K) :
    (⟨i, call, (pr.serve normal call).1⟩ : Entry ι K).ToldRight normal keys log ∧
      (pr.serve normal call).2.Records normal keys
        (log ++ [⟨i, call, (pr.serve normal call).1⟩]) := by
  cases call with
  | markFound key =>
    refine ⟨⟨(pr.markFound normal key).1, rfl, ?_⟩, h.markFound rfl⟩
    rw [← not_mem_map_iff, ← h.marks.mem_reported]
    by_cases hkey : normal key ∈ pr.reported
    · simp [markFound_reported hkey, hkey]
    · simp [markFound_fresh hkey, hkey]
  | missing =>
    refine ⟨?_, h.quiet rfl (by simp)⟩
    change Answer.keys pr.missing = _
    rw [h.marks.missing_eq, unmarkedKeys_map]
  | isComplete =>
    refine ⟨⟨pr.isComplete, rfl, ?_⟩, h.quiet rfl (by simp)⟩
    rw [h.marks.isComplete_iff, unmarkedKeys_eq_nil_iff]
  | requestStop => exact ⟨rfl, h.requestStop rfl⟩
  | stopRequested => exact ⟨⟨pr.stopRequested, rfl, h.stop_iff⟩, h.quiet rfl (by simp)⟩

theorem records_ofKeys (normal : K → κ) (keys : List K) :
    (ofKeys normal keys).Records normal keys ([] : List (Entry ι K)) :=
  ⟨marks_ofKeys normal keys, by simp [ofKeys]⟩

variable [DecidableEq ι]

theorem Records.interleave (order : List ι) :
    ∀ (callers : ι → Caller K) (pr : Progress K κ) (log : List (Entry ι K)),
      pr.Records normal keys log → ∀ before e after,
        interleave normal order callers pr = before ++ e :: after →
          e.ToldRight normal keys (log ++ before) := by
  -- By induction on the order; the log grows by every call that is made.
  induction order with
  | nil =>
    intro callers pr log _ before e after hsplit
    simp [Progress.interleave] at hsplit
  | cons i order ih =>
    intro callers pr log h before e after hsplit
    rw [Progress.interleave] at hsplit
    cases hcaller : callers i with
    | finished =>
      rw [hcaller] at hsplit
      exact ih callers pr log h before e after hsplit
    | calls call next =>
      rw [hcaller] at hsplit
      obtain ⟨htold, hafter⟩ := h.serve i call
      obtain ⟨rfl, hcons⟩ | ⟨rest, rfl, hrest⟩ := List.cons_eq_append_iff.mp hsplit
      · obtain ⟨rfl, -⟩ := List.cons.inj hcons
        rw [List.append_nil]
        exact htold
      · have hnext := ih _ _ _ hafter rest e after hrest
        rwa [List.append_assoc] at hnext

theorem makes_interleave (normal : K → κ) (order : List ι) :
    ∀ (callers : ι → Caller K) (pr : Progress K κ) (i : ι),
      (callers i).Makes ((interleave normal order callers pr).filter (·.caller = i)) := by
  -- By induction on the order; only the caller who has the lock moves on to another call.
  induction order with
  | nil =>
    intro callers pr i
    cases callers i <;> trivial
  | cons j order ih =>
    intro callers pr i
    rw [interleave]
    cases hcaller : callers j with
    | finished => exact ih callers pr i
    | calls call next =>
      have hrest := ih (Function.update callers j (next (pr.serve normal call).1))
        (pr.serve normal call).2 i
      dsimp only
      by_cases hij : j = i
      · subst hij
        rw [Function.update_self] at hrest
        rw [List.filter_cons_of_pos (by simp), hcaller]
        exact ⟨rfl, hrest⟩
      · rw [Function.update_of_ne (Ne.symm hij)] at hrest
        rw [List.filter_cons_of_neg (by simpa using hij)]
        exact hrest

/-- **What callers of a shared progress are told.** In whatever order callers get the lock, and
however their calls depend on what they are told: a call that marks a key is told that it is the
first just if no call before it has marked the key in any spelling; missing are the requested keys
that no call has marked, in their first spellings and in order; the progress is complete just if
there are none; and a stop was requested just if a call has requested it. -/
theorem shared_progress_tells_history (normal : K → κ) (keys : List K) (order : List ι)
    (callers : ι → Caller K) :
    let log := interleave normal order callers (ofKeys normal keys)
    (∀ i, (callers i).Makes (log.filter (·.caller = i))) ∧
      ∀ before e after, log = before ++ e :: after → e.ToldRight normal keys before := by
  intro log
  refine ⟨makes_interleave normal order callers (ofKeys normal keys), ?_⟩
  intro before e after hsplit
  have htold := Records.interleave order callers _ [] (records_ofKeys normal keys) before e after
    hsplit
  rwa [List.nil_append] at htold

end PlayerLookup.Progress
