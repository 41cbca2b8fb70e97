import PlayerLookup.Progress
import PlayerLookup.Proofs.Foundations.Batch

/-! What a progress says of a request and of the profiles that were found for it so far. -/

set_option autoImplicit false

namespace PlayerLookup

variable {K κ σ α : Type} [DecidableEq κ]

section Keys

variable (normal : K → κ) (keys : List K)

/-- The requested keys, each in its first spelling and in order, whose normal forms are not marked.
-/
def unmarkedKeys (ms : List κ) : List K :=
  (Batch.uniqueBy normal keys).filter fun k => normal k ∉ ms

theorem unmarkedKeys_nil : unmarkedKeys normal keys [] = Batch.uniqueBy normal keys := by
  rw [unmarkedKeys, List.filter_eq_self]
  intro k _
  simp

theorem unmarkedKeys_concat (ms : List κ) (m : κ) :
    unmarkedKeys normal keys (ms ++ [m]) =
      (unmarkedKeys normal keys ms).filter fun k => normal k != m := by
  rw [unmarkedKeys, unmarkedKeys, List.filter_filter]
  refine List.filter_congr fun k _ => ?_
  rw [Bool.eq_iff_iff]
  simp only [decide_eq_true_eq, List.mem_append, List.mem_singleton, not_or, Bool.and_eq_true,
    bne_iff_ne, ne_eq]
  exact and_comm

end Keys

/-- The requested keys, each in its first spelling and in order, that no profile so far has. -/
def openKeys (normal : K → κ) (keyOf : Profile → K) (keys : List K) (found : List Profile) :
    List K :=
  (Batch.uniqueBy normal keys).filter fun k => normal k ∉ found.map fun p => normal (keyOf p)

variable (normal : K → κ) (keyOf : Profile → K) (keys : List K)

theorem openKeys_nil : openKeys normal keyOf keys [] = Batch.uniqueBy normal keys :=
  unmarkedKeys_nil normal keys

namespace Progress

/-! ## Keys found -/

/-- The progress after a key was found for the first time. -/
def marked (pr : Progress K κ) (k : κ) : Progress K κ :=
  { pr with remaining := pr.remaining.filter fun e => e.1 != k, reported := k :: pr.reported }

variable {normal keyOf keys} {pr : Progress K κ} {key : K}

theorem markFound_reported (h : normal key ∈ pr.reported) :
    pr.markFound normal key = (false, pr) := by
  unfold markFound
  exact if_pos h

theorem markFound_fresh (h : normal key ∉ pr.reported) :
    pr.markFound normal key = (true, pr.marked (normal key)) := by
  unfold markFound
  exact if_neg h

theorem accept_reported {p : Profile} (h : normal (keyOf p) ∈ pr.reported) (rest : List Profile) :
    pr.accept normal keyOf (p :: rest) = pr.accept normal keyOf rest := by
  rw [accept, markFound_reported h]
  rfl

theorem accept_fresh {p : Profile} (h : normal (keyOf p) ∉ pr.reported) (rest : List Profile) :
    pr.accept normal keyOf (p :: rest) =
      (p :: ((pr.marked (normal (keyOf p))).accept normal keyOf rest).1,
        ((pr.marked (normal (keyOf p))).accept normal keyOf rest).2) := by
  rw [accept, markFound_fresh h]
  rfl

/-! ## What a progress has been told -/

/-- Just these normal forms have been marked. -/
structure Marks (normal : K → κ) (keys : List K) (ms : List κ) (pr : Progress K κ) : Prop where
  remaining_eq : pr.remaining = (unmarkedKeys normal keys ms).map fun k => (normal k, k)
  mem_reported : ∀ k, k ∈ pr.reported ↔ k ∈ ms

variable {ms : List κ} {m : κ}

theorem marks_ofKeys (normal : K → κ) (keys : List K) :
    (ofKeys normal keys).Marks normal keys [] where
  remaining_eq := by
    rw [unmarkedKeys_nil]
    exact Batch.uniqueFrom_map Prod.fst (fun k => (normal k, k)) [] keys
  mem_reported k := Iff.rfl

theorem Marks.missing_eq (h : pr.Marks normal keys ms) :
    pr.missing = unmarkedKeys normal keys ms := by
  rw [missing, h.remaining_eq, List.map_map]
  exact List.map_id _

theorem Marks.isComplete_iff (h : pr.Marks normal keys ms) :
    pr.isComplete = true ↔ unmarkedKeys normal keys ms = [] := by
  rw [isComplete, h.remaining_eq, List.isEmpty_iff, List.map_eq_nil_iff]

theorem Marks.again (h : pr.Marks normal keys ms) (hm : m ∈ pr.reported) :
    pr.Marks normal keys (ms ++ [m]) where
  remaining_eq := by
    rw [h.remaining_eq, unmarkedKeys_concat, List.filter_eq_self.mpr]
    intro k hk
    rw [unmarkedKeys, List.mem_filter, decide_eq_true_eq] at hk
    rw [bne_iff_ne]
    intro heq
    rw [← heq, h.mem_reported] at hm
    exact hk.2 hm
  mem_reported k := by
    rw [h.mem_reported, List.mem_append, List.mem_singleton]
    constructor
    · exact Or.inl
    · rintro (hk | rfl)
      · exact hk
      · exact (h.mem_reported _).mp hm

theorem Marks.marked (h : pr.Marks normal keys ms) (m : κ) :
    (pr.marked m).Marks normal keys (ms ++ [m]) where
  remaining_eq := by
    change pr.remaining.filter _ = _
    rw [h.remaining_eq, unmarkedKeys_concat, List.filter_map]
    rfl
  mem_reported k := by
    change k ∈ m :: pr.reported ↔ _
    rw [List.mem_cons, h.mem_reported, List.mem_append, List.mem_singleton]
    exact or_comm

/-- The progress has been told of just these profiles. -/
structure Knows (normal : K → κ) (keyOf : Profile → K) (keys : List K) (found : List Profile)
    (pr : Progress K κ) : Prop where
  remaining_eq : pr.remaining = (openKeys normal keyOf keys found).map fun k => (normal k, k)
  mem_reported : ∀ k, k ∈ pr.reported ↔ k ∈ found.map fun p => normal (keyOf p)

variable {found : List Profile}

theorem knows_iff_marks : pr.Knows normal keyOf keys found ↔
    pr.Marks normal keys (found.map fun p => normal (keyOf p)) :=
  ⟨fun h => ⟨h.remaining_eq, h.mem_reported⟩, fun h => ⟨h.remaining_eq, h.mem_reported⟩⟩

theorem knows_concat_iff {p : Profile} : pr.Knows normal keyOf keys (found ++ [p]) ↔
    pr.Marks normal keys ((found.map fun p => normal (keyOf p)) ++ [normal (keyOf p)]) := by
  rw [knows_iff_marks, List.map_append, List.map_singleton]

theorem knows_ofKeys (normal : K → κ) (keyOf : Profile → K) (keys : List K) :
    (ofKeys normal keys).Knows normal keyOf keys [] :=
  knows_iff_marks.mpr (marks_ofKeys normal keys)

theorem Knows.missing_eq (h : pr.Knows normal keyOf keys found) :
    pr.missing = openKeys normal keyOf keys found := (knows_iff_marks.mp h).missing_eq

theorem Knows.isComplete_iff (h : pr.Knows normal keyOf keys found) :
    pr.isComplete = true ↔ openKeys normal keyOf keys found = [] :=
  (knows_iff_marks.mp h).isComplete_iff

theorem Knows.reported (h : pr.Knows normal keyOf keys found) {p : Profile}
    (hp : normal (keyOf p) ∈ pr.reported) : pr.Knows normal keyOf keys (found ++ [p]) :=
  knows_concat_iff.mpr ((knows_iff_marks.mp h).again hp)

theorem Knows.marked (h : pr.Knows normal keyOf keys found) (p : Profile) :
    (pr.marked (normal (keyOf p))).Knows normal keyOf keys (found ++ [p]) :=
  knows_concat_iff.mpr ((knows_iff_marks.mp h).marked _)

theorem Knows.accept (h : pr.Knows normal keyOf keys found) (answer : List Profile) :
    (pr.accept normal keyOf answer).1 =
        Batch.uniqueFrom (fun p => normal (keyOf p)) (found.map fun p => normal (keyOf p)) answer ∧
      (pr.accept normal keyOf answer).2.Knows normal keyOf keys (found ++ answer) := by
  induction answer generalizing pr found with
  | nil =>
    rw [List.append_nil]
    exact ⟨rfl, h⟩
  | cons p rest ih =>
    rw [Batch.uniqueFrom, ← List.singleton_append, ← List.append_assoc, List.singleton_append]
    by_cases hp : normal (keyOf p) ∈ pr.reported
    · rw [accept_reported hp, if_pos ((h.mem_reported _).mp hp)]
      obtain ⟨hfst, hsnd⟩ := ih (h.reported hp)
      refine ⟨?_, hsnd⟩
      rw [hfst]
      refine Batch.uniqueFrom_congr _ (fun k => ?_) rest
      rw [← (h.reported hp).mem_reported, h.mem_reported]
    · have hseen : normal (keyOf p) ∉ found.map fun p => normal (keyOf p) := fun hm =>
        hp ((h.mem_reported _).mpr hm)
      rw [accept_fresh hp, if_neg hseen]
      obtain ⟨hfst, hsnd⟩ := ih (h.marked p)
      refine ⟨?_, hsnd⟩
      dsimp only
      rw [hfst, List.map_append, List.map_singleton]
      congr 1
      refine Batch.uniqueFrom_congr _ (fun k => ?_) rest
      rw [List.mem_append, List.mem_singleton, List.mem_cons]
      exact or_comm

end Progress

end PlayerLookup
