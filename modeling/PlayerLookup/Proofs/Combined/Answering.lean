import PlayerLookup.Proofs.Combined.Turns
import PlayerLookup.Proofs.Combined.Wrapping
import PlayerLookup.Proofs.Foundations.Visits

/-! Combinations of members that each have a fixed answer for every key. A batch has the answers of
the first members that have one, and a visitor is given the same profiles in the same order. Members
after those that together answer all keys are never asked. -/

set_option autoImplicit false

namespace PlayerLookup

variable {σ K κ : Type}

/-! ## Batches of fixed answers -/

/-- The profiles are the answers to the keys, perhaps with repeats. -/
def AnswersTo (keyOf : Profile → K) (answer : K → Option Profile) (keys : List K)
    (ps : List Profile) : Prop :=
  ∀ p, p ∈ ps ↔ keyOf p ∈ keys ∧ answer (keyOf p) = some p

section

variable {keyOf : Profile → K} {answer other : K → Option Profile} {keys : List K}
  {ps qs : List Profile}

theorem AnswersTo.append (h : AnswersTo keyOf answer keys ps)
    (hrest : AnswersTo keyOf other (keys.filter fun k => (answer k).isNone) qs) :
    AnswersTo keyOf (fun k => (answer k).or (other k)) keys (ps ++ qs) := by
  intro p
  rw [List.mem_append, h p, hrest p, List.mem_filter]
  cases hanswer : answer (keyOf p) with
  | none => simp [hanswer]
  | some q => simp [hanswer]

theorem answersTo_filterMap (hkey : ∀ k p, answer k = some p → keyOf p = k) (keys : List K) :
    AnswersTo keyOf answer keys (keys.filterMap answer) := by
  intro p
  rw [List.mem_filterMap]
  constructor
  · rintro ⟨k, hk, hp⟩
    rw [hkey k p hp]
    exact ⟨hk, hp⟩
  · rintro ⟨hk, hp⟩
    exact ⟨keyOf p, hk, hp⟩

theorem AnswersTo.of_filter {wanted : K → Bool}
    (h : AnswersTo keyOf answer (keys.filter wanted) ps) :
    AnswersTo keyOf (fun k => if wanted k then answer k else none) keys ps := by
  intro p
  rw [h p, List.mem_filter]
  cases hwanted : wanted (keyOf p) with
  | true => simp [hwanted]
  | false => simp [hwanted]

end

/-- The profiles are the answers for the keys, one for each key that has an answer. -/
structure FoundFor (keyOf : Profile → K) (answer : K → Option Profile) (keys : List K)
    (ps : List Profile) : Prop where
  distinct : (ps.map keyOf).Nodup
  mem_iff : ∀ p, p ∈ ps ↔ keyOf p ∈ keys ∧ answer (keyOf p) = some p

theorem FoundFor.congr {keyOf : Profile → K} {answer : K → Option Profile} {keys keys' : List K}
    {ps : List Profile} (h : FoundFor keyOf answer keys ps) (hkeys : ∀ k, k ∈ keys ↔ k ∈ keys') :
    FoundFor keyOf answer keys' ps :=
  ⟨h.distinct, fun p => by rw [h.mem_iff, hkeys]⟩

theorem FoundFor.perm {keyOf : Profile → K} {answer : K → Option Profile} {keys : List K}
    {ps qs : List Profile} (h : FoundFor keyOf answer keys ps)
    (h' : FoundFor keyOf answer keys qs) : ps.Perm qs :=
  Batch.perm_of_mem_iff h.distinct h'.distinct fun p => (h.mem_iff p).trans (h'.mem_iff p).symm

theorem AnswersTo.foundFor {answer : PlayerId → Option Profile} {ids : List PlayerId}
    {ps : List Profile} (h : AnswersTo Profile.id answer ids ps) :
    FoundFor Profile.id answer ids (Profile.distinct ps) where
  distinct := Batch.nodup_map_uniqueBy Profile.id ps
  mem_iff p := by
    rw [← h p]
    constructor
    · exact fun hp => (Batch.uniqueFrom_sublist Profile.id [] ps).subset hp
    · intro hp
      have hid := (Batch.mem_map_uniqueBy Profile.id ps p.id).mpr (List.mem_map_of_mem hp)
      obtain ⟨q, hq, hqp⟩ := List.mem_map.mp hid
      have hq' := ((h q).mp ((Batch.uniqueFrom_sublist Profile.id [] ps).subset hq)).2
      rw [hqp, ((h p).mp hp).2] at hq'
      rwa [Option.some.inj hq']

/-- However it is asked, from kept states a source answers each key in the same way. A batch has the
answers for its keys, and a visitor is given just what the batch has, in the same order. -/
structure Queries.Answers (kept : σ → Prop) (own : Event → Prop) (keyOf : Profile → K)
    (answer : K → Option Profile) (q : Queries σ K) : Prop where
  key_eq : ∀ k p, answer k = some p → keyOf p = k
  one : ∀ k, (q.one k).Gives kept own (answer k)
  batch : ∀ keys, ∃ ps, FoundFor keyOf answer keys ps ∧ (q.all keys).Gives kept own ps ∧
    ∀ s, kept s → Delivery.Delivers kept (q.visit keys) s ps ()

/-- What answers in the same way from all states with one value of a part leaves that part alone. -/
theorem Queries.Answers.leavesAlone {τ : Type} {d : Cell σ τ} {own : Event → Prop}
    {keyOf : Profile → K} {answer : K → Option Profile} {q : Queries σ K}
    (h : ∀ v, q.Answers (fun s => d.get s = v) own keyOf answer) (keys : List K) :
    (q.all keys).LeavesAlone d := by
  intro s
  obtain ⟨ps, -, hbatch, -⟩ := (h (d.get s)).batch keys
  obtain ⟨events, t, hrun, ht, -⟩ := hbatch s rfl
  rw [hrun]
  exact ht

def firstAnswer (answers : List (K → Option Profile)) (k : K) : Option Profile :=
  answers.findSome? fun answer => answer k

theorem firstAnswer_cons_none {answer : K → Option Profile} {answers : List (K → Option Profile)}
    {k : K} (h : answer k = none) : firstAnswer (answer :: answers) k = firstAnswer answers k := by
  rw [firstAnswer, List.findSome?_cons, h]
  rfl

theorem firstAnswer_cons_some {answer : K → Option Profile} {answers : List (K → Option Profile)}
    {k : K} {p : Profile} (h : answer k = some p) : firstAnswer (answer :: answers) k = some p := by
  rw [firstAnswer, List.findSome?_cons, h]

theorem firstAnswer_append (xs ys : List (K → Option Profile)) (k : K) :
    firstAnswer (xs ++ ys) k = (firstAnswer xs k).or (firstAnswer ys k) := List.findSome?_append

theorem firstAnswer_singleton (answer : K → Option Profile) (k : K) :
    firstAnswer [answer] k = answer k := by
  cases h : answer k with
  | none => exact firstAnswer_cons_none h
  | some p => exact firstAnswer_cons_some h

section

variable {kept : σ → Prop} {own : Event → Prop} {keyOf : Profile → K}
  {one : K → Lookup σ (Option Profile)} {answer : K → Option Profile}

theorem foundFor_filterMap [DecidableEq K] (hkey : ∀ k p, answer k = some p → keyOf p = k)
    (keys : List K) : FoundFor keyOf answer keys ((Batch.unique keys).filterMap answer) where
  distinct := Batch.nodup_map_filterMap_unique answer keyOf hkey keys
  mem_iff p := by
    rw [answersTo_filterMap hkey (Batch.unique keys) p, Batch.mem_unique]

theorem Queries.gives_collect (h : ∀ k, (one k).Gives kept own (answer k)) (keys : List K) :
    (collect one keys).Gives kept own (keys.filterMap answer) := by
  induction keys with
  | nil => exact Lookup.gives_pure []
  | cons k rest ih =>
    have hsame : (k :: rest).filterMap answer = (answer k).toList ++ rest.filterMap answer := by
      rw [List.filterMap_cons]
      cases answer k <;> rfl
    rw [hsame, collect]
    exact (h k).bind (ih.map fun more => (answer k).toList ++ more)

/-- A source that asks for one key at a time, and for whole batches perhaps otherwise. -/
theorem Queries.answers_of_one [DecidableEq K] (hkey : ∀ k p, answer k = some p → keyOf p = k)
    (hone : ∀ k, (one k).Gives kept own (answer k)) {all : List K → Lookup σ (List Profile)}
    (hall : ∀ keys, (all keys).Gives kept own ((Batch.unique keys).filterMap answer)) :
    Answers kept own keyOf answer { ofOne one with all := all } where
  key_eq := hkey
  one := hone
  batch keys := ⟨_, foundFor_filterMap hkey keys, hall keys,
    fun _ hs => delivers_visitEach hone (Batch.unique keys) hs⟩

theorem Queries.answers_ofOne [DecidableEq K] (hkey : ∀ k p, answer k = some p → keyOf p = k)
    (hone : ∀ k, (one k).Gives kept own (answer k)) : Answers kept own keyOf answer (ofOne one) :=
  answers_of_one hkey hone fun keys => gives_collect hone (Batch.unique keys)

end

/-! ## Open keys -/

variable [DecidableEq κ] {normal : K → κ} {keyOf : Profile → K} {keys : List K}
  {earlier found : List Profile} {answer : K → Option Profile}

theorem nodup_map_openKeys (normal : K → κ) (keyOf : Profile → K) (keys : List K)
    (earlier : List Profile) : ((openKeys normal keyOf keys earlier).map normal).Nodup :=
  (Batch.nodup_map_uniqueBy normal keys).sublist (List.filter_sublist.map normal)

theorem normal_injOn_openKeys {j k : K} (hj : j ∈ openKeys normal keyOf keys earlier)
    (hk : k ∈ openKeys normal keyOf keys earlier) (h : normal j = normal k) : j = k :=
  List.inj_on_of_nodup_map (nodup_map_openKeys normal keyOf keys earlier) hj hk h

theorem openKeys_append (earlier found : List Profile) :
    openKeys normal keyOf keys (earlier ++ found) =
      (openKeys normal keyOf keys earlier).filter fun k =>
        normal k ∉ found.map fun p => normal (keyOf p) := by
  rw [openKeys, openKeys, List.filter_filter]
  refine List.filter_congr fun k _ => ?_
  rw [List.map_append, Bool.eq_iff_iff]
  simp only [decide_eq_true_eq, List.mem_append, not_or, Bool.and_eq_true]
  exact and_comm

theorem FoundFor.fresh (h : FoundFor keyOf answer (openKeys normal keyOf keys earlier) found) :
    (found.map fun p => normal (keyOf p)).Nodup ∧
      ∀ p ∈ found, normal (keyOf p) ∉ earlier.map fun q => normal (keyOf q) := by
  constructor
  · have hmap : (found.map fun p => normal (keyOf p)) = (found.map keyOf).map normal := by
      rw [List.map_map]
      rfl
    rw [hmap]
    refine h.distinct.map_on fun j hj k hk hjk => ?_
    obtain ⟨p, hp, rfl⟩ := List.mem_map.mp hj
    obtain ⟨q, hq, rfl⟩ := List.mem_map.mp hk
    exact normal_injOn_openKeys ((h.mem_iff p).mp hp).1 ((h.mem_iff q).mp hq).1 hjk
  · intro p hp
    have hopen := ((h.mem_iff p).mp hp).1
    rw [openKeys, List.mem_filter, decide_eq_true_eq] at hopen
    exact hopen.2

theorem FoundFor.mem_openKeys (hkey : ∀ k p, answer k = some p → keyOf p = k)
    (h : FoundFor keyOf answer (openKeys normal keyOf keys earlier) found) (k : K) :
    k ∈ openKeys normal keyOf keys (earlier ++ found) ↔
      k ∈ openKeys normal keyOf keys earlier ∧ answer k = none := by
  rw [openKeys_append, List.mem_filter, decide_eq_true_eq]
  refine and_congr_right fun hk => ?_
  constructor
  · intro hnot
    cases hanswer : answer k with
    | none => rfl
    | some p =>
      have hp : p ∈ found := by
        rw [h.mem_iff, hkey k p hanswer]
        exact ⟨hk, hanswer⟩
      refine absurd (List.mem_map.mpr ⟨p, hp, ?_⟩) hnot
      rw [hkey k p hanswer]
  · intro hnone hmem
    obtain ⟨p, hp, hnormal⟩ := List.mem_map.mp hmem
    obtain ⟨hopen, hanswer⟩ := (h.mem_iff p).mp hp
    rw [normal_injOn_openKeys hopen hk hnormal, hnone] at hanswer
    cases hanswer

/-- The answers of one member, and those of the others for the keys that it left open. -/
theorem FoundFor.append (hkey : ∀ k p, answer k = some p → keyOf p = k)
    {answers : List (K → Option Profile)} {more : List Profile}
    (h : FoundFor keyOf answer (openKeys normal keyOf keys earlier) found)
    (hmore : FoundFor keyOf (firstAnswer answers)
      (openKeys normal keyOf keys (earlier ++ found)) more) :
    FoundFor keyOf (firstAnswer (answer :: answers)) (openKeys normal keyOf keys earlier)
      (found ++ more) where
  distinct := by
    rw [List.map_append]
    refine h.distinct.append hmore.distinct fun k hk hk' => ?_
    obtain ⟨p, hp, rfl⟩ := List.mem_map.mp hk
    obtain ⟨q, hq, hqp⟩ := List.mem_map.mp hk'
    have hnone := ((h.mem_openKeys hkey _).mp ((hmore.mem_iff q).mp hq).1).2
    rw [hqp, ((h.mem_iff p).mp hp).2] at hnone
    cases hnone
  mem_iff p := by
    rw [List.mem_append, h.mem_iff, hmore.mem_iff, h.mem_openKeys hkey]
    cases hanswer : answer (keyOf p) with
    | none => simp [firstAnswer_cons_none hanswer]
    | some q => simp [firstAnswer_cons_some hanswer]

/-! ## Members in turn -/

namespace Progress

variable {pr : Progress K κ}

theorem stopRequested_accept (normal : K → κ) (keyOf : Profile → K) (pr : Progress K κ)
    (found : List Profile) :
    (pr.accept normal keyOf found).2.stopRequested = pr.stopRequested := by
  induction found generalizing pr with
  | nil => rfl
  | cons p rest ih =>
    by_cases hp : normal (keyOf p) ∈ pr.reported
    · rw [accept_reported hp, ih]
    · rw [accept_fresh hp, ih]
      rfl

theorem delivers_forward {α : Type} {kept : σ → Prop} {d : Delivery σ α} {s : σ} {a : α}
    (hd : Delivery.Delivers kept d s found a)
    (hdistinct : (found.map fun p => normal (keyOf p)).Nodup)
    (hfresh : ∀ p ∈ found, normal (keyOf p) ∉ pr.reported) :
    Delivery.Delivers kept (pr.forward normal keyOf d) s found
      (a, (pr.accept normal keyOf found).2) := by
  induction hd generalizing pr with
  | done a hs => exact .done _ hs
  | read _ ih => exact .read (ih hdistinct hfresh)
  | write _ ih => exact .write (ih hdistinct hfresh)
  | @give p next s rest a hs _ ih =>
    rw [List.map_cons, List.nodup_cons] at hdistinct
    have hp := hfresh p List.mem_cons_self
    rw [forward_give_fresh hp, accept_fresh hp]
    refine .give hs fun d t hd ht => ?_
    have hanswered : (pr.marked (normal (keyOf p))).answered (.ok d) =
        pr.marked (normal (keyOf p)) := by
      rw [answered, if_neg (by simp [hd])]
    rw [hanswered]
    refine ih d t hd ht hdistinct.2 fun q hq => ?_
    change normal (keyOf q) ∉ normal (keyOf p) :: pr.reported
    rw [List.mem_cons]
    rintro (heq | hm)
    · refine hdistinct.1 ?_
      rw [← heq]
      exact List.mem_map.mpr ⟨q, hq, rfl⟩
    · exact hfresh q (List.mem_cons_of_mem p hq) hm

end Progress

namespace Queries

variable {kept : σ → Prop} {own : Event → Prop}

/-- What comes of members in turn, for a batch and for a visitor. -/
structure ComeTo (kept : σ → Prop) (own : Event → Prop) (normal : K → κ) (keyOf : Profile → K)
    (members : List (String × Queries σ K)) (pr : Progress K κ) (ps : List Profile) : Prop where
  batch : (collectMembers normal keyOf members pr).Gives kept own ps
  visit : ∀ s, kept s →
    Delivery.Delivers kept (visitMembers normal keyOf (members.map Prod.snd) pr) s ps ()

theorem comeTo_complete {pr : Progress K κ} (h : pr.isComplete = true)
    (members : List (String × Queries σ K)) : ComeTo kept own normal keyOf members pr [] where
  batch := Lookup.gives_of_still fun _ _ => collectMembers_complete h members
  visit s hs := by
    cases members with
    | nil => exact .done () hs
    | cons m rest =>
      rw [List.map_cons, visitMembers, if_pos (by simp [h])]
      exact .done () hs

theorem comeTo_nil {pr : Progress K κ} : ComeTo kept own normal keyOf [] pr [] where
  batch := Lookup.gives_pure []
  visit _ hs := .done () hs

theorem ComeTo.cons {pr : Progress K κ} {label : String} {q : Queries σ K}
    {members : List (String × Queries σ K)} {more : List Profile}
    (hown : ∀ e, e.IsLogOf .combinedSource → own e)
    (hknows : pr.Knows normal keyOf keys earlier) (hopen : ¬ pr.isComplete = true)
    (hstop : pr.stopRequested = false)
    (hfound : FoundFor keyOf answer (openKeys normal keyOf keys earlier) found)
    (hbatch : (q.all (openKeys normal keyOf keys earlier)).Gives kept own found)
    (hvisit : ∀ s, kept s → Delivery.Delivers kept
      (q.visit (openKeys normal keyOf keys earlier)) s found ())
    (h : ComeTo kept own normal keyOf members (pr.accept normal keyOf found).2 more) :
    ComeTo kept own normal keyOf ((label, q) :: members) pr (found ++ more) := by
  obtain ⟨hdistinct, hfresh⟩ := hfound.fresh
  have haccepted : (pr.accept normal keyOf found).1 = found := by
    rw [(hknows.accept found).1]
    exact Batch.uniqueFrom_eq_self _ hdistinct hfresh
  rw [← hknows.missing_eq] at hbatch hvisit
  constructor
  · have hrest := h.batch.map fun ps => (pr.accept normal keyOf found).1 ++ ps
    rw [haccepted] at hrest
    rw [collectMembers, if_neg hopen]
    refine hbatch.bind (.bind (Lookup.gives_log ?_) ?_)
    · exact hown _ ⟨_, rfl, rfl⟩
    · rw [haccepted]
      exact hrest
  · intro s hs
    rw [List.map_cons, visitMembers, if_neg (by simp [hopen, hstop])]
    have hreported : ∀ p ∈ found, normal (keyOf p) ∉ pr.reported := fun p hp hm =>
      hfresh p hp ((hknows.mem_reported _).mp hm)
    exact (Progress.delivers_forward (hvisit s hs) hdistinct hreported).bind fun t ht =>
      h.visit t ht

/-- Members with fixed answers, and others after them that are not there or not needed, come to the
first answers for the open keys. -/
theorem comeTo_firstAnswers {members : List (String × Queries σ K)}
    {answers : List (K → Option Profile)} (hown : ∀ e, e.IsLogOf .combinedSource → own e)
    (h : List.Forall₂ (fun m answer => m.2.Answers kept own keyOf answer) members answers)
    (others : List (String × Queries σ K)) (earlier : List Profile) (pr : Progress K κ)
    (hknows : pr.Knows normal keyOf keys earlier) (hstop : pr.stopRequested = false)
    (hothers : others = [] ∨
      ∀ k ∈ openKeys normal keyOf keys earlier, (firstAnswer answers k).isSome = true) :
    ∃ ps, FoundFor keyOf (firstAnswer answers) (openKeys normal keyOf keys earlier) ps ∧
      ComeTo kept own normal keyOf (members ++ others) pr ps := by
  -- By induction on the members; what the progress knows stands for those asked before.
  induction h generalizing earlier pr with
  | nil =>
    refine ⟨[], ⟨List.nodup_nil, fun p => ?_⟩, ?_⟩
    · simp [firstAnswer]
    · rcases hothers with rfl | hall
      · exact comeTo_nil
      · refine comeTo_complete (hknows.isComplete_iff.mpr ?_) _
        refine List.eq_nil_iff_forall_not_mem.mpr fun k hk => ?_
        simpa [firstAnswer] using hall k hk
  | @cons m answer members answers hm _ ih =>
    obtain ⟨label, q⟩ := m
    by_cases hcomplete : pr.isComplete = true
    · have hnil := hknows.isComplete_iff.mp hcomplete
      refine ⟨[], ⟨List.nodup_nil, fun p => ?_⟩, comeTo_complete hcomplete _⟩
      simp [hnil]
    · obtain ⟨found, hfound, hbatch, hvisit⟩ := hm.batch (openKeys normal keyOf keys earlier)
      have hrest : others = [] ∨ ∀ k ∈ openKeys normal keyOf keys (earlier ++ found),
          (firstAnswer answers k).isSome = true := by
        refine hothers.imp_right fun hall k hk => ?_
        obtain ⟨hk, hnone⟩ := (hfound.mem_openKeys hm.key_eq k).mp hk
        rw [← firstAnswer_cons_none hnone]
        exact hall k hk
      have hstop' := (Progress.stopRequested_accept normal keyOf pr found).trans hstop
      obtain ⟨more, hmore, hcome⟩ := ih (earlier ++ found) _ (hknows.accept found).2 hstop' hrest
      exact ⟨found ++ more, hfound.append hm.key_eq hmore,
        hcome.cons hown hknows hcomplete hstop hfound hbatch hvisit⟩

/-- What the first members answer always comes through, whatever is asked after them. -/
theorem mem_of_firstAnswer {members : List (String × Queries σ K)}
    {answers : List (K → Option Profile)}
    (h : List.Forall₂ (fun m answer => m.2.Answers (fun _ => True) own keyOf answer)
      members answers)
    (others : List (String × Queries σ K)) {earlier : List Profile} {pr : Progress K κ}
    (hknows : pr.Knows normal keyOf keys earlier) {s : σ} {ps : List Profile}
    (hok : ((collectMembers normal keyOf (members ++ others) pr).run s).result = .ok ps) {k : K}
    {p : Profile} (hk : k ∈ openKeys normal keyOf keys earlier)
    (hp : firstAnswer answers k = some p) : p ∈ ps := by
  induction h generalizing earlier pr s ps with
  | nil => cases hp
  | @cons m answer members answers hm _ ih =>
    obtain ⟨label, q⟩ := m
    have hopen : ¬ pr.isComplete = true := fun hcomplete => by
      rw [hknows.isComplete_iff.mp hcomplete] at hk
      exact absurd hk List.not_mem_nil
    obtain ⟨found, hfound, hbatch, -⟩ := hm.batch (openKeys normal keyOf keys earlier)
    obtain ⟨hdistinct, hfresh⟩ := hfound.fresh
    have haccepted : (pr.accept normal keyOf found).1 = found := by
      rw [(hknows.accept found).1]
      exact Batch.uniqueFrom_eq_self _ hdistinct hfresh
    rw [← hknows.missing_eq] at hbatch
    obtain ⟨events, t, hrun, -, -⟩ := hbatch s trivial
    rcases hmore : (collectMembers normal keyOf (members ++ others)
      (pr.accept normal keyOf found).2).run t with ⟨more, u, result⟩
    rw [List.cons_append, collectMembers_answered hopen hrun hmore] at hok
    cases result with
    | error f => cases hok
    | ok rest =>
      rw [haccepted] at hok
      obtain rfl := Except.ok.inj hok
      cases hanswer : answer k with
      | some q =>
        rw [firstAnswer_cons_some hanswer] at hp
        cases hp
        refine List.mem_append_left _ ((hfound.mem_iff p).mpr ?_)
        rw [hm.key_eq k p hanswer]
        exact ⟨hk, hanswer⟩
      | none =>
        rw [firstAnswer_cons_none hanswer] at hp
        refine List.mem_append_right _ (ih (hknows.accept found).2 (s := t) ?_ ?_ hp)
        · rw [hmore]
        · exact (hfound.mem_openKeys hm.key_eq k).mpr ⟨hk, hanswer⟩

theorem gives_firstOf {members : List (Queries σ K)} {answers : List (K → Option Profile)}
    (h : List.Forall₂ (fun q answer => Answers kept own keyOf answer q) members answers) (k : K) :
    (firstOf members k).Gives kept own (firstAnswer answers k) := by
  induction h with
  | nil => exact Lookup.gives_pure none
  | @cons q answer members answers hq _ ih =>
    refine (hq.one k).bind ?_
    cases hanswer : answer k with
    | none =>
      rw [firstAnswer_cons_none hanswer]
      exact ih
    | some p =>
      rw [firstAnswer_cons_some hanswer]
      exact Lookup.gives_pure _

theorem key_of_firstAnswer {members : List (Queries σ K)} {answers : List (K → Option Profile)}
    (h : List.Forall₂ (fun q answer => Answers kept own keyOf answer q) members answers) {k : K}
    {p : Profile} (hp : firstAnswer answers k = some p) : keyOf p = k := by
  induction h with
  | nil => cases hp
  | @cons q answer members answers hq _ ih =>
    cases hanswer : answer k with
    | none =>
      rw [firstAnswer_cons_none hanswer] at hp
      exact ih hp
    | some p' =>
      rw [firstAnswer_cons_some hanswer] at hp
      cases hp
      exact hq.key_eq k p hanswer

theorem answers_combined [DecidableEq K] {members : List (String × Queries σ K)}
    {answers : List (K → Option Profile)} (hown : ∀ e, e.IsLogOf .combinedSource → own e)
    (h : List.Forall₂ (fun m answer => m.2.Answers kept own keyOf answer) members answers) :
    Answers kept own keyOf (firstAnswer answers) (combined id keyOf members) := by
  have hsnd : List.Forall₂ (fun q answer => Answers kept own keyOf answer q)
      (members.map Prod.snd) answers := List.forall₂_map_left_iff.mpr h
  refine ⟨fun _ _ => key_of_firstAnswer hsnd, gives_firstOf hsnd, fun keys => ?_⟩
  have hknows := Progress.knows_ofKeys id keyOf keys
  obtain ⟨ps, hps, hcome⟩ := comeTo_firstAnswers hown h [] [] _ hknows rfl (Or.inl rfl)
  rw [List.append_nil] at hcome
  refine ⟨ps, hps.congr fun k => ?_, hcome.batch, hcome.visit⟩
  rw [openKeys_nil]
  exact Batch.mem_unique keys k

end Queries

end PlayerLookup
