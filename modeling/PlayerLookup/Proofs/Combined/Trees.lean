import PlayerLookup.Proofs.Combined.Leaves
import PlayerLookup.Proofs.Remote.Addresses
import PlayerLookup.Proofs.Remote.Histories

/-! Combinations of combinations, down to sources with fixed answers. However deep they are nested,
one id, a batch of ids and a visitor come to the same profiles. -/

set_option autoImplicit false

namespace PlayerLookup

variable {σ : Type}

/-- From kept states the source answers every id in the same way: it is one that answers from what
stays as it is, or a combination of such sources. -/
inductive Source.Steady (kept : σ → Prop) : Source σ → Prop where
  | pinned (cell : Cell σ LocalMap) (m : LocalMap) (h : ∀ s, kept s → cell.get s = m) :
      Steady kept (.localMap cell)
  | host (idOf : String → Option PlayerId) (nameOf : PlayerId → Option String)
      (h : ∀ id, nameOf id ≠ some "") : Steady kept (.host (.fixed idOf nameOf))
  | cached (cell : Cell σ Memory) (m : Memory) (h : ∀ s, kept s → cell.get s = m) :
      Steady kept (.cached (.memory cell))
  | remote (r : Remote σ) (history : PlayerId → Document) (h : r.FixedHistories kept history) :
      Steady kept (.remote r)
  | combined (caseSensitive : Bool) (members : List (Source σ))
      (h : ∀ source ∈ members, Steady kept source) : Steady kept (.combined caseSensitive members)

variable {kept : σ → Prop}

theorem Source.Steady.answers {source : Source σ} (h : source.Steady kept) :
    ∃ answer, source.byId.Answers kept (fun _ => True) Profile.id answer := by
  induction h with
  | pinned cell m h => exact ⟨m.byId?, Source.answers_localMap h⟩
  | host idOf nameOf h =>
    refine ⟨Registry.named nameOf, Source.answers_host (fun id => ?_) h⟩
    exact Lookup.gives_pure (nameOf id)
  | cached cell m h => exact ⟨m.profile?, Source.answers_cached fun s hs => by rw [h s hs]⟩
  | remote r history h => exact ⟨_, h.answers⟩
  | combined caseSensitive members _ ih =>
    choose! answer hanswer using ih
    refine ⟨firstAnswer (members.map answer), Queries.answers_combined (fun _ _ => trivial) ?_⟩
    rw [List.forall₂_map_left_iff, List.forall₂_map_right_iff, List.forall₂_same]
    exact hanswer

theorem FoundFor.find?_eq {K : Type} [DecidableEq K] {keyOf : Profile → K}
    {answer : K → Option Profile} {keys : List K} {ps : List Profile}
    (h : FoundFor keyOf answer keys ps) (hkey : ∀ k p, answer k = some p → keyOf p = k) {k : K}
    (hk : k ∈ keys) : ps.find? (fun p => keyOf p == k) = answer k := by
  refine Option.ext fun p => ?_
  rw [Batch.find?_key_eq_some_iff h.distinct, h.mem_iff]
  constructor
  · rintro ⟨⟨-, hp⟩, rfl⟩
    exact hp
  · intro hp
    obtain rfl := hkey k p hp
    exact ⟨⟨hk, hp⟩, rfl⟩

/-- A batch of ids has these profiles, at most one of each id and none of an id that was not asked
for. An id alone is answered with its profile among them, if there is one, and a visitor that never
stops is given just them, in their order. -/
structure Source.AgreesOn (kept : σ → Prop) (source : Source σ) (ids : List PlayerId)
    (ps : List Profile) : Prop where
  distinct : (ps.map Profile.id).Nodup
  asked : ∀ p ∈ ps, p.id ∈ ids
  batch : ∀ s, kept s → ((source.byId.all ids).run s).result = .ok ps
  one : ∀ id ∈ ids, ∀ s, kept s →
    ((source.byId.one id).run s).result = .ok (ps.find? (·.id == id))
  visit : ∀ visitor, NeverStops kept visitor → ∀ s, kept s →
    (source.byId.visit ids).given visitor s = ps ∧
      (((source.byId.visit ids).run visitor).run s).result = .ok ()

/-- **One id, a batch and a visitor come to the same**, in every tree of sources with fixed answers.
-/
theorem tree_queries_agree {source : Source σ} (h : source.Steady kept) (ids : List PlayerId) :
    ∃ ps, source.AgreesOn kept ids ps := by
  obtain ⟨answer, hanswers⟩ := h.answers
  obtain ⟨ps, hps, hbatch, hvisit⟩ := hanswers.batch ids
  refine ⟨ps, hps.distinct, fun p hp => ((hps.mem_iff p).mp hp).1, fun s hs => ?_,
    fun id hid s hs => ?_, fun visitor hvisitor s hs => ?_⟩
  · obtain ⟨events, t, hrun, -, -⟩ := hbatch s hs
    rw [hrun]
  · obtain ⟨events, t, hrun, -, -⟩ := hanswers.one id s hs
    rw [hrun, hps.find?_eq hanswers.key_eq hid]
  · obtain ⟨hgiven, events, t, hrun, -⟩ := (hvisit s hs).run hvisitor
    exact ⟨hgiven, by rw [hrun]⟩

/-! ## A tree with every kind of leaf -/

namespace Grove

def ash : Profile := ⟨⟨1⟩, .ash⟩

def birch : Profile := ⟨⟨2⟩, .birch⟩

def cedar : Profile := ⟨⟨3⟩, .cedar⟩

def state : Memory × LocalMap :=
  (⟨[(birch.id, birch.name)], [(birch.name, birch.id)]⟩, LocalMap.empty.put cedar)

def nameOf (id : PlayerId) : Option String := if id = ash.id then some "Ash" else none

def history : Document := .list [Remote.called "Oak", Remote.called "Elder"]

def remote : Remote (Memory × LocalMap) := .saying history

theorem around_historyUrl : remote.settings.Around "https://api.mojang.com/user/profiles/".toList
    "/names".toList := by
  unfold RemoteSettings.Around
  decide +kernel

theorem fixedHistories : remote.FixedHistories (· = state) fun _ => history := by
  intro id
  have hbefore : Template.Braceless "https://api.mojang.com/user/profiles/".toList := by
    simp [Template.Braceless]
  have hafter : Template.Braceless "/names".toList := by
    simp [Template.Braceless]
  have hreaches := Remote.reaches_of_around around_historyUrl hbefore hafter id
  refine ⟨_, hreaches.url_eq, ?_⟩
  rintro s rfl
  exact ⟨[], state, .holding history, rfl, rfl, rfl⟩

def source : Source (Memory × LocalMap) :=
  .combined false [.host (.fixed (fun _ => none) nameOf),
    .combined true [.localMap .second, .combined false []],
    .combined true [.cached (.memory .first), .remote remote]]

theorem steady : source.Steady (· = state) := by
  refine .combined _ _ fun member hmember => ?_
  simp only [List.mem_cons, List.not_mem_nil, or_false] at hmember
  rcases hmember with rfl | rfl | rfl
  · refine .host _ _ fun id => ?_
    unfold nameOf
    split <;> decide
  · refine .combined _ _ fun member hmember => ?_
    simp only [List.mem_cons, List.not_mem_nil, or_false] at hmember
    rcases hmember with rfl | rfl
    · exact .pinned .second state.2 fun s hs => by rw [hs]; rfl
    · exact .combined _ _ fun member hmember => absurd hmember List.not_mem_nil
  · refine .combined _ _ fun member hmember => ?_
    simp only [List.mem_cons, List.not_mem_nil, or_false] at hmember
    rcases hmember with rfl | rfl
    · exact .cached .first state.1 fun s hs => by rw [hs]; rfl
    · exact .remote remote _ fixedHistories

end Grove

theorem tree_queries_agree_grove :
    Grove.source.Steady (· = Grove.state) ∧
      Grove.source.AgreesOn (· = Grove.state) [⟨4⟩, ⟨2⟩, ⟨1⟩, ⟨2⟩, ⟨3⟩, ⟨4⟩]
        [Grove.ash, Grove.cedar, Grove.birch, ⟨⟨4⟩, ⟨"Elder", by decide⟩⟩] := by
  obtain ⟨ps, hps⟩ := tree_queries_agree Grove.steady [⟨4⟩, ⟨2⟩, ⟨1⟩, ⟨2⟩, ⟨3⟩, ⟨4⟩]
  have heval : ((Grove.source.byId.all [⟨4⟩, ⟨2⟩, ⟨1⟩, ⟨2⟩, ⟨3⟩, ⟨4⟩]).run
      Grove.state).result.toOption =
        some [Grove.ash, Grove.cedar, Grove.birch, ⟨⟨4⟩, ⟨"Elder", by decide⟩⟩] := by
    decide +kernel
  rw [hps.batch Grove.state rfl] at heval
  obtain rfl := Option.some.inj heval
  exact ⟨Grove.steady, hps⟩

end PlayerLookup
