import PlayerLookup.Pipeline
import PlayerLookup.Proofs.Combined.Turns
import PlayerLookup.Proofs.Foundations.Traffic

/-! Combinations in which only the last member has to do with the remote service. The other members
are quiet: registries, pinned profiles and caches. So the traffic of a batch is that of the last
member's turn, if it comes to one; and then the last member is asked for some of the keys, each
once. -/

set_option autoImplicit false

namespace PlayerLookup

variable {σ K κ : Type}

/-! ## Quiet sources -/

def Queries.Quiet (q : Queries σ K) : Prop := ∀ keys, (q.all keys).Quiet

theorem Queries.quiet_collect {one : K → Lookup σ (Option Profile)} (h : ∀ k, (one k).Quiet)
    (keys : List K) : (collect one keys).Quiet := by
  induction keys with
  | nil => exact Lookup.quiet_pure []
  | cons k rest ih =>
    exact (h k).bind fun found => ih.bind fun more => Lookup.quiet_pure (found.toList ++ more)

theorem Queries.quiet_ofOne [DecidableEq K] {one : K → Lookup σ (Option Profile)}
    (h : ∀ k, (one k).Quiet) : (ofOne one).Quiet := fun keys => quiet_collect h (Batch.unique keys)

structure Registry.Quiet (r : Registry σ) : Prop where
  idOf : ∀ name, (r.idOf name).Quiet
  nameOf : ∀ id, (r.nameOf id).Quiet

theorem Registry.Quiet.byName {r : Registry σ} (h : r.Quiet) : (Source.host r).byName.Quiet := by
  refine Queries.quiet_ofOne fun name => (h.idOf name).bind fun found => ?_
  cases found with
  | none => exact Lookup.quiet_pure none
  | some id =>
    refine (h.nameOf id).bind fun current => ?_
    exact (Lookup.quiet_ofExcept _).bind fun p => Lookup.quiet_pure (some p)

theorem Source.quiet_localMap (cell : Cell σ LocalMap) : (Source.localMap cell).byName.Quiet :=
  Queries.quiet_ofOne fun name =>
    (Lookup.quiet_read cell).bind fun m => Lookup.quiet_pure (m.byName? name)

/-- No traffic is seen of storing in a cache, nor of asking it for names. -/
structure Cache.Quiet (c : Cache σ) : Prop where
  putAll : ∀ ps, (c.putAll ps).Quiet
  getAllByName : ∀ getAll, c.getAllByName? = some getAll → ∀ names, (getAll names).Quiet

namespace Cache

theorem Quiet.byName {c : Cache σ} (h : c.Quiet) : (Source.cached c).byName.Quiet := by
  intro names
  change (c.nameQueries.all names).Quiet
  unfold nameQueries
  cases hget : c.getAllByName? with
  | none => exact Lookup.quiet_pure []
  | some getAll => exact h.getAllByName getAll hget (Batch.unique names)

theorem Quiet.keep {c : Cache σ} (h : c.Quiet) (ps : List Profile) : (c.keep ps).Quiet := by
  unfold Cache.keep
  split
  · exact Lookup.quiet_pure ()
  · exact (h.putAll ps).rescue fun f => Lookup.quiet_log _ _ _ _

theorem quiet_memory (cell : Cell σ Memory) : (Cache.memory cell).Quiet where
  putAll ps := by
    change (storeInMemory cell ps).Quiet
    induction ps with
    | nil => exact Lookup.quiet_pure ()
    | cons p rest ih =>
      refine (Lookup.quiet_read cell).bind fun m => ?_
      cases m.store p with
      | error f => exact Lookup.quiet_fail f
      | ok m' => exact (Lookup.quiet_write cell m').bind fun _ => ih
  getAllByName getAll hget names := by
    obtain rfl := Option.some.inj hget
    exact (Lookup.quiet_read cell).bind fun m => Lookup.quiet_pure (m.holders names)

end Cache

namespace Connection

variable (c : Connection σ)

theorem quiet_database : c.database.Quiet := fun _ => rfl

theorem quiet_warnFault (attempted : String) (fault : Storage.Fault) :
    (c.warnFault attempted fault : Lookup σ Unit).Quiet := Lookup.quiet_log _ _ _ _

theorem quiet_decode (rows : List Storage.Row) :
    (c.decode rows : Lookup σ (List Profile)).Quiet := by
  induction rows with
  | nil => exact Lookup.quiet_pure []
  | cons row rest ih =>
    unfold decode
    split
    · exact ih.bind fun more => Lookup.quiet_pure _
    · exact (Lookup.quiet_log _ _ _ _).bind fun _ => ih

theorem quiet_selectParts (column : Storage.Column) (parts : List (List String)) :
    (c.selectParts column parts).Quiet := by
  induction parts with
  | nil => exact Lookup.quiet_pure _
  | cons keys rest ih =>
    refine c.quiet_database.bind fun db => ?_
    cases db.bind (Storage.Database.select · c.title column keys) with
    | error fault => exact Lookup.quiet_pure _
    | ok rows =>
      refine (c.quiet_decode rows).bind fun found => ih.bind fun more => ?_
      cases more with
      | error fault => exact Lookup.quiet_pure _
      | ok more => exact Lookup.quiet_pure _

theorem quiet_select (column : Storage.Column) (attempted : String) (keys : List String) :
    (c.select column attempted keys).Quiet := by
  refine (c.quiet_selectParts column _).bind fun found => ?_
  cases found with
  | ok found => exact Lookup.quiet_pure _
  | error fault => exact (c.quiet_warnFault attempted fault).bind fun _ => Lookup.quiet_pure []

end Connection

theorem Cache.quiet_stored (c : Connection σ) : (Cache.stored c).Quiet where
  putAll ps := by
    change (c.putAll ps).Quiet
    unfold Connection.putAll
    split
    · exact Lookup.quiet_pure ()
    · refine c.quiet_database.bind fun db => ?_
      cases db.bind (Storage.Database.writeRows · c.title (ps.map Connection.rowOfProfile)) with
      | ok db => exact Lookup.quiet_write c.content (.database db)
      | error fault => exact c.quiet_warnFault "write profiles to" fault
  getAllByName getAll hget names := by
    obtain rfl := Option.some.inj hget
    exact (c.quiet_select _ _ names).bind fun found => Lookup.quiet_pure _

/-! ## The last turn -/

theorem Turn.traffic_events (t : Turn σ K) : traffic t.events = traffic t.outcome.events := by
  unfold Turn.events
  cases t.outcome.result with
  | ok found =>
    rw [traffic_append, traffic_log]
    exact List.append_nil _
  | error f => rfl

section

variable [DecidableEq κ] {normal : K → κ} {keyOf : Profile → K} {keys : List K}
  {quiet : List (String × Queries σ K)} {last : String × Queries σ K} {s : σ}
  {turns : List (Turn σ K)}

theorem InTurn.traffic_of_quiet {members : List (String × Queries σ K)}
    (h : InTurn normal keyOf keys [] s members turns) {early late : List (Turn σ K)}
    (hturns : turns = early ++ late) (hquiet : ∀ t ∈ early, t.source.Quiet) :
    traffic (early.flatMap Turn.events) = [] := by
  rw [traffic_flatMap, List.flatMap_eq_nil_iff]
  intro t ht
  obtain ⟨before, after, rfl⟩ := List.append_of_mem ht
  have hsplit : turns = before ++ t :: (after ++ late) := by
    rw [hturns, List.append_assoc, List.cons_append]
  rw [t.traffic_events, (h.follows before t _ hsplit).outcome_eq]
  exact hquiet t ht t.asked _

theorem AnsweredInTurn.traffic_last {batch : Lookup σ (List Profile)}
    (h : AnsweredInTurn normal keyOf keys (quiet ++ [last]) batch s turns)
    (hquiet : ∀ m ∈ quiet, m.2.Quiet) :
    traffic (batch.run s).events = [] ∨
      ∃ u asked, asked ≠ [] ∧ (asked.map normal).Nodup ∧ asked.Sublist keys ∧
        traffic (batch.run s).events = traffic ((last.2.all asked).run u).events := by
  rw [h.events_eq]
  rcases List.prefix_concat_iff.mp h.in_turn.in_order with hall | hearly
  · obtain ⟨early, late, rfl, hearly, hlate⟩ := List.map_eq_append_iff.mp hall
    obtain ⟨t, rfl, hlast⟩ := List.map_eq_singleton_iff.mp hlate
    have hfollows := h.in_turn.follows early t [] rfl
    have hsilent : traffic (early.flatMap Turn.events) = [] := by
      refine h.in_turn.traffic_of_quiet rfl fun u hu => ?_
      exact hquiet u.member (hearly ▸ List.mem_map_of_mem hu)
    right
    refine ⟨Turn.leftBy s early, t.asked, hfollows.asked_ne_nil, ?_, ?_, ?_⟩
    · rw [hfollows.asked_eq]
      exact (Batch.nodup_map_uniqueBy normal keys).sublist (List.filter_sublist.map normal)
    · rw [hfollows.asked_eq]
      exact List.filter_sublist.trans (Batch.uniqueFrom_sublist normal [] keys)
    · rw [List.flatMap_append, traffic_append, hsilent, List.nil_append, List.flatMap_singleton,
        t.traffic_events, hfollows.outcome_eq, ← hlast]
      rfl
  · left
    have hsilent : traffic (turns.flatMap Turn.events) = [] := by
      refine h.in_turn.traffic_of_quiet (List.append_nil turns).symm fun u hu => ?_
      exact hquiet u.member (hearly.subset (List.mem_map_of_mem hu))
    exact hsilent

end

end PlayerLookup
