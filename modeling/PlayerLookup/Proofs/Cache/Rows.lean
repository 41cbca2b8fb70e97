import PlayerLookup.Cache.Stored
import PlayerLookup.Proofs.Cache.History
import PlayerLookup.Proofs.Identifier.Stored

/-! The table of a cache as the list of the profiles in its rows: what writing a row and selecting
rows do to this list. -/

set_option autoImplicit false

namespace PlayerLookup

theorem PlayerId.text_injective {a b : PlayerId} (h : a.text = b.text) : a = b := by
  have hread : PlayerId.read? a.text = PlayerId.read? b.text := by rw [h]
  rw [PlayerId.read?_text, PlayerId.read?_text] at hread
  exact Option.some.inj hread

namespace Storage

open Connection (rowOfProfile profileOfRow?)

theorem profileOfRow?_rowOfProfile (p : Profile) : profileOfRow? (rowOfProfile p) = some p := by
  have hname : Name.ofText? p.name.text = some p.name := (Memory.ofText?_eq_some_iff _ _).mpr rfl
  simp [profileOfRow?, rowOfProfile, PlayerId.read?_text, hname]

def Column.of (c : Column) (p : Profile) : String :=
  match c with
  | .uuid => p.id.text
  | .name => p.name.text

theorem at_rowOfProfile (c : Column) (p : Profile) : (rowOfProfile p).at c = .text (c.of p) := by
  cases c <;> rfl

namespace Table

/-- The table of a cache with rows for profiles. -/
def ofProfiles (title : String) (ps : List Profile) : Table :=
  { forCache title with rows := ps.map rowOfProfile }

/-- The profiles after one was written: those with its id or its name have given way. -/
def replaceIn (ps : List Profile) (p : Profile) : List Profile :=
  (ps.filter fun q => !(p.id == q.id || p.name == q.name)) ++ [p]

theorem givesWay_rowOfProfile (title : String) (ps : List Profile) (p q : Profile) :
    (ofProfiles title ps).givesWay (rowOfProfile p) (rowOfProfile q) =
      (p.id == q.id || p.name == q.name) := by
  have hid : (p.id.text == q.id.text) = (p.id == q.id) := by
    rw [Bool.eq_iff_iff, beq_iff_eq, beq_iff_eq]
    exact ⟨PlayerId.text_injective, fun h => by rw [h]⟩
  have hname : (p.name.text == q.name.text) = (p.name == q.name) := by
    rw [Bool.eq_iff_iff, beq_iff_eq, beq_iff_eq]
    exact ⟨Name.ext_text, fun h => by rw [h]⟩
  rw [← hid, ← hname]
  rfl

theorem write_ofProfiles (title : String) (ps : List Profile) (p : Profile) :
    (ofProfiles title ps).write (rowOfProfile p) = .ok (ofProfiles title (replaceIn ps p)) := by
  have hrows : ((ps.map rowOfProfile).filter fun old =>
      !(ofProfiles title ps).givesWay (rowOfProfile p) old) ++ [rowOfProfile p] =
        (replaceIn ps p).map rowOfProfile := by
    simp only [replaceIn, List.filter_map, List.map_append, List.map_cons, List.map_nil,
      Function.comp_def, givesWay_rowOfProfile]
  have hwrite : (ofProfiles title ps).write (rowOfProfile p) =
      .ok { forCache title with rows := ((ps.map rowOfProfile).filter fun old =>
        !(ofProfiles title ps).givesWay (rowOfProfile p) old) ++ [rowOfProfile p] } := rfl
  rw [hwrite, hrows]
  rfl

theorem mem_replaceIn (ps : List Profile) (p q : Profile) :
    q ∈ replaceIn ps p ↔ q = p ∨ (q ∈ ps ∧ p.id ≠ q.id ∧ p.name ≠ q.name) := by
  simp only [replaceIn, List.mem_append, List.mem_filter, List.mem_singleton, Bool.not_eq_true',
    Bool.or_eq_false_iff, beq_eq_false_iff_ne]
  tauto

theorem foldlM_write_ofProfiles (title : String) (ps qs : List Profile) :
    (qs.map rowOfProfile).foldlM write (ofProfiles title ps) =
      .ok (ofProfiles title (qs.foldl replaceIn ps)) := by
  induction qs generalizing ps with
  | nil => rfl
  | cons q qs ih =>
    rw [List.map_cons, List.foldlM_cons, write_ofProfiles]
    exact ih (replaceIn ps q)

theorem isText_iff (v : String) (key : String) : (Value.text v).isText key = true ↔ key = v := by
  simp [Value.isText]

theorem mem_sortedBy (c : Column) (rows : List Row) (row : Row) :
    row ∈ sortedBy c rows ↔ row ∈ rows := (List.mergeSort_perm rows _).mem_iff

theorem select_ofProfiles (title : String) (ps : List Profile) (c : Column) (keys : List String) :
    ∃ rows, (ofProfiles title ps).select c keys = .ok rows ∧
      ∀ row, row ∈ rows ↔ ∃ p ∈ ps, c.of p ∈ keys ∧ rowOfProfile p = row := by
  refine ⟨sortedBy c ((ps.map rowOfProfile).filter fun row =>
    keys.any fun key => (row.at c).isText key), by cases c <;> rfl, fun row => ?_⟩
  rw [mem_sortedBy, List.mem_filter, List.mem_map, List.any_eq_true]
  constructor
  · rintro ⟨⟨p, hp, rfl⟩, key, hkey, htext⟩
    rw [at_rowOfProfile, isText_iff] at htext
    exact ⟨p, hp, htext ▸ hkey, rfl⟩
  · rintro ⟨p, hp, hkey, rfl⟩
    refine ⟨⟨p, hp, rfl⟩, c.of p, hkey, ?_⟩
    rw [at_rowOfProfile, isText_iff]

end Table

end Storage

end PlayerLookup
