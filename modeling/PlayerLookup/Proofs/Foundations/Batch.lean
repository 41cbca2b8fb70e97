import Mathlib.Data.List.Induction
import Mathlib.Data.List.Nodup
import PlayerLookup.Batch

/-! What is left of a list when repeats are dropped, and what its parts make up. -/

set_option autoImplicit false

namespace PlayerLookup.Batch

variable {α κ : Type}

/-! ## Parts -/

theorem flatten_chunks (size : Nat) (items : List α) : (chunks size items).flatten = items := by
  induction items using chunks.induct size with
  | case1 => simp [chunks]
  | case2 x xs ih =>
    rw [chunks, List.flatten_cons, ih, List.cons_append, List.take_append_drop]

theorem length_of_mem_chunks {size : Nat} (hsize : 1 ≤ size) {items part : List α}
    (h : part ∈ chunks size items) : 1 ≤ part.length ∧ part.length ≤ size := by
  induction items using chunks.induct size with
  | case1 => simp [chunks] at h
  | case2 x xs ih =>
    rw [chunks, List.mem_cons] at h
    rcases h with rfl | h
    · rw [List.length_cons, List.length_take]
      omega
    · exact ih h

theorem length_of_chunk_before {size : Nat} (hsize : 1 ≤ size) {items part : List α}
    {before after : List (List α)} (h : chunks size items = before ++ part :: after)
    (hafter : after ≠ []) : part.length = size := by
  induction items using chunks.induct size generalizing before with
  | case1 => simp [chunks] at h
  | case2 x xs ih =>
    rw [chunks] at h
    obtain ⟨-, hcons⟩ | ⟨rest, -, hrest⟩ := List.cons_eq_append_iff.mp h
    · obtain ⟨rfl, htail⟩ := List.cons.inj hcons
      have hmore : xs.drop (size - 1) ≠ [] := by
        intro hnil
        rw [hnil, chunks] at htail
        exact hafter htail
      have hlong : size - 1 < xs.length := by
        have hpos := List.length_pos_iff.mpr hmore
        rw [List.length_drop] at hpos
        omega
      rw [List.length_cons, List.length_take]
      omega
    · exact ih hrest

/-- Lists that make up a list in order, all of the same size; only the last may be smaller, but not
empty. -/
structure Parts (size : Nat) (items : List α) (parts : List (List α)) : Prop where
  flatten_eq : parts.flatten = items
  ne_nil : ∀ part ∈ parts, part ≠ []
  length_le : ∀ part ∈ parts, part.length ≤ size
  full : ∀ before part after, parts = before ++ part :: after → after ≠ [] → part.length = size

theorem parts_chunks {size : Nat} (hsize : 1 ≤ size) (items : List α) :
    Parts size items (chunks size items) where
  flatten_eq := flatten_chunks size items
  ne_nil _ hpart := List.ne_nil_of_length_pos (length_of_mem_chunks hsize hpart).1
  length_le _ hpart := (length_of_mem_chunks hsize hpart).2
  full _ _ _ := length_of_chunk_before hsize

theorem chunks_of_length_le {size : Nat} {items : List α} (hne : items ≠ [])
    (hle : items.length ≤ size) : chunks size items = [items] := by
  cases items with
  | nil => exact absurd rfl hne
  | cons x xs =>
    have hxs : xs.length ≤ size - 1 := by
      rw [List.length_cons] at hle
      omega
    rw [chunks, List.take_of_length_le hxs, List.drop_eq_nil_of_le hxs, chunks]

theorem chunks_append {size : Nat} (hsize : 1 ≤ size) {xs : List α} (hlength : xs.length = size)
    (ys : List α) : chunks size (xs ++ ys) = xs :: chunks size ys := by
  cases xs with
  | nil =>
    rw [List.length_nil] at hlength
    omega
  | cons x xs =>
    have hxs : xs.length = size - 1 := by
      rw [List.length_cons] at hlength
      omega
    rw [List.cons_append, chunks, List.take_left' hxs, List.drop_left' hxs]

theorem length_chunks {size : Nat} (hsize : 1 ≤ size) (items : List α) :
    (chunks size items).length = (items.length + size - 1) / size := by
  induction items using chunks.induct size with
  | case1 =>
    simp only [chunks, List.length_nil, Nat.zero_add]
    exact (Nat.div_eq_of_lt (by omega)).symm
  | case2 x xs ih =>
    rw [chunks, List.length_cons, ih, List.length_drop, List.length_cons]
    by_cases hlong : size ≤ xs.length
    · have hrest : xs.length - (size - 1) + size - 1 = xs.length := by omega
      have hall : xs.length + 1 + size - 1 = xs.length + size := by omega
      rw [hrest, hall, Nat.add_div_right _ (by omega)]
    · have hrest : xs.length - (size - 1) + size - 1 = size - 1 := by omega
      have hall : xs.length + 1 + size - 1 = xs.length + size := by omega
      rw [hrest, hall, Nat.add_div_right _ (by omega), Nat.div_eq_of_lt (by omega),
        Nat.div_eq_of_lt (by omega)]

/-! ## Items by number -/

theorem filterMap_range_eq_zipIdx (items : List α) :
    ((List.range items.length).filterMap fun i => (items[i]?).map fun x => (x, i)) =
      items.zipIdx := by
  induction items using List.reverseRecOn with
  | nil => rfl
  | append_singleton items x ih =>
    have hinit : ((List.range items.length).filterMap fun i =>
        ((items ++ [x])[i]?).map fun y => (y, i)) = items.zipIdx := by
      rw [← ih]
      refine List.filterMap_congr fun i hi => ?_
      rw [List.getElem?_append_left (List.mem_range.mp hi)]
    rw [List.length_append, List.length_singleton, List.range_succ, List.filterMap_append, hinit,
      List.zipIdx_append]
    simp

/-! ## Items found for keys -/

theorem perm_of_mem_iff {key : α → κ} {xs ys : List α} (hx : (xs.map key).Nodup)
    (hy : (ys.map key).Nodup) (h : ∀ x, x ∈ xs ↔ x ∈ ys) : xs.Perm ys :=
  (List.perm_ext_iff_of_nodup (List.Nodup.of_map key hx) (List.Nodup.of_map key hy)).mpr h

/-- The items found for keys, each having the key it was found for, have the keys that were found.
-/
theorem map_filterMap_of_key (find : κ → Option α) (key : α → κ)
    (hkey : ∀ k x, find k = some x → key x = k) (keys : List κ) :
    (keys.filterMap find).map key = keys.filter fun k => (find k).isSome := by
  induction keys with
  | nil => rfl
  | cons k ks ih =>
    rw [List.filterMap_cons, List.filter_cons]
    cases hk : find k with
    | none => simp [ih]
    | some x => simp [ih, hkey k x hk]

variable [DecidableEq κ]

/-! ## Lists with distinct keys -/

theorem find?_key_eq_some_iff {key : α → κ} {xs : List α} (hn : (xs.map key).Nodup) (k : κ)
    (x : α) : xs.find? (fun y => key y == k) = some x ↔ x ∈ xs ∧ key x = k := by
  induction xs with
  | nil => simp
  | cons y ys ih =>
    obtain ⟨hy, hys⟩ := List.nodup_cons.mp hn
    by_cases hk : key y = k
    · rw [List.find?_cons_of_pos (by simpa using hk), Option.some.injEq, List.mem_cons]
      constructor
      · rintro rfl
        exact ⟨Or.inl rfl, hk⟩
      · rintro ⟨rfl | hx, hxk⟩
        · rfl
        · refine absurd ?_ hy
          rw [hk, ← hxk]
          exact List.mem_map_of_mem hx
    · rw [List.find?_cons_of_neg (by simpa using hk), ih hys, List.mem_cons]
      constructor
      · rintro ⟨hx, hxk⟩
        exact ⟨Or.inr hx, hxk⟩
      · rintro ⟨rfl | hx, hxk⟩
        · exact absurd hxk hk
        · exact ⟨hx, hxk⟩

theorem find?_key_eq_of_perm {key : α → κ} {xs ys : List α} (h : xs.Perm ys)
    (hn : (xs.map key).Nodup) (k : κ) :
    xs.find? (fun x => key x == k) = ys.find? (fun x => key x == k) := by
  have hn' : (ys.map key).Nodup := (h.map key).nodup_iff.mp hn
  apply Option.ext
  intro x
  rw [find?_key_eq_some_iff hn, find?_key_eq_some_iff hn', h.mem_iff]

/-! ## The first of each key -/

theorem mem_map_uniqueFrom (key : α → κ) (seen : List κ) (items : List α) (k : κ) :
    k ∈ (uniqueFrom key seen items).map key ↔ k ∈ items.map key ∧ k ∉ seen := by
  induction items generalizing seen with
  | nil => simp [uniqueFrom]
  | cons x xs ih =>
    rw [uniqueFrom, List.map_cons, List.mem_cons]
    by_cases hx : key x ∈ seen
    · rw [if_pos hx, ih]
      constructor
      · rintro ⟨hm, hs⟩
        exact ⟨Or.inr hm, hs⟩
      · rintro ⟨rfl | hm, hs⟩
        · exact absurd hx hs
        · exact ⟨hm, hs⟩
    · rw [if_neg hx, List.map_cons, List.mem_cons, ih, List.mem_cons]
      by_cases hk : k = key x
      · simp [hk, hx]
      · simp [hk]

theorem nodup_map_uniqueFrom (key : α → κ) (seen : List κ) (items : List α) :
    ((uniqueFrom key seen items).map key).Nodup := by
  induction items generalizing seen with
  | nil => simp [uniqueFrom]
  | cons x xs ih =>
    rw [uniqueFrom]
    by_cases hx : key x ∈ seen
    · rw [if_pos hx]
      exact ih seen
    · rw [if_neg hx, List.map_cons, List.nodup_cons, mem_map_uniqueFrom]
      exact ⟨fun h => h.2 List.mem_cons_self, ih _⟩

theorem uniqueFrom_congr (key : α → κ) {seen seen' : List κ} (h : ∀ k, k ∈ seen ↔ k ∈ seen')
    (items : List α) : uniqueFrom key seen items = uniqueFrom key seen' items := by
  induction items generalizing seen seen' with
  | nil => rfl
  | cons x xs ih =>
    rw [uniqueFrom, uniqueFrom]
    by_cases hx : key x ∈ seen
    · rw [if_pos hx, if_pos ((h _).mp hx), ih h]
    · have hx' : key x ∉ seen' := fun hm => hx ((h _).mpr hm)
      have hcons : ∀ k, k ∈ key x :: seen ↔ k ∈ key x :: seen' := fun k => by
        rw [List.mem_cons, List.mem_cons, h]
      rw [if_neg hx, if_neg hx', ih hcons]

theorem uniqueFrom_append (key : α → κ) (seen : List κ) (xs ys : List α) :
    uniqueFrom key seen (xs ++ ys) =
      uniqueFrom key seen xs ++ uniqueFrom key (seen ++ xs.map key) ys := by
  induction xs generalizing seen with
  | nil => simp [uniqueFrom]
  | cons x xs ih =>
    rw [List.cons_append, uniqueFrom, uniqueFrom, List.map_cons]
    by_cases hx : key x ∈ seen
    · rw [if_pos hx, if_pos hx, ih]
      congr 1
      refine uniqueFrom_congr key (fun k => ?_) ys
      simp only [List.mem_append, List.mem_cons]
      constructor
      · rintro (hk | hk)
        · exact Or.inl hk
        · exact Or.inr (Or.inr hk)
      · rintro (hk | rfl | hk)
        · exact Or.inl hk
        · exact Or.inl hx
        · exact Or.inr hk
    · rw [if_neg hx, if_neg hx, ih, List.cons_append]
      congr 2
      refine uniqueFrom_congr key (fun k => ?_) ys
      simp only [List.mem_append, List.mem_cons]
      tauto

theorem uniqueFrom_map {β : Type} (key : β → κ) (f : α → β) (seen : List κ) (items : List α) :
    uniqueFrom key seen (items.map f) = (uniqueFrom (fun x => key (f x)) seen items).map f := by
  induction items generalizing seen with
  | nil => rfl
  | cons x xs ih =>
    rw [List.map_cons, uniqueFrom, uniqueFrom]
    by_cases hx : key (f x) ∈ seen
    · rw [if_pos hx, if_pos hx, ih]
    · rw [if_neg hx, if_neg hx, ih, List.map_cons]

theorem uniqueFrom_eq_self (key : α → κ) {seen : List κ} {items : List α}
    (hn : (items.map key).Nodup) (hseen : ∀ x ∈ items, key x ∉ seen) :
    uniqueFrom key seen items = items := by
  induction items generalizing seen with
  | nil => rfl
  | cons x xs ih =>
    obtain ⟨hx, hxs⟩ := List.nodup_cons.mp hn
    have hrest : ∀ y ∈ xs, key y ∉ key x :: seen := by
      intro y hy
      rw [List.mem_cons]
      rintro (heq | hm)
      · exact hx (heq ▸ List.mem_map_of_mem hy)
      · exact hseen y (List.mem_cons_of_mem x hy) hm
    rw [uniqueFrom, if_neg (hseen x List.mem_cons_self), ih hxs hrest]

theorem find?_uniqueFrom (key : α → κ) (seen : List κ) (items : List α) (k : κ) (hk : k ∉ seen) :
    (uniqueFrom key seen items).find? (fun x => key x == k) =
      items.find? fun x => key x == k := by
  induction items generalizing seen with
  | nil => rfl
  | cons x xs ih =>
    rw [uniqueFrom]
    by_cases hkey : key x = k
    · have hx : key x ∉ seen := by rwa [hkey]
      rw [if_neg hx, List.find?_cons_of_pos (by simpa using hkey),
        List.find?_cons_of_pos (by simpa using hkey)]
    · rw [List.find?_cons_of_neg (by simpa using hkey)]
      by_cases hx : key x ∈ seen
      · rw [if_pos hx, ih seen hk]
      · have hseen : k ∉ key x :: seen := by
          rw [List.mem_cons]
          rintro (rfl | hm)
          · exact hkey rfl
          · exact hk hm
        rw [if_neg hx, List.find?_cons_of_neg (by simpa using hkey), ih _ hseen]

theorem uniqueFrom_sublist (key : α → κ) (seen : List κ) (items : List α) :
    (uniqueFrom key seen items).Sublist items := by
  induction items generalizing seen with
  | nil => exact List.Sublist.refl []
  | cons x xs ih =>
    rw [uniqueFrom]
    by_cases hx : key x ∈ seen
    · rw [if_pos hx]
      exact (ih seen).cons x
    · rw [if_neg hx]
      exact (ih (key x :: seen)).cons_cons x

theorem nodup_map_uniqueBy (key : α → κ) (items : List α) :
    ((uniqueBy key items).map key).Nodup := nodup_map_uniqueFrom key [] items

theorem mem_map_uniqueBy (key : α → κ) (items : List α) (k : κ) :
    k ∈ (uniqueBy key items).map key ↔ k ∈ items.map key := by
  simp [uniqueBy, mem_map_uniqueFrom]

theorem mem_unique (items : List κ) (x : κ) : x ∈ unique items ↔ x ∈ items := by
  have h := mem_map_uniqueBy id items x
  simpa only [unique, List.map_id] using h

theorem nodup_unique (items : List κ) : (unique items).Nodup := by
  have h := nodup_map_uniqueBy id items
  simpa only [unique, List.map_id] using h

theorem unique_of_nodup {items : List κ} (h : items.Nodup) : unique items = items :=
  uniqueFrom_eq_self id (by rwa [List.map_id]) fun _ _ => List.not_mem_nil

theorem unique_unique (items : List κ) : unique (unique items) = unique items :=
  unique_of_nodup (nodup_unique items)

theorem uniqueFrom_eq_eraseDupsBy (key : α → κ) (seen : List κ) (items : List α) :
    uniqueFrom key seen items =
      (items.filter fun x => key x ∉ seen).eraseDupsBy fun x y => key x == key y := by
  induction items generalizing seen with
  | nil => rfl
  | cons x xs ih =>
    rw [uniqueFrom]
    by_cases hx : key x ∈ seen
    · rw [if_pos hx, ih, List.filter_cons_of_neg (by simpa using hx)]
    · rw [if_neg hx, ih, List.filter_cons_of_pos (by simpa using hx), List.eraseDupsBy_cons,
        List.filter_filter]
      congr 2
      refine List.filter_congr fun y _ => ?_
      rw [Bool.eq_iff_iff]
      simp

theorem uniqueBy_eq_eraseDupsBy (key : α → κ) (items : List α) :
    uniqueBy key items = items.eraseDupsBy fun x y => key x == key y := by
  rw [uniqueBy, uniqueFrom_eq_eraseDupsBy]
  simp

theorem unique_eq_eraseDups (items : List κ) : unique items = items.eraseDups :=
  uniqueBy_eq_eraseDupsBy id items

theorem nodup_map_filterMap_unique (find : κ → Option α) (key : α → κ)
    (hkey : ∀ k x, find k = some x → key x = k) (keys : List κ) :
    (((unique keys).filterMap find).map key).Nodup := by
  rw [map_filterMap_of_key find key hkey]
  exact (nodup_unique keys).filter _

/-! ## The last of each key -/

theorem map_putInPlace (key : α → κ) (x : α) (items : List α) :
    (putInPlace key x items).map key =
      if key x ∈ items.map key then items.map key else items.map key ++ [key x] := by
  induction items with
  | nil => rfl
  | cons y rest ih =>
    rw [putInPlace]
    by_cases hy : key y = key x
    · simp [hy]
    · have hne : key x ≠ key y := fun h => hy h.symm
      simp only [if_neg hy, List.map_cons, List.mem_cons, hne, false_or, ih, List.cons_append]
      by_cases hx : key x ∈ rest.map key
      · rw [if_pos hx, if_pos hx]
      · rw [if_neg hx, if_neg hx]

theorem mem_putInPlace (key : α → κ) (x y : α) {items : List α} (h : (items.map key).Nodup) :
    y ∈ putInPlace key x items ↔ y = x ∨ (y ∈ items ∧ key y ≠ key x) := by
  induction items with
  | nil => simp [putInPlace]
  | cons z rest ih =>
    obtain ⟨hz, hrest⟩ := List.nodup_cons.mp h
    rw [putInPlace]
    by_cases hkey : key z = key x
    · rw [if_pos hkey, List.mem_cons, List.mem_cons]
      constructor
      · rintro (hy | hy)
        · exact Or.inl hy
        · refine Or.inr ⟨Or.inr hy, fun hyx => hz ?_⟩
          rw [hkey, ← hyx]
          exact List.mem_map_of_mem hy
      · rintro (hy | ⟨rfl | hy, hne⟩)
        · exact Or.inl hy
        · exact absurd hkey hne
        · exact Or.inr hy
    · rw [if_neg hkey, List.mem_cons, List.mem_cons, ih hrest]
      constructor
      · rintro (rfl | hy | ⟨hy, hne⟩)
        · exact Or.inr ⟨Or.inl rfl, hkey⟩
        · exact Or.inl hy
        · exact Or.inr ⟨Or.inr hy, hne⟩
      · rintro (hy | ⟨hy | hy, hne⟩)
        · exact Or.inr (Or.inl hy)
        · exact Or.inl hy
        · exact Or.inr (Or.inr ⟨hy, hne⟩)

theorem latestBy_concat (key : α → κ) (items : List α) (x : α) :
    latestBy key (items ++ [x]) = putInPlace key x (latestBy key items) := by
  simp [latestBy]

theorem nodup_map_latestBy (key : α → κ) (items : List α) :
    ((latestBy key items).map key).Nodup := by
  induction items using List.reverseRecOn with
  | nil => exact List.nodup_nil
  | append_singleton items x ih =>
    rw [latestBy_concat, map_putInPlace]
    by_cases hx : key x ∈ (latestBy key items).map key
    · rw [if_pos hx]
      exact ih
    · rw [if_neg hx]
      exact List.Nodup.append ih (List.nodup_singleton _) (by simpa using hx)

theorem mem_latestBy (key : α → κ) (items : List α)
    (h : ∀ x ∈ items, ∀ y ∈ items, key x = key y → x = y) (y : α) :
    y ∈ latestBy key items ↔ y ∈ items := by
  induction items using List.reverseRecOn with
  | nil => rfl
  | append_singleton items x ih =>
    have hinit : ∀ a ∈ items, ∀ b ∈ items, key a = key b → a = b := fun a ha b hb =>
      h a (List.mem_append_left _ ha) b (List.mem_append_left _ hb)
    rw [latestBy_concat, mem_putInPlace key x y (nodup_map_latestBy key items), ih hinit,
      List.mem_append, List.mem_singleton]
    constructor
    · rintro (hy | ⟨hy, -⟩)
      · exact Or.inr hy
      · exact Or.inl hy
    · rintro (hy | hy)
      · by_cases hkey : key y = key x
        · exact Or.inl (h y (List.mem_append_left _ hy) x (by simp) hkey)
        · exact Or.inr ⟨hy, hkey⟩
      · exact Or.inl hy

end PlayerLookup.Batch
