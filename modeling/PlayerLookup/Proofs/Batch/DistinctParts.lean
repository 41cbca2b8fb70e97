import Mathlib.Algebra.Order.Floor.Div
import Mathlib.Data.Finset.Card
import PlayerLookup.Batch.Parts
import PlayerLookup.Proofs.Foundations.Batch
import PlayerLookup.Text.Casing

/-! Lists without repeats, cut into parts. Of each key the first item is left, and slices are taken
off what is left until there is nothing to be taken. So every key is in one part, and there once,
and every part but the last is of the size that was asked for. -/

set_option autoImplicit false

namespace PlayerLookup.Batch

variable {α κ : Type}

/-! ## Slices -/

/-- Slices are taken off the items that are left, one after the other, and the first that comes out
empty ends it. -/
inductive Sliced (size : Nat) : List α → List (List α) → Prop where
  | ended {left : List α} (empty : left.take size = []) : Sliced size left []
  | next {left : List α} {slices : List (List α)} (taken : left.take size ≠ [])
      (others : Sliced size (left.drop size) slices) : Sliced size left (left.take size :: slices)

theorem chunks_eq_take_drop {size : Nat} (hsize : 1 ≤ size) {items : List α} (hne : items ≠ []) :
    chunks size items = items.take size :: chunks size (items.drop size) := by
  obtain ⟨n, rfl⟩ : ∃ n, size = n + 1 := ⟨size - 1, by omega⟩
  cases items with
  | nil => exact absurd rfl hne
  | cons x xs => rw [chunks, List.take_succ_cons, List.drop_succ_cons, Nat.add_sub_cancel]

theorem take_eq_nil_iff {size : Nat} (hsize : 1 ≤ size) {items : List α} :
    items.take size = [] ↔ items = [] := by
  rw [List.take_eq_nil_iff]
  exact or_iff_right (by omega)

theorem sliced_chunks {size : Nat} (hsize : 1 ≤ size) (items : List α) :
    Sliced size items (chunks size items) := by
  -- By induction on the parts, each of which is the slice that is taken off next.
  induction items using chunks.induct size with
  | case1 =>
    rw [chunks]
    exact .ended List.take_nil
  | case2 x xs ih =>
    have hstep := chunks_eq_take_drop hsize (List.cons_ne_nil x xs)
    have hrest : (x :: xs).drop size = xs.drop (size - 1) := by
      obtain ⟨n, rfl⟩ : ∃ n, size = n + 1 := ⟨size - 1, by omega⟩
      rw [List.drop_succ_cons, Nat.add_sub_cancel]
    rw [hstep]
    refine .next (fun hnil => ?_) ?_
    · exact absurd ((take_eq_nil_iff hsize).mp hnil) (List.cons_ne_nil x xs)
    · rw [hrest]
      exact ih

theorem Sliced.unique {size : Nat} {items : List α} {slices others : List (List α)}
    (h : Sliced size items slices) (h' : Sliced size items others) : slices = others := by
  induction h generalizing others with
  | ended empty =>
    cases h' with
    | ended _ => rfl
    | next taken _ => exact absurd empty taken
  | next taken _ ih =>
    cases h' with
    | ended empty => exact absurd empty taken
    | next _ more => rw [ih more]

theorem sliced_iff {size : Nat} (hsize : 1 ≤ size) {items : List α} {slices : List (List α)} :
    Sliced size items slices ↔ slices = chunks size items := by
  constructor
  · exact fun h => h.unique (sliced_chunks hsize items)
  · rintro rfl
    exact sliced_chunks hsize items

variable [DecidableEq κ]

/-! ## Items with new keys -/

/-- The items whose keys are the keys of no earlier item. -/
def newlyKeyed (key : α → κ) (items : List α) : List α :=
  (items.zipIdx.filter fun e => (items.take e.2).all fun y => key y != key e.1).map Prod.fst

theorem newlyKeyed_concat (key : α → κ) (items : List α) (x : α) :
    newlyKeyed key (items ++ [x]) =
      newlyKeyed key items ++ if key x ∈ items.map key then [] else [x] := by
  have hbefore : (items.zipIdx.filter fun e =>
      ((items ++ [x]).take e.2).all fun y => key y != key e.1) =
        items.zipIdx.filter fun e => (items.take e.2).all fun y => key y != key e.1 := by
    refine List.filter_congr fun e he => ?_
    have hlt : e.2 < items.length := by
      have h := List.snd_lt_add_of_mem_zipIdx he
      omega
    rw [List.take_append_of_le_length (Nat.le_of_lt hlt)]
  have hlast : (([(x, items.length)].filter fun e =>
      ((items ++ [x]).take e.2).all fun y => key y != key e.1).map Prod.fst) =
        if key x ∈ items.map key then [] else [x] := by
    rw [List.filter_singleton, List.take_left]
    by_cases hx : key x ∈ items.map key
    · obtain ⟨y, hy, hkey⟩ := List.mem_map.mp hx
      have hall : (items.all fun y => key y != key x) = false :=
        List.all_eq_false.mpr ⟨y, hy, by simp [hkey]⟩
      simp [hall, hx]
    · have hall : (items.all fun y => key y != key x) = true := by
        refine List.all_eq_true.mpr fun y hy => bne_iff_ne.mpr fun hkey => hx ?_
        rw [← hkey]
        exact List.mem_map_of_mem hy
      simp [hall, hx]
  rw [newlyKeyed, List.zipIdx_append, List.filter_append, List.map_append, hbefore,
    List.zipIdx_singleton, Nat.zero_add, hlast]
  rfl

theorem uniqueBy_concat (key : α → κ) (items : List α) (x : α) :
    uniqueBy key (items ++ [x]) =
      uniqueBy key items ++ if key x ∈ items.map key then [] else [x] := by
  rw [uniqueBy, uniqueFrom_append, List.nil_append]
  rfl

theorem uniqueBy_eq_newlyKeyed (key : α → κ) (items : List α) :
    uniqueBy key items = newlyKeyed key items := by
  induction items using List.reverseRecOn with
  | nil => rfl
  | append_singleton items x ih => rw [uniqueBy_concat, newlyKeyed_concat, ih]

theorem length_uniqueBy (key : α → κ) (items : List α) :
    (uniqueBy key items).length = (items.map key).toFinset.card := by
  have hsame : ((uniqueBy key items).map key).toFinset = (items.map key).toFinset := by
    ext k
    rw [List.mem_toFinset, List.mem_toFinset, mem_map_uniqueBy]
  rw [← hsame, List.toFinset_card_of_nodup (nodup_map_uniqueBy key items), List.length_map]

/-! ## Parts of what is left -/

/-- The items of the first of each key, in parts: slices that are taken off until one is empty, all
but the last of the full size, with no key in two of them or twice in one. -/
structure SharedOut (key : α → κ) (items : List α) (size : Nat) (parts : List (List α)) : Prop where
  sliced_iff : ∀ slices, Sliced size (uniqueBy key items) slices ↔ slices = parts
  filled : Parts size (uniqueBy key items) parts
  length_eq : parts.length = (items.map key).toFinset.card ⌈/⌉ size
  once : ∀ part ∈ parts, (part.map key).Nodup
  apart : parts.Pairwise fun a b => (a.map key).Disjoint (b.map key)

theorem sharedOut_chunks (key : α → κ) (items : List α) {size : Nat} (hsize : 1 ≤ size) :
    SharedOut key items size (chunks size (uniqueBy key items)) := by
  have hnodup : (((chunks size (uniqueBy key items)).map (List.map key)).flatten).Nodup := by
    rw [← List.map_flatten, flatten_chunks]
    exact nodup_map_uniqueBy key items
  obtain ⟨honce, hapart⟩ := List.nodup_flatten.mp hnodup
  refine ⟨fun slices => Batch.sliced_iff hsize, parts_chunks hsize _, ?_, fun part hpart => ?_, ?_⟩
  · rw [length_chunks hsize, length_uniqueBy, Nat.ceilDiv_eq_add_pred_div]
  · exact honce _ (List.mem_map_of_mem hpart)
  · exact List.pairwise_map.mp hapart

theorem parts_eq_chunks {size : Int} (hpos : 1 ≤ size) (hword : size ≤ Word.largest)
    (items : List α) : parts size items = .ok (chunks size.toNat items) := by
  rw [parts, if_neg (by omega), if_neg (by omega)]

/-- **Every key is in one part, once.** Whatever the keys are, dropping repeats leaves the items
with new keys, and these can be cut into parts of every size that a word can hold. -/
theorem distinct_keys_in_parts (key : α → κ) (items : List α) (size : Int) (hpos : 1 ≤ size)
    (hword : size ≤ Word.largest) :
    uniqueBy key items = newlyKeyed key items ∧ (uniqueBy key items).Sublist items ∧
      ∃ cut, parts size (uniqueBy key items) = .ok cut ∧
        SharedOut key items size.toNat cut := by
  have hsize : 1 ≤ size.toNat := by omega
  refine ⟨uniqueBy_eq_newlyKeyed key items, uniqueFrom_sublist key [] items, _,
    parts_eq_chunks hpos hword _, sharedOut_chunks key items hsize⟩

/-- Six spellings of four names, two to a part. -/
theorem distinct_keys_in_parts_spellings :
    (1 : Int) ≤ 2 ∧ (2 : Int) ≤ Word.largest ∧
      uniqueBy Text.fold ["Notch", "jeb_", "notch", "Dinnerbone", "Grumm", "JEB_"] =
        ["Notch", "jeb_", "Dinnerbone", "Grumm"] ∧
      ∃ cut, parts 2 (uniqueBy Text.fold
          ["Notch", "jeb_", "notch", "Dinnerbone", "Grumm", "JEB_"]) = .ok cut ∧
        SharedOut Text.fold ["Notch", "jeb_", "notch", "Dinnerbone", "Grumm", "JEB_"] 2 cut :=
  ⟨by decide, by decide, by decide +kernel,
    (distinct_keys_in_parts Text.fold
      ["Notch", "jeb_", "notch", "Dinnerbone", "Grumm", "JEB_"] 2 (by decide) (by decide)).2.2⟩

end PlayerLookup.Batch
