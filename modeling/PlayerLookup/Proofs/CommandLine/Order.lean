import Mathlib.Data.List.Nodup
import Mathlib.Data.List.Pairwise
import PlayerLookup.CommandLine.Report

/-! The order in which profiles are printed: by their names without regard to case, and as they were
given where these are the same. If no two are the same, there is only one such order. -/

set_option autoImplicit false

namespace PlayerLookup

def Profile.folded (p : Profile) : String := Text.fold p.name.text

namespace CommandLine

/-- The first may be printed before the second. -/
def mayPrecede (a b : Profile) : Bool := !(Text.fold b.name.text < Text.fold a.name.text)

theorem mayPrecede_iff {a b : Profile} : mayPrecede a b = true ↔ a.folded ≤ b.folded := by
  rw [mayPrecede, Bool.not_eq_true', decide_eq_false_iff_not]
  exact String.not_lt

theorem mayPrecede_trans (a b c : Profile) (hab : mayPrecede a b = true)
    (hbc : mayPrecede b c = true) : mayPrecede a c = true :=
  mayPrecede_iff.mpr (String.le_trans (mayPrecede_iff.mp hab) (mayPrecede_iff.mp hbc))

theorem mayPrecede_total (a b : Profile) : (mayPrecede a b || mayPrecede b a) = true := by
  rw [Bool.or_eq_true, mayPrecede_iff, mayPrecede_iff]
  exact String.le_total a.folded b.folded

/-- The profiles put in the order of their folded names; those of one folded name are as before. -/
structure PutInOrder (ps ordered : List Profile) : Prop where
  perm : ordered.Perm ps
  sorted : ordered.Pairwise fun a b => a.folded ≤ b.folded
  stable : ∀ name, ordered.filter (·.folded = name) = ps.filter (·.folded = name)

theorem perm_inOrder (ps : List Profile) : (inOrder ps).Perm ps := List.mergeSort_perm ps _

theorem pairwise_inOrder (ps : List Profile) :
    (inOrder ps).Pairwise fun a b => a.folded ≤ b.folded := by
  have hsorted := List.pairwise_mergeSort mayPrecede_trans mayPrecede_total ps
  exact hsorted.imp mayPrecede_iff.mp

theorem filter_inOrder (ps : List Profile) (name : String) :
    (inOrder ps).filter (·.folded = name) = ps.filter (·.folded = name) := by
  have halike : (ps.filter (·.folded = name)).Pairwise fun a b => mayPrecede a b = true := by
    refine List.pairwise_of_forall_mem_list fun a ha b hb => ?_
    have hname : a.folded = b.folded := by
      rw [of_decide_eq_true (List.mem_filter.mp ha).2, of_decide_eq_true (List.mem_filter.mp hb).2]
    exact mayPrecede_iff.mpr (hname ▸ String.le_refl a.folded)
  -- Sorting keeps a part that is in order already, and that part is all there is of the name.
  have hsub : (ps.filter (·.folded = name)).Sublist (inOrder ps) :=
    List.sublist_mergeSort mayPrecede_trans mayPrecede_total halike List.filter_sublist
  have hkept := hsub.filter (·.folded = name)
  rw [List.filter_filter] at hkept
  simp only [Bool.and_self] at hkept
  exact (hkept.eq_of_length ((perm_inOrder ps).filter _).length_eq.symm).symm

theorem putInOrder_inOrder (ps : List Profile) : PutInOrder ps (inOrder ps) :=
  ⟨perm_inOrder ps, pairwise_inOrder ps, filter_inOrder ps⟩

theorem inOrder_of_pairwise {ps : List Profile} (h : ps.Pairwise fun a b => a.folded ≤ b.folded) :
    inOrder ps = ps :=
  List.mergeSort_of_pairwise (h.imp mayPrecede_iff.mpr)

/-- Where folded names tell profiles apart, it makes no difference how they were ordered. -/
theorem inOrder_eq_of_perm {ps qs : List Profile} (h : ps.Perm qs)
    (hn : (ps.map Profile.folded).Nodup) : inOrder ps = inOrder qs := by
  have hperm : (inOrder ps).Perm (inOrder qs) :=
    (perm_inOrder ps).trans (h.trans (perm_inOrder qs).symm)
  refine List.Perm.eq_of_pairwise (fun a b ha hb hab hba => ?_) (pairwise_inOrder ps)
    (pairwise_inOrder qs) hperm
  have hsame : a.folded = b.folded := String.le_antisymm hab hba
  have hap : a ∈ ps := (perm_inOrder ps).mem_iff.mp ha
  have hbp : b ∈ ps := h.mem_iff.mpr ((perm_inOrder qs).mem_iff.mp hb)
  exact List.inj_on_of_nodup_map hn hap hbp hsame

end CommandLine

end PlayerLookup
