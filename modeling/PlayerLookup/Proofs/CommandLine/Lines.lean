import Mathlib.Algebra.Ring.Nat
import PlayerLookup.Proofs.Cache.History
import PlayerLookup.Proofs.CommandLine.Order
import PlayerLookup.Proofs.Identifier.Stored

/-! Profiles printed as lines. A profile takes one line more than its name has newlines, so only
names without newlines are printed with one line for each profile; then the profiles can be read
back. -/

set_option autoImplicit false

namespace PlayerLookup

/-! ## Lines of a text -/

namespace Text

/-- What stands between the newlines of a text. -/
def lines (s : String) : List String := (s.toList.splitOn '\n').map String.ofList

def newlines (s : String) : Nat := s.toList.count '\n'

theorem lines_joined (s t : String) : lines (s ++ "\n" ++ t) = lines s ++ lines t := by
  have hjoined : (s ++ "\n" ++ t).toList = s.toList ++ '\n' :: t.toList := by
    rw [String.toList_append, String.toList_append, List.append_assoc]
    rfl
  rw [lines, hjoined, List.splitOn_append_cons_self, List.map_append]
  rfl

theorem lines_intercalate {parts : List String} (hne : parts ≠ []) :
    lines ("\n".intercalate parts) = parts.flatMap lines := by
  induction parts with
  | nil => exact absurd rfl hne
  | cons part rest ih =>
    cases rest with
    | nil => rw [String.intercalate_singleton, List.flatMap_singleton]
    | cons next more =>
      rw [String.intercalate_cons_cons, lines_joined, ih (List.cons_ne_nil next more)]
      rfl

theorem length_splitOn (c : Char) (cs : List Char) :
    (cs.splitOn c).length = cs.count c + 1 := by
  induction cs with
  | nil => rfl
  | cons d cs ih =>
    rw [List.splitOn_cons_eq_if_modifyHead, List.count_cons]
    by_cases hd : d == c
    · rw [if_pos hd, if_pos hd, List.length_cons, ih]
    · rw [if_neg hd, if_neg hd, List.length_modifyHead, ih, Nat.add_zero]

theorem length_lines (s : String) : (lines s).length = newlines s + 1 := by
  rw [lines, List.length_map, length_splitOn, newlines]

theorem lines_eq_singleton {s : String} (h : '\n' ∉ s.toList) : lines s = [s] := by
  rw [lines, List.splitOn_eq_singleton h, List.map_singleton, String.ofList_toList]

end Text

/-! ## The line of a profile -/

namespace Profile

theorem toList_text (p : Profile) :
    p.text.toList = p.id.text.toList ++ ' ' :: p.name.text.toList := by
  rw [text, String.toList_append, String.toList_append, List.append_assoc]
  rfl

theorem not_mem_id_text (id : PlayerId) {c : Char} (hdash : c ≠ '-')
    (hc : PlayerId.isHexDigit c = false) : c ∉ id.text.toList := by
  rw [PlayerId.text, String.toList_ofList]
  exact PlayerId.not_mem_grouped (fun d hd => PlayerId.isHexDigit_of_mem_digits hd) hdash hc

theorem newlines_text (p : Profile) : Text.newlines p.text = Text.newlines p.name.text := by
  have hid : p.id.text.toList.count '\n' = 0 :=
    List.count_eq_zero.mpr (not_mem_id_text p.id (by decide) (by decide))
  rw [Text.newlines, toList_text, List.count_append, hid, Nat.zero_add]
  rfl

/-- The name has no newline in it. -/
def OnOneLine (p : Profile) : Prop := '\n' ∉ p.name.text.toList

theorem onOneLine_iff (p : Profile) : p.OnOneLine ↔ Text.newlines p.name.text = 0 :=
  List.count_eq_zero.symm

theorem OnOneLine.lines_text {p : Profile} (h : p.OnOneLine) : Text.lines p.text = [p.text] := by
  refine Text.lines_eq_singleton (List.count_eq_zero.mp ?_)
  exact (newlines_text p).trans ((onOneLine_iff p).mp h)

/-- The profile that a line writes: its id up to the first space, and its name after that. -/
def ofLine? (line : String) : Option Profile :=
  (PlayerId.read? (String.ofList (line.toList.takeWhile (· != ' ')))).bind fun id =>
    (Name.ofText? (String.ofList (line.toList.dropWhile (· != ' ')).tail)).map fun name =>
      ⟨id, name⟩

theorem ofLine?_text (p : Profile) : ofLine? p.text = some p := by
  have hspace : ∀ c ∈ p.id.text.toList, (c != ' ') = true := fun c hc => bne_iff_ne.mpr fun h =>
    not_mem_id_text p.id (by decide) (by decide) (h ▸ hc)
  have hhead : p.text.toList.takeWhile (· != ' ') = p.id.text.toList := by
    rw [toList_text, List.takeWhile_append_of_pos hspace]
    simp
  have htail : (p.text.toList.dropWhile (· != ' ')).tail = p.name.text.toList := by
    rw [toList_text, List.dropWhile_append_of_pos hspace]
    simp
  rw [ofLine?, hhead, htail, String.ofList_toList, String.ofList_toList, PlayerId.read?_text,
    Name.ofText?, dif_neg p.name.nonempty]
  rfl

end Profile

namespace CommandLine

/-! ## All lines -/

/-- The profiles that lines write, if each line writes one. -/
def readBack? (output : String) : Option (List Profile) :=
  (Text.lines output).mapM Profile.ofLine?

/-- How profiles are printed as lines. Each takes the lines that its text has, in the order of the
folded names, and they take a line each just if no name has a newline in it. From such lines they
are read back. -/
structure PrintedByLine (ps : List Profile) (output : String) : Prop where
  ordered : PutInOrder ps (inOrder ps)
  lines_eq : Text.lines output = (inOrder ps).flatMap fun p => Text.lines p.text
  length_eq : (Text.lines output).length =
    ps.length + (ps.map fun p => Text.newlines p.name.text).sum
  lineEach_iff : (Text.lines output).length = ps.length ↔ ∀ p ∈ ps, p.OnOneLine
  lineEach : (∀ p ∈ ps, p.OnOneLine) → Text.lines output = (inOrder ps).map Profile.text
  read_back : (∀ p ∈ ps, p.OnOneLine) → readBack? output = some (inOrder ps)

theorem length_flatMap_lines (ps : List Profile) :
    (ps.flatMap fun p => Text.lines p.text).length =
      ps.length + (ps.map fun p => Text.newlines p.name.text).sum := by
  induction ps with
  | nil => rfl
  | cons p ps ih =>
    rw [List.flatMap_cons, List.length_append, ih, Text.length_lines, Profile.newlines_text,
      List.length_cons, List.map_cons, List.sum_cons]
    omega

theorem flatMap_lines_of_onOneLine {ps : List Profile} (h : ∀ p ∈ ps, p.OnOneLine) :
    (ps.flatMap fun p => Text.lines p.text) = ps.map Profile.text := by
  induction ps with
  | nil => rfl
  | cons p ps ih =>
    rw [List.flatMap_cons, (h p List.mem_cons_self).lines_text, List.map_cons,
      ih fun q hq => h q (List.mem_cons_of_mem p hq)]
    rfl

theorem mapM_ofLine?_text (ps : List Profile) :
    (ps.map Profile.text).mapM Profile.ofLine? = some ps := by
  induction ps with
  | nil => rfl
  | cons p ps ih =>
    rw [List.map_cons, List.mapM_cons, Profile.ofLine?_text, ih]
    rfl

theorem sum_newlines_eq_zero_iff (ps : List Profile) :
    (ps.map fun p => Text.newlines p.name.text).sum = 0 ↔ ∀ p ∈ ps, p.OnOneLine := by
  rw [List.sum_eq_zero_iff_forall_eq_nat, List.forall_mem_map]
  exact forall₂_congr fun p _ => (Profile.onOneLine_iff p).symm

/-- **Profiles are printed line by line, but a newline in a name breaks its line.** -/
theorem plain_report_by_line (ps : List Profile) (hne : ps ≠ []) :
    PrintedByLine ps (formatProfiles ps false) := by
  have hperm := perm_inOrder ps
  have hlines : Text.lines (formatProfiles ps false) =
      (inOrder ps).flatMap fun p => Text.lines p.text := by
    have hsome : (inOrder ps).map Profile.text ≠ [] := fun hnil =>
      hne (List.nil_perm.mp ((List.map_eq_nil_iff.mp hnil) ▸ hperm))
    change Text.lines ("\n".intercalate ((inOrder ps).map Profile.text)) = _
    rw [Text.lines_intercalate hsome, List.flatMap_map]
  have hlength : (Text.lines (formatProfiles ps false)).length =
      ps.length + (ps.map fun p => Text.newlines p.name.text).sum := by
    rw [hlines, length_flatMap_lines, hperm.length_eq, (hperm.map _).sum_nat]
  have heach : (∀ p ∈ ps, p.OnOneLine) →
      Text.lines (formatProfiles ps false) = (inOrder ps).map Profile.text := fun h => by
    rw [hlines, flatMap_lines_of_onOneLine fun p hp => h p (hperm.mem_iff.mp hp)]
  refine ⟨putInOrder_inOrder ps, hlines, hlength, ?_, heach, fun h => ?_⟩
  · rw [hlength, ← sum_newlines_eq_zero_iff]
    omega
  · rw [readBack?, heach h, mapM_ofLine?_text]

/-! ## Three profiles, and one that looks like two -/

namespace Printed

def ash : Profile := ⟨⟨1⟩, .ash⟩

def shouted : Profile := ⟨⟨3⟩, ⟨"ASH", by decide⟩⟩

def birch : Profile := ⟨⟨2⟩, .birch⟩

/-- The name goes on with what looks like the line of another profile. -/
def forged : Profile := ⟨⟨1⟩, ⟨"Ash\n00000000-0000-0000-0000-000000000002 Birch", by decide⟩⟩

end Printed

/-- Two spellings of one name stay as they were given; the name that was given before them comes
last. -/
theorem plain_report_by_line_three :
    [Printed.birch, Printed.shouted, Printed.ash] ≠ [] ∧
      (∀ p ∈ [Printed.birch, Printed.shouted, Printed.ash], p.OnOneLine) ∧
      PrintedByLine [Printed.birch, Printed.shouted, Printed.ash]
        (formatProfiles [Printed.birch, Printed.shouted, Printed.ash] false) := by
  refine ⟨by decide, ?_, plain_report_by_line _ (by decide)⟩
  unfold Profile.OnOneLine
  decide +kernel

/-- Of a name with a newline in it two lines are printed, which may be those of two profiles. -/
theorem newline_breaks_line :
    (Text.lines (formatProfiles [Printed.forged] false)).length = 2 ∧
      formatProfiles [Printed.forged] false =
        formatProfiles [Printed.ash, Printed.birch] false := by
  have hone : inOrder [Printed.forged] = [Printed.forged] := List.mergeSort_singleton _
  have htwo : inOrder [Printed.ash, Printed.birch] = [Printed.ash, Printed.birch] :=
    inOrder_of_pairwise (by decide +kernel)
  unfold formatProfiles
  dsimp only
  rw [hone, htwo]
  decide +kernel

end CommandLine

end PlayerLookup
