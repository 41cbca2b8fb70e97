import PlayerLookup.Proofs.Foundations.Outcomes
import PlayerLookup.Proofs.Identifier.Digits
import PlayerLookup.Template.Fill

/-! What a template comes to when it is filled in: the texts of its pieces, one after the other, or
the fault of the first piece that has one. -/

set_option autoImplicit false

namespace PlayerLookup.Template

variable {parts : Parts} {values : List (String × List Char)} {depth : Nat}

def Piece.text (parts : Parts) (values : List (String × List Char)) (depth : Nat) :
    Piece → Except Fault (List Char)
  | .literal text => .ok text
  | .broken fault => .error fault
  | .field f => do
    let textIn ← (← lookUp parts values f.name) f.conversion
    if f.nested then textIn (← fill parts values depth f.layout) else textIn f.layout

theorem bind_pure_eq_map (text : Except Fault (List Char)) (done : List Char) :
    (do return done ++ (← text)) = text.map (done ++ ·) := by
  cases text <;> rfl

theorem foldlM_append {ι : Type} (text : ι → Except Fault (List Char)) (items : List ι)
    (done : List Char) :
    items.foldlM (fun done i => (text i).map (done ++ ·)) done =
      (items.mapM text).map fun texts => done ++ texts.flatten := by
  induction items generalizing done with
  | nil => simp [Except.map, pure, Except.pure]
  | cons i rest ih =>
    rw [List.foldlM_cons, List.mapM_cons]
    cases text i with
    | error fault => rfl
    | ok t =>
      change rest.foldlM _ (done ++ t) = _
      rw [ih]
      cases rest.mapM text with
      | error fault => rfl
      | ok texts => simp [Except.map, bind, Except.bind, pure, Except.pure]

theorem fill_succ (parts : Parts) (values : List (String × List Char)) (depth : Nat)
    (template : List Char) :
    fill parts values (depth + 1) template =
      ((ofText template).mapM (Piece.text parts values depth)).map List.flatten := by
  have hstep : fill parts values (depth + 1) template =
      (ofText template).foldlM (fun done p => (p.text parts values depth).map (done ++ ·)) [] := by
    rw [fill]
    congr 1
    funext done piece
    cases piece with
    | literal text => rfl
    | broken fault => rfl
    | field f =>
      dsimp only [Piece.text]
      cases lookUp parts values f.name with
      | error fault => rfl
      | ok found =>
        dsimp only [bind, Except.bind]
        cases found f.conversion with
        | error fault => rfl
        | ok textIn =>
          dsimp only
          split
          · cases fill parts values depth f.layout with
            | error fault => rfl
            | ok spec => exact (bind_pure_eq_map (textIn spec) done)
          · exact (bind_pure_eq_map (textIn f.layout) done)
  rw [hstep, foldlM_append]
  rfl

end PlayerLookup.Template
