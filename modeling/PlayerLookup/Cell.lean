import PlayerLookup.Lookup

/-! Cells: the parts of a state that a cache or a source owns. What is written to a cell is what
it then holds. -/

set_option autoImplicit false

namespace PlayerLookup

/-- A part of a state that can be read and replaced. -/
structure Cell (σ α : Type) where
  get : σ → α
  set : σ → α → σ
  get_set : ∀ s a, get (set s a) = a

namespace Cell

variable {σ α β τ : Type}

def whole : Cell σ σ where
  get s := s
  set _ a := a
  get_set _ _ := rfl

def within (outer : Cell σ τ) (inner : Cell τ α) : Cell σ α where
  get s := inner.get (outer.get s)
  set s a := outer.set s (inner.set (outer.get s) a)
  get_set s a := by simp [outer.get_set, inner.get_set]

/-- Writing to one cell leaves another as it is. -/
def Apart (c : Cell σ α) (d : Cell σ β) : Prop := ∀ s a, d.get (c.set s a) = d.get s

def read (c : Cell σ α) : Lookup σ α := Lookup.read c.get

def write (c : Cell σ α) (a : α) : Lookup σ Unit := Lookup.modify fun s => c.set s a

def modify (c : Cell σ α) (f : α → α) : Lookup σ Unit :=
  Lookup.modify fun s => c.set s (f (c.get s))

end Cell

end PlayerLookup
