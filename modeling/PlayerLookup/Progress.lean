import PlayerLookup.Delivery

/-! The progress of a lookup that asks several sources: which keys are still missing, which have
been reported, and whether the visitor has asked to stop. Keys are compared in a normal form. -/

set_option autoImplicit false

namespace PlayerLookup

/-- What has become of the requested keys. Missing keys stand beside their normal forms, in the
order of the request. -/
structure Progress (K κ : Type) where
  remaining : List (κ × K)
  reported : List κ
  stopRequested : Bool

namespace Progress

variable {K κ σ α : Type} [DecidableEq κ]

/-- Nothing found yet. Of keys with one normal form the first spelling counts. -/
def ofKeys (normal : K → κ) (keys : List K) : Progress K κ :=
  ⟨Batch.uniqueBy Prod.fst (keys.map fun k => (normal k, k)), [], false⟩

def missing (pr : Progress K κ) : List K := pr.remaining.map Prod.snd

def isComplete (pr : Progress K κ) : Bool := pr.remaining.isEmpty

/-- Records that a key was found; tells whether it was for the first time. -/
def markFound (normal : K → κ) (pr : Progress K κ) (key : K) : Bool × Progress K κ :=
  let k := normal key
  if k ∈ pr.reported then (false, pr)
  else (true,
    { pr with remaining := pr.remaining.filter fun e => e.1 != k, reported := k :: pr.reported })

def requestStop (pr : Progress K κ) : Progress K κ := { pr with stopRequested := true }

/-- The profiles whose keys were not reported before, and the progress after all of them. -/
def accept (normal : K → κ) (keyOf : Profile → K) (pr : Progress K κ) :
    List Profile → List Profile × Progress K κ
  | [] => ([], pr)
  | p :: rest =>
    let (first, pr) := pr.markFound normal (keyOf p)
    let (more, pr) := pr.accept normal keyOf rest
    (if first then p :: more else more, pr)

/-- A delivery whose profiles are passed on once for each key. To a repeated profile the answer is
`true`; an answer that asks to stop is remembered. -/
def forward (normal : K → κ) (keyOf : Profile → K) (pr : Progress K κ) (d : Delivery σ α) :
    Delivery σ (α × Progress K κ) :=
  match d with
  | .done (.ok a) => .done (.ok (a, pr))
  | .done (.error f) => .done (.error f)
  | .read next => .read fun s => forward normal keyOf pr (next s)
  | .write events t next => .write events t (forward normal keyOf pr next)
  | .give p next =>
    let (first, pr) := pr.markFound normal (keyOf p)
    if first then
      .give p fun answer =>
        forward normal keyOf
          (match answer with
            | .ok a => if a.stops then pr.requestStop else pr
            | .error _ => pr)
          (next answer)
    else forward normal keyOf pr (next (.ok (.bool true)))

end Progress

end PlayerLookup
