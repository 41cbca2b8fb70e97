import PlayerLookup.Pipeline

/-! Sessions: the state of one pipeline with nothing beside it. -/

set_option autoImplicit false

namespace PlayerLookup

/-- What a pipeline of its own works on. -/
structure Session where
  memory : Memory
  pinned : LocalMap
  files : Storage.Files
  hidden : Storage.Content
  opened : Bool

namespace Session

def new : Session := ⟨.empty, .empty, ⟨[]⟩, .database [], false⟩

def resources (send : Request → Lookup Session Response) (modules : HostModules Session) :
    Resources Session where
  memory := ⟨(·.memory), fun s a => { s with memory := a }, by simp⟩
  pinned := ⟨(·.pinned), fun s a => { s with pinned := a }, by simp⟩
  files := ⟨(·.files), fun s a => { s with files := a }, by simp⟩
  hidden := ⟨(·.hidden), fun s a => { s with hidden := a }, by simp⟩
  opened := ⟨(·.opened), fun s a => { s with opened := a }, by simp⟩
  send := send
  modules := modules
  schedule := .inOrder
  platform := .machine Template.noParts

end Session

end PlayerLookup
