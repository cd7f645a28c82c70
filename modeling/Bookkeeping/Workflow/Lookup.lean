import Bookkeeping.Workflow

/-! # Looking an account up -/
namespace Bookkeeping

def Step.lookingUp : Step := ⟨"looking up account"⟩

namespace Workflow

def lookup (id : AccountId) : Workflow Account := do
  match ← ask (.findAccount id) with
  | .ok a => return a
  | .error e =>
    if e.isNotFound then reject (.accountNotFound id) else reject (.internal .lookingUp e)

end Workflow

end Bookkeeping
