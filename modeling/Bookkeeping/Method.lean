/-! # Methods

A method changes its object in place and may fail on the way. What it has changed by then stays
changed.
-/
namespace Bookkeeping

/-- Methods of objects `σ` with the effects of `m`, which fail with an `ε`. -/
abbrev Method (σ ε : Type) (m : Type → Type) := ExceptT ε (StateT σ m)

namespace Method

variable {σ ε α β : Type} {m : Type → Type}

/-- The result of a method, and the object as the method leaves it. -/
def on (p : Method σ ε m α) (s : σ) : m (Except ε α × σ) := StateT.run (ExceptT.run p) s

/-- The object as the method leaves it, unless the method fails. -/
def update (p : Method σ ε Id Unit) (s : σ) : Except ε σ :=
  let (r, s) := Id.run (p.on s)
  r.map fun _ => s

section

variable [Monad m]

@[simp] theorem on_pure (a : α) (s : σ) : (pure a : Method σ ε m α).on s = pure (.ok a, s) := rfl

@[simp] theorem on_throw (e : ε) (s : σ) :
    (throw e : Method σ ε m α).on s = pure (.error e, s) := rfl

@[simp] theorem on_bind (p : Method σ ε m α) (f : α → Method σ ε m β) (s : σ) :
    (p >>= f).on s = p.on s >>= fun
      | (.ok a, s) => (f a).on s
      | (.error e, s) => pure (.error e, s) := by
  change (p.on s >>= fun x => _) = _
  congr 1
  funext ⟨r, s⟩
  cases r <;> rfl

end

section

variable [Monad m] [LawfulMonad m]

@[simp] theorem on_map (f : α → β) (p : Method σ ε m α) (s : σ) :
    (f <$> p).on s = p.on s >>= fun x => pure (x.1.map f, x.2) := by
  rw [map_eq_pure_bind, on_bind]
  congr 1
  funext ⟨r, s⟩
  cases r <;> rfl

@[simp] theorem on_get (s : σ) : (get : Method σ ε m σ).on s = pure (.ok s, s) := by
  change (pure (s, s) >>= fun x => pure (.ok x.1, x.2) : m (Except ε σ × σ)) = _
  rw [pure_bind]

@[simp] theorem on_modify (f : σ → σ) (s : σ) :
    (modify f : Method σ ε m Unit).on s = pure (.ok (), f s) := by
  change (pure ((), f s) >>= fun x => pure (.ok x.1, x.2) : m (Except ε Unit × σ)) = _
  rw [pure_bind]

@[simp] theorem on_lift (p : m α) (s : σ) :
    (liftM p : Method σ ε m α).on s = p >>= fun a => pure (.ok a, s) := by
  change ((p >>= fun a => pure (a, s)) >>= fun x => pure (.ok x.1, x.2) : m (Except ε α × σ)) = _
  simp

end

end Method

end Bookkeeping
