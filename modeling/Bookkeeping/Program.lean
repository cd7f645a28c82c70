import Bookkeeping.Call

/-! # Programs over a store

A program is the tree of its calls to a store and its readings of the clock, with a branch for every
possible answer. It fixes what is asked and in which order, and leaves to its runner what the
answers are, when they come, and what other programs do meanwhile.
-/
namespace Bookkeeping
open Bookkeeping.Time

/-- A computation that calls a store and reads a clock. -/
inductive Program (α : Type) where
  | done (a : α)
  | call (c : Call) (next : c.Reply → Program α)
  | clock (next : Instant → Program α)

namespace Program

variable {α β γ : Type}

def bind (p : Program α) (f : α → Program β) : Program β :=
  match p with
  | .done a => f a
  | .call c next => .call c fun r => (next r).bind f
  | .clock next => .clock fun t => (next t).bind f

instance : Monad Program where
  pure := done
  bind := bind

@[simp] theorem pure_eq (a : α) : (pure a : Program α) = .done a := rfl

@[simp] theorem done_bind (a : α) (f : α → Program β) : Program.done a >>= f = f a := rfl

@[simp] theorem call_bind (c : Call) (next : c.Reply → Program α) (f : α → Program β) :
    Program.call c next >>= f = .call c fun r => next r >>= f := rfl

@[simp] theorem clock_bind (next : Instant → Program α) (f : α → Program β) :
    Program.clock next >>= f = .clock fun t => next t >>= f := rfl

theorem bind_done (p : Program α) : p >>= Program.done = p := by
  induction p with
  | done a => rfl
  | call c next ih => simp only [call_bind, ih]
  | clock next ih => simp only [clock_bind, ih]

theorem bind_assoc (p : Program α) (f : α → Program β) (g : β → Program γ) :
    p >>= f >>= g = p >>= fun a => f a >>= g := by
  induction p with
  | done a => rfl
  | call c next ih => simp only [call_bind, ih]
  | clock next ih => simp only [clock_bind, ih]

instance : LawfulMonad Program :=
  LawfulMonad.mk' _ bind_done (fun _ _ => rfl) bind_assoc

def ask (c : Call) : Program c.Reply := .call c .done

def now : Program Instant := .clock .done

/-- Runs a program with answers that come at once. -/
def answer {m : Type → Type} [Monad m] (reply : (c : Call) → m c.Reply) (clock : m Instant) :
    Program α → m α
  | .done a => pure a
  | .call c next => do (next (← reply c)).answer reply clock
  | .clock next => do (next (← clock)).answer reply clock

end Program

end Bookkeeping
