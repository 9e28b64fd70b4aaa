/-
# Waiters

A waiter holds the waker of a task until somebody takes it out.  Taking is one atomic step, so the
task is woken at most once, and it knows that it has been as soon as the waker is gone.
-/
namespace PageSwap

/-- The waker of a task, until it is taken. -/
structure Waiter (ω : Type) where
  waker : Option ω
  deriving DecidableEq, Inhabited

namespace Waiter

variable {ω : Type}

/-- A waiter that holds `w`. -/
def new (w : ω) : Waiter ω := ⟨some w⟩

/-- Nobody has taken the waker yet. -/
def isPending (w : Waiter ω) : Bool := w.waker.isSome

/-- Take the waker out. -/
def take (w : Waiter ω) : Option ω × Waiter ω := (w.waker, ⟨none⟩)

end Waiter

end PageSwap
