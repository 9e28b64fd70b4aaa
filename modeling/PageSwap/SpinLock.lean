/-
# The spin lock

A value behind a lock that is taken by trying again and again, with a relax after every failed
attempt.
-/
namespace PageSwap

/-- A value and whether somebody holds it. -/
structure SpinLock (α : Type) where
  held : Bool := false
  value : α
  deriving DecidableEq, Inhabited

namespace SpinLock

variable {α : Type}

/-- Take the lock, if it is free. -/
def tryLock (l : SpinLock α) : Bool × SpinLock α := (!l.held, { l with held := true })

/-- Give the lock up. -/
def unlock (l : SpinLock α) : SpinLock α := { l with held := false }

/-- Change the value. -/
def modify (f : α → α) (l : SpinLock α) : SpinLock α := { l with value := f l.value }

/-- Take the lock after as many relaxes as it needs, at most `fuel`; `relax n` is what happens
during the `n`th of them, and `done` have gone before.  The answer is their number. -/
def lock (relax : Nat → SpinLock α → SpinLock α) :
    (fuel done : Nat) → SpinLock α → Option (Nat × SpinLock α)
  | fuel, done, l =>
    match l.tryLock with
    | (true, l) => some (done, l)
    | (false, l) =>
      match fuel with
      | 0 => none
      | fuel + 1 => lock relax fuel (done + 1) (relax (done + 1) l)

end SpinLock

end PageSwap
