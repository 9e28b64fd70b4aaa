/-
# Trials of the spin lock

A lock around a byte list.  Whoever finds it taken spins until the holder, who watches the relaxes,
lets go.
-/
import PageSwap.Bench.Trial
import PageSwap.SpinLock

namespace PageSwap.Bench

/-- A call on the lock, or through it. -/
inductive LockCall
  | lock
  | tryLock
  | unlock
  | push (b : UInt8)
  | get
  | first
  | reverse
  /-- Copy the lock and its content, and add a byte to the copy. -/
  | copy (b : UInt8)
  deriving DecidableEq, Inhabited

/-- What a call answers. -/
inductive LockAnswer
  | done
  | nothing
  | flag (b : Bool)
  | number (n : Nat)
  | content (l : List UInt8)
  /-- Whether the copy is locked, and its content. -/
  | copied (held : Bool) (l : List UInt8)
  deriving DecidableEq, Inhabited

/-- A report: the answer, whether the lock is taken, and the relaxes it took. -/
structure LockReport where
  answer : LockAnswer
  held : Bool
  relaxed : Nat
  deriving Inhabited

/-- The lock under trial. -/
abbrev LockTrial := SpinLock (List UInt8)

namespace LockTrial

/-- Take the lock.  The holder lets go during the relax `releaseAt`; if it never does, the lock is
never had. -/
def take (releaseAt : Option Nat) (l : LockTrial) : Except Fault (Nat × LockTrial) :=
  let relax n (l : LockTrial) := if releaseAt = some n then l.unlock else l
  match l.lock relax (releaseAt.getD 0) 0 with
  | some answer => .ok answer
  | none => .error .stalled

/-- Make a call.  The answer comes with the relaxes it took.  Without the lock there is no way to
the content. -/
def call (l : LockTrial) (releaseAt : Option Nat) :
    LockCall → Except Fault ((LockAnswer × Nat) × LockTrial)
  | .lock => do
    let (relaxed, l) ← take releaseAt l
    return ((.done, relaxed), l)
  | .tryLock =>
    let (taken, l) := l.tryLock
    .ok ((.flag taken, 0), l)
  | .unlock => .ok ((.flag l.held, 0), l.unlock)
  | .copy b => do
    let (relaxed, l) ← take releaseAt l
    let copy : LockTrial := { value := l.value ++ [b] }
    return ((.copied copy.held copy.value, relaxed), l.unlock)
  | .push b =>
    if l.held then
      let l := l.modify (· ++ [b])
      .ok ((.number l.value.length, 0), l)
    else .ok ((.nothing, 0), l)
  | .get => .ok ((if l.held then .content l.value else .nothing, 0), l)
  | .first =>
    .ok ((match l.held, l.value with
      | true, b :: _ => .number b.toNat
      | _, _ => .nothing, 0), l)
  | .reverse =>
    if l.held then
      let l := l.modify List.reverse
      .ok ((.content l.value, 0), l)
    else .ok ((.nothing, 0), l)

/-- Make a call and report. -/
def step (c : LockCall × Option Nat) (l : LockTrial) : Except Fault (LockReport × LockTrial) := do
  let ((answer, relaxed), l) ← call l c.2 c.1
  return ({ answer, held := l.held, relaxed }, l)

end LockTrial

end PageSwap.Bench
