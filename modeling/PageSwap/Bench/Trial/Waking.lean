/-
# Trials of waiters

Waiters have names, and their wakers count how often they wake.
-/
import PageSwap.Bench.Trial
import PageSwap.Waiter

namespace PageSwap.Bench

/-- A call on a waiter. -/
inductive WakeCall
  /-- Make a waiter, in place of any that has the name. -/
  | new (id counter : String)
  | wake (id : String)
  | pending (id : String)
  | drop (id : String)
  deriving DecidableEq, Inhabited

/-- Waiters and wakers by name. -/
structure WakeTrial where
  waiters : List (String × Waiter String) := []
  /-- How often each waker woke. -/
  wakes : List (String × Nat) := []
  deriving Inhabited

namespace WakeTrial

/-- Put a waiter under a name. -/
def put (t : WakeTrial) (id : String) (w : Waiter String) : WakeTrial :=
  { t with waiters := (id, w) :: t.waiters.filter (·.1 ≠ id) }

/-- A waker wakes. -/
def count (t : WakeTrial) (counter : String) : WakeTrial :=
  { t with wakes := t.wakes.map fun (name, n) => (name, if name = counter then n + 1 else n) }

/-- The waiter of a name. -/
def find (t : WakeTrial) (id : String) : Except Fault (Waiter String) :=
  match t.waiters.lookup id with
  | some w => .ok w
  | none => .error (unknownName id)

/-- Make a call.  The answer tells whether the task was woken, is waiting, or was there. -/
def call (t : WakeTrial) : WakeCall → Except Fault (Option Bool × WakeTrial)
  | .new id counter =>
    let known := t.wakes.any (·.1 = counter)
    let t := if known then t else { t with wakes := (counter, 0) :: t.wakes }
    .ok (none, t.put id (Waiter.new counter))
  | .wake id => do
    let (waker, w) := (← t.find id).take
    let t := t.put id w
    match waker with
    | some counter => return (some true, t.count counter)
    | none => return (some false, t)
  | .pending id => do return (some (← t.find id).isPending, t)
  | .drop id =>
    .ok (some (t.waiters.any (·.1 = id)), { t with waiters := t.waiters.filter (·.1 ≠ id) })

/-- Make a call.  The answer is that of the call and the counts after it. -/
def step (c : WakeCall) (t : WakeTrial) :
    Except Fault ((Option Bool × List (String × Nat)) × WakeTrial) := do
  let (answer, t) ← t.call c
  return ((answer, t.wakes), t)

end WakeTrial

end PageSwap.Bench
