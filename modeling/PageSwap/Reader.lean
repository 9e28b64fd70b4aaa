/-
# A reader that waits

A synchronous reader waits until its request has been finished.  It polls the device; the first
`Reader.pollBudget` polls that find nothing are followed by a single relax, the later ones by a
sleep of at most `Reader.sleepRounds` relaxes.  It leaves only when its waker has been taken.

The reader is a machine whose steps are atomic.  What the outside world does, the answer of a poll
and whatever happens during a relax, comes in between; `Reader.demand` says when.

* `Sleeper` -- what reader and completion share: the waiter and the parker word.
* `Reader.step` -- one step of the reader.
-/
import PageSwap.Parker
import PageSwap.Waiter

namespace PageSwap

/-- What a waiting reader shares with the side that finishes its request. -/
structure Sleeper where
  waiter : Waiter Unit := Waiter.new ()
  word : Parker := .running
  deriving DecidableEq, Inhabited

namespace Sleeper

/-- The completion takes the waker. -/
def take (s : Sleeper) : Bool × Sleeper :=
  let (waker, waiter) := s.waiter.take
  (waker.isSome, { s with waiter })

/-- The completion wakes the task whose waker it took. -/
def unpark (s : Sleeper) : Sleeper := { s with word := s.word.unpark.2 }

/-- Both steps of a completion. -/
def wake (s : Sleeper) : Sleeper :=
  match s.take with
  | (true, s) => s.unpark
  | (false, s) => s

end Sleeper

/-- Where a waiting reader is. -/
inductive Reader.Point
  /-- About to announce that it may sleep. -/
  | prepare
  /-- About to look whether its waker is gone. -/
  | check
  /-- About to poll the device. -/
  | poll
  /-- About to withdraw the announcement, because the budget has polls left. -/
  | withdraw
  /-- About to relax. -/
  | relax
  /-- In a sleep. -/
  | sleep (s : Sleep)
  /-- About to withdraw the announcement for good. -/
  | leave
  | done
  deriving DecidableEq, Inhabited

/-- A waiting reader. -/
structure Reader where
  point : Reader.Point := .prepare
  /-- Polls without a sleep left. -/
  budget : Nat
  deriving DecidableEq, Inhabited

namespace Reader

/-- Polls that are followed by a single relax. -/
def pollBudget : Nat := 16

/-- Relaxes of one sleep. -/
def sleepRounds : Nat := 1024

/-- A reader at the start of its wait. -/
def start : Reader := { budget := pollBudget }

/-- What a reader needs from the outside before its next step. -/
inductive Demand
  /-- Nothing. -/
  | none
  /-- The answer of a poll. -/
  | poll
  /-- That a relax passes. -/
  | relax
  /-- It is done. -/
  | stop
  deriving DecidableEq, Inhabited

/-- What the reader needs before its next step. -/
def demand (r : Reader) : Demand :=
  match r.point with
  | .poll => .poll
  | .relax => .relax
  | .sleep (.relax _) => .relax
  | .done => .stop
  | _ => .none

/-- One step; `hit` is the answer of the poll, if it needs one. -/
def step (hit : Bool) (r : Reader) (s : Sleeper) : Except Fault (Reader × Sleeper) :=
  match r.point with
  | .prepare => .ok ({ r with point := .check }, { s with word := s.word.prepare })
  | .check => .ok ({ r with point := if s.waiter.isPending then .poll else .leave }, s)
  | .poll =>
    if hit then .ok ({ r with point := .prepare }, s)
    else if 0 < r.budget then .ok ({ point := .withdraw, budget := r.budget - 1 }, s)
    else .ok ({ r with point := .sleep (.start (some sleepRounds)) }, s)
  | .withdraw => .ok ({ r with point := .relax }, { s with word := s.word.setRunning })
  | .relax => .ok ({ r with point := .prepare }, s)
  | .sleep here =>
    match here.step s.word with
    | .ok (.awake _, word) => .ok ({ r with point := .prepare }, { s with word })
    | .ok (next, word) => .ok ({ r with point := .sleep next }, { s with word })
    | .error f => .error f
  | .leave => .ok ({ r with point := .done }, { s with word := s.word.setRunning })
  | .done => .ok (r, s)

end Reader

end PageSwap
