/-
# The sleep handshake

A task that wants to sleep announces it, looks once more whether it still has to wait, and then
parks.  A wakeup that falls in between moves the word back to running, so the park that follows
returns at once.

The word is touched by single atomic steps only, and the task's side is written down step by step
(`Sleep`), so that a wakeup may fall between any two of them.

* `Parker` -- the word, with its atomic operations.
* `Sleep.step` -- one atomic step of a task that parks, with or without a limit.
* `Sleep.run` -- the steps in a row, with what happens meanwhile during each relax.
-/
import PageSwap.Fault

namespace PageSwap

/-- The word of one sleeping task. -/
inductive Parker
  | running
  /-- The task is about to sleep. -/
  | parking
  | parked
  deriving DecidableEq, Inhabited

namespace Parker

/-! ## 1. Atomic operations -/

/-- The word as a number. -/
def code : Parker → UInt32
  | .running => 0
  | .parking => 1
  | .parked => 2

def isRunning (w : Parker) : Bool := w = .running

/-- The task is about to sleep. -/
def prepare (_ : Parker) : Parker := .parking

/-- The task goes on without sleeping. -/
def setRunning (_ : Parker) : Parker := .running

/-- The task goes to sleep, unless it has been woken since it prepared to. -/
def tryPark : Parker → Except Fault (Bool × Parker)
  | .parking => .ok (true, .parked)
  | .running => .ok (false, .running)
  | .parked => .error .parkedTwice

/-- Wake the task.  The answer is whether it slept or was about to. -/
def unpark (w : Parker) : Bool × Parker := (w ≠ .running, .running)

/-- The task stops sleeping by itself.  The answer is whether somebody was first. -/
def giveUp : Parker → Bool × Parker
  | .parked => (false, .running)
  | w => (true, w)

end Parker

/-! ## 2. The sleeping task, step by step -/

/-- Where a parking task is.  A number is the number of relaxes left, if they are limited. -/
inductive Sleep
  /-- About to go to sleep. -/
  | start (left : Option Nat)
  /-- About to look whether it has been woken. -/
  | look (left : Option Nat)
  /-- About to relax. -/
  | relax (left : Option Nat)
  /-- About to stop sleeping by itself. -/
  | giveUp
  /-- Back, and whether it has been woken. -/
  | awake (woken : Bool)
  deriving DecidableEq, Inhabited

namespace Sleep

/-- The next round, if one is left. -/
def round : Option Nat → Sleep
  | some 0 => .giveUp
  | left => .look left

/-- One step.  A relax leaves the word alone; what others do meanwhile comes on top. -/
def step : Sleep → Parker → Except Fault (Sleep × Parker)
  | .start left, w =>
    match w.tryPark with
    | .ok (true, w) => .ok (round left, w)
    | .ok (false, w) => .ok (.awake true, w)
    | .error f => .error f
  | .look left, w => .ok (if w.isRunning then .awake true else .relax left, w)
  | .relax left, w => .ok (round (left.map (· - 1)), w)
  | .giveUp, w =>
    let (woken, w) := w.giveUp
    .ok (.awake woken, w)
  | .awake woken, w => .ok (.awake woken, w)

/-- The steps of a task one after the other, at most `fuel` of them, on a word that is part of a
larger state.  `relax` is what happens during a relax. -/
def run {σ : Type} (word : σ → Parker) (setWord : Parker → σ → σ)
    (relax : σ → Except Fault σ) : Nat → Sleep → σ → Except Fault (Bool × σ)
  | _, .awake woken, s => .ok (woken, s)
  | 0, _, _ => .error .stalled
  | fuel + 1, here, s => do
    let (next, w) ← here.step (word s)
    let s := setWord w s
    let s ← if here matches .relax _ then relax s else pure s
    run word setWord relax fuel next s

end Sleep

end PageSwap
