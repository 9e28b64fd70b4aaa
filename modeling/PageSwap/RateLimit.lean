/-
# The rate limiter

At most `burst` events pass in every window of `interval` ticks.  A window is opened by the first
event at or after the end of the one before; ticks are words, and their distance is taken modulo
the word, so the clock may wrap.  Events that do not pass are counted, and the event that opens
the next window learns how many there were.

* `RateLimit.check` -- one event.
-/
import PageSwap.Console
import PageSwap.Fault

namespace PageSwap

/-- A limiter and the window it is in. -/
structure RateLimit where
  /-- Ticks of a window. -/
  interval : UInt64
  /-- Events that pass in a window. -/
  burst : UInt32
  /-- When the window was opened, none before the first event. -/
  opened : Option UInt64 := none
  /-- Events that passed in this window. -/
  passed : UInt32 := 0
  /-- Events that did not pass in this window. -/
  missed : UInt32 := 0
  deriving DecidableEq

/-- What an event learns. -/
structure Verdict where
  /-- The event passes. -/
  passes : Bool
  /-- Events suppressed in the window that this event closed. -/
  suppressed : UInt32
  deriving DecidableEq, Inhabited

namespace RateLimit

/-- Ticks of a window, unless said otherwise. -/
def defaultInterval : UInt64 := 5000

/-- Events of a window, unless said otherwise. -/
def defaultBurst : UInt32 := 10

instance : Inhabited RateLimit := ⟨{ interval := defaultInterval, burst := defaultBurst }⟩

/-- When the window of an event at `now` was opened. -/
def windowStart (r : RateLimit) (now : UInt64) : UInt64 := r.opened.getD now

/-- An event at `now` falls after the end of the window. -/
def expired (r : RateLimit) (now : UInt64) : Bool := r.interval ≤ now - r.windowStart now

/-- The limiter in the window of an event at `now`. -/
def enter (r : RateLimit) (now : UInt64) : RateLimit :=
  if r.expired now then { r with opened := some now, passed := 0, missed := 0 }
  else { r with opened := some (r.windowStart now) }

/-- Count one event of the current window. -/
def count (r : RateLimit) : Except Fault (Bool × RateLimit) :=
  if r.passed < r.burst then .ok (true, { r with passed := r.passed + 1 })
  else if r.missed.toNat + 1 < UInt32.size then .ok (false, { r with missed := r.missed + 1 })
  else .error (.overflow .add)

/-- **One event at `now`.** -/
def check (r : RateLimit) (now : UInt64) : Except Fault (Verdict × RateLimit) := do
  let suppressed := if r.expired now then r.missed else 0
  let (passes, r) ← (r.enter now).count
  return (⟨passes, suppressed⟩, r)

/-- The line that reports `n` suppressed events. -/
def suppressedLine (n : UInt32) : String := s!"{n} callbacks suppressed"

/-- One event, and the line about those suppressed before it.  Where no time is known, every event
passes. -/
def checkOn (r : RateLimit) (now : Option UInt64) (c : Console) :
    Except Fault (Bool × RateLimit × Console) :=
  match now with
  | none => .ok (true, r, c)
  | some now => do
    let (verdict, r) ← r.check now
    let c := if verdict.suppressed = 0 then c else c.log .warn (suppressedLine verdict.suppressed)
    return (verdict.passes, r, c)

end RateLimit

end PageSwap
