/-
# Counters

How many pages were read from swap and written to it, and how long the front store took.  All
counters are words and wrap.
-/
namespace PageSwap

/-- What is counted. -/
inductive Tally
  /-- A page read from swap. -/
  | pageIn
  /-- A base page written to swap. -/
  | pageOut
  /-- A huge page written to swap as a whole. -/
  | hugePageOut
  deriving DecidableEq, Inhabited

/-- The name of a counter in reports. -/
def Tally.name : Tally → String
  | .pageIn => "PswpIn"
  | .pageOut => "PswpOut"
  | .hugePageOut => "ThpSwpOut"

/-- The counters. -/
structure Counters where
  pageIn : UInt64 := 0
  pageOut : UInt64 := 0
  hugePageOut : UInt64 := 0
  /-- Cycles spent storing pages into the front store. -/
  latency : UInt64 := 0
  deriving DecidableEq, Inhabited

namespace Counters

/-- One counter. -/
def get (c : Counters) : Tally → UInt64
  | .pageIn => c.pageIn
  | .pageOut => c.pageOut
  | .hugePageOut => c.hugePageOut

/-- Count `n` more. -/
def add (c : Counters) (t : Tally) (n : UInt64) : Counters :=
  match t with
  | .pageIn => { c with pageIn := c.pageIn + n }
  | .pageOut => { c with pageOut := c.pageOut + n }
  | .hugePageOut => { c with hugePageOut := c.hugePageOut + n }

/-- `n` more cycles in the front store. -/
def addLatency (c : Counters) (n : UInt64) : Counters := { c with latency := c.latency + n }

end Counters

/-- A cycle clock that advances by `step` every time it is read. -/
structure CycleClock where
  now : UInt64 := 0
  step : UInt64 := 0
  deriving DecidableEq, Inhabited

/-- Read the clock. -/
def CycleClock.read (c : CycleClock) : UInt64 × CycleClock :=
  (c.now, { c with now := c.now + c.step })

end PageSwap
