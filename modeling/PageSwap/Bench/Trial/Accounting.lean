/-
# Trials of the accounts

The stall account and the statistics of a bench, called one by one.
-/
import PageSwap.Bench.Trial
import PageSwap.Bench.World

namespace PageSwap.Bench

/-! ## 1. Stalls -/

/-- A call on the stall account. -/
inductive StallCall
  /-- A stall begins. -/
  | enter
  /-- The stall with this number ends, unless it has. -/
  | leave (n : Nat)
  deriving DecidableEq, Inhabited

/-- The account, and what the stalls that last were answered with. -/
structure StallTrial where
  world : World := {}
  lasting : List (Option UInt64) := []
  deriving Inhabited

namespace StallTrial

/-- Make a call. -/
def call (t : StallTrial) : StallCall → StallTrial
  | .enter =>
    let (state, world) := World.stallAccount.enter t.world
    { world, lasting := t.lasting ++ [some state] }
  | .leave n =>
    match t.lasting[n]? with
    | some (some state) =>
      { world := World.stallAccount.leave state t.world, lasting := t.lasting.set n none }
    | _ => t

/-- Make a call.  The answer is the events of the call, and the account after it. -/
def step (c : StallCall) (t : StallTrial) :
    Except Fault ((List String × StallMeter) × StallTrial) :=
  let t := t.call c
  let (events, world) := t.world.takeEvents
  .ok ((events, world.stalls), { t with world })

end StallTrial

/-! ## 2. Statistics -/

/-- A call on the statistics. -/
inductive CountCall
  | record (t : Tally)
  | recordMany (t : Tally) (n : UInt64)
  | accumulate (n : UInt64)
  | cycles
  | get (t : Tally)
  deriving DecidableEq, Inhabited

/-- Make a call.  The answer is a number where there is one, and all counters. -/
def CountCall.step (c : CountCall) (w : World) :
    Except Fault ((Option UInt64 × Counters) × World) :=
  let (answer, w) : Option UInt64 × World := match c with
    | .record t => (none, World.statistics.record t w)
    | .recordMany t n => (none, World.statistics.recordMany t n w)
    | .accumulate n => (none, World.statistics.accumulate n w)
    | .cycles =>
      let (now, w) := World.statistics.cycles w
      (some now, w)
    | .get t => (some (w.counters.get t), w)
  .ok ((answer, w.counters), w)

end PageSwap.Bench
