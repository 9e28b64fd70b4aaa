/-
# Trials of console and rate limiter

Lines are written and events are let pass, and every answer comes with the text that appeared.
-/
import PageSwap.Bench.Trial
import PageSwap.RateLimit

namespace PageSwap.Bench

/-! ## 1. The console -/

/-- A call on the console. -/
inductive ConsoleCall
  | level (l : Level)
  /-- Whether messages of a level are shown. -/
  | shows (l : Level)
  | compare (l other : Level)
  | print (text : String)
  | printLine (text : String)
  | log (l : Level) (text : String)
  deriving DecidableEq, Inhabited

/-- What a call on the console answers. -/
inductive ConsoleAnswer
  | done
  | flag (b : Bool)
  | order (o : Ordering)
  deriving Inhabited

/-- Make a call. -/
def ConsoleCall.run (c : Console) : ConsoleCall → ConsoleAnswer × Console
  | .level l => (.done, { c with level := l })
  | .shows l => (.flag (c.shows l), c)
  | .compare l other => (.order (Ord.compare l other), c)
  | .print text => (.done, c.print text)
  | .printLine text => (.done, c.print (text ++ "\n"))
  | .log l text => (.done, c.log l text)

/-- Make a call.  The answer comes with the new text. -/
def ConsoleCall.step (call : ConsoleCall) (c : Console) :
    Except Fault ((ConsoleAnswer × String) × Console) :=
  let (answer, c) := call.run c
  .ok ((answer, c.text), { c with text := "" })

/-! ## 2. The rate limiter -/

/-- A call on a limiter or its clock. -/
inductive LimitCall
  /-- One event at a time. -/
  | checkAt (now : UInt64)
  /-- One event at the time of the clock. -/
  | check
  | tick (n : UInt64)
  | set (n : UInt64)
  | level (l : Level)
  deriving DecidableEq, Inhabited

/-- What a call on a limiter answers. -/
inductive LimitAnswer
  | done
  | nothing
  | passes (b : Bool)
  | clock (now : UInt64)
  deriving DecidableEq, Inhabited

/-- A limiter with its clock and console. -/
structure LimitTrial where
  limiter : RateLimit
  clock : Option UInt64
  console : Console := {}

namespace LimitTrial

/-- One event; without a clock it passes. -/
def check (t : LimitTrial) (now : Option UInt64) : Except Fault (Bool × LimitTrial) := do
  let (passes, limiter, console) ← t.limiter.checkOn now t.console
  return (passes, { t with limiter, console })

/-- Set the clock, if there is one. -/
def setClock (t : LimitTrial) (f : UInt64 → UInt64) : LimitAnswer × LimitTrial :=
  let clock := t.clock.map f
  (match clock with
    | some now => .clock now
    | none => .nothing, { t with clock })

/-- Make a call. -/
def call (t : LimitTrial) : LimitCall → Except Fault (LimitAnswer × LimitTrial)
  | .checkAt now => do
    let (passes, t) ← t.check (some now)
    return (.passes passes, t)
  | .check => do
    let (passes, t) ← t.check t.clock
    return (.passes passes, t)
  | .tick n => .ok (t.setClock (· + n))
  | .set n => .ok (t.setClock fun _ => n)
  | .level l => .ok (.done, { t with console.level := l })

/-- Make a call.  The answer comes with the events suppressed so far and the new text. -/
def step (c : LimitCall) (t : LimitTrial) :
    Except Fault ((LimitAnswer × UInt32 × String) × LimitTrial) := do
  let (answer, t) ← t.call c
  return ((answer, t.limiter.missed, t.console.text), { t with console.text := "" })

end LimitTrial

end PageSwap.Bench
