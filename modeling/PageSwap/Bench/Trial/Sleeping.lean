/-
# Trials of the sleep handshake

One task prepares to sleep, parks and is woken.  While it relaxes, further calls are made, which
may park again.
-/
import PageSwap.Bench.Trial
import PageSwap.Parker

namespace PageSwap.Bench

/-- A call on the word of a sleeping task. -/
inductive SleepCall
  | prepare
  | setRunning
  | unpark
  /-- As `unpark`, through a waker, which answers nothing. -/
  | wake
  /-- Sleep, for a number of relaxes if one is given. -/
  | park (rounds : Option Nat)
  deriving DecidableEq, Inhabited

/-- A call made during the `at_`th relax. -/
structure SleepHook where
  at_ : Nat
  call : SleepCall
  deriving DecidableEq, Inhabited

/-- The word, and the relaxes since the first call. -/
structure SleepTrial where
  word : Parker := .running
  relaxed : Nat := 0
  deriving DecidableEq, Inhabited

namespace SleepTrial

/-- Steps that a sleep takes at most.  Without a limit it ends with the last hook or never. -/
def patience (hooks : List SleepHook) (rounds : Option Nat) : Nat :=
  2 * rounds.getD (hooks.foldl (fun n h => max n h.at_) 0 + 1) + 3

/-- Make a call.  `depth` bounds the calls made during relaxes of one another.  The answer is
whether the task was woken, or was there to be woken, where the call tells. -/
def call (hooks : List SleepHook) : (depth : Nat) → SleepCall → SleepTrial →
    Except Fault (Option Bool × SleepTrial)
  | _, .prepare, t => .ok (none, { t with word := t.word.prepare })
  | _, .setRunning, t => .ok (none, { t with word := t.word.setRunning })
  | _, .unpark, t => .ok (some t.word.unpark.1, { t with word := t.word.unpark.2 })
  | _, .wake, t => .ok (none, { t with word := t.word.unpark.2 })
  | 0, .park _, _ => .error .stalled
  | depth + 1, .park rounds, t => do
    let relax (t : SleepTrial) : Except Fault SleepTrial :=
      let n := t.relaxed + 1
      (hooks.filter (·.at_ = n)).foldlM
        (fun t h => (call hooks depth h.call t).map (·.2)) { t with relaxed := n }
    let (woken, t) ← Sleep.run SleepTrial.word (fun word t => { t with word }) relax
      (patience hooks rounds) (.start rounds) t
    return (rounds.map fun _ => woken, t)

/-- Make a call with hooks.  The answer is that of the call and what the word is after it.  Every
hook is due once, so hooks cannot nest deeper than there are hooks. -/
def step (c : SleepCall × List SleepHook) (t : SleepTrial) :
    Except Fault ((Option Bool × SleepTrial) × SleepTrial) := do
  let (answer, t) ← call c.2 (c.2.length + 1) c.1 { t with relaxed := 0 }
  return ((answer, t), t)

end SleepTrial

end PageSwap.Bench
