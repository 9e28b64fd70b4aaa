/-
# Trials of extents and layouts

An extent table filled and searched call by call, and the layout of one file.
-/
import PageSwap.Bench.Command
import PageSwap.Bench.Trial

namespace PageSwap.Bench

/-! ## 1. Extent tables -/

/-- A call on an extent table. -/
inductive ExtentCall
  | add (run : Extent)
  | find (offset : UInt64)
  | map (offset : UInt64)
  | length
  | nrPages
  /-- The end of an extent by itself. -/
  | endPage (run : Extent)
  deriving DecidableEq, Inhabited

/-- What a call on an extent table answers. -/
inductive ExtentAnswer
  | nothing
  | number (n : Nat)
  /-- What adding a run answers, and the table after it. -/
  | added (r : Except Refusal Nat) (t : ExtentTable)
  | extent (e : Extent)
  | length (n : Nat)
  deriving Inhabited

/-- Make a call. -/
def ExtentCall.step (c : ExtentCall) (t : ExtentTable) :
    Except Fault (ExtentAnswer × ExtentTable) :=
  match c with
  | .add run =>
    match t.add run with
    | .ok (n, t) => .ok (.added (.ok n) t, t)
    | .error (.refused why) => .ok (.added (.error why) t, t)
    | .error (.fault f) => .error f
  | .find offset => do
    return (match ← t.find? offset with
      | some e => .extent e
      | none => .nothing, t)
  | .map offset => do
    return (match ← t.map? offset with
      | some b => .number b.toNat
      | none => .nothing, t)
  | .length => .ok (.length t.length, t)
  | .nrPages => do return (.number (← t.nrPages).toNat, t)
  | .endPage run => do return (.number (← run.endPage).toNat, t)

/-! ## 2. Layouts -/

/-- Lay a file out.  The answer comes with what the console shows. -/
def layOut (spec : FileSpec) (limit : UInt64) :
    Except Fault (Except Refusal (ExtentTable × Dimensions) × String) := do
  let file ← spec.make "-"
  let plan ← match Layout.scan file.blockMap limit with
    | .ok plan => pure (.ok plan)
    | .error (.refused why) => pure (.error why)
    | .error (.fault f) => throw f
  let console : Console := match Layout.remark plan with
    | some (level, line) => Console.log {} level line
    | none => {}
  return (plan, console.text)

end PageSwap.Bench
