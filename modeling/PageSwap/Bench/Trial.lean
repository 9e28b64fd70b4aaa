/-
# Trials

A trial makes one call after the other on some state until a call faults.  What has been answered
before the fault still counts.
-/
import PageSwap.Fault

namespace PageSwap.Bench

/-- Make calls until one faults.  The answers come first, then the fault if there is one. -/
def runTrial {σ γ ρ : Type} (call : γ → σ → Except Fault (ρ × σ)) :
    List γ → σ → List ρ × Option Fault
  | [], _ => ([], none)
  | c :: rest, s =>
    match call c s with
    | .error f => ([], some f)
    | .ok (answer, s) =>
      let (answers, fault) := runTrial call rest s
      (answer :: answers, fault)

/-- A name that nothing has. -/
def unknownName (name : String) : Fault := .collaborator s!"unknown name {name}"

end PageSwap.Bench
