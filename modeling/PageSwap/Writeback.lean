/-
# How a page is written back

A caller says why it writes a page: whether someone waits for it, whether it is background work,
and with which I/O priority and for which control group.
-/
import PageSwap.FlagText

namespace PageSwap

/-- Scheduling class of a transfer. -/
inductive PriorityClass
  | none
  | realTime
  | bestEffort
  | idle
  deriving DecidableEq, Inhabited

namespace PriorityClass

/-- The class as a number. -/
def code : PriorityClass → UInt16
  | .none => 0
  | .realTime => 1
  | .bestEffort => 2
  | .idle => 3

/-- The name of a class. -/
def name : PriorityClass → String
  | .none => "None"
  | .realTime => "RealTime"
  | .bestEffort => "BestEffort"
  | .idle => "Idle"

end PriorityClass

/-- Flags of a request. -/
structure RequestFlags where
  /-- Swap traffic.  Drivers may treat it as memory reclaim. -/
  swap : Bool := false
  /-- Someone waits for the result. -/
  sync : Bool := false
  /-- The completion is going to be polled for. -/
  polled : Bool := false
  background : Bool := false
  deriving DecidableEq, Inhabited

namespace RequestFlags

/-- The flags by name. -/
def names : List (FlagName RequestFlags) :=
  [⟨"SWAP", 1, (·.swap)⟩, ⟨"SYNC", 2, (·.sync)⟩, ⟨"HIPRI", 4, (·.polled)⟩,
    ⟨"BACKGROUND", 8, (·.background)⟩]

/-- All flags raised in either set. -/
def union (a b : RequestFlags) : RequestFlags :=
  { swap := a.swap || b.swap, sync := a.sync || b.sync, polled := a.polled || b.polled,
    background := a.background || b.background }

end RequestFlags

/-- How the caller wants a page written back. -/
structure Writeback where
  /-- Someone waits for the write to finish. -/
  sync : Bool := false
  background : Bool := false
  reclaim : Bool := false
  priorityClass : PriorityClass := .none
  /-- Priority inside the class, 0 the highest. -/
  priority : UInt16 := 0
  /-- Control group to charge the transfer to. -/
  cgroup : Option UInt32 := none
  deriving DecidableEq, Inhabited

namespace Writeback

/-- Waiting wins over background work. -/
def requestFlags (w : Writeback) : RequestFlags :=
  { sync := w.sync, background := !w.sync && w.background }

/-- The class in the top three bits, the priority below. -/
def ioPriority (w : Writeback) : UInt16 :=
  (w.priorityClass.code <<< 13) ||| (w.priority &&& 0x1fff)

end Writeback

end PageSwap
