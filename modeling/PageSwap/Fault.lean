/-
# How an operation can stop

Three things can happen to an operation besides its result.

* It is **refused**: a cause in `Refusal`, each with the error number callers see (`Errno`).
* A collaborator **answers with an error number** of its own, which is handed on as it is.
* It **faults**: an assertion of the swap path does not hold, or a sum does not fit its word.
  A fault ends the whole run, so nothing is said of the state after it.

`Stop` is the sum of a refusal and a fault, the error type of operations that only compute.
-/
import PageSwap.Page.State

namespace PageSwap

/-! ## 1. Error numbers and refusals -/

/-- An error number.  Any number may come from a driver. -/
structure Errno where
  code : UInt32
  deriving DecidableEq, Inhabited

namespace Errno

/-- A transfer failed. -/
def io : Errno := ⟨5⟩
/-- Nothing of that name. -/
def noEntry : Errno := ⟨2⟩
/-- No room left. -/
def noMemory : Errno := ⟨12⟩
/-- The place is taken. -/
def alreadyExists : Errno := ⟨17⟩
/-- The request makes no sense. -/
def invalid : Errno := ⟨22⟩
/-- The driver does not do this. -/
def unsupported : Errno := ⟨95⟩

end Errno

/-- How a transfer ended. -/
abbrev Status := Except Errno Unit

/-- How a status is written in messages. -/
def Status.text : Status → String
  | .ok () => "Ok(())"
  | .error e => s!"Err({e.code})"

/-- Why the swap path itself refuses an operation. -/
inductive Refusal
  /-- A run of pages without a page. -/
  | emptyRun
  /-- A run of pages that meets a run already mapped. -/
  | overlap
  /-- A swap file with a hole in the part that was looked at. -/
  | hole
  /-- A swap area without a usable page besides its header. -/
  | emptyArea
  /-- An area number that does not fit a slot. -/
  | areaNumber
  /-- An area number that is in use. -/
  | areaTaken
  /-- No area has this number. -/
  | noArea
  /-- A page without a slot, or with a slot in an area that is not there. -/
  | noSlot
  /-- A page whose slot belongs to another area. -/
  | foreignSlot
  /-- A page whose slot no extent maps. -/
  | unmappedSlot
  /-- A page larger than the device takes in one request. -/
  | requestTooLarge
  /-- A device without a free request tag. -/
  | noTag
  /-- A file that returned fewer bytes than the page holds. -/
  | shortRead
  deriving DecidableEq, Inhabited

/-- The number a refusal is reported with. -/
def Refusal.errno : Refusal → Errno
  | .areaTaken => Errno.alreadyExists
  | .noArea => Errno.noEntry
  | .noTag => Errno.noMemory
  | .shortRead => Errno.io
  | _ => Errno.invalid

/-! ## 2. Faults -/

/-- A word operation whose result does not fit the word. -/
inductive Overflow
  | add
  | multiply
  | shiftLeft
  deriving DecidableEq, Inhabited

/-- An assertion that does not hold, or arithmetic that has no result. -/
inductive Fault
  | overflow (op : Overflow)
  /-- More bytes than an allocation may have. -/
  | capacity
  /-- The area number given for a slot does not fit. -/
  | slotArea
  /-- Unlocking a page that is not locked. -/
  | notLocked
  /-- A transfer starts or ends on a page that is not in the state for it. -/
  | transfer (expected found target : Transfer)
  /-- Writing out a page its caller did not lock. -/
  | writeUnlocked
  /-- Reading into a page its caller did not lock. -/
  | readUnlocked
  /-- Reading into a page that holds valid content. -/
  | readUptodate
  /-- A request tag given back that nobody holds. -/
  | tagNotHeld
  /-- A swap file whose blocks are larger than a page. -/
  | blockSize
  /-- An extent table out of order. -/
  | unsorted
  /-- A task that goes to sleep twice. -/
  | parkedTwice
  /-- A wait that goes on past every bound it was given. -/
  | stalled
  /-- A fault inside a collaborator, with its text. -/
  | collaborator (text : String)
  deriving DecidableEq, Inhabited

/-- The text of an overflow. -/
def Overflow.message : Overflow → String
  | .add => "attempt to add with overflow"
  | .multiply => "attempt to multiply with overflow"
  | .shiftLeft => "attempt to shift left with overflow"

/-- The text of a fault. -/
def Fault.message : Fault → String
  | .overflow op => op.message
  | .capacity => "capacity overflow"
  | .slotArea => "swap type out of range"
  | .notLocked => "Unlocking an unlocked page"
  | .transfer expected found target =>
    let (e, f, t) := (expected.name, found.name, target.name)
    s!"page io state: expected {e}, found {f} while moving to {t}"
  | .writeUnlocked => "Writing out an unlocked page"
  | .readUnlocked => "Reading into an unlocked page"
  | .readUptodate => "Reading into an up to date page"
  | .tagNotHeld => "assertion `left != right` failed: Releasing a request slot never reserved\n" ++
      "  left: 0\n right: 0"
  | .blockSize => "block larger than a page"
  | .unsorted => "assertion failed: self.is_sorted()"
  | .parkedTwice => "internal error: entered unreachable code: " ++
      "Invalid parker state while trying to park."
  | .stalled => "the wait does not end"
  | .collaborator text => text

/-! ## 3. Computations that may stop -/

/-- A refusal or a fault. -/
inductive Stop
  | refused (why : Refusal)
  | fault (f : Fault)
  deriving DecidableEq, Inhabited

instance : MonadLift (Except Fault) (Except Stop) := ⟨fun x => x.mapError .fault⟩

/-- Where a sequence answers, each of its parts has. -/
theorem exists_of_bind_ok {ε α β : Type} {x : Except ε α} {k : α → Except ε β} {b : β}
    (h : x >>= k = .ok b) : ∃ a, x = .ok a ∧ k a = .ok b := by
  cases x with
  | error e => exact absurd h nofun
  | ok a => exact ⟨a, rfl, h⟩

/-- A sequence stops where its first part does, or else where the other one does. -/
theorem bind_eq_error_iff {ε α β : Type} {x : Except ε α} {k : α → Except ε β} {e : ε} :
    x >>= k = .error e ↔ x = .error e ∨ ∃ a, x = .ok a ∧ k a = .error e := by
  cases x with
  | error e' =>
    refine ⟨fun h => .inl (congrArg Except.error (Except.error.inj h)), ?_⟩
    rintro (h | ⟨a, h, -⟩)
    · exact congrArg Except.error (Except.error.inj h)
    · exact absurd h nofun
  | ok a =>
    refine ⟨fun h => .inr ⟨a, rfl, h⟩, ?_⟩
    rintro (h | ⟨a', h, hk⟩)
    · exact absurd h nofun
    · exact Except.ok.inj h ▸ hk

/-- `a + b`, if it fits a word. -/
def addWord (a b : UInt64) : Except Fault UInt64 :=
  if a.toNat + b.toNat < UInt64.size then .ok (a + b) else .error (.overflow .add)

/-- A sum that fits is the sum of the numbers. -/
theorem addWord_eq_ok_iff {a b c : UInt64} :
    addWord a b = .ok c ↔ a.toNat + b.toNat < UInt64.size ∧ c.toNat = a.toNat + b.toNat := by
  unfold addWord
  split
  · rename_i h
    have hs : (a + b).toNat = a.toNat + b.toNat := by
      rw [UInt64.toNat_add]; exact Nat.mod_eq_of_lt h
    constructor
    · intro hc
      injection hc with hc
      exact ⟨h, hc ▸ hs⟩
    · rintro ⟨_, hc⟩
      rw [show c = a + b from UInt64.toNat_inj.mp (hc.trans hs.symm)]
  · rename_i h
    exact ⟨nofun, fun hc => absurd hc.1 h⟩

end PageSwap
