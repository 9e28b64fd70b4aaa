/-
# Flag sets as text

A flag set is written in two ways: compactly, for reports, and with the name of its type, for
messages.  Both list the raised flags in the order of their bits.
-/
namespace PageSwap

/-- One named flag of a set whose values have type `α`. -/
structure FlagName (α : Type) where
  name : String
  bit : UInt32
  raised : α → Bool

namespace FlagName

variable {α : Type}

/-- The names of the raised flags, in order. -/
def raisedNames (flags : List (FlagName α)) (a : α) : List String :=
  (flags.filter (·.raised a)).map (·.name)

/-- The raised flags as one number. -/
def bits (flags : List (FlagName α)) (a : α) : UInt32 :=
  (flags.filter (·.raised a)).foldl (fun acc f => acc ||| f.bit) 0

/-- The raised flags joined by bars, a dash if there is none. -/
def compact (flags : List (FlagName α)) (a : α) : String :=
  match raisedNames flags a with
  | [] => "-"
  | names => "|".intercalate names

/-- The raised flags inside the name of their type. -/
def detailed (type : String) (flags : List (FlagName α)) (a : α) : String :=
  match raisedNames flags a with
  | [] => s!"{type}(0x0)"
  | names =>
    let inner := " | ".intercalate names
    s!"{type}({inner})"

end FlagName

end PageSwap
