/-
# The console

Messages have a level, and those less severe than the console's own level are dropped.  A message
that is shown becomes one line, tagged with its level.
-/
namespace PageSwap

/-- How severe a message is, most severe first. -/
inductive Level
  | fatal
  | error
  | warn
  | info
  | debug
  | trace
  deriving DecidableEq, Inhabited

namespace Level

/-- Position of a level, 0 the most severe. -/
def rank : Level → Nat
  | .fatal => 0
  | .error => 1
  | .warn => 2
  | .info => 3
  | .debug => 4
  | .trace => 5

/-- What a line of this level starts with. -/
def tag : Level → String
  | .fatal => "[kernel:fatal] "
  | .error => "[kernel:error] "
  | .warn => "[kernel: warn] "
  | .info => "[kernel: info] "
  | .debug => "[kernel:debug] "
  | .trace => "[kernel:trace] "

instance : Ord Level := ⟨fun a b => compare a.rank b.rank⟩

end Level

/-- What has been written, and the least severe level that still is. -/
structure Console where
  level : Level := .trace
  text : String := ""
  deriving Inhabited

namespace Console

/-- Messages of level `l` are shown. -/
def shows (c : Console) (l : Level) : Bool := l.rank ≤ c.level.rank

/-- Write text as it is. -/
def print (c : Console) (text : String) : Console := { c with text := c.text ++ text }

/-- Write a line of level `l`, if that level is shown. -/
def log (c : Console) (l : Level) (text : String) : Console :=
  if c.shows l then c.print (l.tag ++ text ++ "\n") else c

end Console

end PageSwap
