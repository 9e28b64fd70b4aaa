/-
# Events of a bench

Every call that the swap path makes to a scripted collaborator is an event.  A page that is handed
to the collaborator appears with its name and its line at the moment of the call.
-/
import PageSwap.Counters
import PageSwap.Request

namespace PageSwap.Bench

/-- A page as a collaborator saw it. -/
structure Sight where
  name : String
  line : String
  deriving Inhabited

/-- The page in brackets after its name. -/
def Sight.text (s : Sight) : String := s!"{s.name}[{s.line}]"

/-- What a scripted driver does when it is polled. -/
inductive PollAction
  /-- Report nothing. -/
  | miss
  /-- Report a finished request without finishing one. -/
  | pretend
  /-- Finish the oldest request. -/
  | one
  /-- Finish all requests. -/
  | all
  /-- Finish all requests and report nothing. -/
  | silent
  deriving DecidableEq, Inhabited

namespace PollAction

/-- The action a letter of a script stands for. -/
def ofChar : Char → PollAction
  | 't' => .pretend
  | 'c' => .one
  | 'C' => .all
  | 'f' => .silent
  | _ => .miss

/-- The letter of an action. -/
def letter : PollAction → String
  | .miss => "."
  | .pretend => "t"
  | .one => "c"
  | .all => "C"
  | .silent => "f"

end PollAction

/-- A call to a collaborator. -/
inductive Event
  | submit (queue : String) (request : Request) (size : UInt64) (device : Device) (page : Sight)
  | poll (queue : String) (cookie : UInt64) (spin : Bool) (action : PollAction)
  | transfer (queue : String) (direction : Direction) (sector : UInt64) (page : Sight)
  | slotFreed (queue : String) (offset : UInt64)
  | readFile (file : String) (position : UInt64) (size : Nat)
  | writeFile (file : String) (position : UInt64) (sizes : List Nat)
  | dirtied (file : String) (page : Sight)
  | count (slotMap : String) (offset : UInt64)
  | tryFree (slotMap : String) (page : Sight)
  | frontStore (page : Sight)
  | frontLoad (later : Bool) (page : Sight)
  | stallEnter (state : UInt64)
  | stallLeave (state : UInt64)
  | statistic (tally : Tally) (n : UInt64)
  | latency (n : UInt64)
  | cycles (n : UInt64)
  | relax
  | race (outcome : Except Errno UInt64)
  | held (request : Request)
  deriving Inhabited

/-- An event as one line. -/
def Event.text : Event → String
  | .submit queue r size device page =>
    let flags := FlagName.compact RequestFlags.names r.flags
    let cgroup := match r.cgroup with
      | some c => s!"{c}"
      | none => "-"
    s!"submit {queue} {r.direction.name} sector={r.sector} len={size} flags={flags} " ++
      s!"ioprio={r.ioPriority} cgroup={cgroup} dev={device.name} area={r.area.number} " ++
      s!"inflight={device.inflight} {page.text}"
  | .poll queue cookie spin action => s!"poll {queue} {cookie} {spin} {action.letter}"
  | .transfer queue direction sector page =>
    s!"rw_page {queue} {direction.name} sector={sector} {page.text}"
  | .slotFreed queue offset => s!"slot_free {queue} {offset}"
  | .readFile file position size => s!"read_page {file} pos={position} len={size}"
  | .writeFile file position sizes =>
    let iov := ",".intercalate (sizes.map fun n => s!"{n}")
    s!"direct_write {file} pos={position} iov={iov}"
  | .dirtied file page => s!"file_dirty {file} {page.text}"
  | .count slotMap offset => s!"swap_count {slotMap} {offset}"
  | .tryFree slotMap page => s!"try_to_free {slotMap} {page.text}"
  | .frontStore page => s!"front_store {page.text}"
  | .frontLoad false page => s!"front_load {page.text}"
  | .frontLoad true page => s!"front_load_async {page.text}"
  | .stallEnter state => s!"psi_enter {state}"
  | .stallLeave state => s!"psi_leave {state}"
  | .statistic tally n => s!"stat {tally.name} {n}"
  | .latency n => s!"metric SwapOutLatency {n}"
  | .cycles n => s!"cycles {n}"
  | .relax => "relax"
  | .race (.ok pages) => s!"race Ok({pages})"
  | .race (.error e) => s!"race Err({e.code})"
  | .held r => s!"held {r.record}"

end PageSwap.Bench
