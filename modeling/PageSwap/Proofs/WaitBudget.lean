/-
# What a wait spends

A reader that waits polls and relaxes until its request is finished.  How often it has done so by
then depends on nothing but the moment at which that happens: inside the call that hands the
request over, in a poll, or during a relax.

The invariant counts in POLLS.  A poll that finds nothing obliges the reader to a relax, or once its
budget is gone to a sleep of 1024 of them, so the relaxes that polls come with are a function of
their number (`Reader.relaxesFor`), and what a reader has spent is this number less what it has
still to do before the next poll.  Its budget is a function of the polls as well, so nothing has to
be remembered of how it came to its point.  The same point of view bounds the steps: what lies
between two polls is at most 2053 of them, and that is all that has to be known of the fuel.

* `Wait.step`, `Wait.run` -- a wait that counts; `await_of_run` -- `await` is nothing else.
* `Moment` -- when a request is finished, and the polls and relaxes spent by then.
* `Reader.Spent` -- what a reader that goes on waiting has spent, kept by each of its steps.
* `Watched` -- the request, its page and its reader, kept by whatever goes on outside.
* `Backend.timed` -- collaborators that finish a request at a given moment;
  `System.Timed.meets` -- their waits meet it.
* `HandsOver` -- a read that hands a request over to wait for it; one that does not makes none
  (`pageIn_hands_over`).
* `wait_spends_its_budget` -- the reads of all three kinds of moments.
-/
import PageSwap.Proofs.Handshake
import PageSwap.Proofs.Journal
import PageSwap.Proofs.Waits

namespace PageSwap

variable {σ : Type}

/-! ## 1. A wait that counts -/

/-- A reader that waits, the state it waits in, and what it has spent. -/
structure Wait (σ : Type) where
  reader : Reader := Reader.start
  system : System σ
  polls : Nat := 0
  relaxes : Nat := 0

namespace Wait

variable {b : Backend σ} {d : DeviceId} {cookie : UInt64} {i : SleeperId} {w w' : Wait σ}
  {hit : Bool} {s s' : System σ}

/-- What the reader asks the outside world for before its next step.  The answer is that of a poll,
if it asks for one. -/
def outside (b : Backend σ) (d : DeviceId) (cookie : UInt64) (reader : Reader) : Run σ Bool :=
  match reader.demand with
  | .poll => poll b d cookie true
  | .relax => do
    relax b
    return false
  | _ => pure false

/-- One step of the reader.  One that is done stays as it is. -/
def step (b : Backend σ) (d : DeviceId) (cookie : UInt64) (i : SleeperId) (w : Wait σ) :
    Except Fault (Wait σ) :=
  if w.reader.demand = .stop then .ok w
  else do
    let (hit, system) ← outside b d cookie w.reader w.system
    let (reader, system) ← w.reader.move hit i system
    return { reader, system
             polls := w.polls + if w.reader.demand = .poll then 1 else 0
             relaxes := w.relaxes + if w.reader.demand = .relax then 1 else 0 }

/-- So many steps of the reader. -/
def run (b : Backend σ) (d : DeviceId) (cookie : UInt64) (i : SleeperId) :
    Nat → Wait σ → Except Fault (Wait σ)
  | 0, w => .ok w
  | n + 1, w => run b d cookie i n w >>= step b d cookie i

theorem outside_none {reader : Reader} (h : reader.demand = .none) :
    outside b d cookie reader s = .ok (false, s) := by
  unfold outside
  rw [h]
  rfl

theorem outside_poll {reader : Reader} (h : reader.demand = .poll)
    (hpoll : poll b d cookie true s = .ok (hit, s')) :
    outside b d cookie reader s = .ok (hit, s') := by
  unfold outside
  rw [h]
  exact hpoll

theorem outside_relax {reader : Reader} (h : reader.demand = .relax)
    (hrelax : relax b s = .ok ((), s')) : outside b d cookie reader s = .ok (false, s') := by
  refine Run.eq_ok_of_wp ?_
  unfold outside
  rw [h, Run.wp_bind, Run.wp_of_ok hrelax]
  exact ⟨rfl, rfl⟩

theorem move_eq {reader reader' : Reader} {x : Sleeper}
    (hstep : reader.step hit (s.sleepers.get i) = .ok (reader', x)) :
    reader.move hit i s = .ok (reader', { s with sleepers := s.sleepers.set i x }) := by
  refine Run.eq_ok_of_wp ?_
  unfold Reader.move
  rw [Run.wp_bind, Run.wp_sleeper, Run.wp_bind, hstep]
  exact ⟨rfl, rfl⟩

theorem step_eq {reader : Reader} {x : Sleeper} (hgo : w.reader.demand ≠ .stop)
    (hout : outside b d cookie w.reader w.system = .ok (hit, s'))
    (hstep : w.reader.step hit (s'.sleepers.get i) = .ok (reader, x)) :
    w.step b d cookie i = .ok
      { reader
        system := { s' with sleepers := s'.sleepers.set i x }
        polls := w.polls + if w.reader.demand = .poll then 1 else 0
        relaxes := w.relaxes + if w.reader.demand = .relax then 1 else 0 } := by
  rw [step, if_neg hgo, hout]
  simp only [bind, Except.bind, move_eq hstep]
  rfl

/-- A reader that is done does not wait. -/
theorem await_of_stop {reader : Reader} (h : reader.demand = .stop) (fuel : Nat) :
    await b d cookie i fuel reader = pure () := by
  cases fuel with
  | zero => rw [await, if_pos h]
  | succ fuel => rw [await_eq_move, if_pos h]

/-- A wait goes on from where a step has brought it. -/
theorem await_of_step (h : w.step b d cookie i = .ok w') (fuel : Nat) :
    await b d cookie i (fuel + 1) w.reader w.system =
      await b d cookie i fuel w'.reader w'.system := by
  unfold step at h
  split at h
  · rename_i hstop
    injection h with h
    rw [← h, await_of_stop hstop, await_of_stop hstop]
  · rename_i hgo
    have hawait : await b d cookie i (fuel + 1) w.reader = (do
        let hit ← outside b d cookie w.reader
        await b d cookie i fuel (← w.reader.move hit i)) := by
      rw [await_eq_move, if_neg hgo]
      unfold outside
      cases w.reader.demand <;> simp
    cases hout : outside b d cookie w.reader w.system with
    | error e => simp only [hout, bind, Except.bind] at h; cases h
    | ok out =>
      cases hmove : w.reader.move out.1 i out.2 with
      | error e => simp only [hout, hmove, bind, Except.bind] at h; cases h
      | ok next =>
        simp only [hout, hmove, bind, Except.bind] at h
        injection h with h
        subst h
        rw [hawait, Run.bind_of_ok hout]
        exact Run.bind_of_ok hmove

/-- **A wait is these steps**, one after the other. -/
theorem await_of_run {n : Nat} (h : w.run b d cookie i n = .ok w') (fuel : Nat) :
    await b d cookie i (fuel + n) w.reader w.system =
      await b d cookie i fuel w'.reader w'.system := by
  induction n generalizing w' fuel with
  | zero => injection h with h; rw [h]; rfl
  | succ n ih =>
    unfold run at h
    cases hmid : w.run b d cookie i n with
    | error e => rw [hmid] at h; cases h
    | ok mid =>
      rw [hmid] at h
      rw [← await_of_step h fuel, ← ih hmid (fuel + 1), Nat.add_assoc, Nat.add_comm 1 n]

end Wait

/-! ## 2. When a request is finished -/

/-- The moment at which a request is finished that a reader waits for.  Polls and relaxes of its
wait are counted from one. -/
inductive Moment
  /-- Inside the call that hands it over. -/
  | submit
  /-- In the `k`th poll. -/
  | poll (k : Nat) (hk : 1 ≤ k)
  /-- During the `j`th relax. -/
  | relax (j : Nat) (hj : 1 ≤ j)

namespace Moment

/-- Polls of a wait for a request that is finished at this moment. -/
def polls : Moment → Nat
  | .submit => 0
  | .poll k _ => k
  | .relax j _ => min j 16 + (j - 16 + 1023) / 1024

/-- Relaxes of such a wait. -/
def relaxes : Moment → Nat
  | .submit => 0
  | .poll k _ => min (k - 1) 16 + 1024 * (k - 17)
  | .relax j _ => j

/-- The moment is in the `n`th poll. -/
def InPoll : Moment → Nat → Prop
  | .poll k _, n => n = k
  | _, _ => False

/-- The moment is in the `n`th relax. -/
def InRelax : Moment → Nat → Prop
  | .relax j _, n => n = j
  | _, _ => False

/-- The moment is still to come after so many polls and relaxes. -/
def Ahead : Moment → (polls relaxes : Nat) → Prop
  | .submit, _, _ => False
  | .poll k _, polls, _ => polls < k
  | .relax j _, _, relaxes => relaxes < j

/-- **A wait meets the moment**: as long as request `r` is there, a poll answers that it has found
something, and finishes the request, exactly if it is the one; and so does a relax. -/
structure Meets (m : Moment) (b : Backend σ) (d : DeviceId) (cookie : UInt64) (r : RequestId)
    (w : Wait σ) : Prop where
  poll : w.reader.demand = .poll → w.system.requests.get r ≠ none →
    ∃ hit s, PageSwap.poll b d cookie true w.system = .ok (hit, s) ∧
      (hit = true ↔ m.InPoll (w.polls + 1)) ∧
      (s.requests.get r = none ↔ m.InPoll (w.polls + 1))
  relax : w.reader.demand = .relax → w.system.requests.get r ≠ none →
    ∃ s, PageSwap.relax b w.system = .ok ((), s) ∧
      (s.requests.get r = none ↔ m.InRelax (w.relaxes + 1))

end Moment

/-! ## 3. A reader that goes on waiting -/

namespace Reader

/-- Relaxes that come with so many polls which find nothing. -/
def relaxesFor (polls : Nat) : Nat := min polls 16 + 1024 * (polls - 16)

/-- **What a reader has spent** whose request has not been finished so far.  A poll and what comes
with it is a sleep of 1024 relaxes at most, and takes 2053 steps at most. -/
def Spent (reader : Reader) (word : Parker) (polls relaxes steps : Nat) : Prop :=
  reader.budget = 16 - polls ∧
  match reader.point with
  | .prepare => relaxes = relaxesFor polls ∧ steps ≤ 2053 * polls
  | .check => word = .parking ∧ relaxes = relaxesFor polls ∧ steps ≤ 2053 * polls + 1
  | .poll => word = .parking ∧ relaxes = relaxesFor polls ∧ steps ≤ 2053 * polls + 2
  | .withdraw =>
    0 < polls ∧ polls ≤ 16 ∧ relaxes + 1 = relaxesFor polls ∧ steps + 2050 ≤ 2053 * polls
  | .relax =>
    0 < polls ∧ polls ≤ 16 ∧ relaxes + 1 = relaxesFor polls ∧ steps + 2049 ≤ 2053 * polls
  | .sleep (.start (some left)) =>
    word = .parking ∧ 16 < polls ∧ left = 1024 ∧ relaxes + left = relaxesFor polls ∧
      steps + 2 * left + 2 ≤ 2053 * polls
  | .sleep (.look (some left)) =>
    word = .parked ∧ 16 < polls ∧ 0 < left ∧ left ≤ 1024 ∧ relaxes + left = relaxesFor polls ∧
      steps + 2 * left + 1 ≤ 2053 * polls
  | .sleep (.relax (some left)) =>
    word = .parked ∧ 16 < polls ∧ 0 < left ∧ left ≤ 1024 ∧ relaxes + left = relaxesFor polls ∧
      steps + 2 * left ≤ 2053 * polls
  | .sleep .giveUp =>
    word = .parked ∧ 16 < polls ∧ relaxes = relaxesFor polls ∧ steps + 1 ≤ 2053 * polls
  | _ => False

namespace Spent

variable {reader : Reader} {word : Parker} {polls relaxes steps : Nat} {m : Moment}

/-- A step of a reader that goes on waiting. -/
def StepsOn (reader : Reader) (word : Parker) (polls relaxes steps : Nat) : Prop :=
  ∃ reader' word', reader.step false ⟨Waiter.new (), word⟩ = .ok (reader', ⟨Waiter.new (), word'⟩) ∧
    reader'.Spent word' (polls + if reader.demand = .poll then 1 else 0)
      (relaxes + if reader.demand = .relax then 1 else 0) (steps + 1)

/-- **A step of a reader whose poll finds nothing** spends what it asks for. -/
theorem step (h : reader.Spent word polls relaxes steps) :
    reader.demand ≠ .stop ∧ StepsOn reader word polls relaxes steps := by
  obtain ⟨point, budget⟩ := reader
  obtain ⟨hbudget, h⟩ := h
  unfold StepsOn
  -- at each point the bound on steps has just room for the one that is taken
  cases point with
  | prepare =>
    obtain ⟨hrelaxes, hsteps⟩ := h
    exact ⟨nofun, _, _, rfl, hbudget, rfl, hrelaxes, by omega⟩
  | check =>
    obtain ⟨rfl, hrelaxes, hsteps⟩ := h
    exact ⟨nofun, _, _, rfl, hbudget, rfl, hrelaxes, by omega⟩
  | poll =>
    obtain ⟨rfl, hrelaxes, hsteps⟩ := h
    dsimp only at hbudget
    unfold relaxesFor at hrelaxes
    -- a relax comes with the first sixteen polls, a sleep with the later ones
    by_cases hleft : 0 < budget
    · refine ⟨nofun, ⟨.withdraw, budget - 1⟩, .parking, if_pos hleft, ?_⟩
      simp only [Spent, Reader.demand, relaxesFor, reduceCtorEq, if_true, if_false]
      omega
    · refine ⟨nofun, ⟨.sleep (.start (some sleepRounds)), budget⟩, .parking, if_neg hleft, ?_⟩
      simp only [Spent, Reader.demand, relaxesFor, sleepRounds, reduceCtorEq, if_true, if_false,
        true_and]
      omega
  | withdraw =>
    obtain ⟨hpos, hpolls, hrelaxes, hsteps⟩ := h
    exact ⟨nofun, _, _, rfl, hbudget, hpos, hpolls, hrelaxes, by omega⟩
  | relax =>
    obtain ⟨hpos, hpolls, hrelaxes, hsteps⟩ := h
    exact ⟨nofun, _, _, rfl, hbudget, hrelaxes, by omega⟩
  | sleep here =>
    cases here with
    | start left =>
      cases left with
      | none => exact h.elim
      | some left =>
        obtain ⟨rfl, hpolls, rfl, hrelaxes, hsteps⟩ := h
        exact ⟨nofun, _, _, rfl, hbudget, rfl, hpolls, by omega, by omega, hrelaxes, by omega⟩
    | look left =>
      cases left with
      | none => exact h.elim
      | some left =>
        obtain ⟨rfl, hpolls, hpos, hleft, hrelaxes, hsteps⟩ := h
        exact ⟨nofun, _, _, rfl, hbudget, rfl, hpolls, hpos, hleft, hrelaxes, by omega⟩
    | relax left =>
      rcases left with _ | _ | _ | left
      · exact h.elim
      · exact absurd h.2.2.1 (Nat.lt_irrefl 0)
      · obtain ⟨rfl, hpolls, hpos, hleft, hrelaxes, hsteps⟩ := h
        exact ⟨nofun, _, _, rfl, hbudget, rfl, hpolls, hrelaxes, by omega⟩
      · obtain ⟨rfl, hpolls, hpos, hleft, hrelaxes, hsteps⟩ := h
        refine ⟨nofun, ⟨.sleep (.look (some (left + 1))), budget⟩, .parked, rfl, hbudget, rfl,
          hpolls, Nat.succ_pos _, Nat.le_of_succ_le hleft, ?_, ?_⟩
        · exact (Nat.add_right_comm _ _ _).trans hrelaxes
        · simp only [Reader.demand]
          omega
    | giveUp =>
      obtain ⟨rfl, hpolls, hrelaxes, hsteps⟩ := h
      exact ⟨nofun, _, _, rfl, hbudget, hrelaxes, by omega⟩
    | awake woken => exact h.elim
  | leave => exact h.elim
  | done => exact h.elim

/-- What comes with a poll is spent before the next one. -/
theorem bounds (h : reader.Spent word polls relaxes steps) :
    relaxesFor polls ≤ relaxes + 1024 ∧ (polls ≤ 16 → relaxesFor polls ≤ relaxes + 1) ∧
      steps ≤ 2053 * polls + 2 := by
  obtain ⟨point, budget⟩ := reader
  obtain ⟨-, h⟩ := h
  cases point with
  | prepare => dsimp only at h; omega
  | check => dsimp only at h; omega
  | poll => dsimp only at h; omega
  | withdraw => dsimp only at h; omega
  | relax => dsimp only at h; omega
  | sleep here =>
    rcases here with (_ | left) | (_ | left) | (_ | left) | _ | woken
    all_goals first | exact h.elim | (dsimp only at h; omega)
  | leave => exact h.elim
  | done => exact h.elim

/-- A reader has not spent more than it will have by a moment that is still to come. -/
theorem polls_le (h : reader.Spent word polls relaxes steps) (hahead : m.Ahead polls relaxes) :
    polls ≤ m.polls := by
  have hbounds := h.bounds
  unfold relaxesFor at hbounds
  cases m with
  | submit => exact hahead.elim
  | poll k hk => exact Nat.le_of_lt hahead
  | relax j hj =>
    replace hahead : relaxes < j := hahead
    simp only [Moment.polls]
    omega

/-- The poll in which the request is finished. -/
theorem last_poll (h : reader.Spent word polls relaxes steps) (hpoll : reader.demand = .poll)
    (hnow : m.InPoll (polls + 1)) :
    polls + 1 = m.polls ∧ relaxes = m.relaxes ∧ steps + 4 ≤ 2053 * m.polls := by
  obtain ⟨point, budget⟩ := reader
  cases m with
  | submit => exact hnow.elim
  | relax j hj => exact hnow.elim
  | poll k hk =>
    replace hnow : polls + 1 = k := hnow
    cases point with
    | poll =>
      obtain ⟨-, -, hrelaxes, hsteps⟩ := h
      unfold relaxesFor at hrelaxes
      refine ⟨hnow, ?_, ?_⟩
      · simp only [Moment.relaxes]
        omega
      · simp only [Moment.polls]
        omega
    | sleep here => cases here <;> cases hpoll
    | prepare | check | withdraw | relax | leave | done => cases hpoll

/-- The relax in which the request is finished. -/
theorem last_relax (h : reader.Spent word polls relaxes steps) (hrelax : reader.demand = .relax)
    (hnow : m.InRelax (relaxes + 1)) :
    polls = m.polls ∧ relaxes + 1 = m.relaxes ∧ steps + reader.due ≤ 2053 * m.polls + 3 := by
  obtain ⟨point, budget⟩ := reader
  cases m with
  | submit => exact hnow.elim
  | poll k hk => exact hnow.elim
  | relax j hj =>
    replace hnow : relaxes + 1 = j := hnow
    simp only [Moment.polls, Moment.relaxes]
    cases point with
    | relax =>
      obtain ⟨-, hpos, hpolls, hrelaxes, hsteps⟩ := h
      unfold relaxesFor at hrelaxes
      dsimp only [due]
      omega
    | sleep here =>
      rcases here with left | left | (_ | left) | _ | woken
      case relax.none => exact h.2.elim
      case relax.some =>
        obtain ⟨-, -, hpolls, hpos, hleft, hrelaxes, hsteps⟩ := h
        unfold relaxesFor at hrelaxes
        dsimp only [due]
        omega
      all_goals cases hrelax
    | prepare | check | poll | withdraw | leave | done => cases hrelax

end Spent

end Reader

/-- A reader that has been woken, by the end of its request, has only to leave. -/
theorem Listens.of_woken (reader : Reader) (word : Parker) :
    Listens reader (⟨Waiter.new (), word⟩ : Sleeper).wake 7 where
  calm := by
    unfold Reader.Calm
    split <;> first | exact Parker.noConfusion | trivial
  pending := rfl
  left := fun _ => by omega
  resting := fun _ => rfl
  told := fun _ _ => rfl

/-! ## 4. What goes on outside -/

/-- A page whose read is over: nothing is going on with it, and it is up to date or errored, and not
both. -/
def Page.Settled (page : Page) : Prop :=
  page.flags.locked = false ∧ page.transfer = .idle ∧ page.flags.uptodate = !page.flags.error

theorem Page.settled_ended (status : Status) (bytes : Bytes) (freed : Bool) (page : Page) :
    (page.ended .read status bytes freed).Settled := by
  cases status with
  | ok u => exact ⟨rfl, rfl, rfl⟩
  | error e => exact ⟨rfl, rfl, rfl⟩

/-- **The request `r` of a reader that waits**: as long as it is there it holds the reader's waker,
and once it is gone the waker is taken and page `p` is settled.  No other request touches either. -/
structure Watched (p : PageId) (r : RequestId) (i : SleeperId) (s : System σ) : Prop where
  others : ∀ {r' q}, s.requests.get r' = some q → r' ≠ r → q.page ≠ p ∧ q.sleeper = none
  mine : ∀ {q}, s.requests.get r = some q → q.page = p ∧ q.direction = .read ∧
    q.sleeper = some i ∧ (s.sleepers.get i).waiter.isPending = true
  gone : s.requests.get r = none →
    (s.sleepers.get i).waiter.isPending = false ∧ (s.pages.get p).Settled

/-- A sleeper whose waker is there. -/
theorem Sleeper.eq_new {x : Sleeper} (h : x.waiter.isPending = true) :
    x = ⟨Waiter.new (), x.word⟩ := by
  rcases x with ⟨⟨_ | u⟩, word⟩
  · cases h
  · rfl

theorem Sleeper.isPending_wake (x : Sleeper) : x.wake.waiter.isPending = false := by
  rcases x with ⟨⟨_ | u⟩, word⟩ <;> rfl

namespace Watched

variable {b : Backend σ} {p : PageId} {r : RequestId} {i : SleeperId} {s s' : System σ}

/-- The request is there as long as the waker is. -/
theorem pending_iff (h : Watched p r i s) :
    (s.sleepers.get i).waiter.isPending = true ↔ s.requests.get r ≠ none := by
  cases hr : s.requests.get r with
  | none => simp [(h.gone hr).1]
  | some q => simp [(h.mine hr).2.2.2]

/-- **A completion** of this request takes the waker and settles the page; that of another one does
neither. -/
theorem finished (h : Watched p r i s) {r' : RequestId} {q : Request} {status : Status}
    {bytes : Bytes} {w : σ} (hq : s.requests.get r' = some q) :
    Watched p r i (s.finished b r' q status bytes w) := by
  by_cases hr : r' = r
  · subst hr
    obtain ⟨rfl, hread, hsleeper, -⟩ := h.mine hq
    refine ⟨fun hq' hr' => h.others (requests_finished hq').2 hr',
      fun hq' => absurd rfl (requests_finished hq').1, fun _ => ⟨?_, ?_⟩⟩
    · simp only [System.finished, hread, hsleeper, Table.get_set_self]
      exact Sleeper.isPending_wake _
    · simp only [System.finished, hread, Table.get_set_self]
      exact Page.settled_ended _ _ _ _
  · obtain ⟨hpage, hsleeper⟩ := h.others hq hr
    have hsleepers : (s.finished b r' q status bytes w).sleepers = s.sleepers := by
      simp only [System.finished, hsleeper]
      cases q.direction <;> rfl
    have hpages : (s.finished b r' q status bytes w).pages.get p = s.pages.get p :=
      Table.get_set_ne _ _ (Ne.symm hpage)
    have hrequest : (s.finished b r' q status bytes w).requests.get r = s.requests.get r :=
      Table.get_set_ne _ _ (Ne.symm hr)
    refine ⟨fun hq' hr' => h.others (requests_finished hq').2 hr', fun hq' => ?_, fun hgone => ?_⟩
    · rw [hsleepers]
      exact h.mine (requests_finished hq').2
    · rw [hsleepers, hpages]
      exact h.gone (hrequest.symm.trans hgone)

/-- **The outside world keeps watch** while the reader waits. -/
theorem attentive {stop : Fault → Prop} {I : System σ → Prop} (hI : Lasting b stop I) :
    Attentive b stop fun s => I s ∧ Watched p r i s where
  tolerant := hI.tolerant
  silent := fun console limiter h =>
    ⟨hI.attentive.silent console limiter h.1, h.2.others, h.2.mine, h.2.gone⟩
  step := fun {s j x} h hx => by
    have hwaiter : ((s.sleepers.set j x).get i).waiter = (s.sleepers.get i).waiter := by
      rw [Table.get_set]
      split
      · rename_i hij
        rw [hx, hij]
      · rfl
    refine ⟨hI.attentive.step h.1 hx, h.2.others, fun hq => ?_, fun hgone => ?_⟩
    · rw [hwaiter]
      exact h.2.mine hq
    · rw [hwaiter]
      exact h.2.gone hgone
  aside := fun h hw => ⟨hI.aside h.1 hw, h.2.others, h.2.mine, h.2.gone⟩
  ready := fun h hq => hI.ready h.1 hq
  finished := fun h hq hsettle => ⟨hI.finished h.1 hq hsettle, h.2.finished hq⟩

/-- As long as the request is there the reader is not woken. -/
theorem asleep (h : Watched p r i s') (hwoken : Woken s.sleepers s'.sleepers)
    (hthere : s'.requests.get r ≠ none) : s'.sleepers.get i = s.sleepers.get i := by
  refine (hwoken i).resolve_right fun hwake => ?_
  have hpending := h.pending_iff.mpr hthere
  rw [hwake, Sleeper.isPending_wake] at hpending
  cases hpending

/-- The end of the request wakes the reader. -/
theorem woken (h : Watched p r i s) (h' : Watched p r i s') (hwoken : Woken s.sleepers s'.sleepers)
    (hthere : s.requests.get r ≠ none) (hgone : s'.requests.get r = none) :
    s'.sleepers.get i = (s.sleepers.get i).wake := by
  refine (hwoken i).resolve_left fun hsame => ?_
  have hpending := h.pending_iff.mpr hthere
  rw [← hsame, (h'.gone hgone).1] at hpending
  cases hpending

end Watched

/-! ## 5. Every step of a wait -/

namespace Reader

theorem demand_of_owed {reader : Reader} (h : reader.owed = 0) :
    reader.demand = .none ∨ reader.demand = .stop := by
  obtain ⟨point, budget⟩ := reader
  cases point with
  | poll | relax => cases h
  | done => exact Or.inr rfl
  | sleep here =>
    cases here with
    | relax left => cases h
    | _ => exact Or.inl rfl
  | _ => exact Or.inl rfl

theorem due_of_stop {reader : Reader} (h : reader.demand = .stop) : reader.due = 0 := by
  obtain ⟨point, budget⟩ := reader
  cases point with
  | done => rfl
  | sleep here => cases here <;> cases h
  | prepare | check | poll | withdraw | relax | leave => cases h

end Reader

/-- A step of a reader that has been woken and whose poll, if it asks for one, finds something. -/
theorem Listens.last {reader : Reader} {x : Sleeper} {hit : Bool} (h : Listens reader x 7)
    (hpoll : reader.demand = .poll → hit = true)
    (howed : reader.demand = .none ∨ reader.demand = .stop → reader.owed = 0) :
    ∃ reader' x', reader.step hit x = .ok (reader', x') ∧ Listens reader' x' 7 ∧
      reader'.owed = 0 ∧ reader'.due ≤ reader.due - 1 := by
  obtain ⟨reader', x', hstep, hlistens, hlast⟩ := h.step hit
  obtain ⟨hdue, hfewer⟩ := hlast (Nat.le_refl 7)
  refine ⟨reader', x', hstep, hlistens, ?_, hdue⟩
  have hle := reader.owed_le
  cases hd : reader.demand with
  | none => have := howed (Or.inl hd); omega
  | stop => have := howed (Or.inr hd); omega
  | relax => rw [hd, if_pos rfl] at hfewer; omega
  | poll =>
    cases hpoll hd
    obtain ⟨point, budget⟩ := reader
    cases point with
    | poll =>
      injection hstep with hstep
      injection hstep with hreader
      rw [← hreader]
      rfl
    | sleep here => cases here <;> cases hd
    | prepare | check | withdraw | relax | leave | done => cases hd

namespace Wait

variable {b : Backend σ} {stop : Fault → Prop} {I : System σ → Prop} {d : DeviceId}
  {cookie : UInt64} {p : PageId} {r : RequestId} {i : SleeperId} {m : Moment} {n : Nat}
  {w : Wait σ}

/-- **How a wait stands** after `n` steps.  Its request is there and it goes on waiting, or the
request is gone, all has been spent, and the reader has only to leave. -/
structure Inv (I : System σ → Prop) (p : PageId) (r : RequestId) (i : SleeperId) (m : Moment)
    (n : Nat) (w : Wait σ) : Prop where
  kept : I w.system ∧ Watched p r i w.system
  waiting : w.system.requests.get r ≠ none →
    w.reader.Spent (w.system.sleepers.get i).word w.polls w.relaxes n ∧ m.Ahead w.polls w.relaxes
  leaving : w.system.requests.get r = none →
    Listens w.reader (w.system.sleepers.get i) 7 ∧ w.reader.owed = 0 ∧
      w.polls = m.polls ∧ w.relaxes = m.relaxes ∧ w.reader.due ≤ 2053 * m.polls + 3 - n

namespace Inv

/-- The outside world has not finished the request. -/
theorem waits (h : w.Inv I p r i m n) (hI : Lasting b stop I) {s : System σ}
    (hout : outside b d cookie w.reader w.system = .ok (false, s))
    (hkept : I s ∧ Watched p r i s) (hwoken : Woken w.system.sleepers s.sleepers)
    (hthere : w.system.requests.get r ≠ none) (hthere' : s.requests.get r ≠ none)
    (hahead : m.Ahead (w.polls + if w.reader.demand = .poll then 1 else 0)
      (w.relaxes + if w.reader.demand = .relax then 1 else 0)) :
    ∃ w', w.step b d cookie i = .ok w' ∧ w'.Inv I p r i m (n + 1) := by
  have hsleeper := Sleeper.eq_new (h.kept.2.pending_iff.mpr hthere)
  have hsame := hkept.2.asleep hwoken hthere'
  obtain ⟨hgo, reader, word, hstep, hspent⟩ := (h.waiting hthere).1.step
  rw [← hsleeper, ← hsame] at hstep
  refine ⟨_, step_eq hgo hout hstep, ?_, fun _ => ⟨?_, hahead⟩, fun hgone => absurd hgone hthere'⟩
  · refine (Watched.attentive hI).step hkept ?_
    rw [hsame, hsleeper]
  · simp only [Table.get_set_self]
    exact hspent

/-- The request is gone by now. -/
theorem leaves (hI : Lasting b stop I) {hit : Bool} {s : System σ}
    (hgo : w.reader.demand ≠ .stop)
    (hout : outside b d cookie w.reader w.system = .ok (hit, s))
    (hkept : I s ∧ Watched p r i s) (hlistens : Listens w.reader (s.sleepers.get i) 7)
    (hgone : s.requests.get r = none) (hpoll : w.reader.demand = .poll → hit = true)
    (howed : w.reader.demand = .none ∨ w.reader.demand = .stop → w.reader.owed = 0)
    (hpolls : w.polls + (if w.reader.demand = .poll then 1 else 0) = m.polls)
    (hrelaxes : w.relaxes + (if w.reader.demand = .relax then 1 else 0) = m.relaxes)
    (hdue : w.reader.due ≤ 2053 * m.polls + 3 - n) :
    ∃ w', w.step b d cookie i = .ok w' ∧ w'.Inv I p r i m (n + 1) := by
  obtain ⟨reader, x, hstep, hlistens', howed', hdue'⟩ := hlistens.last hpoll howed
  refine ⟨_, step_eq hgo hout hstep, ?_, fun hthere => absurd hgone hthere,
    fun _ => ⟨?_, howed', hpolls, hrelaxes, by dsimp only; omega⟩⟩
  · exact (Watched.attentive hI).step hkept (Reader.step_waiter hstep)
  · simp only [Table.get_set_self]
    exact hlistens'

/-- A poll that finishes the request is the last one, and else the reader goes on waiting. -/
theorem polls (h : w.Inv I p r i m n) (hI : Lasting b stop I) (hmeets : m.Meets b d cookie r w)
    (hd : w.reader.demand = .poll) (hthere : w.system.requests.get r ≠ none) :
    ∃ w', w.step b d cookie i = .ok w' ∧ w'.Inv I p r i m (n + 1) := by
  obtain ⟨hspent, hahead⟩ := h.waiting hthere
  obtain ⟨hit, s, hpoll, hhit, hend⟩ := hmeets.poll hd hthere
  obtain ⟨hkept, hwoken⟩ := ((Watched.attentive hI).poll d cookie true h.kept).of_ok hpoll
  by_cases hnow : m.InPoll (w.polls + 1)
  · have hgone := hend.mpr hnow
    have hwake := h.kept.2.woken hkept.2 hwoken hthere hgone
    obtain ⟨hpolls, hrelaxes, hsteps⟩ := hspent.last_poll hd hnow
    have hdue := w.reader.due_le
    refine leaves hI (by rw [hd]; nofun) (outside_poll hd hpoll) hkept ?_ hgone
      (fun _ => hhit.mpr hnow) (by rw [hd]; nofun) (by rw [hd]; exact hpolls)
      (by rw [hd]; exact hrelaxes) (by omega)
    rw [hwake, Sleeper.eq_new (h.kept.2.pending_iff.mpr hthere)]
    exact Listens.of_woken _ _
  · cases Bool.eq_false_iff.mpr (mt hhit.mp hnow)
    refine h.waits hI (outside_poll hd hpoll) hkept hwoken hthere (mt hend.mp hnow) ?_
    rw [hd]
    cases m with
    | submit => exact hahead
    | poll k hk => exact Nat.lt_of_le_of_ne hahead hnow
    | relax j hj => exact hahead

/-- A relax during which the request is finished is the last one, and else the reader goes on
waiting. -/
theorem relaxes (h : w.Inv I p r i m n) (hI : Lasting b stop I) (hmeets : m.Meets b d cookie r w)
    (hd : w.reader.demand = .relax) (hthere : w.system.requests.get r ≠ none) :
    ∃ w', w.step b d cookie i = .ok w' ∧ w'.Inv I p r i m (n + 1) := by
  obtain ⟨hspent, hahead⟩ := h.waiting hthere
  obtain ⟨s, hrelax, hend⟩ := hmeets.relax hd hthere
  obtain ⟨hkept, hwoken⟩ := ((Watched.attentive hI).relax h.kept).of_ok hrelax
  by_cases hnow : m.InRelax (w.relaxes + 1)
  · have hgone := hend.mpr hnow
    have hwake := h.kept.2.woken hkept.2 hwoken hthere hgone
    obtain ⟨hpolls, hrelaxes, hsteps⟩ := hspent.last_relax hd hnow
    refine leaves hI (by rw [hd]; nofun) (outside_relax hd hrelax) hkept ?_ hgone
      (by rw [hd]; nofun) (by rw [hd]; nofun) (by rw [hd]; exact hpolls)
      (by rw [hd]; exact hrelaxes) (by omega)
    rw [hwake, Sleeper.eq_new (h.kept.2.pending_iff.mpr hthere)]
    exact Listens.of_woken _ _
  · refine h.waits hI (outside_relax hd hrelax) hkept hwoken hthere (mt hend.mp hnow) ?_
    rw [hd]
    cases m with
    | submit => exact hahead
    | poll k hk => exact hahead
    | relax j hj => exact Nat.lt_of_le_of_ne hahead hnow

/-- **A step of a wait** does not fault. -/
theorem step (h : w.Inv I p r i m n) (hI : Lasting b stop I) (hmeets : m.Meets b d cookie r w) :
    ∃ w', w.step b d cookie i = .ok w' ∧ w'.Inv I p r i m (n + 1) := by
  by_cases hgone : w.system.requests.get r = none
  · obtain ⟨hlistens, howed, hpolls, hrelaxes, hdue⟩ := h.leaving hgone
    rcases Reader.demand_of_owed howed with hd | hd
    · exact leaves hI (by rw [hd]; nofun) (outside_none hd) h.kept hlistens hgone
        (by rw [hd]; nofun) (fun _ => howed) (by rw [hd]; exact hpolls) (by rw [hd]; exact hrelaxes)
        hdue
    · have hdone := Reader.due_of_stop hd
      exact ⟨w, if_pos hd, h.kept, fun hthere => absurd hgone hthere,
        fun _ => ⟨hlistens, howed, hpolls, hrelaxes, by omega⟩⟩
  · obtain ⟨hspent, hahead⟩ := h.waiting hgone
    cases hd : w.reader.demand with
    | stop => exact absurd hd hspent.step.1
    | none =>
      exact h.waits hI (outside_none hd) h.kept (Woken.refl _) hgone hgone
        (by rw [hd]; exact hahead)
    | poll => exact h.polls hI hmeets hd hgone
    | relax => exact h.relaxes hI hmeets hd hgone

/-- **Every step of a wait**, whatever happens outside. -/
theorem run (hstart : w.Inv I p r i m 0) (hI : Lasting b stop I)
    (hmeets : ∀ n w', w.run b d cookie i n = .ok w' → m.Meets b d cookie r w') (n : Nat) :
    ∃ w', w.run b d cookie i n = .ok w' ∧ w'.Inv I p r i m n := by
  induction n with
  | zero => exact ⟨w, rfl, hstart⟩
  | succ n ih =>
    obtain ⟨w', hrun, h⟩ := ih
    obtain ⟨w'', hstep, h'⟩ := h.step hI (hmeets n w' hrun)
    refine ⟨w'', ?_, h'⟩
    rw [Wait.run, hrun]
    exact hstep

/-- **The wait ends**, and what it has spent is what its moment says. -/
theorem ends (h : w.Inv I p r i m (2053 * m.polls + 3)) :
    w.reader.point = .done ∧ w.polls = m.polls ∧ w.relaxes = m.relaxes ∧
      (w.system.sleepers.get i).word = .running ∧ (w.system.pages.get p).Settled := by
  by_cases hgone : w.system.requests.get r = none
  · obtain ⟨hlistens, -, hpolls, hrelaxes, hdue⟩ := h.leaving hgone
    have hdone : w.reader.point = .done := Reader.done_of_due (by omega)
    exact ⟨hdone, hpolls, hrelaxes, hlistens.resting hdone, (h.kept.2.gone hgone).2⟩
  · obtain ⟨hspent, hahead⟩ := h.waiting hgone
    have hpolls := hspent.polls_le hahead
    have hsteps := hspent.bounds.2.2
    omega

end Inv

end Wait

/-! ## 6. Collaborators that keep to a moment -/

/-- Polls and relaxes so far. -/
structure Clock where
  polls : Nat := 0
  relaxes : Nat := 0

instance (m : Moment) (n : Nat) : Decidable (m.InPoll n) :=
  match m with
  | .submit => .isFalse id
  | .poll k _ => inferInstanceAs (Decidable (n = k))
  | .relax _ _ => .isFalse id

instance (m : Moment) (n : Nat) : Decidable (m.InRelax n) :=
  match m with
  | .submit => .isFalse id
  | .poll _ _ => .isFalse id
  | .relax j _ => inferInstanceAs (Decidable (n = j))

/-- **The same collaborators, with a clock**: request `r` is finished at moment `m` of the first
wait, and no request is finished at any other. -/
def Backend.timed (b : Backend σ) (m : Moment) (r : RequestId) (patience : Nat) :
    Backend (σ × Clock) :=
  let untimed := b.heardBy Listener.deaf
  { untimed with
    queues :=
      { untimed.queues with
        submit := fun _ _ _ _ _ w => ((0, []), w)
        poll := fun _ _ _ w =>
          let now := w.2.polls + 1
          ((decide (m.InPoll now), if m.InPoll now then [⟨r, none⟩] else []),
            w.1, { w.2 with polls := now }) }
    relax := fun w =>
      let now := w.2.relaxes + 1
      (if m.InRelax now then [fun w => ([⟨r, none⟩], w)] else [], w.1, { w.2 with relaxes := now })
    patience }

/-- The tables fit together, and this is what the clock says. -/
structure System.Timed (t : Table Device) (polls relaxes : Nat) (s : System (σ × Clock)) :
    Prop where
  coherent : s.CoherentSince t
  clock : s.world.2 = ⟨polls, relaxes⟩

section

variable {b : Backend σ} {m : Moment} {r : RequestId} {patience : Nat} {t : Table Device}
  {polls relaxes : Nat} {s : System (σ × Clock)} {d : DeviceId} {cookie : UInt64} {i : SleeperId}

theorem Lawful.timed (hb : Lawful b) (m : Moment) (r : RequestId) (patience : Nat) :
    Lawful (b.timed m r patience) :=
  (hb.heardBy Listener.deaf).congr rfl rfl rfl rfl rfl

/-- The clock does not go on while a request is finished. -/
theorem clock_noticedBy (q : Request) (status : Status) (w : σ × Clock) :
    (noticedBy (b.timed m r patience) s q status w).2.2 = w.2 := by
  unfold noticedBy noticed
  split
  · split
    · dsimp only
      split
      · split <;> rfl
      · rfl
    · rfl
  · rfl

theorem timed_settle (queue : QueueId) (f : Finish) (q : Request) (page : Page) (w : σ × Clock) :
    (b.timed m r patience).queues.settle queue f q page w =
      tryNoting (fun _ => id) (b.queues.settle queue f q page) w := rfl

/-- A step of a reader changes what it shares with a completion, and nothing else. -/
theorem Reader.exists_of_move {reader reader' : Reader} {hit : Bool} {s s' : System σ}
    (h : reader.move hit i s = .ok (reader', s')) : ∃ sleepers, s' = { s with sleepers } := by
  have hwp : (reader.move hit i).wp (fun _ s' => ∃ sleepers, s' = { s with sleepers })
      (fun _ => True) s := by
    unfold Reader.move
    simp only [Run.wp_bind, Run.wp_sleeper]
    cases reader.step hit (s.sleepers.get i) with
    | error e => trivial
    | ok out => exact ⟨_, rfl⟩
  exact hwp.of_ok h

theorem finishAll_single (b : Backend σ) (f : Finish) : finishAll b [f] = finish b f := by
  simp [finishAll]

namespace System.Timed

variable (hsettle : ∀ queue f q page w, ∃ out, b.queues.settle queue f q page w = .ok out)
include hsettle

/-- The request is finished, and no time passes. -/
theorem finish (h : s.Timed t polls relaxes) : (finish (b.timed m r patience) ⟨r, none⟩).wp
    (fun _ s' => s'.Timed t polls relaxes ∧ s'.requests.get r = none) (fun _ => False) s := by
  cases hq : s.requests.get r with
  | none =>
    unfold PageSwap.finish
    simp only [Run.wp_bind, Run.wp_request?, hq, Run.wp_pure]
    exact ⟨h, trivial⟩
  | some q =>
    refine finish_wp hq (h.coherent.coherent.ready hq) (fun e he => ?_)
      fun status bytes w console hdone => ?_
    · obtain ⟨out, hout⟩ := hsettle (s.devices.get q.device).queue ⟨r, none⟩ q
        (s.pages.get q.page) s.world.1
      rw [timed_settle] at he
      cases hout.symm.trans (tryNoting_eq_error he)
    · rw [timed_settle] at hdone
      have hcoherent : (s.finished (b.timed m r patience) r q status bytes w).CoherentSince t :=
        h.coherent.of_device rfl (h.coherent.coherent.finish hq rfl)
      refine ⟨⟨⟨hcoherent.coherent, hcoherent.fresh, hcoherent.depth⟩, ?_⟩,
        Table.get_set_self _ _ _⟩
      exact (clock_noticedBy q status w).trans ((tryNoting_eq_ok hdone).2.trans h.clock)

/-- A poll finishes the request if the moment is now. -/
theorem poll (h : s.Timed t polls relaxes) : (poll (b.timed m r patience) d cookie true).wp
    (fun hit s' => s'.Timed t (polls + 1) relaxes ∧ (hit = true ↔ m.InPoll (polls + 1)) ∧
      (s.requests.get r ≠ none → (s'.requests.get r = none ↔ m.InPoll (polls + 1))))
    (fun _ => False) s := by
  have hpoll : (b.timed m r patience).queues.poll (s.devices.get d).queue cookie true s.world =
      ((decide (m.InPoll (polls + 1)), if m.InPoll (polls + 1) then [⟨r, none⟩] else []),
        s.world.1, ⟨polls + 1, relaxes⟩) := by
    simp only [Backend.timed, h.clock]
  have h' : System.Timed t (polls + 1) relaxes
      { s with world := (s.world.1, ⟨polls + 1, relaxes⟩) } :=
    ⟨⟨h.coherent.coherent, h.coherent.fresh, h.coherent.depth⟩, rfl⟩
  unfold PageSwap.poll
  simp only [Run.wp_bind, Run.wp_device, Run.wp_world, hpoll]
  by_cases hnow : m.InPoll (polls + 1)
  · rw [if_pos hnow, finishAll_single]
    refine Run.wp_mono (h'.finish hsettle) (fun _ s' hs' => ?_) fun _ => id
    exact ⟨hs'.1, iff_of_true (decide_eq_true hnow) hnow, fun _ => iff_of_true hs'.2 hnow⟩
  · rw [if_neg hnow]
    exact ⟨h', iff_of_false (ne_true_of_eq_false (decide_eq_false hnow)) hnow,
      fun hthere => iff_of_false hthere hnow⟩

/-- A relax finishes the request if the moment is now. -/
theorem relax (h : s.Timed t polls relaxes) : (relax (b.timed m r patience)).wp
    (fun _ s' => s'.Timed t polls (relaxes + 1) ∧
      (s.requests.get r ≠ none → (s'.requests.get r = none ↔ m.InRelax (relaxes + 1))))
    (fun _ => False) s := by
  have hrelax : (b.timed m r patience).relax s.world =
      (if m.InRelax (relaxes + 1) then [fun w => ([⟨r, none⟩], w)] else [],
        s.world.1, ⟨polls, relaxes + 1⟩) := by
    simp only [Backend.timed, h.clock]
  have h' : System.Timed t polls (relaxes + 1)
      { s with world := (s.world.1, ⟨polls, relaxes + 1⟩) } :=
    ⟨⟨h.coherent.coherent, h.coherent.fresh, h.coherent.depth⟩, rfl⟩
  unfold PageSwap.relax
  simp only [Run.wp_bind, Run.wp_world, hrelax]
  by_cases hnow : m.InRelax (relaxes + 1)
  · rw [if_pos hnow]
    change ((Run.world _ >>= PageSwap.finishAll _) >>= fun _ => pure ()).wp _ _ _
    simp only [Run.wp_bind, Run.wp_world, Run.wp_pure]
    rw [finishAll_single]
    refine Run.wp_mono (h'.finish hsettle) (fun _ s' hs' => ?_) fun _ => id
    exact ⟨hs'.1, fun _ => iff_of_true hs'.2 hnow⟩
  · rw [if_neg hnow]
    exact ⟨h', fun hthere => iff_of_false hthere hnow⟩

/-- What goes on outside during a step is on the clock. -/
theorem outside (h : s.Timed t polls relaxes) (reader : Reader) :
    (Wait.outside (b.timed m r patience) d cookie reader).wp
      (fun _ s' => s'.Timed t (polls + if reader.demand = .poll then 1 else 0)
        (relaxes + if reader.demand = .relax then 1 else 0)) (fun _ => False) s := by
  unfold Wait.outside
  cases reader.demand with
  | poll => exact Run.wp_mono (h.poll hsettle) (fun _ _ h' => h'.1) fun _ => id
  | relax =>
    rw [Run.wp_bind]
    exact Run.wp_mono (h.relax hsettle) (fun _ _ h' => h'.1) fun _ => id
  | none | stop => exact h

/-- A step of a wait is on the clock. -/
theorem step {w w' : Wait (σ × Clock)} (h : w.system.Timed t w.polls w.relaxes)
    (hstep : w.step (b.timed m r patience) d cookie i = .ok w') :
    w'.system.Timed t w'.polls w'.relaxes := by
  unfold Wait.step at hstep
  split at hstep
  · injection hstep with hstep
    exact hstep ▸ h
  · obtain ⟨⟨hit, s₁⟩, hout, hstep⟩ := exists_of_bind_ok hstep
    obtain ⟨⟨reader, s₂⟩, hmove, hstep⟩ := exists_of_bind_ok hstep
    injection hstep with hstep
    obtain ⟨sleepers, rfl⟩ := Reader.exists_of_move hmove
    have h₁ := (h.outside hsettle w.reader).of_ok hout
    rw [← hstep]
    exact ⟨⟨h₁.coherent.coherent, h₁.coherent.fresh, h₁.coherent.depth⟩, h₁.clock⟩

/-- The clock counts what the reader spends. -/
theorem run {w w' : Wait (σ × Clock)} {n : Nat} (h : w.system.Timed t w.polls w.relaxes)
    (hrun : w.run (b.timed m r patience) d cookie i n = .ok w') :
    w'.system.Timed t w'.polls w'.relaxes := by
  induction n generalizing w' with
  | zero =>
    injection hrun with hrun
    exact hrun ▸ h
  | succ n ih =>
    obtain ⟨mid, hmid, hstep⟩ := exists_of_bind_ok hrun
    exact (ih hmid).step hsettle hstep

/-- **Timed collaborators meet their moment.** -/
theorem meets {w w' : Wait (σ × Clock)} {n : Nat} (h : w.system.Timed t w.polls w.relaxes)
    (hrun : w.run (b.timed m r patience) d cookie i n = .ok w') :
    m.Meets (b.timed m r patience) d cookie r w' where
  poll := fun _ hthere => by
    obtain ⟨hit, s', hpoll, -, hhit, hend⟩ :=
      Run.exists_ok_of_wp ((h.run hsettle hrun).poll hsettle)
    exact ⟨hit, s', hpoll, hhit, hend hthere⟩
  relax := fun _ hthere => by
    obtain ⟨_, s', hrelax, -, hend⟩ := Run.exists_ok_of_wp ((h.run hsettle hrun).relax hsettle)
    exact ⟨s', hrelax, hend hthere⟩

end System.Timed

end

/-! ## 7. A read that waits -/

/-- **A read hands request `q` over to wait for it**, in the state `s'`.  Its page has an area on a
device, the front store does not have the page, the driver does not fill it at once, and there is
room for one more request.  `stall` is what the account of stalls has given. -/
inductive HandsOver (b : Backend σ) (p : PageId) (s : System σ) :
    Request → UInt64 → System σ → Prop
  | intro {area : Area} {s₁ s₂ : System σ} {q : Request}
      (harea : s.areaAt p = some area) (hback : area.backing.device? = some q.device)
      (hfront : FrontDeclines b (FrontStore.fill · p .await) p s s₁)
      (hread : DeviceRead b area q.device p { s₁ with world := (b.stalls.enter s₁.world).2 }
        (.ok ()) s₂)
      (hmade : s₂.requests = s.requests.set s.requests.fresh (some q))
      (hsleeper : q.sleeper = some s.sleepers.fresh) :
      HandsOver b p s q (b.stalls.enter s₁.world).1
        { s₂ with sleepers := s.sleepers.set s.sleepers.fresh {} }

section

variable {b : Backend σ} {p : PageId} {s s' : System σ} {q : Request} {stall : UInt64}

theorem FrontDeclines.sleepers
    {ask : FrontStore σ → Page → σ → Except Fault ((Bool × Page) × σ)}
    (h : FrontDeclines b ask p s s') : s'.sleepers = s.sleepers := by
  cases h <;> rfl

/-- The request that a read from a device makes. -/
theorem DeviceRead.made {area : Area} {d : DeviceId} {status : Status}
    (h : DeviceRead b area d p s status s')
    (hmade : s'.requests = s.requests.set s.requests.fresh (some q)) :
    q.page = p ∧ q.direction = .read ∧ q.device = d := by
  have hnew := congrArg (·.get s.requests.fresh) hmade
  simp only [Table.get_set_self] at hnew
  cases h with
  | issued hsector htransfer hroom htag hq =>
    simp only [Table.get_set_self, Option.some.injEq] at hnew
    subst hnew
    obtain rfl | ⟨i, rfl⟩ := hq
    · exact ⟨rfl, rfl, rfl⟩
    · exact ⟨rfl, rfl, rfl⟩
  | _ =>
    rw [Table.get_of_fresh_le _ (Nat.le_refl _)] at hnew
    cases hnew

/-- Reading from a device, if a request is made that is waited for. -/
theorem readDevice_awaits {area : Area} {d : DeviceId}
    {post : Status → System σ → Prop} {stop : Fault → Prop}
    (hread : DeviceRead b area d p s (.ok ()) s') (hheld : (s.pages.get p).Held)
    (hmade : s'.requests = s.requests.set s.requests.fresh (some q))
    (hsleeper : q.sleeper = some s.sleepers.fresh)
    (hpost : (submit b s.requests.fresh q).wp
      (fun cookie => (await b d cookie s.sleepers.fresh b.patience Reader.start).wp
        (fun _ => post (.ok ())) stop)
      stop { s' with sleepers := s.sleepers.set s.sleepers.fresh {} }) :
    (readDevice b area d p .await).wp post stop s := by
  have hnew := congrArg (·.get s.requests.fresh) hmade
  simp only [Table.get_set_self] at hnew
  cases hread with
  | direct => rw [Table.get_of_fresh_le _ (Nat.le_refl _)] at hnew; cases hnew
  | issued hsector htransfer hroom htag hq hchores hcounted =>
    simp only [Table.get_set_self, Option.some.injEq] at hnew
    subst hnew
    obtain rfl | ⟨i, rfl⟩ := hq
    · cases hsleeper
    injection hsleeper with hsleeper
    subst hsleeper hcounted
    unfold readDevice transferNow
    simp only [Run.wp_bind, Run.wp_page, Run.wp_attempt, hsector]
    refine Run.wp_tryPage_of_ok (startRead_of hheld.2) ?_
    simp only [Run.wp_device, Run.wp_tryWorld, Table.get_set_self, htransfer, Run.wp_editPage,
      Run.wp_pure, Table.set_set]
    simp only [Run.wp_bind]
    refine Run.wp_tryPage_of_ok (endRead_of (by rw [Table.get_set_self])) ?_
    simp only [Table.get_set_self, Table.set_set]
    unfold readRequest
    rw [Run.wp_bind]
    refine allocRequest_wp (by rw [Table.get_set_self]; exact hsector)
      (fun hlarge => ?_) (fun hnone => ?_) (fun dev' _ htag' => ?_)
    · rw [Table.get_set_self] at hlarge
      exact absurd hlarge hroom
    · cases hnone.symm.trans htag
    · cases htag.symm.trans htag'
      dsimp only
      rw [if_pos rfl]
      simp only [Run.wp_bind, Run.wp_addSleeper, Run.wp_pure]
      refine issue_leaves (by rw [Table.get_set_self]) ?_
      simp only [Table.get_set_self, Table.set_set]
      exact hpost

/-- A read that hands a request over waits for it, and answers without an error. -/
theorem HandsOver.pageIn_eq (h : HandsOver b p s q stall s') (hb : b.MindsReads)
    (hheld : (s.pages.get p).Held) (hclean : (s.pages.get p).flags.uptodate = false)
    {cookie : UInt64} {s₁ s₂ : System σ}
    (hsubmit : submit b s.requests.fresh q s' = .ok (cookie, s₁))
    (hawait : await b q.device cookie s.sleepers.fresh b.patience Reader.start s₁ = .ok ((), s₂)) :
    pageIn b p .await s = .ok (.ok (), { s₂ with world := b.stalls.leave stall s₂.world }) := by
  cases h with
  | @intro area s₃ s₄ _ harea hback hfront hread hmade hsleeper =>
    have hheld' := hfront.held hb hheld
    have hrequests := hfront.requests
    have hsleepers := hfront.sleepers
    -- reading from the slot, once the front store has declined
    have hslot : (readSlot b area p .await).wp (fun status s₅ =>
        (Run.world fun w => ((), b.stalls.leave (b.stalls.enter s₃.world).1 w)).wp
          (fun _ s₆ => status = .ok () ∧
            s₆ = { s₂ with world := b.stalls.leave (b.stalls.enter s₃.world).1 s₂.world })
          (fun _ => False) s₅) (fun _ => False)
        { s₃ with world := (b.stalls.enter s₃.world).2 } := by
      rw [readSlot_eq_readDevice hback]
      refine readDevice_awaits hread hheld' (by rw [hmade, ← hrequests])
        (by rw [hsleeper, ← hsleepers]) ?_
      dsimp only
      rw [hrequests, hsleepers, Run.wp_of_ok hsubmit, Run.wp_of_ok hawait]
      exact ⟨rfl, rfl⟩
    refine Run.eq_ok_of_wp ?_
    unfold pageIn
    simp only [Run.wp_bind, Run.wp_page, hheld.1, hclean, if_true, Bool.false_eq_true, if_false]
    rw [areaOf_wp, harea]
    simp only [Run.wp_bind]
    unfold frontLoad
    cases hfront with
    | absent hnone =>
      rw [hnone]
      simp only [Run.wp_pure, Bool.false_eq_true, if_false, Run.wp_bind, Run.wp_world]
      exact hslot
    | @declined front page w hsome hask =>
      rw [hsome]
      change (Run.tryWithPage p (front.fill p .await)).wp _ _ s
      rw [Run.wp_tryWithPage, hask]
      simp only [Run.wp_pure, Bool.false_eq_true, if_false, Run.wp_bind, Run.wp_world]
      exact hslot

/-- From the moment it is handed over, the request is watched. -/
theorem HandsOver.watched (h : HandsOver b p s q stall s') (hb : Lawful b) (hs : s.Coherent)
    (hun : s.Unattended) (hheld : (s.pages.get p).Held) :
    (s'.CoherentSince s.devices ∧ Watched p s.requests.fresh s.sleepers.fresh s') ∧
      s'.requests.get s.requests.fresh ≠ none := by
  cases h with
  | @intro area s₁ s₂ _ harea hback hfront hread hmade hsleeper =>
    have hheld' := hfront.held hb.mindsReads hheld
    have hcoherent := hread.coherent
      (hfront.coherent hs.since hheld.2 hheld'.2 (b.stalls.enter s₁.world).2) hheld'
    obtain ⟨hpage, hdirection, -⟩ := hread.made (by rw [hmade, ← hfront.requests])
    have hthere : s₂.requests.get s.requests.fresh = some q := by rw [hmade, Table.get_set_self]
    refine ⟨⟨(lasting_coherent hb s.devices).blind _ s₂.console s₂.limiter hcoherent,
      fun {r' q'} hq' hr' => ?_, fun {q'} hq' => ?_, fun hgone => ?_⟩, fun hgone => ?_⟩
    · replace hq' : s₂.requests.get r' = some q' := hq'
      rw [hmade, Table.get_set_ne _ _ hr'] at hq'
      exact ⟨hs.no_request hheld.2 r' q' hq', hun r' q' hq'⟩
    · cases hthere.symm.trans hq'
      refine ⟨hpage, hdirection, hsleeper, ?_⟩
      rw [Table.get_set_self]
      rfl
    · cases hthere.symm.trans hgone
    · cases hthere.symm.trans hgone

/-- **A read that is waited for hands a request over, or makes none.** -/
theorem pageIn_hands_over (hb : b.MindsReads) (hheld : (s.pages.get p).Held)
    (hclean : (s.pages.get p).flags.uptodate = false) {status : Status}
    (hrun : pageIn b p .await s = .ok (status, s')) (hmade : s'.requests ≠ s.requests) :
    ∃ q stall s₁, HandsOver b p s q stall s₁ := by
  have hwp : (pageIn b p .await).wp (fun _ t => t.requests = s.requests ∨
      ∃ q stall s₁, HandsOver b p s q stall s₁) (fun _ => True) s := by
    refine pageIn_steps tolerant_any.toFrontFaults hb hheld hclean (fun _ => Or.inl rfl)
      (fun _ _ _ _ _ _ _ => Or.inl rfl) fun area s₁ harea hfront hheld' => ?_
    have hrequests := hfront.requests
    cases hback : area.backing.device? with
    | none =>
      unfold readSlot
      cases hfile : area.backing with
      | file f =>
        refine readFile_wp hheld' fun status s₂ hread => Or.inl ?_
        cases hread <;> exact hrequests
      | device d => rw [hfile] at hback; cases hback
      | mapped f d => rw [hfile] at hback; cases hback
    | some d =>
      rw [readSlot_eq_readDevice hback]
      refine readDevice_steps tolerant_any (.of_stop trivial) hheld'
        (fun _ _ _ hsame => Or.inl (hsame.trans hrequests))
        (fun _ _ hpace => absurd rfl hpace) fun q s₂ _ hread hmade' _ hsleeper _ => ?_
      obtain ⟨-, -, rfl⟩ := hread.made hmade'
      dsimp only at hmade' hsleeper
      rw [hrequests] at hmade'
      rw [hfront.sleepers] at hsleeper
      exact Run.wp_of_forall fun _ _ => Run.wp_of_forall fun _ _ =>
        Or.inr ⟨q, _, _, .intro harea hback hfront hread hmade' hsleeper⟩
  exact (hwp.of_ok hrun).resolve_left hmade

/-- **A wait spends exactly its budget.**  In a state that a run reaches from a quiet one a page is
read in that is locked, has no transfer and holds no valid content, the read hands a request over to
wait for it, and the request is finished at a moment of its wait, or before it begins.  Then the
wait ends: its polls and relaxes are those of this moment (`Moment.polls`, `Moment.relaxes`), the
word of the reader is running, and the page is settled.  The read answers that all went well, if
only the wait is not given up before. -/
theorem wait_spends_its_budget {s₀ : System σ} (hb : Lawful b) (hquiet : s₀.Quiet)
    (hrun : Reaches b s₀ s) (hheld : (s.pages.get p).Held)
    (hclean : (s.pages.get p).flags.uptodate = false) (hhands : HandsOver b p s q stall s')
    {cookie : UInt64} {s₁ : System σ}
    (hsubmit : submit b s.requests.fresh q s' = .ok (cookie, s₁)) {m : Moment}
    (hhere : s₁.requests.get s.requests.fresh = none ↔ m = .submit)
    (hmeets : ∀ n w, Wait.run b q.device cookie s.sleepers.fresh n { system := s₁ } = .ok w →
      m.Meets b q.device cookie s.requests.fresh w) :
    ∃ w, Wait.run b q.device cookie s.sleepers.fresh (2053 * m.polls + 3) { system := s₁ } = .ok w ∧
      w.reader.point = .done ∧ w.polls = m.polls ∧ w.relaxes = m.relaxes ∧
      (w.system.sleepers.get s.sleepers.fresh).word = .running ∧ (w.system.pages.get p).Settled ∧
      (2053 * m.polls + 3 ≤ b.patience → pageIn b p .await s =
        .ok (.ok (), { w.system with world := b.stalls.leave stall w.system.world })) := by
  have hs := coherent_of_reaches hb hquiet hrun
  have hun := unattended_of_reaches hb hquiet hrun
  have hI := lasting_coherent hb s.devices
  obtain ⟨hkept, hthere⟩ := hhands.watched hb hs hun hheld
  obtain ⟨hkept₁, hwoken⟩ := ((Watched.attentive hI).submit _ q hkept).of_ok hsubmit
  have hstart : Wait.Inv (System.CoherentSince s.devices) p s.requests.fresh s.sleepers.fresh m 0
      { system := s₁ } := by
    refine ⟨hkept₁, fun hthere₁ => ⟨⟨rfl, rfl, Nat.le_refl 0⟩, ?_⟩, fun hgone => ?_⟩
    · cases m with
      | submit => exact absurd (hhere.mpr rfl) hthere₁
      | poll k hk => exact hk
      | relax j hj => exact hj
    · obtain rfl := hhere.mp hgone
      refine ⟨?_, rfl, rfl, rfl, Nat.le_refl 3⟩
      rw [hkept.2.woken hkept₁.2 hwoken hthere hgone,
        Sleeper.eq_new (hkept.2.pending_iff.mpr hthere)]
      exact Listens.of_woken _ _
  obtain ⟨w, hw, hend⟩ := hstart.run hI hmeets (2053 * m.polls + 3)
  obtain ⟨hdone, hpolls, hrelaxes, hword, hsettled⟩ := hend.ends
  refine ⟨w, hw, hdone, hpolls, hrelaxes, hword, hsettled, fun hpatience => ?_⟩
  have hawait := Wait.await_of_run hw (b.patience - (2053 * m.polls + 3))
  have hstop : w.reader.demand = .stop := by rw [Reader.demand, hdone]
  rw [Nat.sub_add_cancel hpatience, Wait.await_of_stop hstop] at hawait
  exact hhands.pageIn_eq hb.mindsReads hheld hclean hsubmit hawait

end

/-- A disk in memory that finishes its first request at moment `m`. -/
def timedDisk (m : Moment) : Backend (RamDisk × Clock) := (ramDisk true).timed m 0 40960

/-- An area of eight pages, and a page that is to be read from slot 1. -/
def timedUp : System (RamDisk × Clock) :=
  let page : Page := { flags.locked := true, slot := some ⟨1⟩, bytes := Bytes.fill 4096 0 }
  { pages := ⟨#[page]⟩
    devices := ⟨#[{ number := 0, sectors := 256, queue := 0, depth := 2 }]⟩
    registry := ⟨#[some ramArea]⟩
    world := ({}, {}) }

theorem timedUp_quiet : timedUp.Quiet :=
  ⟨fun _ => rfl, fun p => by rcases p with _ | p <;> rfl, fun d => by rcases d with _ | d <;> rfl⟩

/-- The request for it. -/
def timedRead : Request := ramRead.awaitedBy 0

/-- The request is handed over. -/
def timedIssued : System (RamDisk × Clock) :=
  { timedUp with
    pages := timedUp.pages.set 0 { timedUp.pages.get 0 with transfer := .reading }
    devices := timedUp.devices.set 0 { timedUp.devices.get 0 with inflight := 1 }
    requests := timedUp.requests.set 0 (some timedRead)
    sleepers := timedUp.sleepers.set 0 {} }

theorem timedIssued_handed (m : Moment) :
    HandsOver (timedDisk m) 0 timedUp timedRead 0 timedIssued := by
  have hsector : ramArea.sector (timedUp.pages.get 0).slot = .ok 8 := by decide +kernel
  have hroom : ¬ 64 < (timedUp.pages.get 0).nrPages := by decide +kernel
  have hread : DeviceRead (timedDisk m) ramArea 0 0 timedUp (.ok ()) { timedUp with
      pages := timedUp.pages.set 0 { timedUp.pages.get 0 with transfer := .reading }
      devices := timedUp.devices.set 0 { timedUp.devices.get 0 with inflight := 1 }
      requests := timedUp.requests.set 0 (some timedRead) } :=
    .issued (b := timedDisk m) (s := timedUp) (q := timedRead) hsector rfl hroom rfl
      (Or.inr ⟨0, rfl⟩) .refl rfl
  have harea : timedUp.areaAt 0 = some ramArea := rfl
  have hsleeper : timedRead.sleeper = some timedUp.sleepers.fresh := rfl
  exact .intro harea rfl (.absent rfl) hread rfl hsleeper

/-- The request is handed over, and its reader waits. -/
def timedWaiting (m : Moment) : System (RamDisk × Clock) :=
  match (submit (timedDisk m) 0 timedRead) timedIssued with
  | .ok (_, s) => s
  | .error _ => timedIssued

theorem submit_timedIssued (m : Moment) :
    (submit (timedDisk m) 0 timedRead) timedIssued = .ok (0, timedWaiting m) := rfl

/-- The page is read, and its reader polls and relaxes so often until its request is finished at
moment `m`. -/
def Spends (m : Moment) (polls relaxes : Nat) : Prop :=
  HandsOver (timedDisk m) 0 timedUp timedRead 0 timedIssued ∧
    ∃ n w, Wait.run (timedDisk m) 0 0 0 n { system := timedWaiting m } = .ok w ∧
      w.polls = polls ∧ w.relaxes = relaxes ∧
      (pageIn (timedDisk m) 0 .await) timedUp = .ok (.ok (), w.system)

/-- **Three waits**: the first poll finds the request; the polls of the budget are spent, each with
its relax, and the poll after a whole sleep finds the request; and it is finished during the second
relax of that sleep. -/
theorem spends_up_to_a_sleep :
    Spends (.poll 1 (by decide)) 1 0 ∧ Spends (.poll 18 (by decide)) 18 1040 ∧
      Spends (.relax 18 (by decide)) 17 18 := by
  have hspends : ∀ m : Moment, m ≠ .submit → 2053 * m.polls + 3 ≤ 40960 →
      Spends m m.polls m.relaxes := by
    intro m hm hpatience
    have hb : Lawful (timedDisk m) := (ramDisk_lawful true).timed m 0 40960
    have hs := coherent_of_reaches hb timedUp_quiet .refl
    have hhands := timedIssued_handed m
    have hun := unattended_of_reaches hb timedUp_quiet .refl
    have hissued := (hhands.watched hb hs hun ⟨rfl, rfl⟩).1.1
    have hwaiting : (timedWaiting m).CoherentSince timedUp.devices :=
      ((lasting_coherent hb _).submit 0 timedRead hissued).of_ok (submit_timedIssued m)
    have hstart : (timedWaiting m).Timed timedUp.devices 0 0 := ⟨hwaiting, rfl⟩
    have hthere : (timedWaiting m).requests.get 0 = none ↔ m = .submit := iff_of_false nofun hm
    obtain ⟨w, hw, -, hpolls, hrelaxes, -, -, hok⟩ := wait_spends_its_budget hb timedUp_quiet .refl
      ⟨rfl, rfl⟩ rfl hhands (submit_timedIssued m) hthere
      fun n w hrun => hstart.meets (fun _ _ _ _ _ => ⟨_, rfl⟩) hrun
    exact ⟨hhands, _, w, hw, hpolls, hrelaxes, hok hpatience⟩
  exact ⟨hspends _ nofun (by decide), hspends _ nofun (by decide), hspends _ nofun (by decide)⟩

end PageSwap
