/-
# A reader and the completion it waits for

A reader that waits and the completion of its request run at the same time.  They share the waiter,
which holds the reader's waker until the completion takes it, and the parker word, through which
the reader is woken.  Each side is a machine of atomic steps, and the two are interleaved in any
order.

* `Settling.step` -- one step of the completion; in a row they are `endRead` (`run_eq_endRead`).
* `Reader.move` -- one step of the reader; `await` is nothing else (`await_eq_move`).
* `Handshake.Inv` -- what holds in every interleaving, kept by each step of either side.
* `Awaited`, `issue_awaited` -- what it starts from, and that each read its caller waits for does.
* `reader_leaves_settled_and_woken_once` -- the reader leaves only when everything is settled, is
  woken once, and does not stay once the completion is over.
-/
import PageSwap.Proofs.Disks
import PageSwap.Proofs.Reads

namespace PageSwap

variable {σ : Type}

/-! ## 1. The completion, step by step -/

/-- Where the completion of a read is. -/
inductive Settling
  /-- About to settle the flags of the page. -/
  | flags
  /-- About to give up the slot of a page that was read. -/
  | notify
  /-- About to end the transfer of the page. -/
  | transfer
  /-- About to unlock the page. -/
  | unlock
  /-- About to drop the request, which gives its tag back. -/
  | drop
  /-- About to take the waker. -/
  | take
  /-- About to wake the task whose waker it took. -/
  | wake
  | done
  deriving DecidableEq, Inhabited

namespace Settling

/-- One step.  Each of them changes at most one word that the reader looks at. -/
def step (b : Backend σ) (r : RequestId) (q : Request) : Settling → Run σ Settling
  | .flags => do
    Run.log .trace s!"swap: read done at sector {q.sector}: {Status.text q.status}"
    match q.status with
    | .ok () =>
      Run.editPage q.page Page.setUptodate
      return .notify
    | .error _ =>
      Run.editPage q.page Page.setReadError
      Run.log .fatal (failureLine .read (← Run.device q.device) q.sector)
      return .transfer
  | .notify => do
    notifyFreed b q.area q.page
    return .transfer
  | .transfer => do
    Run.tryPage q.page Page.endRead
    return .unlock
  | .unlock => do
    Run.tryPage q.page Page.unlock
    return .drop
  | .drop => do
    Run.dropRequest r q
    return .take
  | .take =>
    match q.sleeper with
    | none => return .done
    | some i => do
      let (taken, x) := (← Run.sleeper i).take
      Run.setSleeper i x
      return if taken then .wake else .done
  | .wake =>
    match q.sleeper with
    | none => return .done
    | some i => do
      Run.setSleeper i (← Run.sleeper i).unpark
      return .done
  | .done => return .done

/-- The steps in a row, with nothing in between. -/
def run (b : Backend σ) (r : RequestId) (q : Request) : Nat → Settling → Run σ Unit
  | 0, _ => pure ()
  | n + 1, here => do run b r q n (← here.step b r q)

theorem run_done (b : Backend σ) (r : RequestId) (q : Request) (n : Nat) :
    run b r q n .done = pure () := by
  induction n with
  | zero => rfl
  | succ n ih => simp only [run, step, pure_bind, ih]

/-- Taking the waker and waking its task, one after the other. -/
theorem run_take (b : Backend σ) (r : RequestId) (q : Request) (n : Nat) :
    run b r q (n + 2) .take = match q.sleeper with
      | some i => do Run.setSleeper i (← Run.sleeper i).wake
      | none => pure () := by
  cases hsl : q.sleeper with
  | none => simp only [run, step, hsl, pure_bind, run_done]
  | some i =>
    funext s
    have htake : run b r q (n + 2) .take s = run b r q (n + 1)
        (if (s.sleepers.get i).take.1 then .wake else .done)
        { s with sleepers := s.sleepers.set i (s.sleepers.get i).take.2 } := by
      rw [run, step, hsl]
      rfl
    have hwake : ∀ t : System σ, run b r q (n + 1) .wake t =
        .ok ((), { t with sleepers := t.sleepers.set i (t.sleepers.get i).unpark }) := by
      intro t
      simp only [run, step, hsl, bind_assoc, pure_bind, run_done]
      rfl
    change _ = Except.ok ((), { s with sleepers := s.sleepers.set i (s.sleepers.get i).wake })
    rw [htake]
    rcases s.sleepers.get i with ⟨⟨_ | u⟩, word⟩
    · simp only [Sleeper.take, Waiter.take, Option.isSome_none, Bool.false_eq_true, if_false,
        run_done]
      rfl
    · simp only [Sleeper.take, Waiter.take, Option.isSome_some, if_true, hwake,
        Table.get_set_self, Table.set_set]
      rfl

/-- **The steps in a row are the ending of a read.** -/
theorem run_eq_endRead (b : Backend σ) (r : RequestId) (q : Request) :
    run b r q 7 .flags = endRead b r q := by
  have htail : ∀ n, run b r q (n + 5) .transfer = releaseRead r q := by
    intro n
    rw [run, step, bind_assoc]
    simp only [pure_bind]
    rw [run, step, bind_assoc]
    simp only [pure_bind]
    rw [run, step, bind_assoc]
    simp only [pure_bind, run_take]
    rfl
  rw [run, step]
  unfold endRead
  cases hst : q.status with
  | ok u =>
    simp only [bind_assoc, pure_bind]
    rw [run, step, bind_assoc]
    simp only [pure_bind]
    rw [htail 0]
    rfl
  | error e =>
    simp only [bind_assoc, pure_bind]
    rw [htail 1]
    rfl

end Settling

/-! ## 2. The reader, step by step -/

/-- One step of a reader that shares sleeper `i` with the completion; `hit` is the answer of a poll,
if it needs one. -/
def Reader.move (hit : Bool) (i : SleeperId) (reader : Reader) : Run σ Reader := do
  let (reader, x) ← Run.check (reader.step hit (← Run.sleeper i))
  Run.setSleeper i x
  return reader

/-- **A wait is the steps of its reader**, with the outside world in between. -/
theorem await_eq_move (b : Backend σ) (d : DeviceId) (cookie : UInt64) (i : SleeperId) (fuel : Nat)
    (reader : Reader) :
    await b d cookie i (fuel + 1) reader =
      if reader.demand = .stop then pure () else (do
        let hit ← if reader.demand = .poll then poll b d cookie true else pure false
        if reader.demand = .relax then relax b
        await b d cookie i fuel (← reader.move hit i)) := by
  rw [await]
  cases reader.demand <;> simp [Reader.move]

/-! ## 3. Both sides -/

/-- A reader that waits, the completion of its request, and the state they share. -/
structure Handshake (σ : Type) where
  reader : Reader := Reader.start
  settling : Settling := .flags
  system : System σ
  /-- How often the reader's task has been woken. -/
  wakes : Nat := 0
  /-- How often the reader has relaxed. -/
  relaxes : Nat := 0

/-- Whose step comes next. -/
inductive Move
  /-- The reader's; `hit` is the answer of a poll, if it needs one. -/
  | reader (hit : Bool)
  /-- The completion's. -/
  | completion
  deriving DecidableEq

/-- It is the reader's turn. -/
def Move.ofReader : Move → Bool
  | .reader _ => true
  | .completion => false

namespace Handshake

variable {b : Backend σ} {r : RequestId} {q : Request} {i : SleeperId} {h : Handshake σ}

/-- One step of one side. -/
def step (b : Backend σ) (r : RequestId) (q : Request) (i : SleeperId) (h : Handshake σ) :
    Move → Except Fault (Handshake σ)
  | .reader hit => do
    let (reader, system) ← h.reader.move hit i h.system
    return { h with
      reader, system, relaxes := h.relaxes + if h.reader.demand = .relax then 1 else 0 }
  | .completion => do
    let (settling, system) ← h.settling.step b r q h.system
    return { h with
      settling, system, wakes := h.wakes + if h.settling = .wake then 1 else 0 }

/-- Steps of both sides, in this order. -/
def run (b : Backend σ) (r : RequestId) (q : Request) (i : SleeperId) (h : Handshake σ)
    (moves : List Move) : Except Fault (Handshake σ) :=
  moves.foldlM (step b r q i) h

theorem step_reader {hit : Bool} {reader : Reader} {system : System σ}
    (hmove : h.reader.move hit i h.system = .ok (reader, system)) :
    h.step b r q i (.reader hit) = .ok { h with
      reader, system, relaxes := h.relaxes + if h.reader.demand = .relax then 1 else 0 } := by
  rw [step, hmove]
  rfl

theorem step_completion {settling : Settling} {system : System σ}
    (hstep : h.settling.step b r q h.system = .ok (settling, system)) :
    h.step b r q i .completion = .ok { h with
      settling, system, wakes := h.wakes + if h.settling = .wake then 1 else 0 } := by
  rw [step, hstep]
  rfl

theorem run_cons {m : Move} {moves : List Move} {t : Handshake σ}
    (hstep : h.step b r q i m = .ok t) : h.run b r q i (m :: moves) = t.run b r q i moves := by
  rw [run, List.foldlM_cons, hstep]
  rfl

end Handshake

/-! ## 4. What the completion has done -/

/-- Steps the completion has behind it. -/
def Settling.rank : Settling → Nat
  | .flags => 0
  | .notify => 1
  | .transfer => 2
  | .unlock => 3
  | .drop => 4
  | .take => 5
  | .wake => 6
  | .done => 7

/-- The page, the tag and the request after `rank` steps of the completion; `tags` were in use on
the device before. -/
structure Progress (s : System σ) (r : RequestId) (q : Request) (tags rank : Nat) : Prop where
  transfer : (s.pages.get q.page).transfer = if rank < 3 then .reading else .idle
  locked : (s.pages.get q.page).flags.locked = decide (rank < 4)
  /-- The page is up to date, or it is errored, and not both. -/
  decided : 1 ≤ rank →
    (s.pages.get q.page).flags.uptodate = !(s.pages.get q.page).flags.error
  tag : (s.devices.get q.device).inflight = if rank < 5 then tags else tags - 1
  request : 5 ≤ rank → s.requests.get r = none

namespace Progress

variable {s s' : System σ} {r : RequestId} {q : Request} {tags rank rank' : Nat}

/-- The page changes before the request is dropped. -/
theorem edit (h : Progress s r q tags rank) {page : Page}
    (hpages : s'.pages = s.pages.set q.page page) (hdevices : s'.devices = s.devices)
    (hrank : rank < 5) (hrank' : rank' < 5)
    (htransfer : page.transfer = if rank' < 3 then .reading else .idle)
    (hlocked : page.flags.locked = decide (rank' < 4))
    (hdecided : 1 ≤ rank' → page.flags.uptodate = !page.flags.error) :
    Progress s' r q tags rank' where
  transfer := by rw [hpages, Table.get_set_self]; exact htransfer
  locked := by rw [hpages, Table.get_set_self]; exact hlocked
  decided := by rw [hpages, Table.get_set_self]; exact hdecided
  tag := by rw [hdevices, if_pos hrank', h.tag, if_pos hrank]
  request := fun hle => absurd hle (by omega)

/-- Once the request is dropped, only the sleeper changes. -/
theorem waking (h : Progress s r q tags rank) (hpages : s'.pages = s.pages)
    (hdevices : s'.devices = s.devices) (hrequests : s'.requests = s.requests)
    (hrank : 5 ≤ rank) (hrank' : 5 ≤ rank') : Progress s' r q tags rank' where
  transfer := by rw [hpages, h.transfer, if_neg (by omega), if_neg (by omega)]
  locked := by rw [hpages, h.locked, decide_eq_false (by omega), decide_eq_false (by omega)]
  decided := by rw [hpages]; exact fun _ => h.decided (by omega)
  tag := by rw [hdevices, h.tag, if_neg (by omega), if_neg (by omega)]
  request := by rw [hrequests]; exact fun _ => h.request hrank

end Progress

/-- Whatever becomes of the slot of a page that was read, the page is at most made dirty. -/
theorem notifyFreed_any {b : Backend σ} {area : Area} {p : PageId} {s : System σ}
    {post : Unit → System σ → Prop} {stop : Fault → Prop}
    (hsame : ∀ w, post () { s with world := w })
    (hdirty : ∀ w, post () { s with
      pages := s.pages.set p (s.pages.get p).setDirty, world := w }) :
    (notifyFreed b area p).wp post stop s := by
  unfold notifyFreed
  simp only [Run.wp_bind, Run.wp_page]
  rcases (s.pages.get p).slot with _ | slot
  · exact hsame s.world
  rcases area.backing with d | ⟨f, d⟩ | f
  · simp only [Run.wp_bind, Run.wp_device, Run.wp_get, Run.wp_ite]
    split
    · rw [Run.wp_world]
      split
      · exact hdirty _
      · exact hsame _
    · exact hsame s.world
  · exact hsame s.world
  · exact hsame s.world

namespace Settling

/-- What a step of the completion does to the sleeper. -/
def touch : Settling → Sleeper → Sleeper
  | .take, x => x.take.2
  | .wake, x => x.unpark
  | _, x => x

/-- The completion goes one step on.  A read that failed has no slot to give up. -/
def Follows (here next : Settling) : Prop :=
  next.rank = here.rank + 1 ∨ here = .flags ∧ next = .transfer ∨ here = .done ∧ next = .done

theorem Follows.rank_le {here next : Settling} (h : here.Follows next) :
    min 7 (here.rank + 1) ≤ next.rank := by
  rcases h with h | ⟨rfl, rfl⟩ | ⟨rfl, rfl⟩
  · omega
  · decide
  · decide

theorem Follows.stay {here next : Settling} (h : here.Follows next) (hdone : here = .done) :
    next = .done := by
  subst hdone
  rcases h with h | ⟨h, -⟩ | ⟨-, h⟩
  · cases next <;> exact absurd h (by decide)
  · cases h
  · exact h

theorem eq_done_of_rank {here : Settling} (h : 7 ≤ here.rank) : here = .done := by
  cases here
  case done => rfl
  all_goals exact absurd h (by decide)

/-- Waking is the last step. -/
theorem Follows.wakes {here next : Settling} (h : here.Follows next) :
    (if here = .done then 1 else 0) + (if here = .wake then 1 else 0) =
      if next = .done then 1 else 0 := by
  rcases h with h | ⟨rfl, rfl⟩ | ⟨rfl, rfl⟩
  · cases here <;> cases next
    all_goals first | rfl | exact absurd h (by decide)
  · rfl
  · rfl

/-- **A step of the completion** does not fault, and goes one step on. -/
theorem step_wp {b : Backend σ} {s : System σ} {r : RequestId} {q : Request} {i : SleeperId}
    {tags : Nat} {here : Settling} (htags : 0 < tags) (h : Progress s r q tags here.rank)
    (hsleeper : q.sleeper = some i)
    (hpending : here.rank < 6 → (s.sleepers.get i).waiter.isPending = true) :
    (here.step b r q).wp (fun next s' => Progress s' r q tags next.rank ∧ here.Follows next ∧
      s'.sleepers.get i = here.touch (s.sleepers.get i)) (fun _ => False) s := by
  cases here with
  | flags =>
    unfold step
    simp only [Run.wp_bind, Run.wp_log]
    cases q.status with
    | ok u =>
      simp only [Run.wp_bind, Run.wp_editPage, Run.wp_pure]
      exact ⟨h.edit rfl rfl (by decide) (by decide) h.transfer h.locked fun _ => rfl,
        Or.inl rfl, rfl⟩
    | error e =>
      simp only [Run.wp_bind, Run.wp_editPage, Run.wp_device, Run.wp_log, Run.wp_pure]
      exact ⟨h.edit rfl rfl (by decide) (by decide) h.transfer h.locked fun _ => rfl,
        Or.inr (Or.inl ⟨rfl, rfl⟩), rfl⟩
  | notify =>
    unfold step
    rw [Run.wp_bind]
    refine notifyFreed_any (fun w => ⟨?_, Or.inl rfl, rfl⟩) fun w => ⟨?_, Or.inl rfl, rfl⟩
    · exact ⟨h.transfer, h.locked, fun _ => h.decided (by decide), h.tag, fun hle =>
        absurd hle (by decide)⟩
    · exact h.edit rfl rfl (by decide) (by decide) h.transfer h.locked fun _ =>
        h.decided (by decide)
  | transfer =>
    unfold step
    rw [Run.wp_bind]
    refine Run.wp_tryPage_of_ok (endRead_of h.transfer) ⟨?_, Or.inl rfl, rfl⟩
    exact h.edit rfl rfl (by decide) (by decide) rfl h.locked fun _ => h.decided (by decide)
  | unlock =>
    unfold step
    rw [Run.wp_bind]
    refine Run.wp_tryPage_of_ok (unlock_of h.locked) ⟨?_, Or.inl rfl, rfl⟩
    exact h.edit rfl rfl (by decide) (by decide) h.transfer rfl fun _ => h.decided (by decide)
  | drop =>
    unfold step
    rw [Run.wp_bind]
    have htag := h.tag
    refine Run.wp_dropRequest_of_pos ?_
      ⟨⟨h.transfer, h.locked, fun _ => h.decided (by decide), ?_, ?_⟩, Or.inl rfl, rfl⟩
    · rw [htag]; exact htags
    · rw [Table.get_set_self]
      show _ - 1 = tags - 1
      rw [htag]; rfl
    · exact fun _ => Table.get_set_self _ _ _
  | take =>
    unfold step
    have hwaker := hpending (by decide)
    simp only [hsleeper, Run.wp_bind, Run.wp_sleeper, Run.wp_setSleeper, Run.wp_pure]
    have htaken : (s.sleepers.get i).take.1 = true := hwaker
    rw [htaken, if_pos rfl]
    exact ⟨h.waking rfl rfl rfl (by decide) (by decide), Or.inl rfl, Table.get_set_self _ _ _⟩
  | wake =>
    unfold step
    simp only [hsleeper, Run.wp_bind, Run.wp_sleeper, Run.wp_setSleeper, Run.wp_pure]
    exact ⟨h.waking rfl rfl rfl (by decide) (by decide), Or.inl rfl, Table.get_set_self _ _ _⟩
  | done => exact ⟨h, Or.inr (Or.inr ⟨rfl, rfl⟩), rfl⟩

end Settling

/-! ## 5. What the reader may rely on -/

namespace Reader

/-- The reader has found its waker there and goes on to poll or to sleep. -/
def Listening (reader : Reader) : Prop :=
  match reader.point with
  | .poll | .sleep _ => True
  | _ => False

/-- Steps left to a reader whose waker is gone and who has been woken, at most. -/
def due (reader : Reader) : Nat :=
  match reader.point with
  | .poll => 6
  | .withdraw | .sleep (.relax _) => 5
  | .relax | .sleep _ => 4
  | .prepare => 3
  | .check => 2
  | .leave => 1
  | .done => 0

theorem due_le (reader : Reader) : reader.due ≤ 6 := by
  unfold due; split <;> decide

theorem done_of_due {reader : Reader} (h : reader.due = 0) : reader.point = .done := by
  unfold due at h
  split at h
  all_goals first | assumption | exact absurd h (by decide)

/-- Relaxes among these steps, at most. -/
def owed (reader : Reader) : Nat :=
  match reader.point with
  | .poll | .withdraw | .relax | .sleep (.relax _) => 1
  | _ => 0

theorem owed_le (reader : Reader) : reader.owed ≤ 1 := by
  unfold owed; split <;> decide

end Reader

/-- **What a reader may rely on** while the completion has `rank` steps behind it.  The waker is
gone after six of them, and after the seventh nobody who may still sleep has a word that lets it. -/
structure Listens (reader : Reader) (x : Sleeper) (rank : Nat) : Prop where
  calm : reader.Calm x.word
  pending : x.waiter.isPending = decide (rank < 6)
  left : reader.point = .leave ∨ reader.point = .done → 6 ≤ rank
  resting : reader.point = .done → x.word = .running
  told : 7 ≤ rank → reader.Listening → x.word = .running

namespace Listens

variable {reader : Reader} {x : Sleeper} {rank : Nat}

/-- The reader takes a step without a fault and may rely on as much after it.  Once the completion
is over, the step is one of the last. -/
def StepsOn (reader : Reader) (x : Sleeper) (rank : Nat) (hit : Bool) : Prop :=
  ∃ reader' x', reader.step hit x = .ok (reader', x') ∧ Listens reader' x' rank ∧
    (7 ≤ rank → reader'.due ≤ reader.due - 1 ∧
      reader'.owed + (if reader.demand = .relax then 1 else 0) ≤ reader.owed)

/-- A reader in a sleep. -/
theorem step_sleep {here : Sleep} {budget : Nat} (h : Listens ⟨.sleep here, budget⟩ x rank)
    (hit : Bool) : StepsOn ⟨.sleep here, budget⟩ x rank hit := by
  obtain ⟨waiter, word⟩ := x
  obtain ⟨hcalm, hpending, hleft, hresting, htold⟩ := h
  unfold StepsOn Reader.step
  cases here with
  | start left =>
    cases word with
    | running =>
      exact ⟨_, _, rfl, ⟨trivial, hpending, nofun, nofun, fun _ hl => hl.elim⟩,
        fun _ => ⟨Nat.le_refl _, Nat.le_refl _⟩⟩
    | parked => exact absurd rfl hcalm
    | parking =>
      -- the wake would have left the word running
      have hbefore : ¬7 ≤ rank := fun h7 => Parker.noConfusion (htold h7 trivial)
      rcases left with _ | _ | n
      all_goals exact ⟨_, _, rfl, ⟨trivial, hpending, nofun, nofun, fun h7 => absurd h7 hbefore⟩,
        fun h7 => absurd h7 hbefore⟩
  | look left =>
    dsimp only [Sleep.step]
    cases word with
    | running =>
      exact ⟨_, _, rfl, ⟨trivial, hpending, nofun, nofun, fun _ hl => hl.elim⟩,
        fun _ => ⟨Nat.le_refl _, Nat.le_refl _⟩⟩
    | _ =>
      have hbefore : ¬7 ≤ rank := fun h7 => Parker.noConfusion (htold h7 trivial)
      exact ⟨_, _, rfl, ⟨trivial, hpending, nofun, nofun, fun h7 => absurd h7 hbefore⟩,
        fun h7 => absurd h7 hbefore⟩
  | relax left =>
    rcases left with _ | _ | _ | n
    all_goals exact ⟨_, _, rfl, ⟨trivial, hpending, nofun, nofun, fun h7 _ => htold h7 trivial⟩,
      fun _ => ⟨Nat.le_refl _, Nat.le_refl _⟩⟩
  | giveUp =>
    cases word
    all_goals exact ⟨_, _, rfl, ⟨trivial, hpending, nofun, nofun, fun _ hl => hl.elim⟩,
      fun _ => ⟨Nat.le_refl _, Nat.le_refl _⟩⟩
  | awake woken =>
    exact ⟨_, _, rfl, ⟨trivial, hpending, nofun, nofun, fun _ hl => hl.elim⟩,
      fun _ => ⟨Nat.le_refl _, Nat.le_refl _⟩⟩

/-- **A step of the reader** does not fault; once the completion is over it is one of the last. -/
theorem step (h : Listens reader x rank) (hit : Bool) : StepsOn reader x rank hit := by
  obtain ⟨point, budget⟩ := reader
  obtain ⟨waiter, word⟩ := x
  have hcalm := h.calm
  have hpending := h.pending
  have htold := h.told
  cases point with
  | sleep here => exact h.step_sleep hit
  | prepare =>
    exact ⟨_, _, rfl, ⟨nofun, hpending, nofun, nofun, fun _ hl => hl.elim⟩,
      fun _ => ⟨Nat.le_refl _, Nat.le_refl _⟩⟩
  | check =>
    refine ⟨_, _, rfl, ?_, fun hrank => ?_⟩
    · dsimp only at hpending ⊢
      by_cases h6 : rank < 6
      · rw [hpending, decide_eq_true h6, if_pos rfl]
        exact ⟨hcalm, hpending, nofun, nofun, fun h7 => absurd h7 (by omega)⟩
      · rw [hpending, decide_eq_false h6, if_neg Bool.false_ne_true]
        exact ⟨trivial, hpending, fun _ => by omega, nofun, fun _ hl => hl.elim⟩
    · dsimp only at hpending ⊢
      rw [hpending, decide_eq_false (by omega), if_neg Bool.false_ne_true]
      exact ⟨Nat.le_refl _, Nat.le_refl _⟩
  | poll =>
    unfold StepsOn Reader.step
    cases hit with
    | true =>
      exact ⟨_, _, rfl, ⟨trivial, hpending, nofun, nofun, fun _ hl => hl.elim⟩,
        fun _ => ⟨show 3 ≤ 5 by omega, show 0 ≤ 1 by omega⟩⟩
    | false =>
      by_cases hb : 0 < budget
      · simp only [Bool.false_eq_true, if_false, hb, if_true]
        exact ⟨_, _, rfl, ⟨trivial, hpending, nofun, nofun, fun _ hl => hl.elim⟩,
          fun _ => ⟨Nat.le_refl _, Nat.le_refl _⟩⟩
      · simp only [Bool.false_eq_true, if_false, hb]
        exact ⟨_, _, rfl, ⟨hcalm, hpending, nofun, nofun, fun h7 _ => htold h7 trivial⟩,
          fun _ => ⟨show 4 ≤ 5 by omega, show 0 ≤ 1 by omega⟩⟩
  | withdraw =>
    exact ⟨_, _, rfl, ⟨trivial, hpending, nofun, nofun, fun _ hl => hl.elim⟩,
      fun _ => ⟨Nat.le_refl _, Nat.le_refl _⟩⟩
  | relax =>
    exact ⟨_, _, rfl, ⟨trivial, hpending, nofun, nofun, fun _ hl => hl.elim⟩,
      fun _ => ⟨Nat.le_refl _, Nat.le_refl _⟩⟩
  | leave =>
    exact ⟨_, _, rfl, ⟨trivial, hpending, fun _ => h.left (Or.inl rfl), fun _ => rfl,
      fun _ hl => hl.elim⟩, fun _ => ⟨Nat.le_refl _, Nat.le_refl _⟩⟩
  | done =>
    exact ⟨_, _, rfl, ⟨trivial, hpending, h.left, h.resting, htold⟩,
      fun _ => ⟨Nat.le_refl _, Nat.le_refl _⟩⟩

/-- Before the waker is taken the reader cannot tell how far the completion is. -/
theorem before (h : Listens reader x rank) {rank' : Nat} (hrank : rank < 6) (hrank' : rank' < 6) :
    Listens reader x rank' where
  calm := h.calm
  pending := by rw [h.pending, decide_eq_true hrank, decide_eq_true hrank']
  left := fun hl => absurd (h.left hl) (by omega)
  resting := h.resting
  told := fun h7 => absurd h7 (by omega)

/-- **A step of the completion** leaves the reader what it relies on. -/
theorem completed {here next : Settling} (h : Listens reader x here.rank)
    (hnext : here.Follows next) : Listens reader (here.touch x) next.rank := by
  rcases hnext with hrank | ⟨rfl, rfl⟩ | ⟨rfl, rfl⟩
  · rw [hrank]
    cases here with
    | take =>
      exact ⟨h.calm, rfl, fun _ => Nat.le_refl _, h.resting, fun h7 => absurd h7 (by decide)⟩
    | wake =>
      refine ⟨?_, h.pending, fun hl => Nat.le_succ_of_le (h.left hl), fun _ => rfl, fun _ _ => rfl⟩
      unfold Reader.Calm
      split
      · exact Parker.noConfusion
      · exact Parker.noConfusion
      · exact Parker.noConfusion
      · trivial
    | done => cases next <;> cases hrank
    | _ => exact h.before (by decide) (by decide)
  · exact h.before (by decide) (by decide)
  · exact h

end Listens

/-! ## 6. Every interleaving -/

namespace Handshake

/-- **The invariant**: the state shows how far the completion is, the reader finds what it relies
on, and its task is woken by the last step of the completion and by no other. -/
structure Inv (r : RequestId) (q : Request) (i : SleeperId) (tags : Nat) (h : Handshake σ) :
    Prop where
  progress : Progress h.system r q tags h.settling.rank
  listens : Listens h.reader (h.system.sleepers.get i) h.settling.rank
  woken : h.wakes = if h.settling = .done then 1 else 0

variable {b : Backend σ} {r : RequestId} {q : Request} {i : SleeperId} {tags : Nat}
  {h : Handshake σ}

namespace Inv

/-- **A step of the reader** keeps the invariant. -/
theorem reader (hI : h.Inv r q i tags) (hit : Bool) :
    ∃ t, h.step b r q i (.reader hit) = .ok t ∧ t.Inv r q i tags ∧ t.settling = h.settling ∧
      (h.settling = .done → t.reader.due ≤ h.reader.due - 1 ∧
        t.relaxes + t.reader.owed ≤ h.relaxes + h.reader.owed) := by
  obtain ⟨reader, x, hstep, hlistens, hlast⟩ := hI.listens.step hit
  have hmove : h.reader.move hit i h.system =
      .ok (reader, { h.system with sleepers := h.system.sleepers.set i x }) := by
    have hrun : h.reader.move hit i h.system = (Run.check (h.reader.step hit
        (h.system.sleepers.get i)) >>= fun a => do
          Run.setSleeper i a.2
          return a.1) h.system := rfl
    rw [hrun, hstep]
    rfl
  refine ⟨_, step_reader hmove, ⟨?_, ?_, hI.woken⟩, rfl, fun hdone => ?_⟩
  · exact ⟨hI.progress.transfer, hI.progress.locked, hI.progress.decided, hI.progress.tag,
      hI.progress.request⟩
  · rw [Table.get_set_self]
    exact hlistens
  · obtain ⟨hdue, howed⟩ := hlast (by rw [hdone]; decide)
    refine ⟨hdue, ?_⟩
    dsimp only
    omega

/-- **A step of the completion** keeps the invariant. -/
theorem completion (htags : 0 < tags) (hsleeper : q.sleeper = some i) (hI : h.Inv r q i tags) :
    ∃ t, h.step b r q i .completion = .ok t ∧ t.Inv r q i tags ∧ t.reader = h.reader ∧
      t.relaxes = h.relaxes ∧ h.settling.Follows t.settling := by
  have hstep := h.settling.step_wp (b := b) htags hI.progress hsleeper fun hrank => by
    rw [hI.listens.pending, decide_eq_true hrank]
  unfold Run.wp at hstep
  split at hstep
  · rename_i settling system heq
    obtain ⟨hprogress, hfollows, htouch⟩ := hstep
    refine ⟨_, step_completion heq, ⟨hprogress, ?_, ?_⟩, rfl, rfl, hfollows⟩
    · rw [htouch]
      exact hI.listens.completed hfollows
    · dsimp only
      rw [hI.woken, hfollows.wakes]
  · exact hstep.elim

end Inv

/-- **Every interleaving keeps the invariant**, and after seven steps the completion is done. -/
theorem Inv.run (htags : 0 < tags) (hsleeper : q.sleeper = some i) (moves : List Move) :
    ∀ {h : Handshake σ}, h.Inv r q i tags → ∃ t, h.run b r q i moves = .ok t ∧
      t.Inv r q i tags ∧ min 7 (h.settling.rank + moves.count .completion) ≤ t.settling.rank := by
  induction moves with
  | nil => exact fun {h} hI => ⟨h, rfl, hI, Nat.min_le_right _ _⟩
  | cons m moves ih =>
    intro h hI
    cases m with
    | reader hit =>
      obtain ⟨u, hstep, hu, hsettling, -⟩ := hI.reader (b := b) hit
      obtain ⟨t, hrun, ht, hrank⟩ := ih hu
      refine ⟨t, (run_cons hstep).trans hrun, ht, ?_⟩
      rw [List.count_cons_of_ne Move.noConfusion, ← hsettling]
      exact hrank
    | completion =>
      obtain ⟨u, hstep, hu, -, -, hfollows⟩ := hI.completion (b := b) htags hsleeper
      obtain ⟨t, hrun, ht, hrank⟩ := ih hu
      refine ⟨t, (run_cons hstep).trans hrun, ht, ?_⟩
      have hon := hfollows.rank_le
      rw [List.count_cons_self]
      omega

/-- **Once the completion is over the reader leaves**, whatever its polls answer. -/
theorem Inv.leaves (htags : 0 < tags) (hsleeper : q.sleeper = some i) (moves : List Move) :
    ∀ {h : Handshake σ}, h.Inv r q i tags → h.settling = .done →
      ∃ t, h.run b r q i moves = .ok t ∧ t.Inv r q i tags ∧
        t.reader.due ≤ h.reader.due - moves.countP Move.ofReader ∧
        t.relaxes + t.reader.owed ≤ h.relaxes + h.reader.owed := by
  induction moves with
  | nil => exact fun {h} hI _ => ⟨h, rfl, hI, Nat.le_refl _, Nat.le_refl _⟩
  | cons m moves ih =>
    intro h hI hdone
    cases m with
    | reader hit =>
      obtain ⟨u, hstep, hu, hsettling, hlast⟩ := hI.reader (b := b) hit
      obtain ⟨hdue, howed⟩ := hlast hdone
      obtain ⟨t, hrun, ht, hdue', howed'⟩ := ih hu (hsettling.trans hdone)
      refine ⟨t, (run_cons hstep).trans hrun, ht, ?_, Nat.le_trans howed' howed⟩
      rw [List.countP_cons_of_pos rfl]
      omega
    | completion =>
      obtain ⟨u, hstep, hu, hreader, hrelaxes, hfollows⟩ := hI.completion (b := b) htags hsleeper
      obtain ⟨t, hrun, ht, hdue, howed⟩ := ih hu (hfollows.stay hdone)
      refine ⟨t, (run_cons hstep).trans hrun, ht, ?_, ?_⟩
      · rw [List.countP_cons_of_neg (by decide), ← hreader]
        exact hdue
      · rw [← hreader, ← hrelaxes]
        exact howed

end Handshake

/-! ## 7. A read that is waited for -/

/-- **Request `r` is a read that a reader waits for**: it can be finished, and sleeper `i` is as the
reader has made it. -/
structure Awaited (s : System σ) (r : RequestId) (q : Request) (i : SleeperId) : Prop where
  request : s.requests.get r = some q
  ready : Ready s q
  direction : q.direction = .read
  sleeper : q.sleeper = some i
  fresh : s.sleepers.get i = {}

variable {b : Backend σ} {s : System σ} {r : RequestId} {q : Request} {i : SleeperId}

/-- A read that its caller waits for is awaited from the moment it is handed over. -/
theorem issue_awaited {post : UInt64 → System σ → Prop} {stop : Fault → Prop}
    (hdirection : q.direction = .read) (hending : q.ending = .read)
    (hheld : (s.pages.get q.page).Held) (htag : 0 < (s.devices.get q.device).inflight)
    (hpost : ∀ s', Awaited s' s.requests.fresh (q.awaitedBy s.sleepers.fresh) s.sleepers.fresh →
      (submit b s.requests.fresh (q.awaitedBy s.sleepers.fresh)).wp post stop s') :
    (do readRequest.issue b q.page (q.awaitedBy (← Run.addSleeper)) : Run σ UInt64).wp
      post stop s := by
  obtain ⟨hlocked, hidle⟩ := hheld
  rw [Run.wp_bind, Run.wp_addSleeper]
  refine issue_wp hidle fun w _ => hpost _ ?_
  refine ⟨Table.get_set_self _ _ _, ⟨?_, ?_, fun _ => ?_, htag⟩, hdirection, rfl,
    Table.get_set_self _ _ _⟩
  · exact hending.trans (by rw [Request.awaitedBy, hdirection]; rfl)
  · rw [Request.awaitedBy, hdirection, Table.get_set_self]
    rfl
  · rw [Request.awaitedBy, Table.get_set_self]
    exact hlocked

theorem Awaited.inv (h : Awaited s r q i) (status : Status) :
    Handshake.Inv r { q with status } i (s.devices.get q.device).inflight { system := s } := by
  have htransfer := h.ready.transfer
  rw [h.direction] at htransfer
  refine ⟨⟨htransfer, h.ready.locked h.direction, nofun, rfl, nofun⟩, ?_, rfl⟩
  rw [h.fresh]
  exact ⟨trivial, rfl, nofun, nofun, nofun⟩

/-- **A reader leaves its wait only when its read is settled, is woken exactly once, and does not
stay**, however its steps and those of the completion are interleaved and whatever its polls
answer.  In particular neither side faults. -/
theorem reader_leaves_settled_and_woken_once (h : Awaited s r q i) (status : Status)
    (moves : List Move) :
    ∃ t, Handshake.run b r { q with status } i { system := s } moves = .ok t ∧
      (t.reader.point = .leave ∨ t.reader.point = .done →
        (t.system.sleepers.get i).waiter.isPending = false ∧
        (t.system.pages.get q.page).flags.locked = false ∧
        (t.system.pages.get q.page).transfer = .idle ∧
        (t.system.pages.get q.page).flags.uptodate = !(t.system.pages.get q.page).flags.error ∧
        t.system.requests.get r = none ∧
        (t.system.devices.get q.device).inflight + 1 = (s.devices.get q.device).inflight) ∧
      (t.wakes = if t.settling = .done then 1 else 0) ∧
      (7 ≤ moves.count .completion → t.settling = .done) ∧
      (t.settling = .done → ∀ more, 6 ≤ more.countP Move.ofReader →
        ∃ u, Handshake.run b r { q with status } i t more = .ok u ∧ u.reader.point = .done ∧
          (u.system.sleepers.get i).word = .running ∧ u.relaxes ≤ t.relaxes + 1) := by
  obtain ⟨t, hrun, hI, hrank⟩ := Handshake.Inv.run (b := b) (q := { q with status })
    h.ready.tag h.sleeper moves (h.inv status)
  refine ⟨t, hrun, fun hleft => ?_, hI.woken, fun hcount => ?_, fun hdone more hmore => ?_⟩
  · have hrank := hI.listens.left hleft
    have hprogress := hI.progress
    refine ⟨?_, ?_, ?_, hprogress.decided (by omega), hprogress.request (by omega), ?_⟩
    · rw [hI.listens.pending, decide_eq_false (by omega)]
    · exact hprogress.locked.trans (decide_eq_false (by omega))
    · exact hprogress.transfer.trans (if_neg (by omega))
    · have htag := hprogress.tag.trans (if_neg (by omega))
      have hpos := h.ready.tag
      dsimp only at htag
      omega
  · exact Settling.eq_done_of_rank (by omega)
  · obtain ⟨u, hrun, hu, hdue, howed⟩ := Handshake.Inv.leaves (b := b) (q := { q with status })
      h.ready.tag h.sleeper more hI hdone
    have hdone : u.reader.point = .done := Reader.done_of_due (by
      have := t.reader.due_le
      omega)
    refine ⟨u, hrun, hdone, hu.listens.resting hdone, ?_⟩
    have := t.reader.owed_le
    omega

/-- The request for slot 1 of a disk in memory. -/
def ramRead : Request :=
  { direction := .read, sector := 8, page := 0, device := 0, area := ramArea, ending := .read,
    sleeper := some 0 }

/-- Page 0 is being read, and a reader waits for it. -/
def ramAwaited : System RamDisk :=
  let s := ramTaken true (.device 0)
  { s with
    pages := s.pages.set 0 { s.pages.get 0 with transfer := .reading }
    devices := s.devices.set 0 { s.devices.get 0 with inflight := 1 }
    requests := s.requests.set 0 (some ramRead)
    sleepers := s.sleepers.set 0 {} }

/-- A read that is finished between the reader's look at its waker and the answer of its poll. -/
theorem settled_inside_a_poll :
    Awaited ramAwaited 0 ramRead 0 ∧
      ∃ t u, Handshake.run (ramDisk true) 0 { ramRead with status := .ok () } 0
          { system := ramAwaited }
          ([.reader false, .reader false] ++ List.replicate 7 .completion) = .ok t ∧
        t.wakes = 1 ∧
        Handshake.run (ramDisk true) 0 { ramRead with status := .ok () } 0 t
          (List.replicate 6 (.reader false)) = .ok u ∧
        u.reader.point = .done ∧ (u.system.sleepers.get 0).word = .running := by
  have h : Awaited ramAwaited 0 ramRead 0 :=
    ⟨rfl, ⟨rfl, rfl, fun _ => rfl, by decide⟩, rfl, rfl, rfl⟩
  obtain ⟨t, hrun, -, hwakes, hover, hleaves⟩ :=
    reader_leaves_settled_and_woken_once (b := ramDisk true) h (.ok ())
      ([.reader false, .reader false] ++ List.replicate 7 .completion)
  have hdone : t.settling = .done := hover (by decide)
  obtain ⟨u, hrun', hpoint, hword, -⟩ :=
    hleaves hdone (List.replicate 6 (.reader false)) (by decide)
  refine ⟨h, t, u, hrun, ?_, hrun', hpoint, hword⟩
  rw [hwakes, if_pos hdone]

end PageSwap
