/-
# Sleeping and being woken

The owner of a parker word goes through cycles.  It announces that it may sleep, and then it parks,
parks for a limited number of relaxes, or goes on without sleeping.  Others wake it whenever they
like: before it has parked, between two looks, behind its last look, or in a later cycle.  Each of
them, and each step of the owner, is one atomic operation on the word, in any order.

* `Parking.step` -- one atomic step of the owner, or of somebody who wakes it.
* `Parking.At`, `Parking.Inv` -- what the word and the counts are at each point of a cycle.
* `no_wakeup_is_lost` -- what the owner and those who wake it are told, in every order of steps.
-/
import PageSwap.Parker

namespace PageSwap

/-! ## 1. An owner, and those who wake it -/

/-- Where the owner of a word is. -/
inductive Owner
  /-- Between two cycles, if the last one went without a sleep. -/
  | idle
  /-- It has announced that it may sleep. -/
  | announced
  /-- It parks, for at most `limit` relaxes if there is a limit. -/
  | parked (limit : Option Nat) (here : Sleep)
  /-- It is back from a park, and says whether it has been woken. -/
  | back (limit : Option Nat) (woken : Bool)
  deriving DecidableEq, Inhabited

/-- It has announced that it may sleep, and is not back yet. -/
def Owner.away : Owner → Bool
  | .announced | .parked _ _ => true
  | .idle | .back _ _ => false

/-- Where a park is after one of its steps. -/
def Owner.ofSleep (limit : Option Nat) : Sleep → Owner
  | .awake woken => .back limit woken
  | here => .parked limit here

/-- A word with its owner, and what has happened since the last announcement. -/
structure Parking where
  word : Parker := .running
  owner : Owner := .idle
  /-- Wakeups until the owner was back. -/
  wakeups : Nat := 0
  /-- Wakeups that were told the owner slept or was about to. -/
  heard : Nat := 0
  /-- Steps of the park, and the relaxes among them. -/
  steps : Nat := 0
  relaxes : Nat := 0
  /-- Those behind the first wakeup. -/
  lateSteps : Nat := 0
  lateRelaxes : Nat := 0
  deriving DecidableEq, Inhabited

namespace Parking

/-- What may come next.  An act of the owner that does not come next changes nothing. -/
inductive Act
  /-- The owner announces that it may sleep. -/
  | announce
  /-- It goes on without sleeping. -/
  | goOn
  /-- It parks, for at most `limit` relaxes if there is a limit. -/
  | park (limit : Option Nat)
  /-- The next step of its park. -/
  | next
  /-- Somebody wakes it. -/
  | wake
  deriving DecidableEq

/-- A step that relaxes. -/
def relaxing : Sleep → Bool
  | .relax _ => true
  | _ => false

/-- A step of the park has been made, from `here` to `there`. -/
def advance (s : Parking) (limit : Option Nat) (here there : Sleep) (word : Parker) : Parking :=
  let relaxes := (relaxing here).toNat
  let late := min 1 s.wakeups
  { s with
    word, owner := .ofSleep limit there, steps := s.steps + 1, relaxes := s.relaxes + relaxes
    lateSteps := s.lateSteps + late, lateRelaxes := s.lateRelaxes + late * relaxes }

/-- One step. -/
def step (s : Parking) : Act → Except Fault Parking
  | .announce =>
    if s.owner.away then .ok s else .ok { word := s.word.prepare, owner := .announced }
  | .goOn =>
    match s.owner with
    | .announced => .ok { s with word := s.word.setRunning, owner := .idle }
    | _ => .ok s
  | .park limit =>
    match s.owner with
    | .announced => .ok { s with owner := .parked limit (.start limit) }
    | _ => .ok s
  | .next =>
    match s.owner with
    | .parked limit here => do
      let (there, word) ← here.step s.word
      return s.advance limit here there word
    | _ => .ok s
  | .wake =>
    let (heard, word) := s.word.unpark
    .ok { s with
      word, heard := s.heard + heard.toNat, wakeups := s.wakeups + s.owner.away.toNat }

/-- Steps in this order. -/
def run (s : Parking) (acts : List Act) : Except Fault Parking := acts.foldlM step s

/-! ## 2. What holds at each point -/

/-- The word of an owner that is away: `quiet` until it is woken. -/
def wordOf (s : Parking) (quiet : Parker) : Parker := if s.wakeups = 0 then quiet else .running

/-- **What holds at each point of a park.**  The relaxes made and those left are its limit, and once
the owner has been woken it looks or gives up before it relaxes again. -/
def At (s : Parking) (limit : Option Nat) : Sleep → Prop
  | .start left => left = limit ∧ s.word = s.wordOf .parking ∧ s.steps = 0 ∧ s.relaxes = 0 ∧
      s.lateSteps = 0 ∧ s.lateRelaxes = 0
  | .look left => left.map (· + s.relaxes) = limit ∧ left ≠ some 0 ∧ s.word = s.wordOf .parked ∧
      s.steps = 2 * s.relaxes + 1 ∧ s.lateSteps ≤ 1 ∧ s.lateRelaxes ≤ 1
  | .relax left => left.map (· + s.relaxes) = limit ∧ left ≠ some 0 ∧ s.word = s.wordOf .parked ∧
      s.steps = 2 * s.relaxes + 2 ∧ s.lateSteps = 0 ∧ s.lateRelaxes = 0
  | .giveUp => limit = some s.relaxes ∧ s.word = s.wordOf .parked ∧
      s.steps = 2 * s.relaxes + 1 ∧ s.lateSteps ≤ 1 ∧ s.lateRelaxes ≤ 1
  | .awake _ => False

/-- What a park says when it is over. -/
structure Over (s : Parking) (limit : Option Nat) (woken : Bool) : Prop where
  told : woken = true ↔ 0 < s.wakeups
  unlimited : limit = none → woken = true
  within : ∀ n, limit = some n → s.relaxes ≤ n
  exhausted : ∀ n, limit = some n → woken = false → s.relaxes = n

/-- **What holds at each point of a cycle.** -/
structure Inv (s : Parking) : Prop where
  heard : s.heard = min 1 s.wakeups
  early : s.wakeups = 0 → s.lateSteps = 0 ∧ s.lateRelaxes = 0
  late : s.lateRelaxes ≤ 1
  point : match s.owner with
    | .idle => s.word = .running
    | .announced => s.word = s.wordOf .parking ∧ s.steps = 0 ∧ s.relaxes = 0 ∧ s.lateSteps = 0 ∧
        s.lateRelaxes = 0
    | .parked limit here => s.At limit here
    | .back limit woken => s.word = .running ∧ s.Over limit woken

variable {s : Parking} {limit left : Option Nat} {here there : Sleep} {word : Parker}

@[simp] theorem wordOf_quiet {quiet : Parker} (h : s.wakeups = 0) : s.wordOf quiet = quiet :=
  if_pos h

@[simp] theorem wordOf_woken {quiet : Parker} (h : 0 < s.wakeups) : s.wordOf quiet = .running :=
  if_neg (Nat.ne_of_gt h)

/-! ## 3. A step of the park -/

theorem Inv.at (h : s.Inv) (howner : s.owner = .parked limit here) : s.At limit here := by
  have hpoint := h.point
  rwa [howner] at hpoint

/-- What a step of the park has to see to. -/
theorem Inv.advance (h : s.Inv)
    (hlate : s.lateRelaxes + min 1 s.wakeups * (relaxing here).toNat ≤ 1)
    (hpoint : match Owner.ofSleep limit there with
      | .parked limit there => (s.advance limit here there word).At limit there
      | .back limit woken => word = .running ∧ (s.advance limit here there word).Over limit woken
      | _ => False) :
    (s.advance limit here there word).Inv where
  heard := h.heard
  early := by
    intro hquiet
    have hquiet' : s.wakeups = 0 := hquiet
    obtain ⟨hsteps, hrelaxes⟩ := h.early hquiet'
    simp [Parking.advance, hquiet', hsteps, hrelaxes]
  late := hlate
  point := by
    cases there with
    | awake woken => exact hpoint
    | _ => exact hpoint

/-- A round of the park begins, with its limit left to make. -/
theorem Inv.round (h : s.Inv) (hnext : there = Sleep.round left)
    (hleft : left.map (· + (s.relaxes + (relaxing here).toNat)) = limit)
    (hword : word = s.wordOf .parked)
    (hsteps : s.steps + 1 = 2 * (s.relaxes + (relaxing here).toNat) + 1)
    (hlate : s.lateSteps = 0) (hlater : s.lateRelaxes = 0) :
    (s.advance limit here there word).Inv := by
  have hsteps' : s.lateSteps + min 1 s.wakeups ≤ 1 := by omega
  have hrelaxes' : s.lateRelaxes + min 1 s.wakeups * (relaxing here).toNat ≤ 1 := by
    have hone : (relaxing here).toNat ≤ 1 := Bool.toNat_le _
    have := Nat.mul_le_mul (Nat.min_le_left 1 s.wakeups) hone
    omega
  refine h.advance hrelaxes' ?_
  subst hnext
  match left with
  | none => exact ⟨hleft, nofun, hword, hsteps, hsteps', hrelaxes'⟩
  | some 0 =>
    rw [Option.map_some, Nat.zero_add] at hleft
    exact ⟨hleft.symm, hword, hsteps, hsteps', hrelaxes'⟩
  | some (n + 1) => exact ⟨hleft, by simp, hword, hsteps, hsteps', hrelaxes'⟩

/-- **A step of the park** does not fault. -/
theorem Inv.next (h : s.Inv) (howner : s.owner = .parked limit here) :
    ∃ s', s.step .next = .ok s' ∧ s'.Inv := by
  have hat := h.at howner
  simp only [step, howner]
  cases here with
  | start left =>
    obtain ⟨rfl, hword, hsteps, hrelaxes, hlate, hlater⟩ := hat
    rcases Nat.eq_zero_or_pos s.wakeups with hquiet | hwoken
    · simp only [Sleep.step, hword, wordOf_quiet hquiet, Parker.tryPark]
      exact ⟨_, rfl, h.round rfl (by simp [hrelaxes, relaxing]) (wordOf_quiet hquiet).symm
        (by simp [hsteps, hrelaxes, relaxing]) hlate hlater⟩
    · simp only [Sleep.step, hword, wordOf_woken hwoken, Parker.tryPark]
      refine ⟨_, rfl, h.advance (by simp [hlater, relaxing]) ⟨rfl, ?_⟩⟩
      exact ⟨by simpa [Parking.advance] using hwoken, fun _ => rfl,
        fun n _ => by simp [Parking.advance, relaxing, hrelaxes], nofun⟩
  | look left =>
    obtain ⟨hleft, hne, hword, hsteps, hlate, hlater⟩ := hat
    rcases Nat.eq_zero_or_pos s.wakeups with hquiet | hwoken
    · obtain ⟨hsteps0, hrelaxes0⟩ := h.early hquiet
      simp only [Sleep.step, hword, wordOf_quiet hquiet]
      refine ⟨_, rfl, h.advance (by simp [hrelaxes0, relaxing]) ?_⟩
      exact ⟨hleft, hne, (wordOf_quiet hquiet).symm, by simp [Parking.advance, relaxing, hsteps],
        by simp [Parking.advance, hsteps0, hquiet], by simp [Parking.advance, hrelaxes0, relaxing]⟩
    · simp only [Sleep.step, hword, wordOf_woken hwoken]
      refine ⟨_, rfl, h.advance (by simpa [relaxing] using hlater) ⟨rfl, ?_⟩⟩
      refine ⟨by simpa [Parking.advance] using hwoken, fun _ => rfl, fun n hn => ?_, nofun⟩
      rw [hn] at hleft
      obtain ⟨k, -, hk⟩ := Option.map_eq_some_iff.mp hleft
      simp only [Parking.advance, relaxing, Bool.toNat_false]
      omega
  | relax left =>
    obtain ⟨hleft, hne, hword, hsteps, hlate, hlater⟩ := hat
    refine ⟨_, rfl, h.round rfl ?_ hword ?_ hlate hlater⟩
    · -- one relax less is left, and one more has been made
      rw [Option.map_map, ← hleft]
      refine Option.map_congr fun k hk => ?_
      have hpos : k ≠ 0 := fun h0 => hne (h0 ▸ hk)
      simp only [Function.comp_apply, relaxing, Bool.toNat_true]
      omega
    · simp only [relaxing, Bool.toNat_true]
      omega
  | giveUp =>
    obtain ⟨rfl, hword, hsteps, hlate, hlater⟩ := hat
    have hlater' : s.lateRelaxes + min 1 s.wakeups * (relaxing .giveUp).toNat ≤ 1 := by
      simpa [relaxing] using hlater
    rcases Nat.eq_zero_or_pos s.wakeups with hquiet | hwoken
    · simp only [Sleep.step, hword, wordOf_quiet hquiet, Parker.giveUp]
      refine ⟨_, rfl, h.advance hlater' ⟨rfl, ?_⟩⟩
      exact ⟨by simp [Parking.advance, hquiet], nofun, by simp [Parking.advance, relaxing],
        by simp [Parking.advance, relaxing]⟩
    · simp only [Sleep.step, hword, wordOf_woken hwoken, Parker.giveUp]
      refine ⟨_, rfl, h.advance hlater' ⟨rfl, ?_⟩⟩
      exact ⟨by simpa [Parking.advance] using hwoken, nofun, by simp [Parking.advance, relaxing],
        nofun⟩
  | awake woken => exact hat.elim

/-! ## 4. Every order of steps -/

theorem inv_start : Inv {} where
  heard := rfl
  early := fun _ => ⟨rfl, rfl⟩
  late := Nat.zero_le _
  point := rfl

/-- **Only an owner that is away and has not been woken yet sleeps or is about to.** -/
theorem Inv.unpark_eq (h : s.Inv) :
    s.word.unpark = (s.owner.away && s.wakeups == 0, .running) := by
  have hpoint := h.point
  have hword : s.owner.away = true → s.word = s.wordOf .parking ∨ s.word = s.wordOf .parked := by
    intro haway
    cases howner : s.owner with
    | announced => rw [howner] at hpoint; exact .inl hpoint.1
    | parked limit here =>
      rw [howner] at hpoint
      cases here with
      | start left => exact .inl hpoint.2.1
      | look left => exact .inr hpoint.2.2.1
      | relax left => exact .inr hpoint.2.2.1
      | giveUp => exact .inr hpoint.2.1
      | awake woken => exact hpoint.elim
    | _ => simp [howner, Owner.away] at haway
  cases haway : s.owner.away with
  | false =>
    have hrunning : s.word = .running := by
      cases howner : s.owner with
      | idle => rwa [howner] at hpoint
      | back limit woken => rw [howner] at hpoint; exact hpoint.1
      | _ => simp [howner, Owner.away] at haway
    simp [hrunning, Parker.unpark]
  | true =>
    rcases Nat.eq_zero_or_pos s.wakeups with hquiet | hwoken
    · rcases hword haway with hw | hw
      all_goals simp [hw, hquiet, Parker.unpark]
    · have hne : s.wakeups ≠ 0 := Nat.ne_of_gt hwoken
      rcases hword haway with hw | hw
      all_goals simp [hw, wordOf_woken hwoken, hne, Parker.unpark]

/-- **A wakeup** is heard if it is the first one of the cycle. -/
theorem Inv.wake (h : s.Inv) : ∃ s', s.step .wake = .ok s' ∧ s'.Inv := by
  have hpoint := h.point
  have hheard := h.heard
  simp only [Parking.step, h.unpark_eq]
  refine ⟨_, rfl, ?_, ?_, h.late, ?_⟩
  · cases s.owner.away with
    | false => simpa using hheard
    | true =>
      rcases Nat.eq_zero_or_pos s.wakeups with hquiet | hwoken
      · simp [hheard, hquiet]
      · have hne : s.wakeups ≠ 0 := Nat.ne_of_gt hwoken
        simp only [beq_eq_false_iff_ne.mpr hne, Bool.and_false, Bool.toNat_false, Bool.toNat_true]
        omega
  · intro hquiet
    exact h.early (by dsimp only at hquiet; omega)
  · -- where the owner is away, its word is running now
    cases howner : s.owner with
    | idle => rfl
    | announced =>
      rw [howner] at hpoint
      exact ⟨(wordOf_woken (Nat.succ_pos _)).symm, hpoint.2⟩
    | parked limit here =>
      rw [howner] at hpoint
      cases here with
      | start left => exact ⟨hpoint.1, (wordOf_woken (Nat.succ_pos _)).symm, hpoint.2.2⟩
      | look left =>
        exact ⟨hpoint.1, hpoint.2.1, (wordOf_woken (Nat.succ_pos _)).symm, hpoint.2.2.2⟩
      | relax left =>
        exact ⟨hpoint.1, hpoint.2.1, (wordOf_woken (Nat.succ_pos _)).symm, hpoint.2.2.2⟩
      | giveUp => exact ⟨hpoint.1, (wordOf_woken (Nat.succ_pos _)).symm, hpoint.2.2⟩
      | awake woken => exact hpoint
    | back limit woken =>
      rw [howner] at hpoint
      exact ⟨rfl, hpoint.2.told, hpoint.2.unlimited, hpoint.2.within, hpoint.2.exhausted⟩

/-- **No step faults**, and each keeps what holds. -/
theorem Inv.step (h : s.Inv) (act : Act) : ∃ s', s.step act = .ok s' ∧ s'.Inv := by
  have hpoint := h.point
  cases act with
  | announce =>
    cases haway : s.owner.away with
    | true => exact ⟨s, by simp [Parking.step, haway], h⟩
    | false =>
      refine ⟨{ word := s.word.prepare, owner := .announced }, by simp [Parking.step, haway], ?_⟩
      exact ⟨rfl, fun _ => ⟨rfl, rfl⟩, Nat.zero_le _, rfl, rfl, rfl, rfl, rfl⟩
  | goOn =>
    cases howner : s.owner with
    | announced =>
      refine ⟨{ s with word := s.word.setRunning, owner := .idle }, by
        simp [Parking.step, howner], ?_⟩
      exact ⟨h.heard, h.early, h.late, rfl⟩
    | _ => exact ⟨s, by simp [Parking.step, howner], h⟩
  | park limit =>
    cases howner : s.owner with
    | announced =>
      rw [howner] at hpoint
      refine ⟨{ s with owner := .parked limit (.start limit) }, by
        simp [Parking.step, howner], ?_⟩
      exact ⟨h.heard, h.early, h.late, rfl, hpoint⟩
    | _ => exact ⟨s, by simp [Parking.step, howner], h⟩
  | next =>
    cases howner : s.owner with
    | parked limit here => exact h.next howner
    | _ => exact ⟨s, by simp [Parking.step, howner], h⟩
  | wake => exact h.wake

/-- What holds, holds after any steps. -/
theorem Inv.run (h : s.Inv) (acts : List Act) : ∃ s', s.run acts = .ok s' ∧ s'.Inv := by
  induction acts generalizing s with
  | nil => exact ⟨s, rfl, h⟩
  | cons act acts ih =>
    obtain ⟨s₁, hstep, h₁⟩ := h.step act
    obtain ⟨s₂, hrun, h₂⟩ := ih h₁
    refine ⟨s₂, ?_, h₂⟩
    rw [Parking.run, List.foldlM_cons, hstep]
    exact hrun

/-- **What the owner and those who wake it can rely on.** -/
structure Sound (s : Parking) : Prop where
  /-- Of the wakeups of a cycle one is told that the owner was there, if there are any. -/
  heard : s.heard = min 1 s.wakeups
  /-- A park comes back only if there has been a wakeup. -/
  park : ∀ woken, s.owner = .back none woken → 0 < s.wakeups
  /-- It makes at most one relax after a wakeup. -/
  late : s.lateRelaxes ≤ 1
  /-- A limited park leaves the word running. -/
  running : ∀ n woken, s.owner = .back (some n) woken → s.word = .running
  /-- It says it has been woken if there has been a wakeup, -/
  told : ∀ n woken, s.owner = .back (some n) woken → (woken = true ↔ 0 < s.wakeups)
  /-- makes no more relaxes than its limit, -/
  within : ∀ n woken, s.owner = .back (some n) woken → s.relaxes ≤ n
  /-- and makes them all if it has not been woken. -/
  exhausted : ∀ n, s.owner = .back (some n) false → s.relaxes = n
  /-- A limited park comes back after at most so many of its own steps, -/
  ends : ∀ n here, s.owner = .parked (some n) here → s.steps < 2 * n + 2
  /-- and every park comes back with the second step after a wakeup. -/
  wakes : ∀ limit here, s.owner = .parked limit here → s.lateSteps < 2

theorem Inv.over (h : s.Inv) {woken : Bool} (howner : s.owner = .back limit woken) :
    s.word = .running ∧ s.Over limit woken := by
  have hpoint := h.point
  rwa [howner] at hpoint

/-- A limited park is not over its limit. -/
theorem At.steps_lt {n : Nat} (h : s.At (some n) here) : s.steps < 2 * n + 2 := by
  have hleft : ∀ {left : Option Nat}, left.map (· + s.relaxes) = some n → left ≠ some 0 →
      s.relaxes < n := by
    intro left hleft hne
    obtain ⟨k, rfl, hk⟩ := Option.map_eq_some_iff.mp hleft
    have hpos : k ≠ 0 := fun h0 => hne (h0 ▸ rfl)
    omega
  cases here with
  | start left =>
    obtain ⟨-, -, hsteps, -⟩ := h
    omega
  | look left =>
    obtain ⟨hsum, hne, -, hsteps, -⟩ := h
    have := hleft hsum hne
    omega
  | relax left =>
    obtain ⟨hsum, hne, -, hsteps, -⟩ := h
    have := hleft hsum hne
    omega
  | giveUp =>
    obtain ⟨hlimit, -, hsteps, -⟩ := h
    injection hlimit with hlimit
    omega
  | awake woken => exact h.elim

theorem At.lateSteps_lt (h : s.At limit here) : s.lateSteps < 2 := by
  cases here with
  | start left =>
    obtain ⟨-, -, -, -, hlate, -⟩ := h
    omega
  | look left =>
    obtain ⟨-, -, -, -, hlate, -⟩ := h
    omega
  | relax left =>
    obtain ⟨-, -, -, -, hlate, -⟩ := h
    omega
  | giveUp =>
    obtain ⟨-, -, -, hlate, -⟩ := h
    omega
  | awake woken => exact h.elim

theorem Inv.sound (h : s.Inv) : s.Sound where
  heard := h.heard
  park := by
    intro woken howner
    obtain ⟨-, hover⟩ := h.over howner
    exact hover.told.mp (hover.unlimited rfl)
  late := h.late
  running := fun _ _ howner => (h.over howner).1
  told := fun _ _ howner => (h.over howner).2.told
  within := fun n _ howner => (h.over howner).2.within n rfl
  exhausted := fun n howner => (h.over howner).2.exhausted n rfl rfl
  ends := fun _ _ howner => (h.at howner).steps_lt
  wakes := fun _ _ howner => (h.at howner).lateSteps_lt

end Parking

/-- **No wakeup is lost.**  In every order of the owner's steps and of those who wake it, over any
number of cycles, no step faults, a park comes back exactly where it has to, and it says what has
happened. -/
theorem no_wakeup_is_lost (acts : List Parking.Act) :
    ∃ s, Parking.run {} acts = .ok s ∧ s.Sound := by
  obtain ⟨s, hrun, hinv⟩ := Parking.inv_start.run acts
  exact ⟨s, hrun, hinv.sound⟩

/-- A wakeup behind the last look is seen as the owner gives up. -/
example : Parking.run {} [.announce, .park (some 1), .next, .next, .next, .wake, .next] =
    .ok { owner := .back (some 1) true, wakeups := 1, heard := 1, steps := 4, relaxes := 1,
          lateSteps := 1 } := rfl

end PageSwap
