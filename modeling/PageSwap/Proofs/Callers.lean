/-
# Callers that share a rate limiter

A caller reads the clock first and comes to the limiter later.  The clock does not go back, but a
caller may be overtaken in between, and then the limiter is given an earlier time behind a later
one.  The distance of an earlier time is taken modulo the word, so it is a very long one: the
limiter takes it for the end of its window.

* `Callers.step` -- the clock moves, somebody reads it, somebody comes to the limiter.
* `openings_descend` -- how windows are opened in a span shorter than a window.
* `passed_in_one_span` -- how many pass in such a span, in every order of steps.
* `overtaken_caller_passes` -- more than a burst may.
-/
import PageSwap.Proofs.Bursts

namespace PageSwap

open RateLimit

/-! ## 1. The callers -/

/-- A limiter, the clock, and the callers between the two. -/
structure Callers where
  limiter : RateLimit
  clock : UInt64
  /-- The times read by callers that have not come to the limiter yet. -/
  waiting : List UInt64 := []
  /-- The times of those that have, in the order in which they came. -/
  entered : List UInt64 := []
  /-- How many of them the limiter let pass. -/
  passed : Nat := 0
  deriving DecidableEq

namespace Callers

/-- What may come next. -/
inductive Act
  /-- The clock moves on to this time, if it is later. -/
  | tick (time : UInt64)
  /-- A caller reads the clock. -/
  | read
  /-- One of the callers that have read it comes to the limiter. -/
  | enter (i : Nat)
  deriving DecidableEq

/-- One step. -/
def step (s : Callers) : Act → Except Fault Callers
  | .tick time => .ok { s with clock := max s.clock time }
  | .read => .ok { s with waiting := s.waiting ++ [s.clock] }
  | .enter i =>
    match s.waiting[i]? with
    | none => .ok s
    | some now => do
      let (verdict, limiter) ← s.limiter.check now
      return { s with
        limiter, waiting := s.waiting.eraseIdx i, entered := s.entered ++ [now]
        passed := s.passed + verdict.passes.toNat }

/-- Steps in this order. -/
def run (s : Callers) (acts : List Act) : Except Fault Callers := acts.foldlM step s

/-- Callers of a limiter that has not seen any. -/
def start (interval : UInt64) (burst : UInt32) (clock : UInt64) : Callers :=
  { limiter := fresh interval burst, clock }

/-- All times that have been read lie in one span of `ticks`. -/
def Within (s : Callers) (ticks : Nat) : Prop :=
  ∀ a ∈ s.entered ++ s.waiting, ∀ b ∈ s.entered ++ s.waiting, b.toNat < a.toNat + ticks

instance (s : Callers) (ticks : Nat) : Decidable (s.Within ticks) :=
  -- by the members of the list: the times that a word can hold are too many to go through
  @List.decidableBAll _ _ (fun _ => List.decidableBAll ..) _

/-! ## 2. What the steps keep -/

/-- The limiter has seen those that have come, and no others. -/
structure Inv (interval : UInt64) (burst : UInt32) (s : Callers) : Prop where
  checked : ∃ verdicts, (fresh interval burst).checks s.entered = .ok (verdicts, s.limiter) ∧
    verdicts.countP (·.passes) = s.passed

variable {interval clock : UInt64} {burst : UInt32} {s s' : Callers}

theorem inv_start : Inv interval burst (start interval burst clock) where
  checked := ⟨[], rfl, rfl⟩

/-- A caller comes to the limiter. -/
theorem step_enter {i : Nat} {now : UInt64} {verdict : Verdict} {r : RateLimit}
    (hi : s.waiting[i]? = some now) (hcheck : s.limiter.check now = .ok (verdict, r)) :
    s.step (.enter i) = .ok { s with
      limiter := r, waiting := s.waiting.eraseIdx i, entered := s.entered ++ [now]
      passed := s.passed + verdict.passes.toNat } := by
  simp only [step, hi, hcheck]
  rfl

/-- **A step**: nobody else touches the limiter. -/
theorem Inv.step (h : s.Inv interval burst) {act : Act} (hstep : s.step act = .ok s') :
    s'.Inv interval burst := by
  obtain ⟨verdicts, hrun, hpassed⟩ := h.checked
  cases act with
  | tick time =>
    obtain rfl := Except.ok.inj hstep
    exact ⟨verdicts, hrun, hpassed⟩
  | read =>
    obtain rfl := Except.ok.inj hstep
    exact ⟨verdicts, hrun, hpassed⟩
  | enter i =>
    cases hi : s.waiting[i]? with
    | none =>
      simp only [Callers.step, hi] at hstep
      obtain rfl := Except.ok.inj hstep
      exact h
    | some now =>
      have hbind := hstep
      simp only [Callers.step, hi] at hbind
      obtain ⟨⟨verdict, r⟩, hcheck, -⟩ := exists_of_bind_ok hbind
      obtain rfl := Except.ok.inj ((step_enter hi hcheck).symm.trans hstep)
      refine ⟨verdicts ++ [verdict], ?_, ?_⟩
      · rw [checks_append_of_ok hrun, checks_cons_of_ok hcheck]
        rfl
      · rw [List.countP_append, hpassed, List.countP_singleton]
        cases verdict.passes with
        | true => rfl
        | false => rfl

theorem Inv.run {acts : List Act} (h : s.Inv interval burst) (hrun : s.run acts = .ok s') :
    s'.Inv interval burst := by
  induction acts generalizing s with
  | nil => exact Except.ok.inj hrun ▸ h
  | cons act acts ih =>
    rw [Callers.run, List.foldlM_cons] at hrun
    obtain ⟨s₁, hstep, hrun⟩ := exists_of_bind_ok hrun
    exact ih (h.step hstep) hrun

/-- A step does not fault as long as all that have come can be counted. -/
theorem Inv.step_ok (h : s.Inv interval burst) (hlen : s.entered.length + 1 < UInt32.size)
    (act : Act) : ∃ s', s.step act = .ok s' ∧ s'.entered.length ≤ s.entered.length + 1 := by
  cases act with
  | tick time => exact ⟨_, rfl, Nat.le_succ _⟩
  | read => exact ⟨_, rfl, Nat.le_succ _⟩
  | enter i =>
    cases hi : s.waiting[i]? with
    | none =>
      refine ⟨s, ?_, Nat.le_succ _⟩
      simp only [Callers.step, hi]
    | some now =>
      obtain ⟨verdicts, hrun, -⟩ := h.checked
      obtain ⟨all, r, hall⟩ := checks_ok interval burst
        (show (s.entered ++ [now]).length < UInt32.size by rwa [List.length_append])
      rw [checks_append_of_ok hrun] at hall
      obtain ⟨⟨later, r'⟩, hlater, -⟩ := exists_of_bind_ok hall
      obtain ⟨verdict, r₁, -, hcheck, -, -⟩ := checks_cons_eq_ok hlater
      exact ⟨_, step_enter hi hcheck, by rw [List.length_append]; rfl⟩

theorem Inv.run_ok {acts : List Act} (h : s.Inv interval burst)
    (hlen : s.entered.length + acts.length < UInt32.size) : ∃ s', s.run acts = .ok s' := by
  induction acts generalizing s with
  | nil => exact ⟨s, rfl⟩
  | cons act acts ih =>
    rw [List.length_cons] at hlen
    obtain ⟨s₁, hstep, hle⟩ := h.step_ok (by omega) act
    obtain ⟨s₂, hrun⟩ := ih (h.step hstep) (by omega)
    refine ⟨s₂, ?_⟩
    rw [Callers.run, List.foldlM_cons, hstep]
    exact hrun

end Callers

/-! ## 3. Windows in a short span -/

section

variable {interval : UInt64} {burst : UInt32} {first now : UInt64} {times : List UInt64}

/-- A later time of the span is inside the window, ... -/
theorem inside_of_le (hspan : now.toNat < first.toNat + interval.toNat) (hle : first ≤ now) :
    now - first < interval := by
  rw [UInt64.lt_iff_toNat_lt, UInt64.toNat_sub_of_le _ _ hle]
  rw [UInt64.le_iff_toNat_le] at hle
  omega

/-- ... and an earlier one is not, unless windows are longer than half a word. -/
theorem behind_of_lt (hspan : first.toNat < now.toNat + interval.toNat)
    (hhalf : interval.toNat ≤ 2 ^ 63) (hlt : now < first) : ¬ now - first < interval := by
  rw [UInt64.lt_iff_toNat_lt] at hlt ⊢
  rw [UInt64.toNat_sub]
  have := first.toNat_lt
  omega

theorem head?_openings (interval : UInt64) (times : List UInt64) :
    ((windows interval times).map (·.headD 0)).head? = times.head? := by
  cases times with
  | nil => rw [windows]; rfl
  | cons first times => rw [windows]; rfl

/-- **In a short span each window is opened by an earlier time than the window before.** -/
theorem openings_descend (hspan : ∀ a ∈ times, ∀ b ∈ times, b.toNat < a.toNat + interval.toNat) :
    ((windows interval times).map (·.headD 0)).Pairwise (· > ·) := by
  fun_induction windows interval times with
  | case1 => exact List.Pairwise.nil
  | case2 first times ih =>
    have hmem : ∀ now ∈ times.dropWhile (· - first < interval), now ∈ first :: times :=
      fun now hnow => List.mem_cons_of_mem _ (List.dropWhile_subset _ hnow)
    have hlater := ih fun a ha b hb => hspan a (hmem a ha) b (hmem b hb)
    have hnot := List.head?_dropWhile_not (· - first < interval) times
    rw [← head?_openings interval] at hnot
    have hhead := head?_openings interval (times.dropWhile (· - first < interval))
    refine List.pairwise_cons.mpr ⟨?_, hlater⟩
    generalize (windows interval (times.dropWhile (· - first < interval))).map (·.headD 0) =
      openings at hlater hnot hhead ⊢
    cases openings with
    | nil => exact fun _ h => absurd h List.not_mem_nil
    | cons now openings =>
      -- it is behind the window of `first`, and no later time of the span is
      have hnow : now < first := by
        have hin := hmem now (List.mem_of_mem_head? hhead.symm)
        by_contra hle
        exact of_decide_eq_false hnot
          (inside_of_le (hspan first List.mem_cons_self now hin) (UInt64.not_lt.mp hle))
      intro opening hopening
      rcases List.mem_cons.mp hopening with rfl | hopening
      · exact hnow
      · exact UInt64.lt_trans ((List.pairwise_cons.mp hlater).1 opening hopening) hnow

/-- In a short span nobody in a window has an earlier time than the one who opened it, unless
windows are longer than half a word. -/
theorem opening_le_of_mem (hhalf : interval.toNat ≤ 2 ^ 63)
    (hspan : ∀ a ∈ times, ∀ b ∈ times, b.toNat < a.toNat + interval.toNat) :
    ∀ window ∈ windows interval times, ∀ now ∈ window, window.headD 0 ≤ now := by
  fun_induction windows interval times with
  | case1 => exact fun _ h => absurd h List.not_mem_nil
  | case2 first times ih =>
    intro window hwindow
    rcases List.mem_cons.mp hwindow with rfl | hwindow
    · intro now hnow
      rcases List.mem_cons.mp hnow with rfl | hnow
      · exact UInt64.le_refl _
      · have hinside : now - first < interval := by simpa using List.mem_takeWhile_imp hnow
        have hin := List.mem_cons_of_mem first (List.takeWhile_subset _ hnow)
        by_contra hlt
        exact behind_of_lt (hspan now hin first List.mem_cons_self) hhalf (UInt64.not_le.mp hlt)
          hinside
    · exact ih (fun a ha b hb => hspan a (List.mem_cons_of_mem _ (List.dropWhile_subset _ ha)) b
        (List.mem_cons_of_mem _ (List.dropWhile_subset _ hb))) window hwindow

end

/-! ## 4. All orders of steps -/

/-- What comes of callers whose times lie in one span shorter than a window. -/
structure InOneSpan (interval : UInt64) (burst : UInt32) (s : Callers) : Prop where
  /-- Of each window the first `burst` pass. -/
  passed : s.passed = ((windows interval s.entered).map fun window =>
    min window.length burst.toNat).sum
  /-- A new window is opened by an earlier time than that of the window before, ... -/
  openings : ((windows interval s.entered).map (·.headD 0)).Pairwise (· > ·)
  /-- ... and by every earlier time, if windows are no longer than half a word. -/
  earliest : interval.toNat ≤ 2 ^ 63 →
    ∀ window ∈ windows interval s.entered, ∀ now ∈ window, window.headD 0 ≤ now
  /-- If the first caller to come has the earliest time, no more than `burst` pass. -/
  in_time : (∀ first ∈ s.entered.head?, ∀ now ∈ s.entered, first ≤ now) →
    s.passed ≤ burst.toNat

theorem Callers.Inv.inOneSpan {interval : UInt64} {burst : UInt32} {s : Callers}
    (h : s.Inv interval burst) (hspan : s.Within interval.toNat) : InOneSpan interval burst s := by
  have hentered : ∀ a ∈ s.entered, ∀ b ∈ s.entered, b.toNat < a.toNat + interval.toNat :=
    fun a ha b hb => hspan a (List.mem_append_left _ ha) b (List.mem_append_left _ hb)
  have hpassed : s.passed = ((windows interval s.entered).map fun window =>
      min window.length burst.toNat).sum := by
    obtain ⟨verdicts, hrun, hpassed⟩ := h.checked
    rw [checks_fresh] at hrun
    split at hrun
    · obtain ⟨rfl, -⟩ := Prod.mk.inj (Except.ok.inj hrun)
      rw [← hpassed, countP_toldAll]
    · exact absurd hrun nofun
  refine ⟨hpassed, openings_descend hentered, fun hhalf => opening_le_of_mem hhalf hentered,
    fun hfirst => ?_⟩
  rw [hpassed]
  cases htimes : s.entered with
  | nil =>
    rw [windows]
    exact Nat.zero_le _
  | cons first times =>
    rw [htimes] at hfirst hentered
    have hinside : ∀ now ∈ times, now - first < interval := fun now hnow =>
      inside_of_le (hentered first List.mem_cons_self now (List.mem_cons_of_mem _ hnow))
        (hfirst first rfl now (List.mem_cons_of_mem _ hnow))
    rw [windows_of_inside hinside, List.map_singleton, List.sum_singleton]
    exact Nat.min_le_right ..

/-- **How many callers pass in a span shorter than a window**, in every order of their steps.  A
burst passes for each window, and a new one is opened by a caller who comes with an earlier time
than the one who opened the last: if the first to come has the earliest time, there is only one. -/
theorem passed_in_one_span {interval : UInt64} {burst : UInt32} {clock : UInt64}
    (acts : List Callers.Act) :
    (acts.length < UInt32.size →
        ∃ s, (Callers.start interval burst clock).run acts = .ok s) ∧
      ∀ s, (Callers.start interval burst clock).run acts = .ok s → s.Within interval.toNat →
        InOneSpan interval burst s := by
  refine ⟨fun hlen => Callers.inv_start.run_ok ?_, fun s hrun hspan => ?_⟩
  · rwa [Callers.start, List.length_nil, Nat.zero_add]
  · exact (Callers.inv_start.run hrun).inOneSpan hspan

/-- Three callers, who come in the order in which they read the clock, and a fourth that has not
come yet. -/
def threeInTime : List Callers.Act :=
  [.read, .tick 11, .read, .enter 0, .tick 12, .read, .enter 0, .enter 0, .read]

theorem one_of_three_passes : threeInTime.length < UInt32.size ∧
    ∃ s, (Callers.start 100 1 10).run threeInTime = .ok s ∧ s.Within (100 : UInt64).toNat ∧
      s.entered = [10, 11, 12] ∧ InOneSpan 100 1 s ∧ s.passed ≤ (1 : UInt32).toNat := by
  have hlen : threeInTime.length < UInt32.size := by decide
  obtain ⟨hok, hspan⟩ := @passed_in_one_span 100 1 10 threeInTime
  obtain ⟨s, hrun⟩ := hok hlen
  have heval : ∃ s', (Callers.start 100 1 10).run threeInTime = .ok s' ∧
      s'.Within (100 : UInt64).toNat ∧ s'.entered = [10, 11, 12] := ⟨_, rfl, by decide, rfl⟩
  obtain ⟨s', hrun', hwithin, hentered⟩ := heval
  obtain rfl := Except.ok.inj (hrun.symm.trans hrun')
  have hin := hspan s hrun hwithin
  refine ⟨hlen, s, hrun, hwithin, hentered, hin, hin.in_time ?_⟩
  rw [hentered]
  simp

/-- **A caller that is overtaken passes as well.**  One caller reads 10 and another one 11, and the
second comes first: both pass, and the burst is one. -/
theorem overtaken_caller_passes : ∃ s,
    (Callers.start 100 1 10).run [.read, .tick 11, .read, .enter 1, .enter 0] = .ok s ∧
      s.Within (100 : UInt64).toNat ∧ s.entered = [11, 10] ∧ (1 : UInt32).toNat < s.passed :=
  ⟨_, rfl, by decide, rfl, by decide⟩

end PageSwap
