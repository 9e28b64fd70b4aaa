/-
# How many events pass in a span of time

A span that is shorter than a window meets two windows at most, wherever it starts, so no more than
two bursts pass in it.  The limiter sees a time as a word, which may begin anew from 0, and takes
distances of words.

* `inside_of_span` -- in such a span they are the distances of the times themselves.
* `countP_two_windows` -- events that meet two windows.
* `at_most_two_bursts` -- at most two bursts pass in a span shorter than a window.
-/
import PageSwap.Proofs.Windows

namespace PageSwap

namespace RateLimit

variable {interval : UInt64} {burst : UInt32} {first : UInt64} {n : Nat}

/-! ## 1. Words and times -/

/-- The distance of two words is that of their times, if these lie less than a word apart. -/
theorem toNat_ofNat_sub_ofNat {a b : Nat} (hle : a ≤ b) (hlt : b < a + UInt64.size) :
    (UInt64.ofNat b - UInt64.ofNat a).toNat = b - a := by
  rw [UInt64.toNat_sub, UInt64.toNat_ofNat', UInt64.toNat_ofNat']
  simp only [UInt64.size] at hlt
  omega

/-- In a span shorter than a window no time lies an interval behind an earlier one. -/
theorem inside_of_span {span : List Nat} (hmono : span.Pairwise (· ≤ ·))
    (hspan : ∀ a ∈ span, ∀ b ∈ span, b < a + interval.toNat) {earlier later : List UInt64}
    {now : UInt64} (hsplit : span.map UInt64.ofNat = earlier ++ now :: later) :
    ∀ t ∈ later, t - now < interval := by
  obtain ⟨xs, ys, rfl, -, hys⟩ := List.map_eq_append_iff.mp hsplit
  obtain ⟨a, zs, rfl, rfl, rfl⟩ := List.map_eq_cons_iff.mp hys
  intro t ht
  obtain ⟨b, hb, rfl⟩ := List.mem_map.mp ht
  have hle : a ≤ b := (List.pairwise_cons.mp (List.pairwise_append.mp hmono).2.1).1 b hb
  have hlt : b < a + interval.toNat :=
    hspan a (List.mem_append_right _ List.mem_cons_self) b
      (List.mem_append_right _ (List.mem_cons_of_mem _ hb))
  have hword : b < a + UInt64.size :=
    Nat.lt_of_lt_of_le hlt (Nat.add_le_add_left interval.toNat_lt.le a)
  rw [UInt64.lt_iff_toNat_lt, toNat_ofNat_sub_ofNat hle hword]
  omega

/-! ## 2. Events of one window -/

theorem countP_range' (b : Nat) : ∀ n k : Nat,
    min n b + (List.range' n k).countP (· < b) = min (n + k) b
  | n, 0 => by simp
  | n, k + 1 => by
    have ih := countP_range' b (n + 1) k
    rw [List.range'_succ, List.countP_cons]
    by_cases hn : n < b
    · simp only [hn, decide_true, if_true]
      omega
    · simp only [hn, decide_false, Bool.false_eq_true, if_false]
      omega

/-- Of the events inside a window at most `burst` pass. -/
theorem countP_inside {times : List UInt64} {r : RateLimit} {verdicts : List Verdict}
    (hinside : ∀ now ∈ times, now - first < interval) (hn : n - burst.toNat < UInt32.size)
    (h : (during interval burst first n).checks times = .ok (verdicts, r)) :
    verdicts.countP (·.passes) ≤ burst.toNat := by
  rw [checks_inside hinside hn] at h
  split at h
  · obtain ⟨rfl, -⟩ := Prod.mk.inj (Except.ok.inj h)
    have hcount := countP_range' burst.toNat n times.length
    rw [List.countP_map]
    simp only [Function.comp_def]
    omega
  · exact absurd h nofun

/-- Of the events of a window at most `burst` pass. -/
theorem countP_told (before : Nat) (window : List UInt64) :
    (told burst before window).countP (·.passes) = min window.length burst.toNat := by
  have hcount := countP_range' burst.toNat 0 window.length
  rw [told, List.range_eq_range', List.countP_map]
  simp only [Function.comp_def]
  omega

theorem countP_toldAll (before : Nat) (ws : List (List UInt64)) :
    (toldAll burst before ws).countP (·.passes) =
      (ws.map fun window => min window.length burst.toNat).sum := by
  induction ws generalizing before with
  | nil => rfl
  | cons window later ih =>
    rw [toldAll, List.countP_append, countP_told, ih, List.map_cons, List.sum_cons]

/-- Of the events from the one that opens a window on at most `burst` pass. -/
theorem countP_opened {r r' : RateLimit} {before : Nat} {rest : List UInt64}
    {verdicts : List Verdict}
    (hfirst : r.check first =
      .ok (⟨0 < burst.toNat, UInt32.ofNat before⟩, during interval burst first 1))
    (hrest : ∀ now ∈ rest, now - first < interval)
    (h : r.checks (first :: rest) = .ok (verdicts, r')) :
    verdicts.countP (·.passes) ≤ burst.toNat := by
  rw [checks_window hfirst hrest] at h
  split at h
  · obtain ⟨rfl, -⟩ := Prod.mk.inj (Except.ok.inj h)
    rw [countP_told]
    exact Nat.min_le_right ..
  · exact absurd h nofun

/-! ## 3. Events of two windows -/

/-- **Events that meet two windows.**  Those behind the window lie within an interval of the first
one of them. -/
theorem countP_two_windows {times : List UInt64} {r : RateLimit} {verdicts : List Verdict}
    (hnext : ∀ earlier now later, times = earlier ++ now :: later →
      ∀ t ∈ later, t - now < interval)
    (hn : n - burst.toNat < UInt32.size)
    (h : (during interval burst first n).checks times = .ok (verdicts, r)) :
    verdicts.countP (·.passes) ≤ 2 * burst.toNat := by
  have hinside : ∀ now ∈ times.takeWhile (· - first < interval), now - first < interval :=
    fun now hnow => by simpa using List.mem_takeWhile_imp hnow
  have hnot := List.head?_dropWhile_not (· - first < interval) times
  have hsplit : times.takeWhile (· - first < interval) ++ times.dropWhile (· - first < interval) =
    times := List.takeWhile_append_dropWhile
  rw [← hsplit] at h
  obtain ⟨earlier, r₁, later, hearlier, hlater, rfl⟩ := checks_append_eq_ok h
  have hfirst := countP_inside hinside hn hearlier
  rw [List.countP_append]
  cases hbehind : times.dropWhile (· - first < interval) with
  | nil =>
    rw [hbehind] at hlater
    obtain ⟨rfl, -⟩ := Prod.mk.inj (Except.ok.inj hlater)
    rw [List.countP_nil]
    omega
  | cons now rest =>
    rw [hbehind] at hlater hnot hsplit
    rw [checks_inside hinside hn] at hearlier
    split at hearlier
    · obtain ⟨-, rfl⟩ := Prod.mk.inj (Except.ok.inj hearlier)
      have hopened := @check_behind interval burst first now
        (n + (times.takeWhile (· - first < interval)).length) (of_decide_eq_false hnot)
      have hsecond := countP_opened hopened (hnext _ now rest hsplit.symm) hlater
      omega
    · exact absurd hearlier nofun

/-- A limiter after some events is in a window, if there were any. -/
theorem checks_fresh_cases {times : List UInt64} {r : RateLimit} {verdicts : List Verdict}
    (h : (fresh interval burst).checks times = .ok (verdicts, r)) :
    r = fresh interval burst ∨
      ∃ first n, n - burst.toNat < UInt32.size ∧ r = during interval burst first n := by
  rw [checks_fresh] at h
  split at h
  case isFalse => exact absurd h nofun
  rename_i hroom
  obtain ⟨-, rfl⟩ := Prod.mk.inj (Except.ok.inj h)
  rcases List.eq_nil_or_concat' (windows interval times) with hnil | ⟨ws, window, hws⟩
  · exact Or.inl (by rw [hnil]; rfl)
  · have hwindow : window ∈ windows interval times := hws ▸ List.mem_concat_self
    exact Or.inr ⟨window.headD 0, window.length, hroom window hwindow, by
      rw [hws, afterAll_concat]⟩

end RateLimit

open RateLimit

/-- **At most two bursts pass in a span shorter than a window**, wherever it starts.  The times do
not go back; the words that the limiter is given may begin anew from 0. -/
theorem at_most_two_bursts {interval : UInt64} {burst : UInt32} {times : List Nat}
    (hmono : times.Pairwise (· ≤ ·)) (hlen : times.length < UInt32.size) :
    ∃ verdicts r, (fresh interval burst).checks (times.map UInt64.ofNat) = .ok (verdicts, r) ∧
      ∀ before span after, times = before ++ span ++ after →
        (∀ a ∈ span, ∀ b ∈ span, b < a + interval.toNat) →
        ((verdicts.drop before.length).take span.length).countP (·.passes) ≤ 2 * burst.toNat := by
  obtain ⟨verdicts, r, hrun⟩ := checks_ok interval burst
    (show (times.map UInt64.ofNat).length < UInt32.size by rwa [List.length_map])
  refine ⟨verdicts, r, hrun, fun before span after hsplit hspan => ?_⟩
  rw [hsplit, List.map_append, List.map_append, List.append_assoc] at hrun
  obtain ⟨v₁, r₁, later, hbefore, hlater, rfl⟩ := checks_append_eq_ok hrun
  obtain ⟨v₂, r₂, v₃, hduring, -, rfl⟩ := checks_append_eq_ok hlater
  have hlen₁ := length_checks hbefore
  have hlen₂ := length_checks hduring
  rw [List.length_map] at hlen₁ hlen₂
  rw [← hlen₁, List.drop_left, ← hlen₂, List.take_left]
  rw [hsplit, List.pairwise_append, List.pairwise_append] at hmono
  have hnext : ∀ earlier now later, span.map UInt64.ofNat = earlier ++ now :: later →
      ∀ t ∈ later, t - now < interval := fun _ _ _ => inside_of_span hmono.1.2.1 hspan
  -- the span opens the first window of all, or starts in the one that is open
  rcases checks_fresh_cases hbefore with rfl | ⟨first, n, hn, rfl⟩
  · cases hcons : span.map UInt64.ofNat with
    | nil =>
      rw [hcons] at hduring
      obtain ⟨rfl, -⟩ := Prod.mk.inj (Except.ok.inj hduring)
      exact Nat.zero_le _
    | cons first rest =>
      rw [hcons] at hduring
      have hle := countP_opened check_fresh (hnext [] first rest hcons) hduring
      omega
  · exact countP_two_windows hnext hn hduring

/-- Events around the time at which the word begins anew, ten ticks after the first one. -/
def timesAroundZero : List Nat := [0, 95, 96, 97, 100, 101, 102, 103].map (· + (UInt64.size - 10))

/-- With bursts of three, five events of a span of nine ticks pass. -/
theorem five_pass_around_zero :
    timesAroundZero.Pairwise (· ≤ ·) ∧ timesAroundZero.length < UInt32.size ∧
      ∃ verdicts r, (fresh 100 3).checks (timesAroundZero.map UInt64.ofNat) = .ok (verdicts, r) ∧
        verdicts.map (·.passes) = [true, true, true, false, true, true, true, false] ∧
        ((verdicts.drop 1).take 7).countP (·.passes) ≤ 2 * (3 : UInt32).toNat := by
  have hmono : timesAroundZero.Pairwise (· ≤ ·) := by decide
  have hlen : timesAroundZero.length < UInt32.size := by decide
  obtain ⟨verdicts, r, hrun, hspans⟩ :=
    @at_most_two_bursts 100 3 _ hmono hlen
  have heval : ∃ verdicts r, (fresh 100 3).checks (timesAroundZero.map UInt64.ofNat) =
      .ok (verdicts, r) ∧
      verdicts.map (·.passes) = [true, true, true, false, true, true, true, false] :=
    ⟨_, _, rfl, rfl⟩
  obtain ⟨verdicts', r', heval, hpasses⟩ := heval
  obtain ⟨rfl, rfl⟩ := Prod.mk.inj (Except.ok.inj (hrun.symm.trans heval))
  exact ⟨hmono, hlen, verdicts, r, hrun, hpasses,
    hspans (timesAroundZero.take 1) (timesAroundZero.drop 1) [] rfl (by decide)⟩

end PageSwap
