/-
# More events than a limiter can count

A limiter has two counters.  The one of the events that pass stops at the burst.  Nothing stops the
other one: it takes all events of a window that do not pass, as many as the clock lets come, and is
a word.

* `RateLimit.Flooded` -- a window has more events than can be counted.
* `check_eq_error_iff` -- when one event faults.
* `exists_of_checks_error` -- the first event that does.
* `length_le_of_count_le` -- how many events a window has, if few come in a tick.
* `faults_only_when_flooded` -- a limiter faults exactly if it is flooded.
* `flooded_while_the_clock_stands` -- a clock that stands still for too many events.
-/
import Mathlib.Algebra.Order.BigOperators.Group.Finset
import PageSwap.Proofs.Windows

namespace PageSwap

namespace RateLimit

variable {interval : UInt64} {burst : UInt32} {first now : UInt64} {r : RateLimit} {fault : Fault}
  {times : List UInt64}

/-! ## 1. One event -/

/-- An event at `now` cannot be counted.  It falls into the window that is open, those that pass
have passed, and the number of the others is the largest word. -/
structure Full (r : RateLimit) (now : UInt64) : Prop where
  inside : r.expired now = false
  passed : r.burst ≤ r.passed
  missed : r.missed.toNat + 1 = UInt32.size

theorem count_eq_error_iff : r.count = .error fault ↔
    fault = .overflow .add ∧ r.burst ≤ r.passed ∧ r.missed.toNat + 1 = UInt32.size := by
  have hword : r.missed.toNat < UInt32.size := r.missed.toNat_lt
  unfold count
  by_cases hpasses : r.passed < r.burst
  · rw [if_pos hpasses]
    exact ⟨nofun, fun h => absurd hpasses (UInt32.not_lt.mpr h.2.1)⟩
  · rw [if_neg hpasses]
    by_cases hroom : r.missed.toNat + 1 < UInt32.size
    · rw [if_pos hroom]
      exact ⟨nofun, fun h => absurd h.2.2 (Nat.ne_of_lt hroom)⟩
    · rw [if_neg hroom]
      refine ⟨fun h => ?_, fun h => h.1 ▸ rfl⟩
      injection h with h
      exact ⟨h.symm, UInt32.not_lt.mp hpasses, by omega⟩

/-- **One event faults** exactly if it cannot be counted. -/
theorem check_eq_error_iff :
    r.check now = .error fault ↔ fault = .overflow .add ∧ r.Full now := by
  have hcount : r.check now = .error fault ↔ (r.enter now).count = .error fault := by
    rw [check, bind_eq_error_iff, or_iff_left]
    rintro ⟨answer, -, h⟩
    cases h
  rw [hcount, count_eq_error_iff]
  refine and_congr_right fun _ => ?_
  cases hexpired : r.expired now with
  | true =>
    -- a window that has just been opened has counted nothing
    have hzero : (r.enter now).missed = 0 := by
      rw [enter, hexpired]
      rfl
    rw [hzero]
    refine ⟨fun h => absurd h.2 (by decide), fun h => ?_⟩
    exact absurd (h.inside.symm.trans hexpired) Bool.false_ne_true
  | false =>
    rw [enter, hexpired]
    exact ⟨fun h => ⟨hexpired, h.1, h.2⟩, fun h => ⟨h.passed, h.missed⟩⟩

/-! ## 2. The first event that faults -/

theorem exists_of_checks_error (h : r.checks times = .error fault) :
    ∃ earlier now later verdicts r', times = earlier ++ now :: later ∧
      r.checks earlier = .ok (verdicts, r') ∧ r'.check now = .error fault := by
  induction times generalizing r with
  | nil => exact absurd h nofun
  | cons now times ih =>
    rw [checks_cons, bind_eq_error_iff] at h
    rcases h with hcheck | ⟨⟨verdict, r₁⟩, hcheck, hlater⟩
    · exact ⟨[], now, times, [], r, rfl, rfl, hcheck⟩
    · have htimes : r₁.checks times = .error fault :=
        (bind_eq_error_iff.mp hlater).elim id nofun
      obtain ⟨earlier, now', later, verdicts, r', rfl, hearlier, hfault⟩ := ih htimes
      refine ⟨now :: earlier, now', later, verdict :: verdicts, r', rfl, ?_, hfault⟩
      rw [checks_cons_of_ok hcheck, hearlier]
      rfl

/-! ## 3. Windows with too many events -/

/-- **Some window has too many events**: those that pass, and one more than a word can count. -/
def Flooded (interval : UInt64) (burst : UInt32) (times : List UInt64) : Prop :=
  ∃ window ∈ windows interval times, burst.toNat + UInt32.size ≤ window.length

theorem not_flooded_iff : ¬ Flooded interval burst times ↔
    ∀ window ∈ windows interval times, lost burst window < UInt32.size := by
  rw [Flooded, not_exists]
  refine forall_congr' fun window => ?_
  rw [not_and]
  refine imp_congr_right fun _ => ?_
  have hpos : 0 < UInt32.size := by decide
  rw [lost]
  omega

/-- **A limiter that has not seen any events faults** exactly if it is flooded. -/
theorem checks_fresh_eq_error_iff : (fresh interval burst).checks times = .error fault ↔
    fault = .overflow .add ∧ Flooded interval burst times := by
  rw [checks_fresh]
  by_cases hroom : ∀ window ∈ windows interval times, lost burst window < UInt32.size
  · rw [if_pos hroom]
    exact ⟨nofun, fun h => absurd h.2 (not_flooded_iff.mpr hroom)⟩
  · rw [if_neg hroom]
    refine ⟨fun h => ?_, fun h => h.1 ▸ rfl⟩
    injection h with h
    exact ⟨h.symm, by_contra fun hnot => hroom (not_flooded_iff.mp hnot)⟩

theorem checksOn_eq_error_iff {c : Console} :
    r.checksOn c times = .error fault ↔ r.checks times = .error fault := by
  rw [checksOn_eq_bind, bind_eq_error_iff, or_iff_left]
  rintro ⟨answers, -, h⟩
  cases h

theorem checksOn_fresh_eq_error_iff {c : Console} :
    (fresh interval burst).checksOn c times = .error fault ↔
      fault = .overflow .add ∧ Flooded interval burst times :=
  checksOn_eq_error_iff.trans checks_fresh_eq_error_iff

theorem checksOn_fresh_ok (h : ¬ Flooded interval burst times) (c : Console) :
    ∃ answers, (fresh interval burst).checksOn c times = .ok answers := by
  cases hrun : (fresh interval burst).checksOn c times with
  | ok answers => exact ⟨answers, rfl⟩
  | error fault => exact absurd (checksOn_fresh_eq_error_iff.mp hrun).2 h

/-- Where a fresh limiter cannot count an event, a burst has passed and a word of events has not. -/
theorem Full.of_fresh {verdicts : List Verdict} (h : r.Full now)
    (hrun : (fresh interval burst).checks times = .ok (verdicts, r)) :
    r.passed = burst ∧ r.missed = 0xffffffff := by
  obtain ⟨hburst, hpassed, -⟩ := counters_of_checks hrun
  have hfull := UInt32.le_iff_toNat_le.mp (hburst ▸ h.passed)
  have hmissed := h.missed
  refine ⟨UInt32.toNat_inj.mp (by omega), UInt32.toNat_inj.mp ?_⟩
  exact Nat.succ.inj hmissed

/-! ## 4. How many events a window has -/

/-- **Few events in a tick are few in a window**, in whatever order they come. -/
theorem length_le_of_count_le {window : List UInt64} {m : Nat}
    (hinside : ∀ now ∈ window, now - first < interval)
    (hcount : ∀ now ∈ window, window.count now ≤ m) : window.length ≤ m * interval.toNat := by
  have hticks : window.toFinset.card ≤ interval.toNat := by
    rw [← Finset.card_range interval.toNat]
    refine Finset.card_le_card_of_injOn (fun now => (now - first).toNat) (fun now hnow => ?_) ?_
    · exact Finset.mem_range.mpr
        (UInt64.lt_iff_toNat_lt.mp (hinside now (List.mem_toFinset.mp hnow)))
    · exact fun a _ b _ h => (UInt64.sub_left_inj first).mp (UInt64.toNat_inj.mp h)
  calc window.length = ∑ now ∈ window.toFinset, window.count now :=
        (List.sum_toFinset_count_eq_length window).symm
    _ ≤ window.toFinset.card • m :=
        Finset.sum_le_card_nsmul _ _ _ fun now hnow => hcount now (List.mem_toFinset.mp hnow)
    _ ≤ interval.toNat * m := Nat.mul_le_mul_right m hticks
    _ = m * interval.toNat := Nat.mul_comm ..

/-- A limiter is not flooded as long as too few events come in one tick. -/
theorem not_flooded_of_count
    (h : ∀ now ∈ times, times.count now * interval.toNat < burst.toNat + UInt32.size) :
    ¬ Flooded interval burst times := by
  rintro ⟨window, hwindow, hlong⟩
  obtain ⟨first, rest, rfl, hrest⟩ := exists_of_mem_windows hwindow
  have hsub : (first :: rest).Sublist times := by
    rw [← windows_flatten interval times]
    exact List.sublist_flatten_of_mem hwindow
  have hroom : 1 < UInt32.size := by decide
  rcases Nat.eq_zero_or_pos interval.toNat with hzero | hpos
  · -- no event lies less than no tick behind the first one
    cases rest with
    | nil =>
      rw [List.length_singleton] at hlong
      omega
    | cons now rest =>
      have hlt := UInt64.lt_iff_toNat_lt.mp (hrest now List.mem_cons_self)
      omega
  · have hinside : ∀ now ∈ first :: rest, now - first < interval := by
      refine List.forall_mem_cons.mpr ⟨?_, hrest⟩
      rw [UInt64.sub_self]
      exact UInt64.lt_iff_toNat_lt.mpr hpos
    have hcount : ∀ now ∈ first :: rest,
        (first :: rest).count now ≤ (burst.toNat + UInt32.size - 1) / interval.toNat := by
      intro now hnow
      have hle := Nat.mul_le_mul_right interval.toNat (hsub.count_le now)
      have hlt := h now (hsub.subset hnow)
      rw [Nat.le_div_iff_mul_le hpos]
      omega
    have hlength := length_le_of_count_le hinside hcount
    have hdiv := Nat.div_mul_le_self (burst.toNat + UInt32.size - 1) interval.toNat
    omega

/-- A clock that stands still. -/
theorem flooded_replicate_iff (hinterval : 0 < interval) {n : Nat} :
    Flooded interval burst (List.replicate n now) ↔ burst.toNat + UInt32.size ≤ n := by
  cases n with
  | zero =>
    have hpos : 0 < UInt32.size := by decide
    rw [List.replicate_zero, Flooded, windows]
    simp
  | succ n =>
    have hinside : ∀ t ∈ List.replicate n now, t - now < interval := by
      intro t ht
      rwa [List.eq_of_mem_replicate ht, UInt64.sub_self]
    rw [List.replicate_succ, Flooded, windows_of_inside hinside]
    simp

end RateLimit

open RateLimit

/-- **A limiter faults only when it is flooded.**  For any times, and in any order, the one thing
that can go wrong is that a window has more events than those that pass and a word of others.  Then
the first event beyond faults, and the burst has passed by then.  As long as nothing goes wrong, the
counters are those of the last window.  No limiter is flooded if the events of one tick, as often as
a window has ticks, are fewer. -/
theorem faults_only_when_flooded (interval : UInt64) (burst : UInt32) (c : Console)
    (times : List UInt64) :
    (∀ fault, (fresh interval burst).checksOn c times = .error fault ↔
      fault = .overflow .add ∧ Flooded interval burst times) ∧
    (∀ fault, (fresh interval burst).checksOn c times = .error fault →
      ∃ earlier now later passes r c', times = earlier ++ now :: later ∧
        (fresh interval burst).checksOn c earlier = .ok (passes, r, c') ∧
        r.expired now = false ∧ r.passed = burst ∧ r.missed = 0xffffffff) ∧
    (∀ passes r c', (fresh interval burst).checksOn c times = .ok (passes, r, c') →
      r.passed.toNat = min ((windows interval times).getLastD []).length burst.toNat ∧
      r.missed.toNat = ((windows interval times).getLastD []).length - burst.toNat) ∧
    ((∀ now ∈ times, times.count now * interval.toNat < burst.toNat + UInt32.size) →
      ∃ answers, (fresh interval burst).checksOn c times = .ok answers) := by
  refine ⟨fun fault => checksOn_fresh_eq_error_iff, fun fault h => ?_, fun passes r c' h => ?_,
    fun hcount => checksOn_fresh_ok (not_flooded_of_count hcount) c⟩
  · obtain ⟨earlier, now, later, verdicts, r, htimes, hrun, hfault⟩ :=
      exists_of_checks_error (checksOn_eq_error_iff.mp h)
    obtain ⟨-, hfull⟩ := check_eq_error_iff.mp hfault
    exact ⟨earlier, now, later, _, r, _, htimes, checksOn_eq hrun c, hfull.inside,
      hfull.of_fresh hrun⟩
  · rw [checksOn_eq_bind] at h
    obtain ⟨⟨verdicts, r'⟩, hrun, h⟩ := exists_of_bind_ok h
    injection h with h
    obtain ⟨-, rfl, -⟩ := h
    exact (counters_of_checks hrun).2

/-- **A clock that stands still floods a limiter.**  One event fewer does not. -/
theorem flooded_while_the_clock_stands :
    (fresh 5000 10).checksOn {} (List.replicate (10 + UInt32.size) 0) =
        .error (.overflow .add) ∧
      ∃ answers, (fresh 5000 10).checksOn {} (List.replicate (9 + UInt32.size) 0) =
        .ok answers := by
  have hinterval : (0 : UInt64) < 5000 := by decide
  have hburst : (10 : UInt32).toNat = 10 := rfl
  refine ⟨checksOn_fresh_eq_error_iff.mpr ⟨rfl, ?_⟩, checksOn_fresh_ok ?_ {}⟩
  · rw [flooded_replicate_iff hinterval, hburst]
  · rw [flooded_replicate_iff hinterval, hburst]
    omega

end PageSwap
