/-
# The books of the rate limiter

A limiter keeps four numbers for a window that is opened, counted in and closed by one and the same
call.  This file says what all calls together come to, for any times: they may go back, or past the
end of the word.

* `RateLimit.windows` -- the windows of a list of times.
* `RateLimit.toldAll` -- what the events of these windows learn.
* `check_inside`, `check_behind` -- what one event does inside a window, and behind it.
* `checks_fresh` -- what all events learn and leave, and when one of them faults.
* `every_event_is_booked` -- every event has passed, been reported or is still counted.
-/
import Mathlib.Algebra.Ring.Nat
import Mathlib.Data.List.Basic
import Mathlib.Data.List.TakeWhile
import PageSwap.RateLimit

namespace PageSwap

namespace RateLimit

/-! ## 1. Events in windows -/

/-- A limiter before its first event. -/
def fresh (interval : UInt64) (burst : UInt32) : RateLimit := { interval, burst }

/-- Events at these times, one after the other. -/
def checks (r : RateLimit) : List UInt64 → Except Fault (List Verdict × RateLimit)
  | [] => .ok ([], r)
  | now :: times => do
    let (verdict, r) ← r.check now
    let (verdicts, r) ← r.checks times
    return (verdict :: verdicts, r)

/-- Events at these times, with the lines about those suppressed. -/
def checksOn (r : RateLimit) (c : Console) :
    List UInt64 → Except Fault (List Bool × RateLimit × Console)
  | [] => .ok ([], r, c)
  | now :: times => do
    let (passes, r, c) ← r.checkOn (some now) c
    let (answers, r, c) ← r.checksOn c times
    return (passes :: answers, r, c)

/-- The times in windows.  A window is opened by its first event, and lasts until one comes
`interval` ticks or more behind that. -/
def windows (interval : UInt64) : List UInt64 → List (List UInt64)
  | [] => []
  | first :: times =>
    (first :: times.takeWhile (· - first < interval)) ::
      windows interval (times.dropWhile (· - first < interval))
termination_by times => times.length
decreasing_by exact Nat.lt_succ_of_le (List.length_dropWhile_le ..)

/-- Events of a window that do not pass. -/
def lost (burst : UInt32) (window : List UInt64) : Nat := window.length - burst.toNat

/-- What the events of a window learn, if `before` were suppressed in the window before it: the
first `burst` pass, and the first one learns of those suppressed. -/
def told (burst : UInt32) (before : Nat) (window : List UInt64) : List Verdict :=
  (List.range window.length).map fun i =>
    ⟨i < burst.toNat, if i = 0 then UInt32.ofNat before else 0⟩

/-- What the events of these windows learn. -/
def toldAll (burst : UInt32) (before : Nat) : List (List UInt64) → List Verdict
  | [] => []
  | window :: later => told burst before window ++ toldAll burst (lost burst window) later

/-- The limiter after `n` events of the window that was opened at `first`. -/
def during (interval : UInt64) (burst : UInt32) (first : UInt64) (n : Nat) : RateLimit where
  interval := interval
  burst := burst
  opened := some first
  passed := UInt32.ofNat (min n burst.toNat)
  missed := UInt32.ofNat (n - burst.toNat)

/-- The limiter `r` after these windows. -/
def afterAll (interval : UInt64) (burst : UInt32) (r : RateLimit) : List (List UInt64) → RateLimit
  | [] => r
  | window :: later =>
    afterAll interval burst (during interval burst (window.headD 0) window.length) later

variable {interval : UInt64} {burst : UInt32} {first now : UInt64} {n : Nat}

/-! ## 2. One event -/

theorem toNat_passed : (during interval burst first n).passed.toNat = min n burst.toNat :=
  UInt32.toNat_ofNat_of_lt' (Nat.lt_of_le_of_lt (Nat.min_le_right ..) burst.toNat_lt)

theorem passed_lt_iff : (during interval burst first n).passed < burst ↔ n < burst.toNat := by
  rw [UInt32.lt_iff_toNat_lt, toNat_passed]
  omega

/-- **One event is counted**, if the number of those suppressed fits a word. -/
theorem count_during (hn : n - burst.toNat < UInt32.size) :
    (during interval burst first n).count =
      if n + 1 - burst.toNat < UInt32.size then
        .ok (decide (n < burst.toNat), during interval burst first (n + 1))
      else .error (.overflow .add) := by
  have hmissed : (during interval burst first n).missed.toNat = n - burst.toNat :=
    UInt32.toNat_ofNat_of_lt' hn
  have hburst : (during interval burst first n).burst = burst := rfl
  unfold count
  rw [hburst, hmissed]
  by_cases hlt : n < burst.toNat
  · have hzero : n - burst.toNat = 0 := by omega
    have hzero' : n + 1 - burst.toNat = 0 := by omega
    have hmin : min n burst.toNat = n := by omega
    have hmin' : min (n + 1) burst.toNat = n + 1 := by omega
    rw [if_pos (passed_lt_iff.mpr hlt), if_pos (by rw [hzero']; decide)]
    simp only [during, hmin, hmin', hzero, hzero', hlt, decide_true, UInt32.ofNat_add]
    rfl
  · have hsucc : n + 1 - burst.toNat = n - burst.toNat + 1 := by omega
    have hmin : min n burst.toNat = burst.toNat := by omega
    have hmin' : min (n + 1) burst.toNat = burst.toNat := by omega
    rw [if_neg (passed_lt_iff.not.mpr hlt), hsucc]
    simp only [during, hmin, hmin', hsucc, hlt, decide_false, UInt32.ofNat_add]
    rfl

/-- What an event learns and leaves, once its window is known. -/
theorem check_of_enter {r : RateLimit} (henter : r.enter now = during interval burst first n)
    (hn : n - burst.toNat < UInt32.size) :
    r.check now =
      if n + 1 - burst.toNat < UInt32.size then
        .ok (⟨n < burst.toNat, if r.expired now then r.missed else 0⟩,
          during interval burst first (n + 1))
      else .error (.overflow .add) := by
  unfold check
  rw [henter, count_during hn]
  by_cases hroom : n + 1 - burst.toNat < UInt32.size
  · rw [if_pos hroom, if_pos hroom]
    rfl
  · rw [if_neg hroom, if_neg hroom]
    rfl

/-- The first event of all opens a window. -/
theorem check_fresh : (fresh interval burst).check now =
    .ok (⟨0 < burst.toNat, 0⟩, during interval burst now 1) := by
  have henter : (fresh interval burst).enter now = during interval burst now 0 := by
    rw [enter]
    split
    · simp [fresh, during]
    · simp [fresh, during, windowStart]
  have hroom : 0 + 1 - burst.toNat < UInt32.size := Nat.lt_of_le_of_lt (Nat.sub_le ..) (by decide)
  rw [check_of_enter henter (by simp), if_pos hroom]
  split
  · rfl
  · rfl

/-- An event inside the window is counted in it. -/
theorem check_inside (h : now - first < interval) (hn : n - burst.toNat < UInt32.size) :
    (during interval burst first n).check now =
      if n + 1 - burst.toNat < UInt32.size then
        .ok (⟨n < burst.toNat, 0⟩, during interval burst first (n + 1))
      else .error (.overflow .add) := by
  have hexpired : (during interval burst first n).expired now = false :=
    decide_eq_false (UInt64.not_le.mpr h)
  have henter : (during interval burst first n).enter now = during interval burst first n := by
    rw [enter, hexpired]
    rfl
  rw [check_of_enter henter hn, hexpired]
  rfl

/-- An event behind the window opens the next one, and learns how many were suppressed. -/
theorem check_behind (h : ¬ now - first < interval) :
    (during interval burst first n).check now =
      .ok (⟨0 < burst.toNat, UInt32.ofNat (n - burst.toNat)⟩, during interval burst now 1) := by
  have hexpired : (during interval burst first n).expired now = true :=
    decide_eq_true (UInt64.not_lt.mp h)
  have henter : (during interval burst first n).enter now = during interval burst now 0 := by
    rw [enter, hexpired]
    simp [during]
  have hroom : 0 + 1 - burst.toNat < UInt32.size := Nat.lt_of_le_of_lt (Nat.sub_le ..) (by decide)
  rw [check_of_enter henter (by simp), if_pos hroom, hexpired]
  rfl

/-! ## 3. Events one after the other -/

/-- A computation goes on if it has not faulted. -/
theorem ite_bind {α β : Type} {p : Prop} [Decidable p] (a : α) (f : Fault)
    (k : α → Except Fault β) :
    ((if p then .ok a else .error f) >>= k) = if p then k a else .error f := by
  by_cases h : p
  · rw [if_pos h, if_pos h]
    rfl
  · rw [if_neg h, if_neg h]
    rfl

@[simp] theorem checks_nil (r : RateLimit) : r.checks [] = .ok ([], r) := rfl

theorem checks_cons (r : RateLimit) (now : UInt64) (times : List UInt64) :
    r.checks (now :: times) = r.check now >>= fun (verdict, r) =>
      r.checks times >>= fun (verdicts, r) => .ok (verdict :: verdicts, r) := rfl

/-- First some events, then others. -/
theorem checks_append (r : RateLimit) (xs ys : List UInt64) :
    r.checks (xs ++ ys) = r.checks xs >>= fun (earlier, r) =>
      r.checks ys >>= fun (later, r) => .ok (earlier ++ later, r) := by
  induction xs generalizing r with
  | nil => exact (bind_pure (r.checks ys)).symm
  | cons now xs ih =>
    simp only [List.cons_append, checks_cons, bind_assoc]
    refine bind_congr fun (verdict, r) => ?_
    rw [ih, bind_assoc]
    exact bind_congr fun (earlier, r) => bind_assoc ..

theorem checks_cons_of_ok {r r' : RateLimit} {now : UInt64} {verdict : Verdict}
    (h : r.check now = .ok (verdict, r')) (times : List UInt64) :
    r.checks (now :: times) =
      r'.checks times >>= fun (verdicts, r) => .ok (verdict :: verdicts, r) := by
  rw [checks_cons, h]
  rfl

theorem checks_append_of_ok {r r' : RateLimit} {xs : List UInt64} {earlier : List Verdict}
    (h : r.checks xs = .ok (earlier, r')) (ys : List UInt64) :
    r.checks (xs ++ ys) = r'.checks ys >>= fun (later, r) => .ok (earlier ++ later, r) := by
  rw [checks_append, h]
  rfl

/-- **Events inside a window.** -/
theorem checks_inside {times : List UInt64} (h : ∀ now ∈ times, now - first < interval)
    (hn : n - burst.toNat < UInt32.size) :
    (during interval burst first n).checks times =
      if n + times.length - burst.toNat < UInt32.size then
        .ok ((List.range' n times.length).map fun i => ⟨i < burst.toNat, 0⟩,
          during interval burst first (n + times.length))
      else .error (.overflow .add) := by
  induction times generalizing n with
  | nil => simp [hn]
  | cons now times ih =>
    obtain ⟨hnow, htimes⟩ := List.forall_mem_cons.mp h
    have hcheck := check_inside hnow hn
    by_cases hroom : n + 1 - burst.toNat < UInt32.size
    · have hlen : n + 1 + times.length = n + (now :: times).length := by
        rw [List.length_cons]
        omega
      rw [if_pos hroom] at hcheck
      rw [checks_cons_of_ok hcheck, ih htimes hroom, ite_bind, hlen]
      rfl
    · have hfull : ¬ n + (now :: times).length - burst.toNat < UInt32.size := by
        rw [List.length_cons]
        omega
      rw [if_neg hroom] at hcheck
      rw [checks_cons, hcheck, if_neg hfull]
      rfl

/-! ## 4. Windows one after the other -/

theorem windows_flatten (interval : UInt64) (times : List UInt64) :
    (windows interval times).flatten = times := by
  fun_induction windows interval times with
  | case1 => rfl
  | case2 first times ih =>
    rw [List.flatten_cons, ih, List.cons_append, List.takeWhile_append_dropWhile]

/-- A window is no longer than the events are. -/
theorem length_le_of_mem_windows {times window : List UInt64}
    (h : window ∈ windows interval times) : window.length ≤ times.length := by
  rw [← windows_flatten interval times]
  exact (List.sublist_flatten_of_mem h).length_le

/-- A window is opened by its first event, and no other one lies `interval` ticks behind that. -/
theorem exists_of_mem_windows {times window : List UInt64} (h : window ∈ windows interval times) :
    ∃ first rest, window = first :: rest ∧ ∀ now ∈ rest, now - first < interval := by
  fun_induction windows interval times with
  | case1 => exact absurd h List.not_mem_nil
  | case2 first times ih =>
    rcases List.mem_cons.mp h with rfl | h
    · exact ⟨first, _, rfl, fun now hnow => by simpa using List.mem_takeWhile_imp hnow⟩
    · exact ih h

/-- Times inside the window of the first of them are one window. -/
theorem windows_of_inside {rest : List UInt64} (h : ∀ now ∈ rest, now - first < interval) :
    windows interval (first :: rest) = [first :: rest] := by
  have htest : ∀ now ∈ rest, decide (now - first < interval) = true :=
    fun now hnow => decide_eq_true (h now hnow)
  rw [windows, List.takeWhile_eq_self_iff.mpr htest, List.dropWhile_eq_nil_iff.mpr htest, windows]

theorem told_cons (before : Nat) (rest : List UInt64) : told burst before (first :: rest) =
    ⟨0 < burst.toNat, UInt32.ofNat before⟩ ::
      (List.range' 1 rest.length).map fun i => ⟨i < burst.toNat, 0⟩ := by
  rw [told, List.length_cons, List.range_eq_range', List.range'_succ, List.map_cons, if_pos rfl]
  congr 1
  refine List.map_congr_left fun i hi => ?_
  have hpos : i ≠ 0 := by
    have := (List.mem_range'_1.mp hi).1
    omega
  rw [if_neg hpos]

/-- **One window**, once its first event has opened it. -/
theorem checks_window {r : RateLimit} {before : Nat} {rest : List UInt64}
    (hfirst : r.check first =
      .ok (⟨0 < burst.toNat, UInt32.ofNat before⟩, during interval burst first 1))
    (hrest : ∀ now ∈ rest, now - first < interval) :
    r.checks (first :: rest) =
      if lost burst (first :: rest) < UInt32.size then
        .ok (told burst before (first :: rest), during interval burst first (first :: rest).length)
      else .error (.overflow .add) := by
  have hone : 1 - burst.toNat < UInt32.size := Nat.lt_of_le_of_lt (Nat.sub_le ..) (by decide)
  rw [checks_cons_of_ok hfirst, checks_inside hrest hone, ite_bind, told_cons, lost,
    List.length_cons, Nat.add_comm rest.length]

/-- **All windows.**  The only thing that can go wrong is that the suppressed events of a window
cannot be counted. -/
theorem checks_windows {times : List UInt64} {r : RateLimit} {before : Nat}
    (hr : ∀ now ∈ times.head?, r.check now =
      .ok (⟨0 < burst.toNat, UInt32.ofNat before⟩, during interval burst now 1)) :
    r.checks times =
      if ∀ window ∈ windows interval times, lost burst window < UInt32.size then
        .ok (toldAll burst before (windows interval times),
          afterAll interval burst r (windows interval times))
      else .error (.overflow .add) := by
  fun_induction windows interval times generalizing r before with
  | case1 => simp [toldAll, afterAll]
  | case2 first times ih =>
    have hinside : ∀ now ∈ times.takeWhile (· - first < interval), now - first < interval :=
      fun now hnow => by simpa using List.mem_takeWhile_imp hnow
    have hwindow := checks_window (hr first rfl) hinside
    have hlater := @ih (during interval burst first
      (first :: times.takeWhile (· - first < interval)).length)
      (lost burst (first :: times.takeWhile (· - first < interval))) fun now hnow => by
        have hnot := List.head?_dropWhile_not (· - first < interval) times
        rw [Option.mem_def.mp hnow] at hnot
        exact check_behind (of_decide_eq_false hnot)
    have hsplit : first :: times = (first :: times.takeWhile (· - first < interval)) ++
        times.dropWhile (· - first < interval) := by
      rw [List.cons_append, List.takeWhile_append_dropWhile]
    rw [hsplit]
    by_cases hroom : lost burst (first :: times.takeWhile (· - first < interval)) < UInt32.size
    · rw [if_pos hroom] at hwindow
      simp only [checks_append_of_ok hwindow, hlater, ite_bind, List.forall_mem_cons, hroom,
        true_and]
      rfl
    · rw [if_neg hroom] at hwindow
      rw [checks_append, hwindow, if_neg fun hall => hroom (hall _ List.mem_cons_self)]
      rfl

/-- The events of a limiter that has not seen any. -/
theorem checks_fresh (interval : UInt64) (burst : UInt32) (times : List UInt64) :
    (fresh interval burst).checks times =
    if ∀ window ∈ windows interval times, lost burst window < UInt32.size then
      .ok (toldAll burst 0 (windows interval times),
        afterAll interval burst (fresh interval burst) (windows interval times))
    else .error (.overflow .add) :=
  checks_windows fun _ _ => check_fresh

theorem lost_lt_of_length {times : List UInt64} (hlen : times.length < UInt32.size) :
    ∀ window ∈ windows interval times, lost burst window < UInt32.size := by
  intro window hwindow
  have hle := length_le_of_mem_windows hwindow
  exact Nat.lt_of_le_of_lt (Nat.sub_le ..) (by omega)

/-- Fewer than 2³² events do not fault. -/
theorem checks_ok (interval : UInt64) (burst : UInt32) {times : List UInt64}
    (hlen : times.length < UInt32.size) :
    ∃ verdicts r, (fresh interval burst).checks times = .ok (verdicts, r) :=
  ⟨_, _, (checks_fresh interval burst times).trans (if_pos (lost_lt_of_length hlen))⟩

theorem afterAll_concat (r : RateLimit) (ws : List (List UInt64)) (window : List UInt64) :
    afterAll interval burst r (ws ++ [window]) =
      during interval burst (window.headD 0) window.length := by
  induction ws generalizing r with
  | nil => rfl
  | cons earlier ws ih => exact ih _

/-- **The counters are those of the last window**: neither of them has wrapped. -/
theorem counters_of_checks {times : List UInt64} {r : RateLimit} {verdicts : List Verdict}
    (h : (fresh interval burst).checks times = .ok (verdicts, r)) :
    r.burst = burst ∧
      r.passed.toNat = min ((windows interval times).getLastD []).length burst.toNat ∧
      r.missed.toNat = lost burst ((windows interval times).getLastD []) := by
  rw [checks_fresh] at h
  split at h
  case isFalse => exact absurd h nofun
  case isTrue hroom =>
    obtain ⟨-, rfl⟩ := Prod.mk.inj (Except.ok.inj h)
    rcases List.eq_nil_or_concat' (windows interval times) with hnil | ⟨ws, window, hws⟩
    · rw [hnil]
      exact ⟨rfl, (Nat.zero_min _).symm, (Nat.zero_sub _).symm⟩
    · rw [hws, afterAll_concat, List.getLastD_concat]
      exact ⟨rfl, toNat_passed,
        UInt32.toNat_ofNat_of_lt' (hroom window (hws ▸ List.mem_concat_self))⟩

/-! ## 5. The books -/

/-- Whatever was suppressed is told now or still counted. -/
theorem check_balance {r r' : RateLimit} {verdict : Verdict}
    (h : r.check now = .ok (verdict, r')) :
    verdict.passes.toNat + verdict.suppressed.toNat + r'.missed.toNat = r.missed.toNat + 1 := by
  have henter : (if r.expired now then r.missed else 0).toNat + (r.enter now).missed.toNat =
      r.missed.toNat := by
    rw [enter]
    split
    · rfl
    · exact Nat.zero_add _
  simp only [check, count, bind, Except.bind] at h
  by_cases hpasses : (r.enter now).passed < (r.enter now).burst
  · rw [if_pos hpasses] at h
    obtain ⟨rfl, rfl⟩ := Prod.mk.inj (Except.ok.inj h)
    simp only [Bool.toNat_true]
    omega
  · rw [if_neg hpasses] at h
    by_cases hroom : (r.enter now).missed.toNat + 1 < UInt32.size
    · rw [if_pos hroom] at h
      obtain ⟨rfl, rfl⟩ := Prod.mk.inj (Except.ok.inj h)
      have hsucc : ((r.enter now).missed + 1).toNat = (r.enter now).missed.toNat + 1 := by
        rw [UInt32.toNat_add]
        exact Nat.mod_eq_of_lt hroom
      simp only [Bool.toNat_false, hsucc]
      omega
    · rw [if_neg hroom] at h
      exact absurd h nofun

theorem checks_append_eq_ok {r r' : RateLimit} {xs ys : List UInt64} {verdicts : List Verdict}
    (h : r.checks (xs ++ ys) = .ok (verdicts, r')) :
    ∃ earlier r₁ later, r.checks xs = .ok (earlier, r₁) ∧ r₁.checks ys = .ok (later, r') ∧
      verdicts = earlier ++ later := by
  rw [checks_append] at h
  obtain ⟨⟨earlier, r₁⟩, hxs, h⟩ := exists_of_bind_ok h
  obtain ⟨⟨later, r₂⟩, hys, h⟩ := exists_of_bind_ok h
  obtain ⟨rfl, rfl⟩ := Prod.mk.inj (Except.ok.inj h)
  exact ⟨earlier, r₁, later, hxs, hys, rfl⟩

theorem checks_cons_eq_ok {r r' : RateLimit} {times : List UInt64} {verdicts : List Verdict}
    (h : r.checks (now :: times) = .ok (verdicts, r')) :
    ∃ verdict r₁ later, r.check now = .ok (verdict, r₁) ∧ r₁.checks times = .ok (later, r') ∧
      verdicts = verdict :: later := by
  rw [checks_cons] at h
  obtain ⟨⟨verdict, r₁⟩, hcheck, h⟩ := exists_of_bind_ok h
  obtain ⟨⟨later, r₂⟩, hlater, h⟩ := exists_of_bind_ok h
  obtain ⟨rfl, rfl⟩ := Prod.mk.inj (Except.ok.inj h)
  exact ⟨verdict, r₁, later, hcheck, hlater, rfl⟩

theorem length_checks {times : List UInt64} {r r' : RateLimit} {verdicts : List Verdict}
    (h : r.checks times = .ok (verdicts, r')) : verdicts.length = times.length := by
  induction times generalizing r verdicts with
  | nil =>
    obtain ⟨rfl, rfl⟩ := Prod.mk.inj (Except.ok.inj h)
    rfl
  | cons now times ih =>
    obtain ⟨verdict, r₁, later, -, hlater, rfl⟩ := checks_cons_eq_ok h
    rw [List.length_cons, List.length_cons, ih hlater]

theorem checks_balance {times : List UInt64} {r r' : RateLimit} {verdicts : List Verdict}
    (h : r.checks times = .ok (verdicts, r')) :
    verdicts.countP (·.passes) + (verdicts.map (·.suppressed.toNat)).sum + r'.missed.toNat =
      r.missed.toNat + times.length := by
  induction times generalizing r verdicts with
  | nil =>
    obtain ⟨rfl, rfl⟩ := Prod.mk.inj (Except.ok.inj h)
    simp
  | cons now times ih =>
    obtain ⟨verdict, r₁, later, hcheck, hlater, rfl⟩ := checks_cons_eq_ok h
    have hstep := check_balance hcheck
    have hrest := ih hlater
    rw [List.countP_cons, List.map_cons, List.sum_cons, List.length_cons]
    cases hp : verdict.passes with
    | true => simp only [hp, Bool.toNat_true, if_true] at hstep ⊢; omega
    | false =>
      simp only [hp, Bool.toNat_false, Bool.false_eq_true, if_false] at hstep ⊢
      omega

/-- The lines of these verdicts. -/
def report (c : Console) (verdicts : List Verdict) : Console :=
  ((verdicts.map (·.suppressed)).filter (· ≠ 0)).foldl (fun c n => c.log .warn (suppressedLine n)) c

theorem report_cons (c : Console) (verdict : Verdict) (later : List Verdict) :
    report c (verdict :: later) = report
      (if verdict.suppressed = 0 then c else c.log .warn (suppressedLine verdict.suppressed))
      later := by
  rw [report, report, List.map_cons, List.filter_cons]
  by_cases hzero : verdict.suppressed = 0
  · simp [hzero]
  · simp [hzero]

/-- The console shows what the events are told. -/
theorem checksOn_eq_bind (r : RateLimit) (c : Console) (times : List UInt64) :
    r.checksOn c times = r.checks times >>= fun (verdicts, r) =>
      .ok (verdicts.map (·.passes), r, report c verdicts) := by
  induction times generalizing r c with
  | nil => rfl
  | cons now times ih =>
    simp only [checksOn, checkOn, checks_cons, bind_assoc, ih]
    refine bind_congr fun (verdict, r) => ?_
    rw [pure_bind]
    refine bind_congr fun (verdicts, r) => ?_
    rw [← report_cons]
    rfl

theorem checksOn_eq {times : List UInt64} {r r' : RateLimit} {verdicts : List Verdict}
    (h : r.checks times = .ok (verdicts, r')) (c : Console) :
    r.checksOn c times = .ok (verdicts.map (·.passes), r', report c verdicts) := by
  rw [checksOn_eq_bind, h]
  rfl

/-- The books of a limiter after events at these times. -/
structure Books (interval : UInt64) (burst : UInt32) (times : List UInt64)
    (verdicts : List Verdict) (r : RateLimit) : Prop where
  /-- Every event has passed, or has been told to another one, or is still counted. -/
  balance : verdicts.countP (·.passes) + (verdicts.map (·.suppressed.toNat)).sum +
    r.missed.toNat = times.length
  /-- Of each window the first `burst` events pass, and the first one is told how many did not
  pass in the window before. -/
  told : verdicts = toldAll burst 0 (windows interval times)
  /-- Those that did not pass in the last window are still counted. -/
  missed : r.missed.toNat = lost burst ((windows interval times).getLastD [])
  /-- What is told is written on the console, unless it is zero. -/
  lines : ∀ c, (fresh interval burst).checksOn c times =
    .ok (verdicts.map (·.passes), r, report c verdicts)

theorem books_of_room {times : List UInt64}
    (h : ∀ window ∈ windows interval times, lost burst window < UInt32.size) :
    ∃ r, (fresh interval burst).checks times = .ok (toldAll burst 0 (windows interval times), r) ∧
      Books interval burst times (toldAll burst 0 (windows interval times)) r := by
  have hrun := (checks_fresh interval burst times).trans (if_pos h)
  refine ⟨_, hrun, ?_, rfl, (counters_of_checks hrun).2.2, checksOn_eq hrun⟩
  rw [checks_balance hrun]
  exact Nat.zero_add _

end RateLimit

open RateLimit

/-- **Every event is in the books.**  Fewer than 2³² events never fault.  After each of them all
that there have been have passed, have been reported or are still counted; of each window the first
`burst` pass, and the window that follows reports the others. -/
theorem every_event_is_booked {interval : UInt64} {burst : UInt32} {times : List UInt64}
    (hlen : times.length < UInt32.size) :
    ∃ verdicts : List Verdict, ∀ k ≤ times.length, ∃ r,
      (fresh interval burst).checks (times.take k) = .ok (verdicts.take k, r) ∧
        Books interval burst (times.take k) (verdicts.take k) r := by
  have hroom : ∀ k, ∀ window ∈ windows interval (times.take k), lost burst window < UInt32.size :=
    fun k => lost_lt_of_length (Nat.lt_of_le_of_lt (List.length_take_le' k times) hlen)
  obtain ⟨r, hrun, -⟩ := books_of_room (hroom times.length)
  rw [List.take_length] at hrun
  refine ⟨toldAll burst 0 (windows interval times), fun k hk => ?_⟩
  obtain ⟨r₁, hrun₁, hbooks⟩ := books_of_room (hroom k)
  rw [← List.take_append_drop k times] at hrun
  obtain ⟨earlier, r₂, later, hearlier, -, hsplit⟩ := checks_append_eq_ok hrun
  rw [List.take_append_drop] at hsplit
  obtain ⟨rfl, rfl⟩ := Prod.mk.inj (Except.ok.inj (hearlier.symm.trans hrun₁))
  -- what all events learn begins with what the first `k` of them do
  have htake : (toldAll burst 0 (windows interval times)).take k =
      toldAll burst 0 (windows interval (times.take k)) := by
    have hlength := length_checks hearlier
    rw [List.length_take, Nat.min_eq_left hk] at hlength
    rw [hsplit]
    exact List.take_left' hlength
  rw [htake]
  exact ⟨_, hrun₁, hbooks⟩

/-- Seven events, of which one comes with an earlier time than the one before, and what they are
told. -/
def wanderingTimes : List UInt64 := [5, 6, 7, 3, 200, 201, 99]

def wanderingVerdicts : List Verdict :=
  [⟨true, 0⟩, ⟨false, 0⟩, ⟨false, 0⟩, ⟨true, 2⟩, ⟨true, 0⟩, ⟨false, 0⟩, ⟨true, 1⟩]

theorem booked_when_time_goes_back : wanderingTimes.length < UInt32.size ∧
    ∃ r, (fresh 100 1).checks wanderingTimes = .ok (wanderingVerdicts, r) ∧
      Books 100 1 wanderingTimes wanderingVerdicts r ∧
      (report {} wanderingVerdicts).text =
        "[kernel: warn] 2 callbacks suppressed\n[kernel: warn] 1 callbacks suppressed\n" := by
  have hlen : wanderingTimes.length < UInt32.size := by decide
  obtain ⟨verdicts, hbooks⟩ := @every_event_is_booked 100 1 _ hlen
  obtain ⟨r, hrun, hbooks⟩ := hbooks 7 le_rfl
  have htake : verdicts.take 7 = wanderingVerdicts := by
    have heval : ∃ r, (fresh 100 1).checks (wanderingTimes.take 7) = .ok (wanderingVerdicts, r) :=
      ⟨_, rfl⟩
    obtain ⟨r', heval⟩ := heval
    exact (Prod.mk.inj (Except.ok.inj (hrun.symm.trans heval))).1
  rw [htake] at hrun hbooks
  exact ⟨hlen, r, hrun, hbooks, by decide⟩

end PageSwap
