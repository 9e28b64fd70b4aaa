/-
# The account of memory stalls is balanced

A read is accounted for as a memory stall from the moment its area is known and the front store has
declined, through every completion, poll and sleep, to its return.  The account is an observer: a
log of it is read off the state of the collaborators, and nobody but the account writes to it.

* `Backend.LogsStalls` -- the log, and `journaled_logsStalls` -- that of a journal.
* `Backend.unstalled` -- the same collaborators without an account; reading from a slot never uses
  it (`readSlot_unstalled`).
* `pageIn_stalls` -- a read enters once and leaves once, with the value it got.
-/
import PageSwap.Proofs.Journal
import PageSwap.Proofs.Waits

namespace PageSwap

variable {σ : Type}

/-! ## 1. The log -/

/-- The collaborators without an account of stalls. -/
def Backend.unstalled (b : Backend σ) : Backend σ :=
  { b with stalls := { enter := fun w => (0, w), leave := fun _ w => w } }

/-- **The account logs what it is asked**, and what other collaborators do for a read is not in the
log. -/
structure Backend.LogsStalls (b : Backend σ) (log : σ → List Stall) : Prop where
  enter : ∀ w, log (b.stalls.enter w).2 = log w ++ [.entered (b.stalls.enter w).1]
  leave : ∀ cookie w, log (b.stalls.leave cookie w) = log w ++ [.left cookie]
  fill : ∀ {front p pace page w out w'}, b.front = some front →
    front.fill p pace page w = .ok (out, w') → log w' = log w
  transfer : ∀ {queue sector direction p page w out w'},
    b.queues.transfer queue sector direction p page w = .ok (out, w') → log w' = log w
  settle : ∀ {queue f q page w out w'}, b.queues.settle queue f q page w = .ok (out, w') →
    log w' = log w
  read : ∀ f position bytes w, log (b.files.read f position bytes w).2 = log w
  slotFreed : ∀ queue offset w, log (b.queues.slotFreed queue offset w) = log w
  chore : ∀ {w w'}, Chore b.unstalled w w' → log w' = log w

/-- The uses of the account are in a journal. -/
theorem journaled_logsStalls (b : Backend σ) : b.journaled.LogsStalls (·.2.stalls) where
  enter := fun _ => rfl
  leave := fun _ _ => rfl
  fill := fun hfront h => by
    obtain ⟨inner, -, -, hfill⟩ := front_heardBy hfront
    rw [hfill] at h
    exact (congrArg Journal.stalls (tryNoting_eq_ok h).2).trans rfl
  transfer := fun h => by
    rw [Backend.journaled, heardBy_transfer] at h
    exact (congrArg Journal.stalls (tryNoting_eq_ok h).2).trans rfl
  settle := fun h => by
    rw [Backend.journaled, heardBy_settle] at h
    exact (congrArg Journal.stalls (tryNoting_eq_ok h).2).trans rfl
  read := fun _ _ _ _ => rfl
  slotFreed := fun _ _ _ => rfl
  chore := fun h => by
    cases h with
    | turn h =>
      obtain ⟨turn, -, rfl⟩ := List.mem_map.mp h
      rfl
    | _ => rfl

/-! ## 2. Without an account -/

section

variable {b : Backend σ}

/-- Faults are not the account's. -/
theorem Lawful.unstalled (hb : Lawful b) : Lawful b.unstalled := hb.congr rfl rfl rfl rfl rfl

/-- A reader that waits does not use the account. -/
theorem await_unstalled (b : Backend σ) (d : DeviceId) (cookie : UInt64) (i : SleeperId)
    (fuel : Nat) : ∀ reader,
      await b.unstalled d cookie i fuel reader = await b d cookie i fuel reader := by
  induction fuel with
  | zero => intro reader; rfl
  | succ fuel ih =>
    intro reader
    unfold await
    simp only [ih]
    rfl

/-- Reading from a slot does not use the account. -/
theorem readSlot_unstalled (b : Backend σ) (area : Area) (p : PageId) (pace : Pace) :
    readSlot b.unstalled area p pace = readSlot b area p pace := by
  unfold readSlot readDevice readRequest
  simp only [await_unstalled]
  rfl

end

/-! ## 3. A read -/

section

variable {b : Backend σ} {log : σ → List Stall} {s s' : System σ} {p : PageId} {area : Area}
  {status : Status}

theorem Backend.LogsStalls.noticed (hl : b.LogsStalls log) (area : Area) (devices : Table Device)
    (slot : Option Slot) (w : σ) :
    log (PageSwap.noticed b.unstalled area devices slot w).2 = log w := by
  have hcount : ∀ m offset, log (b.slotMaps.count m offset w).2 = log w :=
    fun m offset => hl.chore (.count m offset w)
  unfold PageSwap.noticed
  split
  · dsimp only
    split
    · split
      · exact (hl.slotFreed _ _ _).trans (hcount _ _)
      · exact hcount _ _
    · rfl
  · rfl

/-- Completions and bookkeeping are not in the log. -/
theorem lasting_unlogged (hb : Lawful b) (hl : b.LogsStalls log) (t : Table Device)
    (entries : List Stall) :
    Lasting b.unstalled (¬ ·.Assertion) fun x => x.CoherentSince t ∧ log x.world = entries where
  tolerant := hb.unstalled.tolerant
  blind := fun sleepers console limiter h =>
    ⟨(lasting_coherent hb.unstalled t).blind sleepers console limiter h.1, h.2⟩
  aside := fun h hw =>
    ⟨(lasting_coherent hb.unstalled t).aside h.1 hw, (hl.chore hw.chore).trans h.2⟩
  ready := fun h hq => (lasting_coherent hb.unstalled t).ready h.1 hq
  finished := fun {s f q status bytes w} h hq hsettle => by
    refine ⟨(lasting_coherent hb.unstalled t).finished h.1 hq hsettle, ?_⟩
    have hkept : log w = entries := (hl.settle hsettle).trans h.2
    show log (noticedBy b.unstalled s q status w).2 = entries
    unfold noticedBy
    split
    · exact (hl.noticed _ _ _ _).trans hkept
    · exact hkept

/-- The first step of reading from a slot is not in the log. -/
theorem SlotRead.unlogged (hl : b.LogsStalls log) (h : SlotRead b.unstalled area p s status s') :
    log s'.world = log s.world := by
  have hrecord : ∀ t w, log (b.statistics.record t w) = log w := fun t w => hl.chore (.record t w)
  cases h with
  | @file f _ _ _ h =>
    cases h with
    | lost => rfl
    | @read position result bytes w₁ w₂ _ hread _ hcounted =>
      have hkept : log w₁ = log s.world := by
        have hsame := hl.read f position (s.pages.get p).bytes s.world
        rwa [show b.files.read f position (s.pages.get p).bytes s.world = _ from hread] at hsame
      show log w₂ = _
      rw [hcounted]
      unfold Backend.countedIn
      split
      · exact (hrecord _ _).trans hkept
      · exact hkept
  | device _ h =>
    cases h with
    | lost => rfl
    | @direct sector bytes w₁ w₂ _ htransfer _ hcounted =>
      show log w₂ = _
      rw [hcounted]
      exact (hrecord _ _).trans ((hl.noticed _ _ _ _).trans (hl.transfer htransfer))
    | crowded _ htransfer => exact hl.transfer htransfer
    | @issued sector e bytes w₁ w₂ dev q _ htransfer _ _ _ _ hcounted =>
      show log w₂ = _
      rw [hcounted]
      exact (hrecord _ _).trans (hl.transfer htransfer)

/-- The front store, if there is one, declines to fill page `p` of this state, and leaves all but
the bytes of the page alone. -/
def System.Declined (s : System σ) (b : Backend σ) (p : PageId) (pace : Pace) : Prop :=
  ∀ front answer page w, b.front = some front →
    front.fill p pace (s.pages.get p) s.world = .ok ((answer, page), w) →
      answer = false ∧ page = { s.pages.get p with bytes := page.bytes }

/-- **A read enters the account once and leaves it once**, with the value it was given, if its area
is known; and else not at all. -/
theorem pageIn_stalls (hb : Lawful b) (hl : b.LogsStalls log) (hs : s.Coherent)
    (hheld : (s.pages.get p).Held) (hclean : (s.pages.get p).flags.uptodate = false) {pace : Pace}
    (hdeclined : s.Declined b p pace) :
    (pageIn b p pace).wp (fun _ s' =>
      s.areaAt p = none ∧ log s'.world = log s.world ∨
        ∃ area cookie, s.areaAt p = some area ∧
          log s'.world = log s.world ++ [.entered cookie, .left cookie]) (¬ ·.Assertion) s := by
  refine pageIn_steps hb.tolerant.toFrontFaults hb.mindsReads hheld hclean
    (fun harea => Or.inl ⟨harea, rfl⟩) (fun area front page w₁ _ hfront hfill => ?_)
    fun area s₁ harea hfront hheld' => ?_
  · exact absurd (hdeclined front true page w₁ hfront hfill).1 nofun
  · have hkept : log s₁.world = log s.world := by
      cases hfront with
      | absent => rfl
      | declined hfront hask => exact hl.fill hfront hask
    have hcoherent := hfront.coherent hs.since hheld.2 hheld'.2 (b.stalls.enter s₁.world).2
    rw [← readSlot_unstalled]
    refine Run.wp_mono (readSlot_wp (fun _ => lasting_unlogged hb hl s.devices
      (log (b.stalls.enter s₁.world).2)) (.of_stop id) (fun _ => id) hheld'
      fun status s' hstep => ?_) (fun status s' h => ?_) fun _ hf => hf
    · exact ⟨hstep.coherent hcoherent hheld', hstep.unlogged hl⟩
    · refine Or.inr ⟨area, (b.stalls.enter s₁.world).1, harea, ?_⟩
      show log (b.stalls.leave _ s'.world) = _
      rw [hl.leave, h.2, hl.enter, hkept, List.append_assoc]
      rfl

end

end PageSwap
