/-
# A read that is waited for is over on return

A synchronous reader hands its request over with its waker and comes back when the waker has been
taken.  Only the completion of that very request takes it: a request with a waker lives no longer
than the call that made it, so between calls there is none, and while one reader waits no other
request has a waker.

* `System.Unattended` -- no request has a waker; `unattended_of_reaches` -- so it is between calls.
* `Awaits` -- what holds while a reader waits.
* `pageIn_over` -- a read that is waited for leaves no request for its page.
-/
import PageSwap.Proofs.Agreement

namespace PageSwap

variable {σ : Type}

/-! ## 1. Wakers -/

/-- No request has a waker. -/
def System.Unattended (s : System σ) : Prop := ∀ r q, s.requests.get r = some q → q.sleeper = none

/-- **A reader waits**, with sleeper `i`, for page `p`: as long as there is a request for the page
its waker is there, and requests for other pages have none. -/
structure Awaits (p : PageId) (i : SleeperId) (s : System σ) : Prop where
  pending : ∀ r q, s.requests.get r = some q → q.page = p →
    (s.sleepers.get i).waiter.isPending = true
  others : ∀ r q, s.requests.get r = some q → q.page ≠ p → q.sleeper = none

section

variable {b : Backend σ} {s s' : System σ} {p : PageId} {i : SleeperId}

/-- Requests that exist after a completion existed before. -/
theorem requests_finished {r r' : RequestId} {q q' : Request} {status : Status} {bytes : Bytes}
    {w : σ} (h : (s.finished b r q status bytes w).requests.get r' = some q') :
    r' ≠ r ∧ s.requests.get r' = some q' := by
  replace h : (s.requests.set r none).get r' = some q' := h
  by_cases hr : r' = r
  · rw [hr, Table.get_set_self] at h
    exact absurd h nofun
  · exact ⟨hr, (Table.get_set_ne _ _ hr).symm.trans h⟩

/-- A new request has no waker, and no request had one. -/
theorem System.Unattended.issue (h : s.Unattended) {q : Request}
    (hrequests : s'.requests = s.requests.set s.requests.fresh (some q))
    (hsleeper : q.sleeper = none) : s'.Unattended := by
  intro r q' hq'
  rw [hrequests, Table.get_set] at hq'
  split at hq'
  · rw [← Option.some.inj hq']
    exact hsleeper
  · exact h r q' hq'

/-- Completions and bookkeeping give no request a waker. -/
theorem lasting_unattended (hb : Lawful b) (t : Table Device) :
    Lasting b (¬ ·.Assertion) fun x : System σ => x.CoherentSince t ∧ x.Unattended where
  tolerant := hb.tolerant
  blind := fun sleepers console limiter h =>
    ⟨(lasting_coherent hb t).blind sleepers console limiter h.1, h.2⟩
  aside := fun h hw => ⟨(lasting_coherent hb t).aside h.1 hw, h.2⟩
  ready := fun h hq => (lasting_coherent hb t).ready h.1 hq
  finished := fun h hq hsettle =>
    ⟨(lasting_coherent hb t).finished h.1 hq hsettle,
      fun r q' hq' => h.2 r q' (requests_finished hq').2⟩

/-! ## 2. While a reader waits -/

/-- The reader hands its request over. -/
theorem Awaits.start (h : s.Unattended) {q : Request}
    (hrequests : s'.requests = s.requests.set s.requests.fresh (some q)) (hpage : q.page = p)
    (hsleepers : s'.sleepers = s.sleepers.set i {}) : Awaits p i s' := by
  refine ⟨fun r q' hq' hp => ?_, fun r q' hq' hp => ?_⟩
  · rw [hsleepers, Table.get_set_self]
    rfl
  · rw [hrequests, Table.get_set] at hq'
    split at hq'
    · rw [← Option.some.inj hq'] at hp
      exact absurd hpage hp
    · exact h r q' hq'

/-- **A completion while a reader waits**: that of its own request is the only one that takes its
waker. -/
theorem Awaits.finished (h : Awaits p i s) (hs : s.Coherent) {r : RequestId} {q : Request}
    {status : Status} {bytes : Bytes} {w : σ} (hq : s.requests.get r = some q) :
    Awaits p i (s.finished b r q status bytes w) := by
  refine ⟨fun r' q' hq' hp' => ?_, fun r' q' hq' => h.others r' q' (requests_finished hq').2⟩
  obtain ⟨hr, hq'⟩ := requests_finished hq'
  have hother : q.page ≠ p := fun hp => hr (hs.unique hq' hq (hp'.trans hp.symm))
  have hsame : (s.finished b r q status bytes w).sleepers = s.sleepers := by
    simp only [System.finished, h.others r q hq hother]
    cases q.direction <;> rfl
  rw [hsame]
  exact h.pending r' q' hq' hp'

/-- **What lasts lasts while a reader waits.** -/
theorem attentive_awaits {stop : Fault → Prop} {I : System σ → Prop} (hI : Lasting b stop I)
    (hcoherent : ∀ {s}, I s → s.Coherent) (p : PageId) (i : SleeperId) :
    Attentive b stop fun s => I s ∧ Awaits p i s where
  tolerant := hI.tolerant
  silent := fun console limiter h =>
    ⟨hI.attentive.silent console limiter h.1, h.2.pending, h.2.others⟩
  step := fun {s j x} h hx => by
    refine ⟨hI.attentive.step h.1 hx, fun r q hq hp => ?_, h.2.others⟩
    have hpending := h.2.pending r q hq hp
    show ((s.sleepers.set j x).get i).waiter.isPending = true
    rw [Table.get_set]
    split
    · rename_i hij
      rw [hx, ← hij]
      exact hpending
    · exact hpending
  aside := fun h hw => ⟨hI.aside h.1 hw, h.2.pending, h.2.others⟩
  ready := fun h hq => hI.ready h.1 hq
  finished := fun h hq hsettle =>
    ⟨hI.finished h.1 hq hsettle, h.2.finished (hcoherent h.1) hq⟩

/-- A reader whose waker has been taken has its page to itself. -/
theorem Awaits.over (h : Awaits p i s) (htaken : (s.sleepers.get i).waiter.isPending = false) :
    (∀ r q, s.requests.get r = some q → q.page ≠ p) ∧ s.Unattended := by
  have hno : ∀ r q, s.requests.get r = some q → q.page ≠ p := fun r q hq hp =>
    absurd (htaken.symm.trans (h.pending r q hq hp)) nofun
  exact ⟨hno, fun r q hq => h.others r q hq (hno r q hq)⟩

/-! ## 3. Calls -/

theorem FrontDeclines.requests {ask : FrontStore σ → Page → σ → Except Fault ((Bool × Page) × σ)}
    (h : FrontDeclines b ask p s s') : s'.requests = s.requests := by
  cases h <;> rfl

/-- No request has a waker, and after a read that was waited for there is none for the page. -/
def ReadOver (p : PageId) (pace : Pace) (s : System σ) : Prop :=
  s.Unattended ∧ (pace = .await → ∀ r q, s.requests.get r = some q → q.page ≠ p)

theorem ReadOver.of_requests {pace : Pace} (h : ReadOver p pace s)
    (hrequests : s'.requests = s.requests) : ReadOver p pace s' := by
  unfold ReadOver System.Unattended at h ⊢
  rw [hrequests]
  exact h

/-- **Reading from a slot gives no request a waker that outlives it.** -/
theorem readSlot_over {t : Table Device} (hb : Lawful b) (hs : s.CoherentSince t)
    (hun : s.Unattended) (hheld : (s.pages.get p).Held) (area : Area) (pace : Pace) :
    (readSlot b area p pace).wp (fun _ => ReadOver p pace) (¬ ·.Assertion) s := by
  have hno := hs.coherent.no_request hheld.2
  -- a read that makes no request
  have hsame : ReadOver p pace s := ⟨hun, fun _ => hno⟩
  have hdevice : ∀ d, area.backing.device? = some d →
      (readDevice b area d p pace).wp (fun _ => ReadOver p pace) (¬ ·.Assertion) s := by
    intro d hback
    refine readDevice_steps hb.tolerant (.of_stop id) hheld
      (fun status s' _ hkept => hsame.of_requests hkept)
      (fun q s' hpace hstep hmade _ hsleeper => ?_) fun q s' hpace hstep hmade hpage _ _ => ?_
    · have hissued : s'.CoherentSince t ∧ s'.Unattended :=
        ⟨hstep.coherent hs hheld, hun.issue hmade hsleeper⟩
      exact Run.wp_mono ((lasting_unattended hb t).submit _ q hissued)
        (fun _ _ h => ⟨h.2, fun h' => absurd h' hpace⟩) fun _ hf => hf
    · have hattentive := attentive_awaits (lasting_coherent hb t) (·.coherent) p s.sleepers.fresh
      have hkeeps := (lasting_coherent hb t).blind (s.sleepers.set s.sleepers.fresh {}) s'.console
        s'.limiter (hstep.coherent hs hheld)
      refine Run.wp_mono (hattentive.submit _ q ⟨hkeeps, .start hun hmade hpage rfl⟩)
        (fun cookie s₂ h₂ => ?_) fun _ hf => hf
      refine Run.wp_mono (hattentive.await id d cookie _ _ h₂.1 (Reader.calm_start _)
        fun hgone => hgone.elim nofun nofun) (fun _ s₃ h₃ => ?_) fun _ hf => hf
      obtain ⟨hover, hnone⟩ := h₃.1.2.over h₃.2
      exact ⟨hnone, fun _ => hover⟩
  unfold readSlot
  cases hback : area.backing with
  | device d => exact hdevice d (by rw [hback]; rfl)
  | mapped f d => exact hdevice d (by rw [hback]; rfl)
  | file f =>
    refine readFile_wp hheld fun status s' hstep => ?_
    cases hstep with
    | lost => exact hsame.of_requests rfl
    | read => exact hsame.of_requests rfl

/-- **A read gives no request a waker that outlives it**, and one that is waited for leaves no
request for its page. -/
theorem pageIn_over (hb : Lawful b) (hs : s.Coherent) (hun : s.Unattended)
    (hheld : (s.pages.get p).Held) (hclean : (s.pages.get p).flags.uptodate = false)
    (pace : Pace) :
    (pageIn b p pace).wp (fun _ => ReadOver p pace) (¬ ·.Assertion) s := by
  have hsame : ReadOver p pace s := ⟨hun, fun _ => hs.no_request hheld.2⟩
  refine pageIn_steps hb.tolerant.toFrontFaults hb.mindsReads hheld hclean
    (fun _ => hsame.of_requests rfl) (fun _ _ _ _ _ _ _ => hsame.of_requests rfl)
    fun area s₁ _ hfront hheld' => ?_
  have hslot := readSlot_over hb (hfront.coherent hs.since hheld.2 hheld'.2
    (b.stalls.enter s₁.world).2) (hsame.of_requests hfront.requests).1 hheld' area pace
  exact Run.wp_mono hslot (fun _ _ h => h.of_requests rfl) fun _ hf => hf

theorem SlotWrite.unattended {area : Area} {w : Writeback} {ending : Ending} {status : Status}
    (h : SlotWrite b area p w ending s status s') (hun : s.Unattended) : s'.Unattended := by
  cases h with
  | file _ h => cases h <;> exact hun
  | device _ h =>
    cases h with
    | lost => exact hun
    | direct => exact hun
    | crowded => exact hun
    | issued => exact hun.issue rfl rfl

theorem PageWrite.unattended {w : Writeback} {status : Status}
    (h : PageWrite b p w s status s') (hun : s.Unattended) : s'.Unattended := by
  cases h with
  | lost => exact hun
  | freed => exact hun
  | stored => exact hun
  | slot _ _ _ hfront h =>
    refine h.unattended ?_
    unfold System.Unattended
    rw [hfront.requests]
    exact hun

/-- **A call leaves no request with a waker.** -/
theorem Call.run_unattended (hb : Lawful b) (hs : s.Coherent) (hun : s.Unattended) {c : Call}
    (hallowed : c.Allowed s) :
    (c.run b).wp (fun _ s' => s'.Unattended) (¬ ·.Assertion) s := by
  by_cases hread : ∃ p pace, c = .pageIn p pace
  · obtain ⟨p, pace, rfl⟩ := hread
    exact Run.wp_mono (pageIn_over hb hs hun hallowed.1 hallowed.2 pace) (fun _ _ h => h.1)
      fun _ hf => hf
  · refine Run.wp_mono (Call.run_begun hb (fun _ => lasting_unattended hb s.devices) hallowed
      fun status s' hbegun => ⟨hbegun.coherent hb hs.since hallowed, ?_⟩) (fun _ _ h => h.2)
      fun _ hf => hf
    cases hbegun with
    | areas => exact hun
    | out h => exact h.unattended hun
    | lost => exact hun
    | past _ h => exact h.unattended hun
    | read => exact absurd ⟨_, _, rfl⟩ hread

theorem Step.unattended (hb : Lawful b) (hs : s.Coherent) (hun : s.Unattended)
    (hstep : Step b s s') : s'.Unattended := by
  cases hstep with
  | call hallowed hrun => exact (Call.run_unattended hb hs hun hallowed).of_ok hrun
  | edit => exact hun
  | attach => exact hun
  | elsewhere => exact hun

/-- **Between calls no request has a waker.** -/
theorem unattended_of_reaches (hb : Lawful b) (hquiet : s.Quiet) (hrun : Reaches b s s') :
    s'.Unattended := by
  induction hrun with
  | refl => exact fun r q hq => absurd ((hquiet.requests r).symm.trans hq) nofun
  | tail hbefore hstep ih => exact hstep.unattended hb (coherent_of_reaches hb hquiet hbefore) ih

end

end PageSwap
