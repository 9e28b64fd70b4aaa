/-
# What the counters say

A page that the driver or its file takes at once is counted when it has been taken.  A page that
needs a request is counted **when the request is made**, and what comes of the request is not looked
at.  So over a run the counters are what was transferred, what requests that failed were to
transfer, and what requests that exist still may.

* `owed` -- what the requests that exist are to transfer.
* `Balanced`, `lasting_balanced` -- counters and requests keep their balance, whatever is finished.
* `Recorded` -- a run, with the entries of each call.
* `counters_are_transfers_and_failures` -- the counters, once no request is left.
* `failure_is_counted` -- a write and a read that fail, counted.
-/
import Mathlib.Algebra.BigOperators.Group.Finset.Basic
import PageSwap.Proofs.Openings

namespace PageSwap

variable {σ : Type}

/-! ## 1. What requests are to transfer -/

section

variable {α : Type} [Inhabited α] {w : α → Nat} {t : Table α}

/-- The sum over a table. -/
def Table.total (w : α → Nat) (t : Table α) : Nat := ∑ i ∈ Finset.range t.fresh, w (t.get i)

/-- One value more. -/
theorem Table.total_set_fresh (a : α) :
    (t.set t.fresh a).total w = t.total w + w a := by
  unfold total
  rw [fresh_set_fresh, Finset.sum_range_succ, get_set_self]
  congr 1
  refine Finset.sum_congr rfl fun i hi => ?_
  rw [get_set_ne _ _ (Nat.ne_of_lt (Finset.mem_range.mp hi))]

/-- One value replaced. -/
theorem Table.total_set_of_lt {i : Nat} (h : i < t.fresh) (a : α) :
    (t.set i a).total w + w (t.get i) = t.total w + w a := by
  have hi : i ∈ Finset.range t.fresh := Finset.mem_range.mpr h
  unfold total
  rw [fresh_set_of_lt _ h, ← Finset.add_sum_erase _ _ hi, ← Finset.add_sum_erase _ _ hi,
    get_set_self]
  have hrest : ∑ j ∈ (Finset.range t.fresh).erase i, w ((t.set i a).get j) =
      ∑ j ∈ (Finset.range t.fresh).erase i, w (t.get j) :=
    Finset.sum_congr rfl fun j hj => by rw [get_set_ne _ _ (Finset.ne_of_mem_erase hj)]
  omega

end

/-- What a request, if there is one, is to transfer. -/
def Tally.due (t : Tally) (pages : Table Page) (q : Option Request) : Nat :=
  q.elim 0 fun q => t.weight q.direction (pages.get q.page).order

/-- What the requests that exist are to transfer. -/
def owed (s : System σ) (t : Tally) : Nat := s.requests.total (t.due s.pages)

section

variable {s s' : System σ} {t : Tally}

/-- Pages that have no request do not matter, and nothing but the order of the others does. -/
theorem owed_congr (hrequests : s'.requests = s.requests)
    (horder : ∀ r q, s.requests.get r = some q →
      (s'.pages.get q.page).order = (s.pages.get q.page).order) : owed s' t = owed s t := by
  unfold owed Table.total
  rw [hrequests]
  refine Finset.sum_congr rfl fun r _ => ?_
  cases hq : s.requests.get r with
  | none => rfl
  | some q =>
    show t.weight q.direction (s'.pages.get q.page).order = _
    rw [horder r q hq]
    rfl

theorem owed_of_none (h : ∀ r, s.requests.get r = none) : owed s t = 0 := by
  unfold owed Table.total
  exact Finset.sum_eq_zero fun r _ => by rw [h r]; rfl

end

/-! ## 2. The balance of a call -/

/-- **Counters and requests are in balance since `s`**: what is counted more has been transferred,
or is to be transferred by requests, or was to be by requests that failed.  No page changes its
order. -/
structure Balanced (journal : σ → List Entry) (counters : σ → Counters) (own : UInt32)
    (s s' : System σ) : Prop where
  order : ∀ p, (s'.pages.get p).order = (s.pages.get p).order
  balance : ∃ news, journal s'.world = journal s.world ++ news ∧ ∀ t,
    (counters s'.world).get t + UInt64.ofNat (owed s t) =
      (counters s.world).get t + UInt64.ofNat (movedBy own t news + lostBy t news + owed s' t)

section

variable {b : Backend σ} {journal : σ → List Entry} {counters : σ → Counters} {own : UInt32}
  {p : PageId} {s s₁ s' : System σ}

theorem Balanced.refl : Balanced journal counters own s s :=
  ⟨fun _ => rfl, [], (List.append_nil _).symm, fun t => by
    rw [movedBy_nil, lostBy_nil, Nat.zero_add]⟩

/-- A first step keeps the balance: a request that is counted when it is made is owed. -/
theorem Opening.balanced (hc : b.Counts counters) {made : List Entry} {issued : Option Request}
    (h : Opening b journal p s s' made issued) :
    Balanced journal counters (s.pages.get p).order s s' := by
  have hcounted := h.counted counters hc
  have horder : ∀ p', (s'.pages.get p').order = (s.pages.get p').order := fun p' => by
    by_cases hp : p' = p
    · rw [hp, hcounted.order]
    · rw [h.pages p' hp]
  have howed : ∀ t, owed s' t =
      owed s t + issued.elim 0 fun q => t.weight q.direction (s.pages.get p).order := fun t => by
    have hsame : owed s' t = owed { s with requests := s'.requests } t :=
      owed_congr rfl fun _ q _ => horder q.page
    rw [hsame]
    unfold owed
    rw [h.requests]
    cases hissued : issued with
    | none => rfl
    | some q =>
      show (s.requests.set s.requests.fresh (some q)).total _ = _
      rw [Table.total_set_fresh, ← h.page q hissued]
      rfl
  refine ⟨horder, made, h.journal, fun t => ?_⟩
  rw [hcounted.counters, lostBy_eq_zero fun e he => (h.mine e he).lost t, howed, UInt64.add_assoc,
    ← UInt64.ofNat_add]
  congr 2
  omega

/-- Bookkeeping. -/
theorem Balanced.of_same (h : Balanced journal counters own s s₁)
    (hpages : s'.pages = s₁.pages) (hrequests : s'.requests = s₁.requests)
    (hjournal : journal s'.world = journal s₁.world)
    (hcounters : counters s'.world = counters s₁.world) :
    Balanced journal counters own s s' := by
  obtain ⟨horder, news, hnews, hbalance⟩ := h
  refine ⟨fun p => by rw [hpages, horder], news, hjournal.trans hnews, fun t => ?_⟩
  have howed : owed s' t = owed s₁ t := owed_congr hrequests fun _ _ _ => by rw [hpages]
  rw [hcounters, hbalance, howed]

/-- **A completion**: what its request owed has been transferred now, or is lost. -/
theorem Balanced.finished (hj : b.Journals journal) (hc : b.Counts counters)
    (h : Balanced journal counters own s s₁) {f : Finish} {q : Request} {status : Status}
    {bytes : Bytes} {w : σ} (hq : s₁.requests.get f.request = some q)
    (hsettle : b.queues.settle (s₁.devices.get q.device).queue f q (s₁.pages.get q.page) s₁.world =
      .ok ((status, bytes), w)) :
    Balanced journal counters own s (s₁.finished b f.request q status bytes w) := by
  obtain ⟨horder, news, hnews, hbalance⟩ := h
  obtain ⟨more, hmore, habout⟩ := hj.finished hsettle
  have hsame : ∀ p, ((s₁.finished b f.request q status bytes w).pages.get p).order =
      (s₁.pages.get p).order := fun p => by
    show ((s₁.pages.set q.page _).get p).order = _
    rw [Table.get_set]
    split
    · rename_i hp
      rw [hp]
      rfl
    · rfl
  have hcounters : counters (s₁.finished b f.request q status bytes w).world =
      counters s₁.world := by
    show counters (noticedBy b s₁ q status w).2 = _
    unfold noticedBy
    split
    · exact (hc.noticed _ _ _ _).trans (hc.settle hsettle)
    · exact hc.settle hsettle
  refine ⟨fun p => (hsame p).trans (horder p), news ++ _, by rw [hmore, hnews, List.append_assoc],
    fun t => ?_⟩
  -- the request is owed no more
  have howed : owed (s₁.finished b f.request q status bytes w) t +
      t.weight q.direction (s₁.pages.get q.page).order = owed s₁ t := by
    have hpages : owed (s₁.finished b f.request q status bytes w) t =
        owed { s₁ with requests := s₁.requests.set f.request none } t :=
      owed_congr rfl fun _ q' _ => hsame q'.page
    have hold : f.request < s₁.requests.fresh := Nat.lt_of_not_le fun hge => by
      rw [Table.get_of_fresh_le _ hge] at hq
      exact absurd hq nofun
    have htotal := Table.total_set_of_lt (w := t.due s₁.pages) hold none
    rw [hq] at htotal
    rw [hpages]
    exact htotal
  have hsettled : (Entry.settled (s₁.devices.get q.device).queue q (s₁.pages.get q.page).order
        status).moved own t + (Entry.settled (s₁.devices.get q.device).queue q
        (s₁.pages.get q.page).order status).lost t =
      t.weight q.direction (s₁.pages.get q.page).order := by
    cases status with
    | ok u => exact Nat.add_zero _
    | error e => exact Nat.zero_add _
  have hmoved := movedBy_eq_zero fun e he => (habout e he).moved own t
  have hlost := lostBy_eq_zero fun e he => ((habout e he).mine 0).lost t
  rw [hcounters, hbalance, movedBy_append, lostBy_append, movedBy_cons, lostBy_cons, hmoved, hlost]
  congr 2
  omega

/-- **Completions and bookkeeping keep the balance.** -/
theorem lasting_balanced (hb : Lawful b) (hj : b.Journals journal) (hc : b.Counts counters)
    (t : Table Device) (own : UInt32) (s : System σ) :
    Lasting b (¬ ·.Assertion) fun x => x.CoherentSince t ∧ Balanced journal counters own s x where
  tolerant := hb.tolerant
  blind := fun sleepers console limiter h =>
    ⟨(lasting_coherent hb t).blind sleepers console limiter h.1, h.2.of_same rfl rfl rfl rfl⟩
  aside := fun h hw =>
    ⟨(lasting_coherent hb t).aside h.1 hw, h.2.of_same rfl rfl (hj.aside hw) (hc.aside hw)⟩
  ready := fun h hq => (lasting_coherent hb t).ready h.1 hq
  finished := fun h hq hsettle =>
    ⟨(lasting_coherent hb t).finished h.1 hq hsettle, h.2.finished hj hc hq hsettle⟩

/-- The order of the page that a call is about. -/
def Call.order (c : Call) (s : System σ) : UInt32 :=
  c.page?.elim 0 fun p => (s.pages.get p).order

/-- **A call keeps the balance**, with all completions inside it. -/
theorem Call.run_balanced (hb : Lawful b) (hj : b.Journals journal) (hc : b.Counts counters)
    (hs : s.Coherent) {c : Call} (hallowed : c.Allowed s) :
    (c.run b).wp (fun _ s' => s'.CoherentSince s.devices ∧
      Balanced journal counters (c.order s) s s') (¬ ·.Assertion) s := by
  refine Call.run_begun hb (fun _ => lasting_balanced hb hj hc _ _ _) hallowed fun status s' h =>
    ⟨h.coherent hb hs.since hallowed, ?_⟩
  have hpage : ∀ p, c.page? = some p → Balanced journal counters (c.order s) s s' := by
    intro p hp
    obtain ⟨made, issued, hopening⟩ :=
      h.opening (p := p) hj fun p' hp' => Option.some.inj (hp'.symm.trans hp)
    unfold Call.order
    rw [hp]
    exact hopening.balanced hc
  cases h with
  | areas => exact Balanced.refl.of_same rfl rfl rfl rfl
  | out => exact hpage _ rfl
  | lost => exact hpage _ rfl
  | past => exact hpage _ rfl
  | read => exact hpage _ rfl

end

/-! ## 3. Runs -/

/-- What is in the journal of a call, and the order of its page. -/
structure Record where
  order : UInt32
  entries : List Entry

/-- What was transferred in a run. -/
def movedIn (t : Tally) : List Record → Nat
  | [] => 0
  | r :: records => movedBy r.order t r.entries + movedIn t records

/-- What requests that failed in a run were to transfer. -/
def lostIn (t : Tally) : List Record → Nat
  | [] => 0
  | r :: records => lostBy t r.entries + lostIn t records

theorem movedIn_concat (t : Tally) (records : List Record) (r : Record) :
    movedIn t (records ++ [r]) = movedIn t records + movedBy r.order t r.entries := by
  induction records with
  | nil => exact Nat.add_comm _ _
  | cons r' records ih => rw [List.cons_append, movedIn, movedIn, ih, Nat.add_assoc]

theorem lostIn_concat (t : Tally) (records : List Record) (r : Record) :
    lostIn t (records ++ [r]) = lostIn t records + lostBy t r.entries := by
  induction records with
  | nil => exact Nat.add_comm _ _
  | cons r' records ih => rw [List.cons_append, lostIn, lostIn, ih, Nat.add_assoc]

/-- What a call leaves on record. -/
def Call.recorded (journal : σ → List Entry) (c : Call) (s s' : System σ) : Record :=
  ⟨c.order s, (journal s'.world).drop (journal s.world).length⟩

/-- **A run, with the records of its calls**, oldest first.  Between calls nothing is asked or
counted; the order of a page changes only while the page has no transfer. -/
inductive Recorded (b : Backend σ) (journal : σ → List Entry) (counters : σ → Counters)
    (s₀ : System σ) : List Record → System σ → Prop
  | start : Recorded b journal counters s₀ [] s₀
  | call {records : List Record} {s s' : System σ} {c : Call} {status : Status}
      (h : Recorded b journal counters s₀ records s) (hallowed : c.Allowed s)
      (hrun : c.run b s = .ok (status, s')) :
      Recorded b journal counters s₀ (records ++ [c.recorded journal s s']) s'
  | edit {records : List Record} {s : System σ} {p : PageId} {page : Page}
      (h : Recorded b journal counters s₀ records s)
      (htransfer : page.transfer = (s.pages.get p).transfer)
      (hlocked : (s.pages.get p).transfer = .reading → (s.pages.get p).flags.locked = true →
        page.flags.locked = true)
      (horder : (s.pages.get p).transfer ≠ .idle → page.order = (s.pages.get p).order) :
      Recorded b journal counters s₀ records { s with pages := s.pages.set p page }
  | attach {records : List Record} {s : System σ} {d : Device}
      (h : Recorded b journal counters s₀ records s) (hnew : d.inflight = 0) :
      Recorded b journal counters s₀ records { s with devices := s.devices.set s.devices.fresh d }
  | elsewhere {records : List Record} {s : System σ} (h : Recorded b journal counters s₀ records s)
      (w : σ) (hjournal : journal w = journal s.world) (hcounters : counters w = counters s.world) :
      Recorded b journal counters s₀ records { s with world := w }

section

variable {b : Backend σ} {journal : σ → List Entry} {counters : σ → Counters}
  {records : List Record} {s₀ s : System σ}

/-- What is recorded is a run. -/
theorem Recorded.reaches (h : Recorded b journal counters s₀ records s) : Reaches b s₀ s := by
  induction h with
  | start => exact .refl
  | call _ hallowed hrun ih => exact ih.tail (.call hallowed hrun)
  | edit _ htransfer hlocked _ ih => exact ih.tail (.edit htransfer hlocked)
  | attach _ hnew ih => exact ih.tail (.attach hnew)
  | elsewhere _ w _ _ ih => exact ih.tail (.elsewhere w)

/-- **A run keeps the balance.** -/
theorem Recorded.balance (hb : Lawful b) (hj : b.Journals journal) (hc : b.Counts counters)
    (hquiet : s₀.Quiet) (h : Recorded b journal counters s₀ records s) (t : Tally) :
    (counters s.world).get t = (counters s₀.world).get t +
      UInt64.ofNat (movedIn t records + lostIn t records + owed s t) := by
  induction h with
  | start =>
    rw [owed_of_none hquiet.requests]
    exact (UInt64.add_zero _).symm
  | @call records s s' c status h hallowed hrun ih =>
    have hs := coherent_of_reaches hb hquiet h.reaches
    obtain ⟨-, -, news, hnews, hbalance⟩ := (Call.run_balanced hb hj hc hs hallowed).of_ok hrun
    have hrecorded : c.recorded journal s s' = ⟨c.order s, news⟩ := by
      unfold Call.recorded
      rw [hnews, List.drop_left]
    rw [hrecorded, movedIn_concat, lostIn_concat]
    -- what was owed before is on both sides
    refine (UInt64.add_left_inj (UInt64.ofNat (owed s t))).mp ?_
    rw [hbalance, ih, UInt64.add_assoc, UInt64.add_assoc, ← UInt64.ofNat_add, ← UInt64.ofNat_add]
    congr 2
    dsimp only
    omega
  | @edit records s p page h htransfer _ horder ih =>
    have hs := coherent_of_reaches hb hquiet h.reaches
    have howed : owed { s with pages := s.pages.set p page } t = owed s t := by
      refine owed_congr rfl fun r q hq => ?_
      show ((s.pages.set p page).get q.page).order = _
      by_cases hp : q.page = p
      · subst hp
        rw [Table.get_set_self]
        exact horder fun hidle => hs.no_request hidle r q hq rfl
      · rw [Table.get_set_ne _ _ hp]
    rw [howed]
    exact ih
  | attach _ _ ih => exact ih
  | elsewhere _ w _ hcounters ih =>
    rw [hcounters]
    exact ih

end

/-! ## 4. What the counters say -/

/-- Nothing is lost where no request failed. -/
theorem lostIn_eq_zero {t : Tally} {records : List Record}
    (h : ∀ r ∈ records, ∀ queue q order why, .settled queue q order (.error why) ∉ r.entries) :
    lostIn t records = 0 := by
  induction records with
  | nil => rfl
  | cons r records ih =>
    have hfirst : lostBy t r.entries = 0 := lostBy_eq_zero fun e he => by
      cases e with
      | settled queue q order status =>
        cases status with
        | ok u => rfl
        | error why => exact absurd he (h r List.mem_cons_self queue q order why)
      | _ => rfl
    rw [lostIn, hfirst, ih fun r' hr' => h r' (List.mem_cons_of_mem _ hr')]

/-- **What the counters say** of a run from a quiet state, when no request is left at its end.

* Each counter has grown by what was transferred -- base pages and huge pages written, pages read,
  by the driver at once, by requests, or by files -- and by what requests that failed were to
  transfer.  Pages that the front store took or had, slots that were freed, files that fell short
  and calls that were refused count nothing.
* If it was zero at the start and the sum fits a word, it is that sum.
* If no request failed, only what was transferred counts. -/
theorem counters_are_transfers_and_failures {b : Backend σ} {journal : σ → List Entry}
    {counters : σ → Counters} (hb : Lawful b) (hj : b.Journals journal) (hc : b.Counts counters)
    {s₀ s : System σ} (hquiet : s₀.Quiet) {records : List Record}
    (h : Recorded b journal counters s₀ records s) (hdone : ∀ r, s.requests.get r = none)
    (t : Tally) :
    (counters s.world).get t = (counters s₀.world).get t +
      UInt64.ofNat (movedIn t records + lostIn t records) ∧
    ((counters s₀.world).get t = 0 → movedIn t records + lostIn t records < 2 ^ 64 →
      ((counters s.world).get t).toNat = movedIn t records + lostIn t records) ∧
    ((∀ r ∈ records, ∀ queue q order why, .settled queue q order (.error why) ∉ r.entries) →
      lostIn t records = 0) := by
  have hbalance := h.balance hb hj hc hquiet t
  rw [owed_of_none hdone, Nat.add_zero] at hbalance
  refine ⟨hbalance, fun hzero hfits => ?_, lostIn_eq_zero⟩
  rw [hbalance, hzero, UInt64.zero_add, UInt64.toNat_ofNat_of_lt' hfits]

theorem journalDisk_counts : journalDisk.Counts (·.2.counters) where
  record := fun _ _ => rfl
  recordMany := fun _ _ _ => rfl
  accumulate := fun _ _ => rfl
  tryFree := fun h => by
    obtain ⟨hsame, hnoted⟩ := heardBy_tryFree h
    injection hsame with hout
    injection hout with _ hpage
    exact ⟨(congrArg Journal.counters hnoted).trans rfl, hpage ▸ rfl⟩
  store := fun h => absurd h nofun
  fill := fun h => absurd h nofun
  transfer := fun h => by
    rw [journalDisk, Backend.journaled, heardBy_transfer] at h
    exact (congrArg Journal.counters (tryNoting_eq_ok h).2).trans rfl
  settle := fun h => by
    rw [journalDisk, Backend.journaled, heardBy_settle] at h
    exact (congrArg Journal.counters (tryNoting_eq_ok h).2).trans rfl
  write := fun h => by
    injection h with _ hw
    exact hw ▸ rfl
  read := fun h => (congrArg Journal.counters (heardBy_read h)).trans rfl
  dirtied := fun h => by
    injection h with hout hw
    injection hout with _ hpage
    exact ⟨hw ▸ rfl, hpage ▸ rfl⟩
  count := fun _ _ _ => rfl
  slotFreed := fun _ _ _ => rfl
  aside := fun h => h.journaled.2

/-- The device is brought up and page 0 is handed over to it, on record. -/
theorem recorded_journalHanded : ∃ records,
    Recorded journalDisk (·.2.entries) (·.2.counters) journalStart records journalHanded ∧
      ∀ t, movedIn t records = 0 ∧ lostIn t records = 0 := by
  have hup := @Call.run_after _ journalDisk (.swapOn (ramSpec (.device 0)) 8) journalStart
    (by decide +kernel)
  refine ⟨_, .call (c := .pageOut 0 {}) (.call (c := .swapOn _ _) .start trivial hup)
    ⟨by decide +kernel, by decide +kernel⟩ pageOut_journalUp, fun t => ?_⟩
  cases t <;> decide +kernel

/-- The request for page 0 has ended without an error. -/
def journalWritten : System (RamDisk × Journal) :=
  (Call.finish ⟨0, some (.ok ())⟩).after journalDisk journalHanded

/-- **A page that is written, counted.** -/
theorem written_and_counted : ∃ records,
    Recorded journalDisk (·.2.entries) (·.2.counters) journalStart records journalWritten ∧
      (∀ r, journalWritten.requests.get r = none) ∧ movedIn .pageOut records = 1 ∧
      (journalWritten.world.2.counters.get .pageOut).toNat = 1 := by
  obtain ⟨records, hhanded, hnothing⟩ := recorded_journalHanded
  have hend : (Call.finish ⟨0, some (.ok ())⟩).run journalDisk journalHanded =
      .ok (.ok (), journalWritten) := Call.run_after (by decide +kernel)
  have hrun := hhanded.call (c := .finish _) trivial hend
  have hdone : ∀ r, journalWritten.requests.get r = none :=
    Table.forall_get (P := (· = none)) _ rfl (by decide +kernel)
  obtain ⟨-, hcount, -⟩ := counters_are_transfers_and_failures journalDisk_lawful
    journalDisk_journals journalDisk_counts journalStart_quiet hrun hdone .pageOut
  -- the one record that matters is that of the completion
  rw [movedIn_concat, lostIn_concat, (hnothing _).1, (hnothing _).2] at hcount
  refine ⟨_, hrun, hdone, ?_, (hcount rfl (by decide +kernel)).trans (by decide +kernel)⟩
  rw [movedIn_concat, (hnothing _).1]
  decide +kernel

/-- **A write and a read that fail, counted**: nothing was transferred, and both counters say that
one page was. -/
theorem failure_is_counted : ∃ records s,
    Recorded journalDisk (·.2.entries) (·.2.counters) journalStart records s ∧
      (∀ r, s.requests.get r = none) ∧ (∀ t, journalStart.world.2.counters.get t = 0) ∧
      (∀ t, movedIn t records = 0) ∧ s.world.2.counters.get .pageOut = 1 ∧
      s.world.2.counters.get .pageIn = 1 := by
  obtain ⟨records, hhanded, hnothing⟩ := recorded_journalHanded
  have hin := @Call.run_after _ journalDisk (.pageIn 1 .background) journalHanded
    (by decide +kernel)
  have hout := @Call.run_after _ journalDisk (.finish ⟨0, some (.error Errno.io)⟩)
    ((Call.pageIn 1 .background).after journalDisk journalHanded) (by decide +kernel)
  have hend := @Call.run_after _ journalDisk (.finish ⟨1, some (.error Errno.io)⟩)
    ((Call.finish ⟨0, some (.error Errno.io)⟩).after journalDisk
      ((Call.pageIn 1 .background).after journalDisk journalHanded)) (by decide +kernel)
  refine ⟨_, _, ((hhanded.call (c := .pageIn 1 .background)
    ⟨⟨by decide +kernel, by decide +kernel⟩, by decide +kernel⟩ hin).call (c := .finish _) trivial
      hout).call (c := .finish _) trivial hend, ?_, ?_, fun t => ?_, by decide +kernel,
    by decide +kernel⟩
  · exact Table.forall_get (P := (· = none)) _ rfl (by decide +kernel)
  · intro t
    cases t <;> rfl
  · rw [movedIn_concat, movedIn_concat, movedIn_concat, (hnothing t).1]
    cases t <;> decide +kernel

end PageSwap
