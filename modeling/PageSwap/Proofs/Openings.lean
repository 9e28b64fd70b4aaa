/-
# What a call leaves in the books

Up to the moment its request is handed over, a call about a page changes that page and no other and
makes one request at most, for the page.  What it asked of collaborators is in their journal, and
what it counted is in their counters: the transfer it made by itself, or the request it made.

Counters and journal do not agree entry by entry, since a request is counted when it is made and is
in the journal only when it has ended.  So an opening says what it counted in two parts, the
transfers in its entries and the request it leaves behind.  A run in which requests end has to add a
third, those that failed (`PageSwap.Proofs.Tallies`).

* `Tally.weight`, `Entry.moved`, `Entry.lost` -- what a transfer counts for.
* `Backend.Counts` -- what it means that counters are kept.
* `Opening` -- a first step, with its entries, its request and what it counted.
* `Call.Begun.opening` -- every call begins with one.
-/
import PageSwap.Proofs.ErrorFlag
import PageSwap.Proofs.Journal

namespace PageSwap

variable {σ : Type}

/-! ## 1. What a transfer counts for -/

/-- What the transfer of a page of this order counts for. -/
def Tally.weight (direction : Direction) (order : UInt32) : Tally → Nat
  | .pageIn => if direction = .read then 1 else 0
  | .pageOut => if direction = .write then ((1 : UInt64) <<< order.toUInt64).toNat else 0
  | .hugePageOut => if direction = .write ∧ order ≠ 0 then 1 else 0

/-- A file has not moved all of a page. -/
theorem movedAll_eq_false {result : Except Errno UInt64} {n : UInt64} (h : result ≠ .ok n) :
    movedAll result n = false := by
  unfold movedAll
  cases result with
  | ok m => exact decide_eq_false fun hm => h (congrArg Except.ok hm)
  | error e => rfl

namespace Entry

/-- What was transferred by what an entry tells of; a file works for a page of order `own`. -/
def moved (own : UInt32) (t : Tally) : Entry → Nat
  | .transferred _ direction _ order (.ok _) => t.weight direction order
  | .settled _ q order (.ok _) => t.weight q.direction order
  | .wrote _ length result => if movedAll result length then t.weight .write own else 0
  | .read _ length result => if movedAll result length then t.weight .read own else 0
  | _ => 0

/-- What a request was to transfer that failed. -/
def lost (t : Tally) : Entry → Nat
  | .settled _ q order (.error _) => t.weight q.direction order
  | _ => 0

/-- The entry may come from a call about the page: it is about no other, and no request ends. -/
def Mine (p : PageId) : Entry → Prop
  | .freed p' _ | .stored p' _ | .filled p' _ | .transferred _ _ p' _ _ => p' = p
  | .settled _ _ _ _ => False
  | _ => True

variable {p : PageId} {t : Tally} {area : Area} {devices : Table Device} {e : Entry}

theorem Mine.lost (h : e.Mine p) (t : Tally) : e.lost t = 0 := by
  cases e with
  | settled => exact h.elim
  | _ => rfl

theorem About.mine (h : e.About area devices) (p : PageId) : e.Mine p := by
  cases h <;> trivial

theorem About.moved (h : e.About area devices) (own : UInt32) (t : Tally) : e.moved own t = 0 := by
  cases h <;> rfl

end Entry

/-- What was transferred by what some entries tell of. -/
def movedBy (own : UInt32) (t : Tally) : List Entry → Nat
  | [] => 0
  | e :: es => e.moved own t + movedBy own t es

/-- What requests were to transfer that failed. -/
def lostBy (t : Tally) : List Entry → Nat
  | [] => 0
  | e :: es => e.lost t + lostBy t es

section

variable {own : UInt32} {t : Tally} {es es' : List Entry} {e : Entry}

@[simp] theorem movedBy_nil : movedBy own t [] = 0 := rfl

@[simp] theorem movedBy_cons : movedBy own t (e :: es) = e.moved own t + movedBy own t es := rfl

@[simp] theorem movedBy_append :
    movedBy own t (es ++ es') = movedBy own t es + movedBy own t es' := by
  induction es with
  | nil => exact (Nat.zero_add _).symm
  | cons e es ih => rw [List.cons_append, movedBy_cons, movedBy_cons, ih, Nat.add_assoc]

theorem movedBy_eq_zero (h : ∀ e ∈ es, e.moved own t = 0) : movedBy own t es = 0 := by
  induction es with
  | nil => rfl
  | cons e es ih =>
    rw [movedBy_cons, h e List.mem_cons_self, ih fun e he => h e (List.mem_cons_of_mem _ he)]

@[simp] theorem lostBy_nil : lostBy t [] = 0 := rfl

@[simp] theorem lostBy_cons : lostBy t (e :: es) = e.lost t + lostBy t es := rfl

@[simp] theorem lostBy_append : lostBy t (es ++ es') = lostBy t es + lostBy t es' := by
  induction es with
  | nil => exact (Nat.zero_add _).symm
  | cons e es ih => rw [List.cons_append, lostBy_cons, lostBy_cons, ih, Nat.add_assoc]

theorem lostBy_eq_zero (h : ∀ e ∈ es, e.lost t = 0) : lostBy t es = 0 := by
  induction es with
  | nil => rfl
  | cons e es ih =>
    rw [lostBy_cons, h e List.mem_cons_self, ih fun e he => h e (List.mem_cons_of_mem _ he)]

end

/-! ## 2. Counters that are kept -/

theorem Counters.get_add (c : Counters) (t t' : Tally) (n : UInt64) :
    (c.add t n).get t' = c.get t' + if t' = t then n else 0 := by
  cases t <;> cases t' <;> simp [Counters.add, Counters.get]

theorem Counters.get_addLatency (c : Counters) (n : UInt64) (t : Tally) :
    (c.addLatency n).get t = c.get t := by
  cases t <;> rfl

/-- **Counters are kept**: what is to be counted is added, nothing else is, and a page that is
handed to a slot map, a front store or a file keeps its order. -/
structure Backend.Counts (b : Backend σ) (counters : σ → Counters) : Prop where
  record : ∀ t w, counters (b.statistics.record t w) = (counters w).add t 1
  recordMany : ∀ t n w, counters (b.statistics.recordMany t n w) = (counters w).add t n
  accumulate : ∀ n w, counters (b.statistics.accumulate n w) = (counters w).addLatency n
  tryFree : ∀ {m p page w answer page' w'},
    b.slotMaps.tryFree m p page w = ((answer, page'), w') →
      counters w' = counters w ∧ page'.order = page.order
  store : ∀ {front p page w answer page' w'}, b.front = some front →
    front.store p page w = .ok ((answer, page'), w') →
      counters w' = counters w ∧ page'.order = page.order
  fill : ∀ {front p pace page w answer page' w'}, b.front = some front →
    front.fill p pace page w = .ok ((answer, page'), w') →
      counters w' = counters w ∧ page'.order = page.order
  transfer : ∀ {queue sector direction p page w out w'},
    b.queues.transfer queue sector direction p page w = .ok (out, w') → counters w' = counters w
  settle : ∀ {queue f q page w out w'}, b.queues.settle queue f q page w = .ok (out, w') →
    counters w' = counters w
  write : ∀ {f position pieces w result w'}, b.files.write f position pieces w = (result, w') →
    counters w' = counters w
  read : ∀ {f position bytes w out w'}, b.files.read f position bytes w = (out, w') →
    counters w' = counters w
  dirtied : ∀ {f p page w clean page' w'}, b.files.dirtied f p page w = ((clean, page'), w') →
    counters w' = counters w ∧ page'.order = page.order
  count : ∀ m offset w, counters (b.slotMaps.count m offset w).2 = counters w
  slotFreed : ∀ queue offset w, counters (b.queues.slotFreed queue offset w) = counters w
  aside : ∀ {w w'}, Aside b w w' → counters w' = counters w

namespace Backend.Counts

variable {b : Backend σ} {counters : σ → Counters}

/-- A page counted as written has the weight of a write. -/
theorem countedOut (hc : b.Counts counters) (page : Page) (w : σ) (t : Tally) :
    (counters (b.countedOut page w)).get t =
      (counters w).get t + UInt64.ofNat (t.weight .write page.order) := by
  unfold Backend.countedOut Page.isHuge Page.nrPages
  by_cases hhuge : page.order = 0
  · have hsmall : (page.order != 0) = false := by rw [hhuge]; rfl
    rw [if_neg (by rw [hsmall]; exact Bool.false_ne_true), hc.recordMany, Counters.get_add]
    cases t <;> simp [Tally.weight, hhuge, -UInt64.toNat_shiftLeft]
  · have hlarge : (page.order != 0) = true := bne_iff_ne.mpr hhuge
    rw [if_pos hlarge, hc.recordMany, hc.record, Counters.get_add, Counters.get_add]
    cases t <;> simp [Tally.weight, hhuge, -UInt64.toNat_shiftLeft]

/-- A page counted as read has the weight of a read. -/
theorem countedIn (hc : b.Counts counters) (status : Status) (w : σ) (order : UInt32) (t : Tally) :
    (counters (b.countedIn status w)).get t =
      (counters w).get t + UInt64.ofNat (if status.isOk then t.weight .read order else 0) := by
  unfold Backend.countedIn
  cases status with
  | ok u =>
    rw [hc.record, Counters.get_add]
    cases t <;> rfl
  | error e => exact (UInt64.add_zero _).symm

/-- Dealing with the slot of a page that was read is not counted. -/
theorem noticed (hc : b.Counts counters) (area : Area) (devices : Table Device) (slot : Option Slot)
    (w : σ) : counters (PageSwap.noticed b area devices slot w).2 = counters w := by
  unfold PageSwap.noticed
  split
  · dsimp only
    split
    · split
      · exact (hc.slotFreed _ _ _).trans (hc.count _ _ w)
      · exact hc.count _ _ w
    · rfl
  · rfl

end Backend.Counts

/-! ## 3. First steps -/

/-- What was counted in a first step: what was moved, and a request that was made. -/
structure Counted (counters : σ → Counters) (p : PageId) (s s' : System σ) (made : List Entry)
    (issued : Option Request) : Prop where
  order : (s'.pages.get p).order = (s.pages.get p).order
  counters : ∀ t, (counters s'.world).get t = (counters s.world).get t +
    UInt64.ofNat (movedBy (s.pages.get p).order t made +
      issued.elim 0 fun q => t.weight q.direction (s.pages.get p).order)

/-- **A first step of a call about page `p`**, with the entries and the request it makes. -/
structure Opening (b : Backend σ) (journal : σ → List Entry) (p : PageId) (s s' : System σ)
    (made : List Entry) (issued : Option Request) : Prop where
  pages : ∀ p' ≠ p, s'.pages.get p' = s.pages.get p'
  requests : s'.requests = issued.elim s.requests fun q =>
    s.requests.set s.requests.fresh (some q)
  page : ∀ q ∈ issued, q.page = p
  journal : journal s'.world = journal s.world ++ made
  mine : ∀ e ∈ made, e.Mine p
  counted : ∀ counters, b.Counts counters → Counted counters p s s' made issued

section

variable {b : Backend σ} {journal : σ → List Entry} {p : PageId} {s s₁ s' : System σ} {page : Page}
  {made made' : List Entry} {issued : Option Request}

/-- A step that changes one page and makes no request. -/
theorem Opening.of_page (hpages : s'.pages = s.pages.set p page)
    (hrequests : s'.requests = s.requests) (hjournal : journal s'.world = journal s.world ++ made)
    (hmine : ∀ e ∈ made, e.Mine p)
    (hcounted : ∀ counters, b.Counts counters → page.order = (s.pages.get p).order ∧
      ∀ t, (counters s'.world).get t =
        (counters s.world).get t + UInt64.ofNat (movedBy (s.pages.get p).order t made)) :
    Opening b journal p s s' made none where
  pages := fun p' hp' => by rw [hpages, Table.get_set_ne _ _ hp']
  requests := hrequests
  page := fun q hq => absurd hq (Option.not_mem_none q)
  journal := hjournal
  mine := hmine
  counted := fun counters hc => by
    obtain ⟨horder, hcounters⟩ := hcounted counters hc
    refine ⟨by rw [hpages, Table.get_set_self, horder], fun t => ?_⟩
    rw [hcounters, Option.elim_none, Nat.add_zero]

/-- A step in which somebody is asked, and nothing is moved. -/
theorem Opening.of_asked {e : Entry} (hpages : s'.pages = s.pages.set p page)
    (hrequests : s'.requests = s.requests) (hjournal : journal s'.world = journal s.world ++ [e])
    (hmine : e.Mine p) (hmoved : ∀ own t, e.moved own t = 0)
    (hcounts : ∀ counters, b.Counts counters →
      counters s'.world = counters s.world ∧ page.order = (s.pages.get p).order) :
    Opening b journal p s s' [e] none :=
  .of_page hpages hrequests hjournal (List.forall_mem_singleton.mpr hmine) fun counters hc => by
    obtain ⟨hcounters, horder⟩ := hcounts counters hc
    refine ⟨horder, fun t => ?_⟩
    rw [hcounters, movedBy_cons, hmoved]
    exact (UInt64.add_zero _).symm

/-- A step in which nobody is asked. -/
theorem Opening.of_alone (hpages : s'.pages = s.pages.set p page)
    (hrequests : s'.requests = s.requests) (hworld : s'.world = s.world)
    (horder : page.order = (s.pages.get p).order) : Opening b journal p s s' [] none :=
  .of_page hpages hrequests (by rw [hworld, List.append_nil])
    (fun _ he => absurd he List.not_mem_nil) fun counters _ =>
    ⟨horder, fun t => by rw [hworld]; exact (UInt64.add_zero _).symm⟩

/-- A step that leaves pages, requests and collaborators alone. -/
theorem Opening.of_same (hpages : s'.pages = s.pages) (hrequests : s'.requests = s.requests)
    (hworld : s'.world = s.world) : Opening b journal p s s' [] none where
  pages := fun _ _ => by rw [hpages]
  requests := hrequests
  page := fun q hq => absurd hq (Option.not_mem_none q)
  journal := by rw [hworld, List.append_nil]
  mine := fun _ he => absurd he List.not_mem_nil
  counted := fun _ _ =>
    ⟨by rw [hpages], fun _ => by rw [hworld]; exact (UInt64.add_zero _).symm⟩

/-- A step that makes a request, and moves nothing. -/
theorem Opening.of_request {q : Request} (hpages : s'.pages = s.pages.set p page)
    (hrequests : s'.requests = s.requests.set s.requests.fresh (some q)) (hpage : q.page = p)
    (hjournal : journal s'.world = journal s.world ++ made) (hmine : ∀ e ∈ made, e.Mine p)
    (hmoved : ∀ own t, movedBy own t made = 0) (horder : page.order = (s.pages.get p).order)
    (hcounters : ∀ counters, b.Counts counters → ∀ t, (counters s'.world).get t =
      (counters s.world).get t + UInt64.ofNat (t.weight q.direction (s.pages.get p).order)) :
    Opening b journal p s s' made (some q) where
  pages := fun p' hp' => by rw [hpages, Table.get_set_ne _ _ hp']
  requests := hrequests
  page := fun q' hq' => by rw [Option.mem_some.mp hq'] at hpage; exact hpage
  journal := hjournal
  mine := hmine
  counted := fun counters hc =>
    ⟨by rw [hpages, Table.get_set_self, horder], fun t => by
      rw [hmoved, Nat.zero_add]
      exact hcounters counters hc t⟩

/-- **First steps one after the other**; only the last one makes a request. -/
theorem Opening.trans (h : Opening b journal p s s₁ made none)
    (h' : Opening b journal p s₁ s' made' issued) :
    Opening b journal p s s' (made ++ made') issued where
  pages := fun p' hp' => (h'.pages p' hp').trans (h.pages p' hp')
  requests := by
    rw [h'.requests, h.requests]
    rfl
  page := h'.page
  journal := by rw [h'.journal, h.journal, List.append_assoc]
  mine := fun e he => (List.mem_append.mp he).elim (h.mine e) (h'.mine e)
  counted := fun counters hc => by
    have hfirst := h.counted counters hc
    have hsecond := h'.counted counters hc
    refine ⟨hsecond.order.trans hfirst.order, fun t => ?_⟩
    rw [hsecond.counters, hfirst.counters, hfirst.order, UInt64.add_assoc, ← UInt64.ofNat_add]
    simp only [Option.elim_none, Nat.add_zero, movedBy_append, Nat.add_assoc]

end

/-! ## 4. Writes -/

section

variable {b : Backend σ} {journal : σ → List Entry} {p : PageId} {s s' : System σ} {area : Area}
  {status : Status}

theorem DeviceWrite.opening (hj : b.Journals journal) {d : DeviceId} {w : Writeback}
    {ending : Ending} (h : DeviceWrite b area d p w ending s status s') :
    ∃ made issued, Opening b journal p s s' made issued := by
  cases h with
  | lost => exact ⟨_, _, .of_alone rfl rfl rfl rfl⟩
  | @direct sector bytes w₁ w₂ _ htransfer _ hcounted =>
    have hjournal := (hj.countedOut (s.pages.get p) w₁).trans (hj.transfer htransfer)
    rw [← hcounted] at hjournal
    refine ⟨_, _, .of_page rfl rfl hjournal (List.forall_mem_singleton.mpr rfl) fun _ hc => ?_⟩
    refine ⟨rfl, fun t => ?_⟩
    rw [hcounted, hc.countedOut, hc.transfer htransfer]
    rfl
  | crowded _ htransfer =>
    exact ⟨_, _, .of_asked rfl rfl (hj.transfer htransfer) rfl (fun _ _ => rfl)
      fun _ hc => ⟨hc.transfer htransfer, rfl⟩⟩
  | @issued sector e bytes w₁ w₂ dev _ htransfer _ _ _ hcounted =>
    have hjournal := (hj.countedOut (s.pages.get p) w₁).trans (hj.transfer htransfer)
    rw [← hcounted] at hjournal
    refine ⟨_, _, .of_request rfl rfl rfl hjournal (List.forall_mem_singleton.mpr rfl)
      (fun _ _ => rfl) rfl fun _ hc t => ?_⟩
    rw [hcounted, hc.countedOut, hc.transfer htransfer]
    rfl

theorem FileWrite.opening (hj : b.Journals journal) {f : FileId}
    (h : FileWrite b area f p s status s') :
    ∃ made issued, Opening b journal p s s' made issued := by
  cases h with
  | lost => exact ⟨_, _, .of_alone rfl rfl rfl rfl⟩
  | @full position w₁ w₂ _ hwrite _ hcounted =>
    have hjournal := (hj.countedOut (s.pages.get p) w₁).trans (hj.write hwrite)
    rw [← hcounted] at hjournal
    refine ⟨_, _, .of_page rfl rfl hjournal (List.forall_mem_singleton.mpr trivial)
      fun _ hc => ⟨rfl, fun t => ?_⟩⟩
    rw [hcounted, hc.countedOut, hc.write hwrite]
    simp [Entry.moved, movedAll, Page.size]
  | @short position result clean page w₁ w₂ _ hwrite hshort hdirtied =>
    refine ⟨_, _, .of_page rfl rfl ((hj.dirtied hdirtied).trans (hj.write hwrite))
      (List.forall_mem_singleton.mpr trivial) fun _ hc => ?_⟩
    obtain ⟨hcounters, horder⟩ := hc.dirtied hdirtied
    refine ⟨horder, fun t => ?_⟩
    rw [hcounters, hc.write hwrite]
    have hmoved : movedAll result (s.pages.get p).bytes.size.toUInt64 = false :=
      movedAll_eq_false hshort
    simp [Entry.moved, hmoved]

theorem SlotWrite.opening (hj : b.Journals journal) {w : Writeback} {ending : Ending}
    (h : SlotWrite b area p w ending s status s') :
    ∃ made issued, Opening b journal p s s' made issued := by
  cases h with
  | file _ h => exact h.opening hj
  | device _ h => exact h.opening hj

/-- A front store that declines leaves one entry, or none if it is absent. -/
theorem FrontDeclines.opening {ask : FrontStore σ → Page → σ → Except Fault ((Bool × Page) × σ)}
    {e : Entry} (hmine : e.Mine p) (hmoved : ∀ own t, e.moved own t = 0)
    (hjournal : ∀ {front page w page' w'}, b.front = some front →
      ask front page w = .ok ((false, page'), w') → journal w' = journal w ++ [e])
    (hcounts : ∀ counters, b.Counts counters → ∀ {front page w page' w'}, b.front = some front →
      ask front page w = .ok ((false, page'), w') →
        counters w' = counters w ∧ page'.order = page.order)
    (h : FrontDeclines b ask p s s') : ∃ made, Opening b journal p s s' made none := by
  cases h with
  | absent => exact ⟨_, .of_same rfl rfl rfl⟩
  | declined hfront hask =>
    exact ⟨_, .of_asked rfl rfl (hjournal hfront hask) hmine hmoved
      fun counters hc => hcounts counters hc hfront hask⟩

/-- The slot map keeps the slot, and the clock is read. -/
theorem opening_of_kept (hj : b.Journals journal) {m : SlotMapId} {page : Page} {w₁ w₂ : σ}
    (hfree : b.slotMaps.tryFree m p (s.pages.get p).clearDirty s.world = ((false, page), w₁))
    (hclock : Aside b w₁ w₂) :
    Opening b journal p s { s with pages := s.pages.set p page, world := w₂ } [.freed p false]
      none :=
  .of_asked rfl rfl ((hj.aside hclock).trans (hj.tryFree hfree)) rfl (fun _ _ => rfl) fun _ hc =>
    ⟨(hc.aside hclock).trans (hc.tryFree hfree).1, (hc.tryFree hfree).2⟩

theorem PageWrite.opening (hj : b.Journals journal) {w : Writeback}
    (h : PageWrite b p w s status s') : ∃ made issued, Opening b journal p s s' made issued := by
  cases h with
  | lost => exact ⟨_, _, .of_alone rfl rfl rfl rfl⟩
  | freed _ hfree =>
    exact ⟨_, _, .of_asked rfl rfl (hj.tryFree hfree) rfl (fun _ _ => rfl)
      fun _ hc => ⟨(hc.tryFree hfree).1, (hc.tryFree hfree).2⟩⟩
  | @stored area front page page' w₁ w₂ w₃ w₄ _ hfree _ hfront hstore _ hclock hclock' =>
    obtain ⟨w₅, n, hclock', rfl⟩ := hclock'
    have hkept := opening_of_kept (s := s) hj hfree hclock
    have hjournal : journal (b.statistics.accumulate n w₅) = journal w₂ ++ [.stored p true] :=
      (hj.accumulate _ _).trans ((hj.aside hclock').trans (hj.store hfront hstore))
    -- time spent in the front store is no tally
    refine ⟨_, _, hkept.trans (.of_page (Table.set_set _ _ _ _).symm rfl hjournal
      (List.forall_mem_singleton.mpr rfl) fun _ hc => ?_)⟩
    obtain ⟨hcounters, horder⟩ := hc.store hfront hstore
    refine ⟨by rw [Table.get_set_self]; exact horder, fun t => ?_⟩
    rw [hc.accumulate, Counters.get_addLatency, hc.aside hclock', hcounters]
    exact (UInt64.add_zero _).symm
  | @slot _ _ w₁ _ _ _ _ _ hfree _ hfront h hclock =>
    subst hclock
    obtain ⟨made, hdeclines⟩ := hfront.opening (e := .stored p false) rfl (fun _ _ => rfl)
      (fun hfront h => hj.store hfront h) fun _ hc _ _ _ _ _ hfront h => hc.store hfront h
    obtain ⟨made', issued, hslot⟩ := h.opening hj
    exact ⟨_, _, ((opening_of_kept hj hfree (.cycles w₁)).trans hdeclines).trans hslot⟩

end

/-! ## 5. Reads -/

section

variable {b : Backend σ} {journal : σ → List Entry} {p : PageId} {s s' : System σ} {area : Area}
  {status : Status}

theorem DeviceRead.opening (hj : b.Journals journal) {d : DeviceId}
    (h : DeviceRead b area d p s status s') :
    ∃ made issued, Opening b journal p s s' made issued := by
  cases h with
  | lost => exact ⟨_, _, .of_alone rfl rfl rfl rfl⟩
  | @direct sector bytes w₁ w₂ _ htransfer _ hcounted =>
    -- what concerns the slot comes after the transfer and moves nothing
    obtain ⟨news, hnews, habout⟩ := hj.noticed area s.devices (s.pages.get p).slot w₁
    have hjournal := (hj.record .pageIn _).trans hnews
    rw [← hcounted, hj.transfer htransfer, List.append_assoc] at hjournal
    refine ⟨_, _, .of_page rfl rfl hjournal ?_ fun _ hc => ⟨rfl, fun t => ?_⟩⟩
    · exact List.forall_mem_cons.mpr ⟨rfl, fun e he => (habout e he).mine p⟩
    · rw [hcounted, hc.record, Counters.get_add, hc.noticed, hc.transfer htransfer,
        List.singleton_append, movedBy_cons,
        movedBy_eq_zero fun e he => (habout e he).moved _ t]
      cases t <;> rfl
  | crowded _ htransfer =>
    exact ⟨_, _, .of_asked rfl rfl (hj.transfer htransfer) rfl (fun _ _ => rfl)
      fun _ hc => ⟨hc.transfer htransfer, rfl⟩⟩
  | @issued sector e bytes w₁ w₂ dev q _ htransfer _ _ hq _ hcounted =>
    have hjournal := (hj.record .pageIn w₁).trans (hj.transfer htransfer)
    rw [← hcounted] at hjournal
    have hpage : q.page = p ∧ q.direction = .read := by
      rcases hq with rfl | ⟨i, rfl⟩ <;> exact ⟨rfl, rfl⟩
    refine ⟨_, _, .of_request rfl rfl hpage.1 hjournal (List.forall_mem_singleton.mpr rfl)
      (fun _ _ => rfl) rfl fun _ hc t => ?_⟩
    rw [hcounted, hc.record, Counters.get_add, hc.transfer htransfer, hpage.2]
    cases t <;> rfl

theorem FileRead.opening (hj : b.Journals journal) {f : FileId}
    (h : FileRead b area f p s status s') :
    ∃ made issued, Opening b journal p s s' made issued := by
  cases h with
  | lost => exact ⟨_, _, .of_alone rfl rfl rfl rfl⟩
  | @read position result bytes w₁ w₂ _ hread _ hcounted =>
    have hjournal := hj.countedIn (readStatus result (s.pages.get p).size) w₁
    rw [← hcounted, hj.read hread] at hjournal
    refine ⟨_, _, .of_page rfl rfl hjournal (List.forall_mem_singleton.mpr trivial)
      fun _ hc => ⟨rfl, fun t => ?_⟩⟩
    rw [hcounted, hc.countedIn _ _ (s.pages.get p).order, hc.read hread, ← movedAll_eq]
    rfl

theorem SlotRead.opening (hj : b.Journals journal) (h : SlotRead b area p s status s') :
    ∃ made issued, Opening b journal p s s' made issued := by
  cases h with
  | file _ h => exact h.opening hj
  | device _ h => exact h.opening hj

theorem PageRead.opening (hj : b.Journals journal) {pace : Pace}
    (h : PageRead b p pace s status s') : ∃ made issued, Opening b journal p s s' made issued := by
  cases h with
  | lost => exact ⟨_, _, .of_alone rfl rfl rfl rfl⟩
  | loaded _ hfront hfill =>
    exact ⟨_, _, .of_asked rfl rfl (hj.fill hfront hfill) rfl (fun _ _ => rfl)
      fun _ hc => hc.fill hfront hfill⟩
  | @slot area w₂ s₁ _ _ _ hfront _ h hstall =>
    have hstall : Aside b s₁.world w₂ := hstall ▸ .enter _
    obtain ⟨made, hdeclines⟩ := hfront.opening (e := .filled p false) rfl (fun _ _ => rfl)
      (fun hfront h => hj.fill hfront h) fun _ hc _ _ _ _ _ hfront h => hc.fill hfront h
    obtain ⟨made', issued, hslot⟩ := h.opening hj
    have hstalled : Opening b journal p s { s₁ with world := w₂ } made none :=
      ⟨hdeclines.pages, hdeclines.requests, hdeclines.page,
        (hj.aside hstall).trans hdeclines.journal, hdeclines.mine, fun counters hc => by
          have hcounted := hdeclines.counted counters hc
          exact ⟨hcounted.order, fun t => by rw [hc.aside hstall, hcounted.counters]⟩⟩
    exact ⟨_, _, hstalled.trans hslot⟩

/-- **A call about a page begins with an opening for it**; one that is about none, with an opening
for any page. -/
theorem Call.Begun.opening (hj : b.Journals journal) {c : Call} (h : Call.Begun b s c status s')
    (hp : ∀ p' ∈ c.page?, p' = p) : ∃ made issued, Opening b journal p s s' made issued := by
  cases h with
  | areas => exact ⟨_, _, .of_same rfl rfl rfl⟩
  | out h => exact hp _ rfl ▸ h.opening hj
  | lost =>
    obtain rfl := hp _ rfl
    exact ⟨_, _, .of_alone rfl rfl rfl rfl⟩
  | past _ h => exact hp _ rfl ▸ h.opening hj
  | read h => exact hp _ rfl ▸ h.opening hj

end

end PageSwap
