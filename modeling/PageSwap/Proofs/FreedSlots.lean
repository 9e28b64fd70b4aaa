/-
# Slots that drivers are told are free

In a call, from its first step to the last completion inside a wait, a driver is told that a slot is
free when a page has been read from it and at no other time.  The page holds the content by then, is
locked, and is dirty, so it is written again before it is dropped.

* `Trace` -- a call with the reads in it that went well.
* `Told` -- what has been told in a call so far; `Call.Begun.told`, `lasting_told` -- it is what is
  due, after the first step and after every completion.
* `Steady` -- the steps of a run in which a page keeps its slot while it is being read.
* `slots_are_freed_once_and_in_time` -- in any call of such a run, what is told is what is due, each
  at its moment.
-/
import PageSwap.Proofs.CompletionOrder
import PageSwap.Proofs.Fetches

namespace PageSwap

variable {σ : Type}

/-! ## 1. A call, step by step -/

/-- **A driver carries out a read without error**: it is done with a request, or it transfers a page
at once. -/
inductive Fetched (b : Backend σ) (u : System σ) : Fetch σ → Prop
  | settled {f : Finish} {q : Request} {bytes : Bytes} {w : σ}
      (hq : u.requests.get f.request = some q) (hread : q.direction = .read)
      (hsettle : b.queues.settle (u.devices.get q.device).queue f q (u.pages.get q.page) u.world =
        .ok ((.ok (), bytes), w)) :
      Fetched b u (.settled u f.request q bytes w)
  | transferred {area : Area} {d : DeviceId} {p : PageId} {sector : UInt64} {bytes : Bytes} {w : σ}
      (hsector : area.sector (u.pages.get p).slot = .ok sector)
      (htransfer : b.queues.transfer (u.devices.get d).queue sector .read p
        { u.pages.get p with transfer := .reading } u.world = .ok ((.ok (), bytes), w)) :
      Fetched b u (.transferred u area d p sector bytes w)

/-- **A call so far, with its fetches**, oldest first.  It begins, or a read has got as far as its
slot; then its driver fetches a page, requests are finished, and collaborators do things in
passing. -/
inductive Trace (b : Backend σ) (c : Call) (s : System σ) : List (Fetch σ) → System σ → Prop
  | begun {status : Status} {u : System σ} (h : Call.Begun b s c status u) : Trace b c s [] u
  | declined {p : PageId} {pace : Pace} {u : System σ} (hc : c = .pageIn p pace)
      (h : FrontDeclines b (FrontStore.fill · p pace) p s u) : Trace b c s [] u
  | fetched {xs : List (Fetch σ)} {x : Fetch σ} {u v : System σ} (h : Trace b c s xs u)
      (hx : Fetched b u x) (hend : x.ending b x.state = .ok ((), v)) : Trace b c s (xs ++ [x]) v
  | finished {xs : List (Fetch σ)} {u : System σ} {f : Finish} {q : Request} {status : Status}
      {bytes : Bytes} {w : σ} (h : Trace b c s xs u) (hq : u.requests.get f.request = some q)
      (hsettle : b.queues.settle (u.devices.get q.device).queue f q (u.pages.get q.page) u.world =
        .ok ((status, bytes), w))
      (hother : q.direction = .read → status ≠ .ok ()) :
      Trace b c s xs (u.finished b f.request q status bytes w)
  | aside {xs : List (Fetch σ)} {u : System σ} {w : σ} (h : Trace b c s xs u)
      (haside : Aside b u.world w) : Trace b c s xs { u with world := w }
  | blind {xs : List (Fetch σ)} {u : System σ} (h : Trace b c s xs u) (sleepers : Table Sleeper)
      (console : Console) (limiter : RateLimit) :
      Trace b c s xs { u with sleepers, console, limiter }

/-- **What is told in a call so far**: `xs` are its fetches, the entries that matter are those of
the fetches with what is due after each, and each is sound. -/
structure Told (b : Backend σ) (journal : σ → List Entry) (c : Call) (s : System σ)
    (xs : List (Fetch σ)) (s' : System σ) : Prop where
  trace : Trace b c s xs s'
  grown : Grown journal s.world s'.world (xs.flatMap (Fetch.entries b))
  sound : ∀ x ∈ xs, x.Sound b journal

/-! ## 2. First steps -/

/-- Every request to read is for the sector of the slot that its page has. -/
def System.OwnSlots (s : System σ) : Prop :=
  ∀ r q, s.requests.get r = some q → q.direction = .read →
    q.area.sector (s.pages.get q.page).slot = .ok q.sector

/-- There is no request for the page. -/
def System.Unasked (s : System σ) (p : PageId) : Prop :=
  ∀ r q, s.requests.get r = some q → q.page ≠ p

/-- **A step about page `p`**, with the entries of it that matter; requests to read stay with the
slots of their pages. -/
structure Noted (journal : σ → List Entry) (p : PageId) (s s' : System σ) (es : List Entry) :
    Prop where
  grown : Grown journal s.world s'.world es
  own : s.OwnSlots → s.Unasked p → s'.OwnSlots

section

variable {b : Backend σ} {journal : σ → List Entry} {p : PageId} {s s₁ s' : System σ} {area : Area}
  {d : DeviceId} {status : Status} {es es' : List Entry}

/-- A step that changes a page without a request. -/
theorem Noted.of_page {page : Page} {w : σ} (h : Grown journal s.world w es) :
    Noted journal p s { s with pages := s.pages.set p page, world := w } es where
  grown := h
  own := fun hown hfree r q hq hread => by
    change q.area.sector ((s.pages.set p page).get q.page).slot = _
    rw [Table.get_set_ne _ _ (hfree r q hq)]
    exact hown r q hq hread

/-- A step that makes a request for a page without one. -/
theorem Noted.of_request {q : Request} {page : Page} {devices : Table Device} {w : σ}
    (h : Grown journal s.world w es) (hpage : q.page = p)
    (hq : q.direction = .read → q.area.sector page.slot = .ok q.sector) :
    Noted journal p s { s with
      pages := s.pages.set p page, devices
      requests := s.requests.set s.requests.fresh (some q), world := w } es where
  grown := h
  own := fun hown hfree r q' hq' hread => by
    change (s.requests.set s.requests.fresh (some q)).get r = some q' at hq'
    change q'.area.sector ((s.pages.set p page).get q'.page).slot = _
    rw [Table.get_set] at hq'
    split at hq'
    · obtain rfl := Option.some.inj hq'
      rw [hpage, Table.get_set_self]
      exact hq hread
    · rw [Table.get_set_ne _ _ (hfree r q' hq')]
      exact hown r q' hq' hread

theorem Noted.trans (h : Noted journal p s s₁ es) (hrequests : s₁.requests = s.requests)
    (h' : Noted journal p s₁ s' es') : Noted journal p s s' (es ++ es') where
  grown := h.grown.trans h'.grown
  own := fun hown hfree => h'.own (h.own hown hfree) fun r q hq => hfree r q (hrequests ▸ hq)

theorem DeviceWrite.noted (hj : b.Journals journal) {w : Writeback} {ending : Ending}
    (h : DeviceWrite b area d p w ending s status s') : Noted journal p s s' [] := by
  cases h with
  | lost => exact .of_page (.of_eq rfl)
  | direct _ htransfer _ hcounted =>
    subst hcounted
    exact .of_page (.of_entry ((hj.countedOut _ _).trans (hj.transfer htransfer)) rfl)
  | crowded _ htransfer => exact .of_page (.of_entry (hj.transfer htransfer) rfl)
  | issued _ htransfer _ _ _ hcounted =>
    subst hcounted
    exact .of_request (.of_entry ((hj.countedOut _ _).trans (hj.transfer htransfer)) rfl) rfl nofun

theorem FileWrite.noted (hj : b.Journals journal) {f : FileId}
    (h : FileWrite b area f p s status s') : Noted journal p s s' [] := by
  cases h with
  | lost => exact .of_page (.of_eq rfl)
  | full _ hwrite _ hcounted =>
    subst hcounted
    exact .of_page (.of_entry ((hj.countedOut _ _).trans (hj.write hwrite)) rfl)
  | short _ hwrite _ hdirtied =>
    exact .of_page (.of_entry ((hj.dirtied hdirtied).trans (hj.write hwrite)) rfl)

theorem SlotWrite.noted (hj : b.Journals journal) {w : Writeback} {ending : Ending}
    (h : SlotWrite b area p w ending s status s') : Noted journal p s s' [] := by
  cases h with
  | file _ h => exact h.noted hj
  | device _ h => exact h.noted hj

theorem PageWrite.noted (hj : b.Journals journal) {w : Writeback}
    (h : PageWrite b p w s status s') : Noted journal p s s' [] := by
  cases h with
  | lost => exact .of_page (.of_eq rfl)
  | freed _ hfree => exact .of_page (.of_entry (hj.tryFree hfree) rfl)
  | stored _ hfree _ hfront hstore _ hclock hclock' =>
    obtain ⟨w₅, n, hclock', rfl⟩ := hclock'
    have hstored := (hj.accumulate n w₅).trans ((hj.aside hclock').trans (hj.store hfront hstore))
    exact .of_page (.trans (.of_entry ((hj.aside hclock).trans (hj.tryFree hfree)) rfl)
      (.of_entry hstored rfl))
  | @slot area page w₁ w₂ s₁ _ _ _ hfree _ hfront h hclock =>
    have hclock : Aside b w₁ w₂ := hclock ▸ .cycles w₁
    have hkept : Noted journal p s { s with pages := s.pages.set p page, world := w₂ } [] :=
      .of_page (.of_entry ((hj.aside hclock).trans (hj.tryFree hfree)) rfl)
    cases hfront with
    | absent => exact hkept.trans rfl (h.noted hj)
    | declined hfront hstore =>
      exact hkept.trans rfl ((Noted.of_page (.of_entry (hj.store hfront hstore) rfl)).trans rfl
        (h.noted hj))

theorem FileRead.noted (hj : b.Journals journal) {f : FileId}
    (h : FileRead b area f p s status s') : Noted journal p s s' [] := by
  cases h with
  | lost => exact .of_page (.of_eq rfl)
  | read _ hread _ hcounted =>
    subst hcounted
    exact .of_page (.of_entry ((hj.countedIn _ _).trans (hj.read hread)) rfl)

/-- **Reading from a device** lets nobody be told, or it is a fetch without a request. -/
theorem DeviceRead.noted (hj : b.Journals journal) (hdevice : area.backing.device? = some d)
    (hlocked : (s.pages.get p).flags.locked = true) (h : DeviceRead b area d p s status s') :
    Noted journal p s s' [] ∨ ∃ x, Fetched b s x ∧ x.ending b x.state = .ok ((), s') ∧
      x.Sound b journal ∧ Noted journal p s s' (x.entries b) := by
  cases h with
  | lost => exact .inl (.of_page (.of_eq rfl))
  | @direct sector bytes w₁ w₂ hsector htransfer _ hcounted =>
    subst hcounted
    refine .inr ⟨_, .transferred hsector htransfer, Fetch.ending_transferred _ _ _ hlocked,
      Fetch.sound_transferred hj _ _ hlocked hdevice hsector, .of_page ?_⟩
    have hgrown := (Grown.of_matters (hj.transfer htransfer) rfl).trans
      ((hj.grown_noticed area s.devices (s.pages.get p).slot w₁).trans
        (.of_eq (hj.record .pageIn _)))
    rw [Fetch.entries_transferred]
    rwa [List.append_nil] at hgrown
  | crowded _ htransfer => exact .inl (.of_page (.of_entry (hj.transfer htransfer) rfl))
  | issued hsector htransfer _ _ hq _ hcounted =>
    subst hcounted
    have hgrown := Grown.of_entry ((hj.record .pageIn _).trans (hj.transfer htransfer)) rfl
    rcases hq with rfl | ⟨i, rfl⟩
    · exact .inl (.of_request hgrown rfl fun _ => hsector)
    · exact .inl (.of_request hgrown rfl fun _ => hsector)

end

section

variable {b : Backend σ} {journal : σ → List Entry} {s s' : System σ} {c : Call} {status : Status}

/-- A front store that declines a page is a step about the page. -/
theorem FrontDeclines.noted {p : PageId} {pace : Pace} (hj : b.Journals journal)
    (h : FrontDeclines b (FrontStore.fill · p pace) p s s') :
    Noted journal p s s' [] ∧ s'.requests = s.requests := by
  cases h with
  | absent => exact ⟨⟨.of_eq rfl, fun hown _ => hown⟩, rfl⟩
  | declined hfront hfill => exact ⟨.of_page (.of_entry (hj.fill hfront hfill) rfl), rfl⟩

/-- **A read that has begun** has told what is due. -/
theorem PageRead.told (hb : Lawful b) (hj : b.Journals journal) {p : PageId} {pace : Pace}
    (hheld : (s.pages.get p).Held) (hfree : s.Unasked p) (hown : s.OwnSlots)
    (h : PageRead b p pace s status s') :
    s'.OwnSlots ∧ ∃ xs, Told b journal (.pageIn p pace) s xs s' := by
  have hnone : Noted journal p s s' [] →
      s'.OwnSlots ∧ ∃ xs, Told b journal (.pageIn p pace) s xs s' := fun hn =>
    ⟨hn.own hown hfree, [], .begun (.read h), hn.grown, fun _ hx => absurd hx List.not_mem_nil⟩
  cases h with
  | lost => exact hnone (.of_page (.of_eq rfl))
  | loaded _ hfront hfill => exact hnone (.of_page (.of_entry (hj.fill hfront hfill) rfl))
  | @slot area w₂ s₁ _ _ _ hfront _ hread hstall =>
    have hstall : Aside b s₁.world w₂ := hstall ▸ .enter _
    obtain ⟨hfirst, hrequests⟩ := hfront.noted hj
    have hstalled : Noted journal p s { s₁ with world := w₂ } [] :=
      ⟨hfirst.grown.trans (.of_eq (hj.aside hstall)), hfirst.own⟩
    cases hread with
    | file _ hread => exact hnone (hstalled.trans hrequests (hread.noted hj))
    | device hdevice hread =>
      have hlocked : (({ s₁ with world := w₂ } : System σ).pages.get p).flags.locked = true :=
        (hfront.held (fun hfront h => hb.mindsReads hfront h) hheld).1
      rcases hread.noted hj hdevice hlocked with hplain | ⟨x, hx, hend, hsound, hnoted⟩
      · exact hnone (hstalled.trans hrequests hplain)
      · have hall := hstalled.trans hrequests hnoted
        refine ⟨hall.own hown hfree, [x], .fetched (.aside (.declined rfl hfront) hstall) hx hend,
          ?_, fun y hy => List.mem_singleton.mp hy ▸ hsound⟩
        rw [List.flatMap_singleton]
        exact hall.grown

/-- **A call that has begun** has told what is due. -/
theorem Call.Begun.told (hb : Lawful b) (hj : b.Journals journal) (hs : s.Coherent)
    (hown : s.OwnSlots) (hallowed : c.Allowed s) (h : Call.Begun b s c status s') :
    s'.OwnSlots ∧ ∃ xs, Told b journal c s xs s' := by
  have hbegun := Trace.begun h
  have hnone : ∀ p, (s.pages.get p).Held → Noted journal p s s' [] →
      s'.OwnSlots ∧ ∃ xs, Told b journal c s xs s' := fun p hheld hn =>
    ⟨hn.own hown (hs.no_request hheld.2), [], hbegun, hn.grown,
      fun _ hx => absurd hx List.not_mem_nil⟩
  cases h with
  | areas => exact ⟨hown, [], hbegun, .of_eq rfl, fun _ hx => absurd hx List.not_mem_nil⟩
  | out h => exact hnone _ hallowed (h.noted hj)
  | lost => exact hnone _ hallowed (.of_page (.of_eq rfl))
  | past _ h => exact hnone _ hallowed (h.noted hj)
  | read h => exact h.told hb hj hallowed.1 (hs.no_request hallowed.1.2) hown

end

/-! ## 3. Completions -/

section

variable {b : Backend σ} {journal : σ → List Entry} {s u : System σ} {c : Call} {f : Finish}
  {q : Request} {status : Status} {bytes : Bytes} {w : σ} {xs : List (Fetch σ)}

/-- A request that is finished leaves the slots of all pages as they are. -/
theorem System.OwnSlots.finished (h : u.OwnSlots) (r : RequestId) :
    (u.finished b r q status bytes w).OwnSlots := by
  intro r' q' hq' hread
  change (u.requests.set r none).get r' = some q' at hq'
  change q'.area.sector ((u.pages.set q.page _).get q'.page).slot = _
  have hold : u.requests.get r' = some q' := by
    rw [Table.get_set] at hq'
    split at hq'
    · exact absurd hq' nofun
    · exact hq'
  rw [Table.get_set]
  split
  · rename_i hpage
    rw [Page.ended_slot, ← hpage]
    exact h r' q' hold hread
  · exact h r' q' hold hread

/-- **A read that is finished without error** is one more fetch. -/
theorem Told.fetched (hj : b.Journals journal) (h : Told b journal c s xs u) (hr : Ready u q)
    (hdevice : q.area.backing.device? = some q.device)
    (hslot : q.area.sector (u.pages.get q.page).slot = .ok q.sector) (hread : q.direction = .read)
    (hq : u.requests.get f.request = some q)
    (hsettle : b.queues.settle (u.devices.get q.device).queue f q (u.pages.get q.page) u.world =
      .ok ((.ok (), bytes), w)) :
    Told b journal c s (xs ++ [.settled u f.request q bytes w])
      (u.finished b f.request q (.ok ()) bytes w) := by
  obtain ⟨console, hend⟩ := Fetch.ending_settled (b := b) bytes w hr hread (r := f.request)
  refine ⟨?_, ?_, fun x hx => ?_⟩
  · -- the ending has logged a line
    have htrace := h.trace.fetched (.settled hq hread hsettle) hend
    exact htrace.blind _ u.console u.limiter
  · have hmatters : (Entry.settled (u.devices.get q.device).queue q (u.pages.get q.page).order
        (.ok ())).matters = true := decide_eq_true hread
    have hworld : (u.finished b f.request q (.ok ()) bytes w).world =
        (noticed b q.area u.devices (u.pages.get q.page).slot w).2 := by
      unfold System.finished noticedBy
      rw [hread]
    rw [List.flatMap_append, List.flatMap_singleton, Fetch.entries_settled, hworld]
    exact h.grown.trans ((Grown.of_matters (hj.settle hsettle) hmatters).trans
      (hj.grown_noticed _ _ _ _))
  · rcases List.mem_append.mp hx with hx | hx
    · exact h.sound x hx
    · rw [List.mem_singleton.mp hx]
      exact Fetch.sound_settled hj bytes w hr hread hdevice hslot

/-- **A write, or a read that fails**, is finished, and nobody is told. -/
theorem Told.finished (hj : b.Journals journal) (h : Told b journal c s xs u)
    (hother : q.direction = .read → status ≠ .ok ()) (hq : u.requests.get f.request = some q)
    (hsettle : b.queues.settle (u.devices.get q.device).queue f q (u.pages.get q.page) u.world =
      .ok ((status, bytes), w)) :
    Told b journal c s xs (u.finished b f.request q status bytes w) := by
  refine ⟨h.trace.finished hq hsettle hother, ?_, h.sound⟩
  have hworld : (u.finished b f.request q status bytes w).world = w := by
    unfold System.finished noticedBy
    dsimp only
    split
    · rename_i hread
      exact absurd rfl (hother hread)
    · rfl
  have hmatters : (Entry.settled (u.devices.get q.device).queue q (u.pages.get q.page).order
      status).matters = false := by
    cases status with
    | ok v => exact decide_eq_false fun hread => hother hread rfl
    | error e => rfl
  rw [hworld]
  have hgrown := h.grown.trans (.of_entry (hj.settle hsettle) hmatters)
  rwa [List.append_nil] at hgrown

/-- **Completions and bookkeeping tell what is due**, and nothing else. -/
theorem lasting_told (hb : Lawful b) (hj : b.Journals journal) (t : Table Device) (c : Call)
    (s : System σ) : Lasting b (¬ ·.Assertion) fun s' =>
      s'.TracedSince t ∧ s'.OwnSlots ∧ ∃ xs, Told b journal c s xs s' where
  tolerant := hb.tolerant
  blind := fun sleepers console limiter ⟨hsince, hown, xs, h⟩ =>
    ⟨(lasting_traced hb t).blind sleepers console limiter hsince, hown, xs,
      h.trace.blind sleepers console limiter, h.grown, h.sound⟩
  aside := fun ⟨hsince, hown, xs, h⟩ haside => by
    have hgrown := h.grown.trans (.of_eq (hj.aside haside))
    rw [List.append_nil] at hgrown
    exact ⟨(lasting_traced hb t).aside hsince haside, hown, xs, h.trace.aside haside, hgrown,
      h.sound⟩
  ready := fun h hq => (lasting_traced hb t).ready h.1 hq
  finished := fun {u f q status bytes w} ⟨hsince, hown, xs, h⟩ hq hsettle => by
    refine ⟨(lasting_traced hb t).finished hsince hq hsettle, hown.finished _, ?_⟩
    by_cases hgood : q.direction = .read ∧ status = .ok ()
    · obtain ⟨hread, rfl⟩ := hgood
      exact ⟨_, h.fetched hj (hsince.1.coherent.ready hq) (hsince.2 _ _ hq).device
        (hown _ _ hq hread) hread hq hsettle⟩
    · exact ⟨xs, h.finished hj (fun hread hok => hgood ⟨hread, hok⟩) hq hsettle⟩

/-- **A call tells what is due.** -/
theorem Call.run_told (hb : Lawful b) (hj : b.Journals journal) {t : Table Device}
    (hsince : s.TracedSince t) (hown : s.OwnSlots) (hallowed : c.Allowed s) :
    (c.run b).wp (fun _ s' => s'.TracedSince t ∧ s'.OwnSlots ∧ ∃ xs, Told b journal c s xs s')
      (¬ ·.Assertion) s :=
  Call.run_begun hb (fun _ => lasting_told hb hj t c s) hallowed fun _ _ hbegun =>
    ⟨⟨hbegun.coherent hb hsince.1 hallowed, hbegun.traced hsince.2⟩,
      hbegun.told hb hj hsince.1.coherent hown hallowed⟩

end

/-! ## 4. Runs -/

/-- **A step of a run in which a page keeps its slot while it is being read.** -/
inductive Steady (b : Backend σ) : System σ → System σ → Prop
  | call {c : Call} {s s' : System σ} {status : Status} (hallowed : c.Allowed s)
      (hrun : c.run b s = .ok (status, s')) : Steady b s s'
  | edit {s : System σ} {p : PageId} {page : Page}
      (htransfer : page.transfer = (s.pages.get p).transfer)
      (hlocked : (s.pages.get p).transfer = .reading → (s.pages.get p).flags.locked = true →
        page.flags.locked = true)
      (hslot : (s.pages.get p).transfer = .reading → page.slot = (s.pages.get p).slot) :
      Steady b s { s with pages := s.pages.set p page }
  | attach {s : System σ} {d : Device} (hnew : d.inflight = 0) :
      Steady b s { s with devices := s.devices.set s.devices.fresh d }
  | elsewhere {s : System σ} (w : σ) : Steady b s { s with world := w }

section

variable {b : Backend σ} {journal : σ → List Entry} {s₀ s s' : System σ}

theorem Steady.step (h : Steady b s s') : Step b s s' := by
  cases h with
  | call hallowed hrun => exact .call hallowed hrun
  | edit htransfer hlocked _ => exact .edit htransfer hlocked
  | attach hnew => exact .attach hnew
  | elsewhere w => exact .elsewhere w

theorem reaches_of_steady (hrun : Relation.ReflTransGen (Steady b) s s') : Reaches b s s' :=
  Relation.ReflTransGen.mono (fun _ _ h => h.step) _ _ hrun

/-- **Requests to read stay with the slots of their pages.** -/
theorem ownSlots_of_steady (hb : Lawful b) (hj : b.Journals journal) (hquiet : s₀.Quiet)
    (hrun : Relation.ReflTransGen (Steady b) s₀ s) : s.OwnSlots := by
  induction hrun with
  | refl => exact fun r q hq => absurd ((hquiet.requests r).symm.trans hq) nofun
  | @tail s s' hbefore hstep ih =>
    have hreach := reaches_of_steady hbefore
    have hs := coherent_of_reaches hb hquiet hreach
    cases hstep with
    | call hallowed hrun =>
      have hsince : s.TracedSince s.devices := ⟨hs.since, traced_of_reaches hb hquiet hreach⟩
      exact ((Call.run_told hb hj hsince ih hallowed).of_ok hrun).2.1
    | @edit _ p page _ _ hslot =>
      intro r q hq hread
      change q.area.sector ((s.pages.set p page).get q.page).slot = _
      rw [Table.get_set]
      split
      · rename_i hp
        have hreading := hs.transfer hq
        rw [hread, hp] at hreading
        rw [hslot hreading, ← hp]
        exact ih r q hq hread
      · exact ih r q hq hread
    | attach => exact ih
    | elsewhere w => exact ih

end

/-- **Drivers are told of free slots once, and in time.**  In a state `s` that a run reaches from a
quiet one, in which pages keep their slots while they are being read, a call is made.  Then there
are the fetches `xs` of this call -- the reads from a device, by request or without one, that went
well -- such that

* of the entries that the call leaves in the journal, those of reads from a device that went well
  and of drivers that were told are the ones of the fetches, in this order: each read, and then what
  is due after it, which is one notice at most;
* each fetch was from the slot of its page; its ending gets to a state `t`, tells the driver there
  what is due, and closes.  If something is due then in `t` the page is locked, valid, not errored
  and dirty already, and holds what was read; the slot is its own, and the driver is the one it was
  read from. -/
theorem slots_are_freed_once_and_in_time {b : Backend σ} {journal : σ → List Entry} (hb : Lawful b)
    (hj : b.Journals journal) {s₀ s : System σ} (hquiet : s₀.Quiet)
    (hrun : Relation.ReflTransGen (Steady b) s₀ s) {c : Call} (hallowed : c.Allowed s)
    {status : Status} {s' : System σ} (hok : c.run b s = .ok (status, s')) :
    ∃ news xs, journal s'.world = journal s.world ++ news ∧ Trace b c s xs s' ∧
      news.filter Entry.matters = xs.flatMap (Fetch.entries b) ∧ ∀ x ∈ xs, x.Sound b journal := by
  have hreach := reaches_of_steady hrun
  have hsince : s.TracedSince s.devices :=
    ⟨(coherent_of_reaches hb hquiet hreach).since, traced_of_reaches hb hquiet hreach⟩
  obtain ⟨-, -, xs, htrace, ⟨news, hnews, hmatters⟩, hsound⟩ :=
    (Call.run_told hb hj hsince (ownSlots_of_steady hb hj hquiet hrun) hallowed).of_ok hok
  exact ⟨news, xs, hnews, htrace, hmatters, hsound⟩

/-- Page 1 is being read. -/
def journalReading : System (RamDisk × Journal) :=
  (Call.pageIn 1 .start).after journalDisk journalUp

/-- It has been read. -/
def journalFetched : System (RamDisk × Journal) :=
  (Call.finish ⟨0, none⟩).after journalDisk journalReading

/-- **The driver is told that slot 2 is free** once page 1 has been read from it, and at that moment
the page is locked and dirty. -/
theorem slot_two_is_freed : ∃ xs x t,
    Trace journalDisk (.finish ⟨0, none⟩) journalReading xs journalFetched ∧ x ∈ xs ∧
      x.upToNotice journalDisk x.state = .ok (some (0, 2), t) ∧
      (t.pages.get x.job.page).flags.locked = true ∧
      (t.pages.get x.job.page).flags.dirty = true := by
  have hup := @Call.run_after _ journalDisk (.swapOn (ramSpec (.device 0)) 8) journalStart
    (by decide +kernel)
  have hin := @Call.run_after _ journalDisk (.pageIn 1 .start) journalUp (by decide +kernel)
  have hend : (Call.finish ⟨0, none⟩).run journalDisk journalReading =
      .ok (.ok (), journalFetched) := Call.run_after (by decide +kernel)
  have hrun : Relation.ReflTransGen (Steady journalDisk) journalStart journalReading :=
    .tail (.single (.call (c := .swapOn (ramSpec (.device 0)) 8) trivial hup))
      (.call (c := .pageIn 1 .start)
        ⟨⟨by decide +kernel, by decide +kernel⟩, by decide +kernel⟩ hin)
  obtain ⟨news, xs, hnews, htrace, hmatters, hsound⟩ := slots_are_freed_once_and_in_time
    journalDisk_lawful journalDisk_journals journalStart_quiet hrun (c := .finish ⟨0, none⟩) trivial
    hend
  have hnews' : journalFetched.world.2.entries.drop journalReading.world.2.entries.length =
      news := by
    rw [hnews, List.drop_left]
  have htold : (journalFetched.world.2.entries.drop journalReading.world.2.entries.length).any
      (·.notice? = some (0, 2)) = true := by decide +kernel
  rw [hnews'] at htold
  obtain ⟨e, he, htells⟩ := List.any_eq_true.mp htold
  cases e with
  | told queue offset =>
    obtain ⟨rfl, rfl⟩ : queue = 0 ∧ offset = 2 := by simpa [Entry.notice?] using htells
    have hfetch : Entry.told 0 2 ∈ xs.flatMap (Fetch.entries journalDisk) := by
      rw [← hmatters]
      exact List.mem_filter.mpr ⟨he, rfl⟩
    obtain ⟨x, hx, hin⟩ := List.mem_flatMap.mp hfetch
    obtain ⟨n, t, hrun, ⟨rfl, hmoment⟩, -⟩ := (hsound x hx).told
    have hnotice := Fetch.notice_of_told hin
    rw [hnotice] at hrun hmoment
    obtain ⟨-, hnow⟩ := hmoment 0 2 rfl
    exact ⟨xs, x, t, htrace, hx, hrun, hnow.locked, hnow.dirty⟩
  | _ => simp [Entry.notice?] at htells

end PageSwap
