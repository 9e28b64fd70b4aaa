/-
# What a transfer makes of its page

A transfer is over at once, or it is handed over as a request that ends later, in a completion that
comes whenever the driver likes, while others go on with other pages.  What the page looks like in
between and afterwards depends on what the call left and on how its request ended, and on nothing
else that happens.

* `Entry.ended`, `Entry.Late` -- the end of a request, and what else a completion notes.
* `Area.place` -- the sector of a slot, or its position in a file.
* `Fate` -- what transfers of a direction make of the flags of a page.
* `Fate.Tracks`, `Fate.lasting` -- the page fits what the journal says, whatever is finished.
* `Others`, `Fate.Tracks.meanwhile` -- and whatever others do meanwhile.
-/
import PageSwap.Proofs.Openings

namespace PageSwap

variable {σ : Type}

/-! ## 1. What a completion notes -/

namespace Entry

/-- A request for the page ended, without an error or with one. -/
def ended (p : PageId) (ok : Bool) : Entry → Bool
  | .settled _ q _ status => q.page = p && status.isOk == ok
  | _ => false

/-- The entry comes from a completion. -/
inductive Late : Entry → Prop
  | settled (queue : QueueId) (q : Request) (order : UInt32) (status : Status) :
      Late (.settled queue q order status)
  | counted (m : SlotMapId) (offset : UInt64) : Late (.counted m offset)
  | told (queue : QueueId) (offset : UInt64) : Late (.told queue offset)

variable {p' : PageId} {e : Entry}

theorem About.late {area : Area} {devices : Table Device} (h : e.About area devices) : e.Late := by
  cases h with
  | counted => exact .counted _ _
  | told => exact .told _ _

theorem Mine.ended (h : e.Mine p') (p : PageId) (ok : Bool) : e.ended p ok = false := by
  cases e with
  | settled => exact h.elim
  | _ => rfl

end Entry

/-- No request ended in what a call did by itself. -/
theorem any_ended_of_mine {es : List Entry} {p' : PageId} (h : ∀ e ∈ es, e.Mine p') (p : PageId)
    (ok : Bool) : es.any (Entry.ended p ok) = false :=
  List.any_eq_false.mpr fun e he => by rw [(h e he).ended]; exact Bool.false_ne_true

/-- Tests that agree on what completions note agree on entries that they have noted. -/
theorem any_congr_of_late {es : List Entry} (h : ∀ e ∈ es, e.Late) {f g : Entry → Bool}
    (hfg : ∀ e : Entry, e.Late → f e = g e) : es.any f = es.any g := by
  induction es with
  | nil => rfl
  | cons e es ih =>
    rw [List.any_cons, List.any_cons, hfg e (h e List.mem_cons_self),
      ih fun e he => h e (List.mem_cons_of_mem _ he)]

/-! ## 2. Where a slot is -/

/-- The place of a slot: a sector, or a position in a file. -/
def Area.place (area : Area) (slot : Option Slot) : Except Stop UInt64 :=
  match area.backing with
  | .file _ => (area.position slot).mapError .refused
  | _ => area.sector slot

theorem Area.place_of_file {area : Area} {f : FileId} (h : area.backing = .file f)
    (slot : Option Slot) : area.place slot = (area.position slot).mapError .refused := by
  unfold place
  rw [h]

theorem Area.place_of_device {area : Area} {d : DeviceId} (h : area.backing.device? = some d)
    (slot : Option Slot) : area.place slot = area.sector slot := by
  unfold place
  cases hbacking : area.backing with
  | file f => rw [hbacking] at h; exact absurd h nofun
  | device d' => rfl
  | mapped f d' => rfl

/-- The slot of page `p` leads nowhere: it is in no area, or the area has no place for it. -/
def System.Misplaced (s : System σ) (p : PageId) : Prop :=
  s.areaAt p = none ∨
    ∃ area why, s.areaAt p = some area ∧ area.place (s.pages.get p).slot = .error (.refused why)

/-! ## 3. The flags of the page -/

/-- **What transfers of a direction make of the flags of a page**: how they are while there is a
request, and how they are afterwards, by whether a request ended without an error or with one. -/
structure Fate where
  direction : Direction
  pending : Flags → Prop
  settled : (ended failed : Bool) → Flags → Prop
  /-- The end of the request leads from one to the other. -/
  ends : ∀ {page : Page} (status : Status) (bytes : Bytes) (freed : Bool), pending page.flags →
    settled status.isOk (!status.isOk) (page.ended direction status bytes freed).flags

namespace Fate

variable {F : Fate} {p : PageId}

/-- Page `p` shows its fate. -/
structure Shows (F : Fate) (p : PageId) (ended failed : Bool) (s : System σ) : Prop where
  pending : ∀ r q, s.requests.get r = some q → q.page = p →
    q.direction = F.direction ∧ ended = false ∧ failed = false ∧ F.pending (s.pages.get p).flags
  settled : (∀ r q, s.requests.get r = some q → q.page ≠ p) →
    F.settled ended failed (s.pages.get p).flags

/-- The transfer is over at once. -/
theorem Shows.of_settled {s : System σ} {ended failed : Bool}
    (hno : ∀ r q, s.requests.get r = some q → q.page ≠ p)
    (h : F.settled ended failed (s.pages.get p).flags) : F.Shows p ended failed s :=
  ⟨fun r q hq hp => absurd hp (hno r q hq), fun _ => h⟩

/-- The transfer is handed over, as the page's one request. -/
theorem Shows.of_issued {s : System σ} {requests : Table (Option Request)} {q : Request}
    (hrequests : s.requests = requests.set requests.fresh (some q))
    (hno : ∀ r q', requests.get r = some q' → q'.page ≠ p) (hpage : q.page = p)
    (hdirection : q.direction = F.direction) (h : F.pending (s.pages.get p).flags) :
    F.Shows p false false s := by
  refine ⟨fun r q' hq' hp => ?_, fun hnone => ?_⟩
  · rw [hrequests] at hq'
    by_cases hr : r = requests.fresh
    · subst hr
      obtain rfl := Option.some.inj ((Table.get_set_self _ _ _).symm.trans hq')
      exact ⟨hdirection, rfl, rfl, h⟩
    · exact absurd hp (hno r q' ((Table.get_set_ne _ _ hr).symm.trans hq'))
  · exact absurd hpage (hnone requests.fresh q (by rw [hrequests, Table.get_set_self]))

/-- A step that neither changes the page nor makes or ends a request for it. -/
theorem Shows.of_same {s s' : System σ} {ended failed : Bool} (h : F.Shows p ended failed s)
    (hpage : s'.pages.get p = s.pages.get p)
    (hrequests : ∀ r q, q.page = p → (s'.requests.get r = some q ↔ s.requests.get r = some q)) :
    F.Shows p ended failed s' := by
  refine ⟨fun r q hq hp => ?_, fun hno => ?_⟩
  · rw [hpage]
    exact h.pending r q ((hrequests r q hp).mp hq) hp
  · rw [hpage]
    exact h.settled fun r q hq hp => hno r q ((hrequests r q hp).mpr hq) hp

/-! ## 4. Whatever is finished -/

/-- **The page fits the journal**: since `base` there are entries of some kind, and the page shows
its fate by the requests that they say have ended. -/
def Tracks (F : Fate) (journal : σ → List Entry) (p : PageId) (base : List Entry)
    (kind : Entry → Prop) (s : System σ) : Prop :=
  ∃ news, journal s.world = base ++ news ∧ (∀ e ∈ news, kind e) ∧
    F.Shows p (news.any (Entry.ended p true)) (news.any (Entry.ended p false)) s

section

variable {b : Backend σ} {journal : σ → List Entry} {base : List Entry} {kind : Entry → Prop}
  {s s' : System σ}

/-- Nothing has been noted yet. -/
theorem Tracks.of_shows (h : F.Shows p false false s) :
    F.Tracks journal p (journal s.world) kind s :=
  ⟨[], (List.append_nil _).symm, fun _ he => absurd he List.not_mem_nil, h⟩

/-- A step that does not touch the page, and in which no request for it ends. -/
theorem Tracks.of_same (h : F.Tracks journal p base kind s) {more : List Entry}
    (hjournal : journal s'.world = journal s.world ++ more) (hkind : ∀ e ∈ more, kind e)
    (hended : ∀ ok, more.any (Entry.ended p ok) = false) (hpage : s'.pages.get p = s.pages.get p)
    (hrequests : ∀ r q, q.page = p → (s'.requests.get r = some q ↔ s.requests.get r = some q)) :
    F.Tracks journal p base kind s' := by
  obtain ⟨news, hnews, hkinds, hshows⟩ := h
  refine ⟨news ++ more, by rw [hjournal, hnews, List.append_assoc], fun e he => ?_, ?_⟩
  · exact (List.mem_append.mp he).elim (hkinds e) (hkind e)
  · rw [List.any_append, List.any_append, hended, hended, Bool.or_false, Bool.or_false]
    exact hshows.of_same hpage hrequests

/-- A step that is not noted and does not touch the page. -/
theorem Tracks.of_quiet (h : F.Tracks journal p base kind s)
    (hjournal : journal s'.world = journal s.world) (hpage : s'.pages.get p = s.pages.get p)
    (hrequests : s'.requests = s.requests) : F.Tracks journal p base kind s' :=
  h.of_same (hjournal.trans (List.append_nil _).symm) (fun _ he => absurd he List.not_mem_nil)
    (fun _ => rfl) hpage fun _ _ _ => by rw [hrequests]

/-- **A completion**: if the request is the page's, its status is the last thing to happen. -/
theorem Tracks.finished (hj : b.Journals journal) (hkind : ∀ e : Entry, e.Late → kind e)
    (hs : s.Coherent) (h : F.Tracks journal p base kind s) {f : Finish} {q : Request}
    {status : Status} {bytes : Bytes} {w : σ} (hq : s.requests.get f.request = some q)
    (hsettle : b.queues.settle (s.devices.get q.device).queue f q (s.pages.get q.page) s.world =
      .ok ((status, bytes), w)) :
    F.Tracks journal p base kind (s.finished b f.request q status bytes w) := by
  obtain ⟨more, hmore, habout⟩ := hj.finished hsettle
  have hnone : ∀ ok, more.any (Entry.ended p ok) = false :=
    any_ended_of_mine (fun e he => (habout e he).mine p) p
  have hkinds : ∀ e ∈ Entry.settled (s.devices.get q.device).queue q (s.pages.get q.page).order
      status :: more, kind e :=
    List.forall_mem_cons.mpr ⟨hkind _ (.settled _ _ _ _), fun e he => hkind e (habout e he).late⟩
  by_cases hp : q.page = p
  · subst hp
    obtain ⟨news, hnews, hold, hshows⟩ := h
    obtain ⟨hdirection, hended, hfailed, hpending⟩ := hshows.pending _ q hq rfl
    refine ⟨news ++ _, by rw [hmore, hnews, List.append_assoc], fun e he => ?_, .of_settled ?_ ?_⟩
    · exact (List.mem_append.mp he).elim (hold e) (hkinds e)
    · -- it was the page's one request
      intro r q' hq' hp'
      replace hq' : (s.requests.set f.request none).get r = some q' := hq'
      by_cases hr : r = f.request
      · rw [hr, Table.get_set_self] at hq'
        exact absurd hq' nofun
      · rw [Table.get_set_ne _ _ hr] at hq'
        exact hr (hs.unique hq' hq hp')
    · show F.settled _ _ ((s.pages.set q.page _).get q.page).flags
      rw [Table.get_set_self, List.any_append, List.any_append, List.any_cons, List.any_cons, hnone,
        hnone, hended, hfailed, hdirection]
      have hends := F.ends status bytes (noticedBy b s q status w).1 hpending
      have hok : ∀ ok, Entry.ended q.page ok (.settled (s.devices.get q.device).queue q
          (s.pages.get q.page).order status) = (status.isOk == ok) := by
        intro ok
        simp [Entry.ended]
      rw [hok, hok, Bool.false_or, Bool.false_or, Bool.or_false, Bool.or_false]
      simpa using hends
  · refine h.of_same hmore hkinds (fun ok => ?_) (Table.get_set_ne _ _ (Ne.symm hp)) ?_
    · rw [List.any_cons, hnone, Bool.or_false]
      simp [Entry.ended, hp]
    · intro r q' hq'
      show (s.requests.set f.request none).get r = some q' ↔ _
      by_cases hr : r = f.request
      · subst hr
        rw [Table.get_set_self, hq]
        refine ⟨nofun, fun hsame => ?_⟩
        exact absurd (Option.some.inj hsame ▸ hq') hp
      · rw [Table.get_set_ne _ _ hr]

/-- **Completions and bookkeeping keep the page fitting the journal.** -/
theorem lasting (F : Fate) (hb : Lawful b) (hj : b.Journals journal) (t : Table Device) (p : PageId)
    (base : List Entry) {kind : Entry → Prop} (hkind : ∀ e : Entry, e.Late → kind e) :
    Lasting b (¬ ·.Assertion) fun x => x.CoherentSince t ∧ F.Tracks journal p base kind x where
  tolerant := hb.tolerant
  blind := fun sleepers console limiter h =>
    ⟨(lasting_coherent hb t).blind sleepers console limiter h.1, h.2.of_quiet rfl rfl rfl⟩
  aside := fun h hw => ⟨(lasting_coherent hb t).aside h.1 hw, h.2.of_quiet (hj.aside hw) rfl rfl⟩
  ready := fun h hq => (lasting_coherent hb t).ready h.1 hq
  finished := fun h hq hsettle =>
    ⟨(lasting_coherent hb t).finished h.1 hq hsettle, h.2.finished hj hkind h.1.coherent hq hsettle⟩

end

end Fate

/-! ## 5. What others do meanwhile -/

/-- **A step of others**, who leave page `p` alone and ask nobody between calls. -/
inductive Others (b : Backend σ) (journal : σ → List Entry) (p : PageId) :
    System σ → System σ → Prop
  | call {c : Call} {s s' : System σ} {status : Status} (hallowed : c.Allowed s)
      (hother : c.page? ≠ some p) (hrun : c.run b s = .ok (status, s')) : Others b journal p s s'
  | edit {s : System σ} {p' : PageId} {page : Page} (hother : p ≠ p')
      (htransfer : page.transfer = (s.pages.get p').transfer)
      (hlocked : (s.pages.get p').transfer = .reading → (s.pages.get p').flags.locked = true →
        page.flags.locked = true) :
      Others b journal p s { s with pages := s.pages.set p' page }
  | attach {s : System σ} {d : Device} (hnew : d.inflight = 0) :
      Others b journal p s { s with devices := s.devices.set s.devices.fresh d }
  | elsewhere {s : System σ} (w : σ) (hjournal : journal w = journal s.world) :
      Others b journal p s { s with world := w }

theorem Others.step {b : Backend σ} {journal : σ → List Entry} {p : PageId} {s s' : System σ}
    (h : Others b journal p s s') : Step b s s' := by
  cases h with
  | call hallowed _ hrun => exact .call hallowed hrun
  | edit _ htransfer hlocked => exact .edit htransfer hlocked
  | attach hnew => exact .attach hnew
  | elsewhere w _ => exact .elsewhere w

namespace Fate.Tracks

variable {b : Backend σ} {journal : σ → List Entry} {p : PageId} {F : Fate} {base : List Entry}
  {s s' : System σ}

/-- The first step of a call about another page. -/
theorem opening {p' : PageId} (hp : p ≠ p') {made : List Entry} {issued : Option Request}
    (hopening : Opening b journal p' s s' made issued)
    (h : F.Tracks journal p base (fun _ => True) s) :
    F.Tracks journal p base (fun _ => True) s' := by
  refine h.of_same hopening.journal (fun _ _ => trivial) (any_ended_of_mine hopening.mine p)
    (hopening.pages p hp) fun r q hq => ?_
  rw [hopening.requests]
  cases hissued : issued with
  | none => exact Iff.rfl
  | some q' =>
    have hother := hopening.page q' hissued
    show (s.requests.set s.requests.fresh (some q')).get r = some q ↔ _
    by_cases hr : r = s.requests.fresh
    · rw [hr, Table.get_set_self, Table.get_of_fresh_le _ (Nat.le_refl _)]
      refine ⟨fun hsame => ?_, nofun⟩
      exact absurd (hq.symm.trans (Option.some.inj hsame ▸ hother)) hp
    · rw [Table.get_set_ne _ _ hr]

/-- **Others keep the page fitting the journal.** -/
theorem others (hb : Lawful b) (hj : b.Journals journal) (hs : s.Coherent)
    (h : F.Tracks journal p base (fun _ => True) s) (hstep : Others b journal p s s') :
    F.Tracks journal p base (fun _ => True) s' := by
  cases hstep with
  | @call c _ _ status hallowed hother hrun =>
    refine ((Call.run_begun hb (fun _ => F.lasting hb hj s.devices p base fun _ _ => trivial)
      hallowed fun _ _ hbegun => ⟨hbegun.coherent hb hs.since hallowed, ?_⟩).of_ok hrun).2
    -- a call about no page has an opening for any
    obtain ⟨p', hp, hown⟩ : ∃ p', p ≠ p' ∧ ∀ p'' ∈ c.page?, p'' = p' := by
      cases hc : c.page? with
      | none => exact ⟨p + 1, Nat.ne_of_lt (Nat.lt_succ_self p), fun _ h => absurd h nofun⟩
      | some p' =>
        exact ⟨p', fun hp => hother (hc.trans (congrArg some hp.symm)), fun _ h =>
          (Option.some.inj h).symm⟩
    obtain ⟨made, issued, hopening⟩ := hbegun.opening hj hown
    exact h.opening hp hopening
  | edit hother => exact h.of_quiet rfl (Table.get_set_ne _ _ hother) rfl
  | attach => exact h.of_quiet rfl rfl rfl
  | elsewhere w hjournal => exact h.of_quiet hjournal rfl rfl

/-- Any number of steps of others. -/
theorem meanwhile (hb : Lawful b) (hj : b.Journals journal) (hs : s.Coherent)
    (h : F.Tracks journal p base (fun _ => True) s)
    (hrun : Relation.ReflTransGen (Others b journal p) s s') :
    s'.Coherent ∧ F.Tracks journal p base (fun _ => True) s' := by
  induction hrun with
  | refl => exact ⟨hs, h⟩
  | tail _ hstep ih =>
    exact ⟨(hstep.step.coherent hb ih.1.since).coherent, ih.2.others hb hj ih.1 hstep⟩

end Fate.Tracks

end PageSwap
