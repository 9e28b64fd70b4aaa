/-
# Every outcome of a write

A write has some ten ends, and a request that it hands over may fail or succeed later.  Whatever
the collaborators answer, the flags of the page afterwards say what happened: the page is dirty
unless it was saved, newly errored exactly if its request failed, and taken off reclaim exactly if
its request failed or its file fell short.

* `Flags.afterWrite`, `Flags.writeFate` -- the flags of a page by what happened.
* `Course`, `PageWrite.course` -- the ends of a write up to handing a request over.
* `Refused` -- why a write is refused.
* `pageOut_tracks` -- a write takes one of its courses, with all completions inside it.
* `every_outcome_of_a_write` -- the flags, and when the call is refused.

The flags alone do not say how far a write is: a page whose request is on its way looks like one
that was saved.  So what is known is kept in three truth values -- saved, failed, short -- and the
flags are a function of them once there is no request.  The journal gives the values, and a
completion adds its entry to the journal at the moment it changes the flags, which is why the two
never part.
-/
import PageSwap.Proofs.Outcome

namespace PageSwap

variable {σ : Type}

/-! ## 1. What happened -/

/-- The flags of a page after a write, by what happened: it was saved, its request failed, or its
file fell short. -/
def Flags.afterWrite (flags : Flags) (saved failed short : Bool) : Flags :=
  { flags with
    locked := false, dirty := !saved, error := flags.error || failed
    reclaim := flags.reclaim && !failed && !short }

namespace Entry

/-- The data of the page is safe, or needed no more; a file works for the page of the call. -/
def saves (p : PageId) : Entry → Bool
  | .freed p' answer | .stored p' answer => p' = p && answer
  | .transferred _ .write p' _ status => p' = p && status.isOk
  | .wrote _ length result => movedAll result length
  | e => e.ended p true

/-- A file took less than all of a page. -/
def fallsShort : Entry → Bool
  | .wrote _ length result => !movedAll result length
  | _ => false

variable {e : Entry}

theorem Late.saves (h : e.Late) (p : PageId) : e.saves p = e.ended p true := by
  cases h <;> rfl

theorem Late.fallsShort (h : e.Late) : e.fallsShort = false := by
  cases h <;> rfl

end Entry

/-- Among the entries is one of a driver that did not take the page at once. -/
def Entry.Declined (p : PageId) (made : List Entry) : Prop :=
  ∃ queue order e, .transferred queue .write p order (.error e) ∈ made

/-- A completion saves a page if it ends a request for it without an error. -/
theorem any_saves_of_late {es : List Entry} (h : ∀ e ∈ es, e.Late) (p : PageId) :
    es.any (Entry.saves p) = es.any (Entry.ended p true) :=
  any_congr_of_late h fun _ he => he.saves p

/-- No file falls short in a completion. -/
theorem any_fallsShort_of_late {es : List Entry} (h : ∀ e ∈ es, e.Late) :
    es.any Entry.fallsShort = false :=
  List.any_eq_false.mpr fun e he => by rw [(h e he).fallsShort]; exact Bool.false_ne_true

/-- **A write, as the fate of its page**, by what was known of it when its call had made its first
step. -/
def Flags.writeFate (flags : Flags) (saved failed short : Bool) : Fate where
  direction := .write
  pending := fun now => (saved = false ∧ failed = false ∧ short = false) ∧
    now = flags.afterWrite true false false
  settled := fun ended erred now => now = flags.afterWrite (saved || ended) (failed || erred) short
  ends := by
    rintro page status bytes freed ⟨⟨rfl, rfl, rfl⟩, hflags⟩
    cases status with
    | ok u => simp [Page.ended, hflags, Flags.afterWrite, Except.isOk, Except.toBool]
    | error e => simp [Page.ended, hflags, Flags.afterWrite, Except.isOk, Except.toBool]

section

variable {p : PageId} {flags : Flags} {saved failed short ended erred : Bool} {s : System σ}

/-- A page that was written is unlocked, whether its request has ended or not. -/
theorem Fate.Shows.unlocked (h : (flags.writeFate saved failed short).Shows p ended erred s) :
    (s.pages.get p).flags.locked = false := by
  by_cases hpending : ∃ r q, s.requests.get r = some q ∧ q.page = p
  · obtain ⟨r, q, hq, hp⟩ := hpending
    obtain ⟨-, -, -, -, hflags⟩ := h.pending r q hq hp
    rw [hflags]
    rfl
  · have hflags : (s.pages.get p).flags = flags.afterWrite _ _ _ :=
      h.settled fun r q hq hp => hpending ⟨r, q, hq, hp⟩
    rw [hflags]
    rfl

/-- What has happened so far is known. -/
theorem Fate.Shows.written (h : (flags.writeFate saved failed short).Shows p ended erred s) :
    (flags.writeFate (saved || ended) (failed || erred) short).Shows p false false s := by
  constructor
  · intro r q hq hp
    obtain ⟨hdirection, rfl, rfl, ⟨rfl, rfl, rfl⟩, hflags⟩ := h.pending r q hq hp
    exact ⟨hdirection, rfl, rfl, ⟨rfl, rfl, rfl⟩, hflags⟩
  · intro hnone
    have hflags : (s.pages.get p).flags = flags.afterWrite _ _ _ := h.settled hnone
    show (s.pages.get p).flags = flags.afterWrite _ _ _
    rw [hflags, Bool.or_false, Bool.or_false]

end

/-! ## 2. The ends of a write -/

/-- **The ends of writing to a slot**, with the entries that are made and whether a request is:
there is no such place, the driver takes the page at once, no request is to be had, a request is to
be had and handed over, or a file writes. -/
inductive SlotCourse (b : Backend σ) (area : Area) (p : PageId) (s : System σ) :
    Status → List Entry → Bool → Prop
  | nowhere {why : Refusal} (hplace : area.place (s.pages.get p).slot = .error (.refused why)) :
      SlotCourse b area p s (.error why.errno) [] false
  | direct {place : UInt64} {queue : QueueId} {order : UInt32}
      (hplace : area.place (s.pages.get p).slot = .ok place) :
      SlotCourse b area p s (.ok ()) [.transferred queue .write p order (.ok ())] false
  | crowded {place : UInt64} {queue : QueueId} {order : UInt32} {e : Errno} {status : Status}
      (hplace : area.place (s.pages.get p).slot = .ok place)
      (hcrowded : area.Crowded b .write p s status) :
      SlotCourse b area p s status [.transferred queue .write p order (.error e)] false
  | issued {place : UInt64} {queue : QueueId} {order : UInt32} {e : Errno}
      (hplace : area.place (s.pages.get p).slot = .ok place)
      (hserved : ∀ status, ¬ area.Crowded b .write p s status) :
      SlotCourse b area p s (.ok ()) [.transferred queue .write p order (.error e)] true
  | wrote {place : UInt64} {f : FileId} {length : UInt64} {result : Except Errno UInt64}
      {status : Status} (hplace : area.place (s.pages.get p).slot = .ok place)
      (hstatus : status = result.map fun _ => ()) :
      SlotCourse b area p s status [.wrote f length result] false

/-- **The ends of a write**: the page has no area, its slot is freed, the front store takes it, or
it goes to its slot. -/
inductive Course (b : Backend σ) (s : System σ) (p : PageId) : Status → List Entry → Bool → Prop
  | nowhere (harea : s.areaAt p = none) : Course b s p (.error Refusal.noSlot.errno) [] false
  | freed {area : Area} (harea : s.areaAt p = some area) :
      Course b s p (.ok ()) [.freed p true] false
  | stored {area : Area} (harea : s.areaAt p = some area) :
      Course b s p (.ok ()) [.freed p false, .stored p true] false
  | slot {area : Area} {s₁ : System σ} {declined made : List Entry} {status : Status}
      {issued : Bool} (harea : s.areaAt p = some area) (hto : s.ToSlot b area p s₁)
      (hslot : (s₁.pages.get p).slot = (s.pages.get p).slot)
      (hdeclined : declined = [.freed p false] ∨ declined = [.freed p false, .stored p false])
      (h : SlotCourse b area p s₁ status made issued) :
      Course b s p status (declined ++ made) issued

/-- **Why a write is refused**: the page has no area; its slot has no place, and it was to go there;
the driver does not take it at once, and no request is to be had; or its file answers an error. -/
def Refused (b : Backend σ) (s : System σ) (p : PageId) (made : List Entry) : Prop :=
  s.areaAt p = none ∨
  (∃ area why, s.areaAt p = some area ∧ area.place (s.pages.get p).slot = .error (.refused why)) ∧
    .freed p true ∉ made ∧ .stored p true ∉ made ∨
  Entry.Declined p made ∧ (∃ area s₁ status, s.areaAt p = some area ∧ s.ToSlot b area p s₁ ∧
    area.Crowded b .write p s₁ status) ∨
  ∃ f length e, .wrote f length (.error e) ∈ made

section

variable {b : Backend σ} {s : System σ} {p : PageId} {status : Status} {made rest : List Entry}
  {issued : Bool}

theorem Course.refused_iff (h : Course b s p status made issued) :
    (∃ e, status = .error e) ↔ Refused b s p made := by
  unfold Refused Entry.Declined
  cases h with
  | nowhere harea => simp [harea]
  | freed harea => simp [harea]
  | stored harea => simp [harea]
  | @slot area _ _ _ _ _ harea hto hslot hdeclined h =>
    cases h with
    | nowhere hplace =>
      rw [hslot] at hplace
      rcases hdeclined with rfl | rfl <;> simp [harea, hplace]
    | direct hplace =>
      rw [hslot] at hplace
      rcases hdeclined with rfl | rfl <;> simp [harea, hplace]
    | crowded hplace hwhy =>
      rw [hslot] at hplace
      refine iff_of_true hwhy.error (Or.inr (Or.inr (Or.inl ⟨?_, _, _, _, harea, hto, hwhy⟩)))
      exact ⟨_, _, _, List.mem_append_right _ List.mem_cons_self⟩
    | issued hplace hserved =>
      rw [hslot] at hplace
      -- the page comes to its slot in one state, and there a request is to be had
      have hnone : ∀ s₂, s.ToSlot b area p s₂ → ∀ status, ¬ area.Crowded b .write p s₂ status :=
        fun s₂ hto₂ => hto.unique hto₂ ▸ hserved
      rcases hdeclined with rfl | rfl <;> simpa [harea, hplace] using hnone
    | @wrote _ _ _ result _ hplace hstatus =>
      rw [hslot] at hplace
      subst hstatus
      rcases hdeclined with rfl | rfl <;> cases result <;> simp [harea, hplace, Except.map]

/-- **A request is made** exactly if the driver does not take the page at once, and the call does
not answer an error. -/
theorem Course.issued_iff (h : Course b s p status made issued) :
    issued = true ↔ status = .ok () ∧ Entry.Declined p made := by
  unfold Entry.Declined
  cases h with
  | nowhere => simp
  | freed => simp
  | stored => simp
  | slot _ _ _ hdeclined h =>
    cases h with
    | crowded _ hwhy =>
      obtain ⟨e, rfl⟩ := hwhy.error
      simp
    | _ => rcases hdeclined with rfl | rfl <;> simp

/-- Up to handing a request over, none ends. -/
theorem Course.any_ended (h : Course b s p status made issued) (ok : Bool) :
    made.any (Entry.ended p ok) = false := by
  cases h with
  | nowhere => rfl
  | freed => rfl
  | stored => rfl
  | slot _ _ _ hdeclined h => rcases hdeclined with rfl | rfl <;> cases h <;> rfl

/-- A first step is not noted in completions. -/
theorem mem_append_of_late (made : List Entry) (hrest : ∀ e ∈ rest, e.Late) {e : Entry}
    (he : ¬ e.Late) :
    e ∈ made ++ rest ↔ e ∈ made := by
  rw [List.mem_append, or_iff_left fun h => he (hrest e h)]

theorem declined_append (hrest : ∀ e ∈ rest, e.Late) :
    Entry.Declined p (made ++ rest) ↔ Entry.Declined p made := by
  unfold Entry.Declined
  simp only [fun queue order e => mem_append_of_late made hrest
    (e := .transferred queue .write p order (.error e)) nofun]

/-- Completions are no reason for a refusal. -/
theorem refused_append (hrest : ∀ e ∈ rest, e.Late) :
    Refused b s p (made ++ rest) ↔ Refused b s p made := by
  unfold Refused
  simp only [declined_append hrest, mem_append_of_late made hrest (e := .freed p true) nofun,
    mem_append_of_late made hrest (e := .stored p true) nofun,
    fun f length e => mem_append_of_late made hrest
      (e := .wrote f length (.error e)) nofun]

end

/-- **The collaborators touch little of a page**: a slot map and a front store leave its flags
alone, and its slot if they do not take the page; a file that fell short makes it dirty. -/
structure Backend.Meek (b : Backend σ) : Prop where
  tryFree : ∀ {m p page w answer page' w'},
    b.slotMaps.tryFree m p page w = ((answer, page'), w') →
      page'.flags = page.flags ∧ (answer = false → page'.slot = page.slot)
  store : ∀ {front p page w answer page' w'}, b.front = some front →
    front.store p page w = .ok ((answer, page'), w') →
      page'.flags = page.flags ∧ (answer = false → page'.slot = page.slot)
  dirtied : ∀ {f p page w clean page' w'}, b.files.dirtied f p page w = ((clean, page'), w') →
    page'.flags = { page.flags with dirty := true }

/-! ## 3. Up to handing a request over -/

/-- A first step of a write, with its entries, and what it leaves. -/
structure Starts (journal : σ → List Entry) (p : PageId) (flags : Flags) (s s' : System σ)
    (made : List Entry) (issued : Bool) : Prop where
  journal : journal s'.world = journal s.world ++ made
  fresh : s'.requests.fresh = s.requests.fresh + issued.toNat
  shows : (flags.writeFate (made.any (Entry.saves p)) false (made.any Entry.fallsShort)).Shows p
    false false s'

section

variable {b : Backend σ} {journal : σ → List Entry} {p : PageId} {flags : Flags} {s s' : System σ}
  {area : Area} {status : Status}

/-- A first step that makes no request. -/
theorem Starts.of_settled {page : Page} {made : List Entry} (hpages : s'.pages = s.pages.set p page)
    (hrequests : s'.requests = s.requests) (hno : ∀ r q, s.requests.get r = some q → q.page ≠ p)
    (hjournal : journal s'.world = journal s.world ++ made)
    (hflags : page.flags =
      flags.afterWrite (made.any (Entry.saves p)) false (made.any Entry.fallsShort)) :
    Starts journal p flags s s' made false where
  journal := hjournal
  fresh := by rw [hrequests]; rfl
  shows := by
    refine .of_settled (by rw [hrequests]; exact hno) ?_
    show (s'.pages.get p).flags = flags.afterWrite _ _ _
    rw [hpages, Table.get_set_self, hflags, Bool.or_false, Bool.or_false]

theorem DeviceWrite.course (hj : b.Journals journal) {d : DeviceId} {w : Writeback}
    {ending : Ending} (hflags : (s.pages.get p).flags = { flags with dirty := false })
    (hno : ∀ r q, s.requests.get r = some q → q.page ≠ p) (hbacking : area.backing.device? = some d)
    (h : DeviceWrite b area d p w ending s status s') :
    ∃ made issued, SlotCourse b area p s status made issued ∧
      Starts journal p flags s s' made issued := by
  have hplace := area.place_of_device hbacking (s.pages.get p).slot
  cases h with
  | lost hsector =>
    refine ⟨_, _, .nowhere (hplace.trans hsector),
      .of_settled rfl rfl hno (List.append_nil _).symm ?_⟩
    simp [Page.spilled, Page.released, hflags, Flags.afterWrite]
  | @direct sector bytes w₁ w₂ hsector htransfer _ hcounted =>
    have hjournal := (hj.countedOut (s.pages.get p) w₁).trans (hj.transfer htransfer)
    rw [← hcounted] at hjournal
    refine ⟨_, _, .direct (hplace.trans hsector), .of_settled rfl rfl hno hjournal ?_⟩
    simp [Page.released, hflags, Flags.afterWrite, Entry.saves, Entry.fallsShort, Except.isOk,
      Except.toBool]
  | crowded hsector htransfer hwhy =>
    refine ⟨_, _, .crowded (hplace.trans hsector)
        ⟨d, _, _, _, _, hbacking, hsector, htransfer, .of_why hbacking rfl hwhy⟩,
      .of_settled rfl rfl hno (hj.transfer htransfer) ?_⟩
    simp [Page.spilled, Page.released, hflags, Flags.afterWrite, Entry.saves, Entry.fallsShort,
      Except.isOk, Except.toBool]
  | @issued sector e bytes w₁ w₂ dev hsector htransfer hroom htag _ hcounted =>
    have hjournal := (hj.countedOut (s.pages.get p) w₁).trans (hj.transfer htransfer)
    rw [← hcounted] at hjournal
    refine ⟨_, _, .issued (hplace.trans hsector)
        (Area.not_crowded hbacking hsector htransfer hroom htag),
      hjournal, Table.fresh_set_fresh _ _, .of_issued rfl hno rfl rfl ⟨⟨?_, rfl, rfl⟩, ?_⟩⟩
    · simp [Entry.saves, Except.isOk, Except.toBool]
    · simp [Page.released, hflags, Flags.afterWrite]

theorem FileWrite.course (hmeek : b.Meek) (hj : b.Journals journal) {f : FileId}
    (hflags : (s.pages.get p).flags = { flags with dirty := false })
    (hno : ∀ r q, s.requests.get r = some q → q.page ≠ p) (hbacking : area.backing = .file f)
    (h : FileWrite b area f p s status s') :
    ∃ made issued, SlotCourse b area p s status made issued ∧
      Starts journal p flags s s' made issued := by
  have hplace := area.place_of_file hbacking (s.pages.get p).slot
  cases h with
  | lost hposition =>
    rw [hposition] at hplace
    refine ⟨_, _, .nowhere hplace, .of_settled rfl rfl hno (List.append_nil _).symm ?_⟩
    simp [Page.spilled, Page.released, hflags, Flags.afterWrite]
  | @full position w₁ w₂ hposition hwrite _ hcounted =>
    rw [hposition] at hplace
    have hjournal := (hj.countedOut (s.pages.get p) w₁).trans (hj.write hwrite)
    rw [← hcounted] at hjournal
    refine ⟨_, _, .wrote hplace rfl, .of_settled rfl rfl hno hjournal ?_⟩
    simp [Page.released, hflags, Flags.afterWrite, Entry.saves, Entry.fallsShort, movedAll,
      Page.size]
  | @short position result clean page w₁ w₂ hposition hwrite hshort hdirtied =>
    rw [hposition] at hplace
    refine ⟨_, _, .wrote hplace rfl,
      .of_settled rfl rfl hno ((hj.dirtied hdirtied).trans (hj.write hwrite)) ?_⟩
    have hmoved : movedAll result (s.pages.get p).bytes.size.toUInt64 = false :=
      movedAll_eq_false hshort
    simp [hmeek.dirtied hdirtied, Page.released, hflags, Flags.afterWrite, Entry.saves,
      Entry.fallsShort, hmoved]

theorem SlotWrite.course (hmeek : b.Meek) (hj : b.Journals journal) {w : Writeback}
    {ending : Ending} (hflags : (s.pages.get p).flags = { flags with dirty := false })
    (hno : ∀ r q, s.requests.get r = some q → q.page ≠ p)
    (h : SlotWrite b area p w ending s status s') :
    ∃ made issued, SlotCourse b area p s status made issued ∧
      Starts journal p flags s s' made issued := by
  cases h with
  | file hbacking h => exact h.course hmeek hj hflags hno hbacking
  | device hbacking h => exact h.course hj hflags hno hbacking

/-- **A write takes one of its courses**, and leaves what the journal says. -/
theorem PageWrite.course (hmeek : b.Meek) (hj : b.Journals journal) {w : Writeback}
    (hno : ∀ r q, s.requests.get r = some q → q.page ≠ p) (h : PageWrite b p w s status s') :
    ∃ made issued, Course b s p status made issued ∧
      Starts journal p (s.pages.get p).flags s s' made issued := by
  cases h with
  | lost harea =>
    refine ⟨_, _, .nowhere harea, .of_settled rfl rfl hno (List.append_nil _).symm ?_⟩
    simp [Page.spilled, Page.released, Flags.afterWrite]
  | freed harea hfree =>
    refine ⟨_, _, .freed harea, .of_settled rfl rfl hno (hj.tryFree hfree) ?_⟩
    simp [Page.released, (hmeek.tryFree hfree).1, Page.clearDirty, Flags.afterWrite, Entry.saves,
      Entry.fallsShort]
  | @stored area front page page' w₁ w₂ w₃ w₄ harea hfree _ hfront hstore _ hclock hclock' =>
    obtain ⟨w₅, n, hclock', rfl⟩ := hclock'
    have hjournal : journal (b.statistics.accumulate n w₅) =
        journal s.world ++ [.freed p false, .stored p true] := by
      rw [hj.accumulate, hj.aside hclock', hj.store hfront hstore, hj.aside hclock,
        hj.tryFree hfree, List.append_assoc]
      rfl
    refine ⟨_, _, .stored harea, .of_settled rfl rfl hno hjournal ?_⟩
    simp [Page.released, (hmeek.store hfront hstore).1, (hmeek.tryFree hfree).1, Page.clearDirty,
      Flags.afterWrite, Entry.saves, Entry.fallsShort]
  | @slot area page w₁ w₂ s₁ _ _ harea hfree _ hfront h hclock =>
    have hto := hclock
    have hclock : Aside b w₁ w₂ := hclock ▸ .cycles w₁
    obtain ⟨hpageflags, hpageslot⟩ := hmeek.tryFree hfree
    have hjournal : journal w₂ = journal s.world ++ [.freed p false] :=
      (hj.aside hclock).trans (hj.tryFree hfree)
    -- what slot map and front store leave is the page, clean, with its slot
    obtain ⟨declined, hdeclined, hkept, hrequests, hclean, hslot⟩ : ∃ declined,
        (declined = [.freed p false] ∨ declined = [.freed p false, .stored p false]) ∧
        journal s₁.world = journal s.world ++ declined ∧ s₁.requests = s.requests ∧
        (s₁.pages.get p).flags = { (s.pages.get p).flags with dirty := false } ∧
        (s₁.pages.get p).slot = (s.pages.get p).slot := by
      cases hfront with
      | absent =>
        refine ⟨_, .inl rfl, hjournal, rfl, ?_, ?_⟩
        · rw [Table.get_set_self, hpageflags]
          rfl
        · rw [Table.get_set_self, hpageslot rfl]
          rfl
      | declined hfront hask =>
        rw [Table.get_set_self] at hask
        obtain ⟨hflags, hslot⟩ := hmeek.store hfront hask
        refine ⟨_, .inr rfl, ?_, rfl, ?_, ?_⟩
        · exact (hj.store hfront hask).trans (by rw [hjournal, List.append_assoc]; rfl)
        · rw [Table.get_set_self, hflags, hpageflags]
          rfl
        · rw [Table.get_set_self, hslot rfl, hpageslot rfl]
          rfl
    obtain ⟨made, issued, hcourse, hstarts⟩ :=
      h.course hmeek hj hclean (by rw [hrequests]; exact hno)
    refine ⟨_, _, .slot harea ⟨_, _, hfree, hto ▸ hfront⟩ hslot hdeclined hcourse, ?_, ?_, ?_⟩
    · rw [hstarts.journal, hkept, List.append_assoc]
    · rw [hstarts.fresh, hrequests]
    · have hshows := hstarts.shows
      rcases hdeclined with rfl | rfl <;>
        simpa [Entry.saves, Entry.fallsShort] using hshows

end

/-! ## 4. All of it -/

section

variable {b : Backend σ} {journal : σ → List Entry} {p : PageId} {s : System σ}

/-- **A write takes one of its courses**, with all completions inside it. -/
theorem pageOut_tracks (hb : Lawful b) (hmeek : b.Meek) (hj : b.Journals journal) (hs : s.Coherent)
    (hheld : (s.pages.get p).Held) (w : Writeback) :
    (pageOut b p w).wp (fun status s₁ => ∃ i : List Entry × Bool, Course b s p status i.1 i.2 ∧
      s₁.requests.fresh = s.requests.fresh + i.2.toNat ∧ s₁.CoherentSince s.devices ∧
      ((s.pages.get p).flags.writeFate (i.1.any (Entry.saves p)) false
        (i.1.any Entry.fallsShort)).Tracks journal p (journal s.world ++ i.1) Entry.Late s₁)
      (¬ ·.Assertion) s := by
  refine pageOut_wp (fun status => Lasting.any fun i => .guard (.keepsFresh
    (Fate.lasting _ hb hj _ _ _ fun _ h => h) _) _) hb.minds (fun _ _ => .of_stop id) hheld
    (fun _ _ _ _ _ => hb.keepsShort) fun status s' h => ?_
  obtain ⟨made, issued, hcourse, hstarts⟩ := h.course hmeek hj (hs.no_request hheld.2)
  refine ⟨(made, issued), hcourse, hstarts.fresh, h.coherent hb hs.since hheld, ?_⟩
  rw [← hstarts.journal]
  exact .of_shows hstarts.shows

end

/-- **Every outcome of a write.**  In a state that a run reaches from a quiet one, a page that is
locked and has no transfer is written out.  No assertion fails, and when the call returns

* the page is unlocked;
* the call answers an error exactly if it was refused: the page has no area or its slot no place,
  the driver did not take it at once and then no request was to be had, or its file answered an
  error;
* there is one request more exactly if the driver did not take the page at once, and the call does
  not answer an error;
* once there is no request for the page any more, whatever others have done meanwhile, it has no
  transfer, and its flags say what happened: it is dirty unless its slot was freed, the front store
  took it, the driver took it at once, its file took all of it, or its request ended without an
  error; it is errored if it was before or its request failed; reclaim still wants it if it did
  before, its request did not fail, and its file did not fall short. -/
theorem every_outcome_of_a_write {b : Backend σ} {journal : σ → List Entry} (hb : Lawful b)
    (hmeek : b.Meek) (hj : b.Journals journal) {s₀ s : System σ} (hquiet : s₀.Quiet)
    (hrun : Reaches b s₀ s) {p : PageId} (hheld : (s.pages.get p).Held) (w : Writeback) :
    (∀ e, pageOut b p w s = .error e → ¬ e.Assertion) ∧
    ∀ status s₁, pageOut b p w s = .ok (status, s₁) →
      (s₁.pages.get p).flags.locked = false ∧
      ∃ news, journal s₁.world = journal s.world ++ news ∧
        ((∃ e, status = .error e) ↔ Refused b s p news) ∧
        (s.requests.fresh < s₁.requests.fresh ↔ status = .ok () ∧ Entry.Declined p news) ∧
        ∀ s₂, Relation.ReflTransGen (Others b journal p) s₁ s₂ →
          (∀ r q, s₂.requests.get r = some q → q.page ≠ p) →
          ∃ later, journal s₂.world = journal s₁.world ++ later ∧
            (s₂.pages.get p).transfer = .idle ∧
            (s₂.pages.get p).flags = (s.pages.get p).flags.afterWrite
              (news.any (Entry.saves p) || later.any (Entry.ended p true))
              ((news ++ later).any (Entry.ended p false))
              (news.any Entry.fallsShort) := by
  have hs := coherent_of_reaches hb hquiet hrun
  have hout := pageOut_tracks hb hmeek hj hs hheld w
  refine ⟨fun e he => hout.of_error he, fun status s₁ hok => ?_⟩
  obtain ⟨⟨made, issued⟩, hcourse, hfresh, hsince, rest, hjournal, hrest, hshows⟩ := hout.of_ok hok
  dsimp only at hcourse hfresh hjournal hshows
  have hissued : s.requests.fresh < s₁.requests.fresh ↔ issued = true := by
    rw [hfresh]
    cases issued <;> simp
  -- what completions add during the call counts as what comes later
  have hsaves : (made ++ rest).any (Entry.saves p) =
      (made.any (Entry.saves p) || rest.any (Entry.ended p true)) := by
    rw [List.any_append, any_saves_of_late hrest]
  have hshort : (made ++ rest).any Entry.fallsShort = made.any Entry.fallsShort := by
    rw [List.any_append, any_fallsShort_of_late hrest, Bool.or_false]
  have hfails : (made ++ rest).any (Entry.ended p false) = rest.any (Entry.ended p false) := by
    rw [List.any_append, hcourse.any_ended, Bool.false_or]
  refine ⟨hshows.unlocked, made ++ rest, by rw [hjournal, List.append_assoc], ?_, ?_,
    fun s₂ hothers hnone => ?_⟩
  · rw [refused_append hrest]
    exact hcourse.refused_iff
  · rw [hissued, declined_append hrest]
    exact hcourse.issued_iff
  · have hknown := hshows.written
    rw [← hsaves, Bool.false_or, ← hfails, ← hshort] at hknown
    obtain ⟨hcoherent, later, hlater, -, hend⟩ :=
      (Fate.Tracks.of_shows hknown).meanwhile hb hj hsince.coherent hothers
    have hflags : (s₂.pages.get p).flags = (s.pages.get p).flags.afterWrite _ _ _ :=
      hend.settled hnone
    exact ⟨later, hlater, hcoherent.idle hnone, by rw [hflags, ← List.any_append]⟩

theorem journalDisk_meek : journalDisk.Meek where
  tryFree := fun h => by
    have hsame := (heardBy_tryFree h).1
    injection hsame with hout
    injection hout with _ hpage
    exact hpage ▸ ⟨rfl, fun _ => rfl⟩
  store := fun h => absurd h nofun
  dirtied := fun h => by
    injection h with hout
    injection hout with _ hpage
    exact hpage ▸ rfl

/-- **A write whose request fails later**: it is not refused, and the page ends up dirty and
errored. -/
theorem handed_over_and_failed :
    pageOut journalDisk 0 {} journalUp = .ok (.ok (), journalHanded) ∧
    (journalHanded.pages.get 0).flags.locked = false ∧
    ∃ news, journalHanded.world.2.entries = journalUp.world.2.entries ++ news ∧
      ¬ Refused journalDisk journalUp 0 news ∧
      (journalFailed.pages.get 0).transfer = .idle ∧
      (journalFailed.pages.get 0).flags = { error := true, dirty := true } := by
  have hend := @Call.run_after _ journalDisk (.finish ⟨0, some (.error Errno.io)⟩) journalHanded
    (by decide +kernel)
  obtain ⟨-, houtcome⟩ := every_outcome_of_a_write journalDisk_lawful journalDisk_meek
    journalDisk_journals journalStart_quiet reaches_journalUp (p := 0)
    ⟨by decide +kernel, by decide +kernel⟩ {}
  obtain ⟨hunlocked, news, hnews, hrefused, -, hlater⟩ := houtcome _ _ pageOut_journalUp
  have hnone : ∀ r, journalFailed.requests.get r = none :=
    Table.forall_get (P := (· = none)) _ rfl (by decide +kernel)
  obtain ⟨later, hjournal, hidle, hflags⟩ := hlater journalFailed
    (.single (.call (c := .finish _) trivial nofun hend))
    fun r q hq => absurd ((hnone r).symm.trans hq) nofun
  refine ⟨pageOut_journalUp, hunlocked, news, hnews, fun h => ?_, hidle, ?_⟩
  · exact absurd (hrefused.mpr h) nofun
  · obtain rfl : news = journalHanded.world.2.entries.drop journalUp.world.2.entries.length := by
      rw [hnews, List.drop_left]
    obtain rfl : later =
        journalFailed.world.2.entries.drop journalHanded.world.2.entries.length := by
      rw [hjournal, List.drop_left]
    rw [hflags]
    decide +kernel

end PageSwap
