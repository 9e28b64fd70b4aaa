/-
# Every outcome of a read

A read ends in one of a handful of ways, and a request that it hands over may fail or succeed later.
Whatever the collaborators answer, the flags of the page afterwards say what happened: its content
is valid exactly if its data came in full, which clears an old error; and it is errored if it is not
valid and was errored before, or the read failed.  A page for which no request was to be had is only
unlocked.

* `Flags.afterRead`, `Flags.readFate` -- the flags of a page by what happened.
* `Reading`, `PageRead.reading` -- how a read begins, up to handing a request over.
* `pageIn_reading` -- how far a read is when its call returns, with all completions inside it.
* `every_outcome_of_a_read` -- the flags, the account of stalls, and reads that are waited for.
* `finished_read_is_decided` -- valid or errored, unless no request was to be had.
-/
import PageSwap.Proofs.Outcome
import PageSwap.Proofs.Stalls

namespace PageSwap

variable {σ : Type}

/-! ## 1. What happened -/

/-- The flags of a page after a read, by what happened: its data came in full, the read failed, or
its slot was given up. -/
def Flags.afterRead (flags : Flags) (filled failed freed : Bool) : Flags :=
  { flags with
    locked := false, uptodate := filled, error := !filled && (flags.error || failed)
    dirty := flags.dirty || freed }

namespace Entry

/-- The data of the page came in full; a file works for the page of the call. -/
def fills (p : PageId) : Entry → Bool
  | .transferred _ .read p' _ status => p' = p && status.isOk
  | .read _ length result => movedAll result length
  | e => e.ended p true

/-- The data of the page will not come: its file fell short, or its request failed. -/
def spoils (p : PageId) : Entry → Bool
  | .read _ length result => !movedAll result length
  | e => e.ended p false

variable {e : Entry}

theorem Late.fills (h : e.Late) (p : PageId) : e.fills p = e.ended p true := by
  cases h <;> rfl

theorem Late.spoils (h : e.Late) (p : PageId) : e.spoils p = e.ended p false := by
  cases h <;> rfl

end Entry

/-- **A read, as the fate of its page**, by what is known of it at some moment.  If it is owed the
end of a request then, the request that is not there any more has ended, one way or the other. -/
def Flags.readFate (flags : Flags) (filled failed owed : Bool) : Fate where
  direction := .read
  pending := fun now => (filled = false ∧ failed = false) ∧ now = flags
  settled := fun ended erred now => (owed = true → ended = true ∨ erred = true) ∧
    ∃ freed, now = flags.afterRead (filled || ended) (failed || erred) freed
  ends := by
    rintro page status bytes freed ⟨⟨rfl, rfl⟩, hflags⟩
    cases status with
    | ok u =>
      refine ⟨fun _ => Or.inl rfl, freed, ?_⟩
      simp [Page.ended, hflags, Flags.afterRead, Except.isOk, Except.toBool]
    | error e =>
      refine ⟨fun _ => Or.inr rfl, false, ?_⟩
      simp [Page.ended, hflags, Flags.afterRead, Except.isOk, Except.toBool]

/-- What has happened so far is known. -/
theorem Fate.Shows.known {p : PageId} {flags : Flags} {filled failed owed ended erred : Bool}
    {s : System σ} (h : (flags.readFate filled failed owed).Shows p ended erred s) :
    (flags.readFate (filled || ended) (failed || erred) (owed && !(ended || erred))).Shows p false
      false s := by
  constructor
  · intro r q hq hp
    obtain ⟨hdirection, rfl, rfl, ⟨rfl, rfl⟩, hflags⟩ := h.pending r q hq hp
    exact ⟨hdirection, rfl, rfl, ⟨rfl, rfl⟩, hflags⟩
  · intro hnone
    obtain ⟨howed, freed, hflags⟩ := h.settled hnone
    refine ⟨fun hstill => ?_, freed, ?_⟩
    · rw [Bool.and_eq_true, Bool.not_eq_true', Bool.or_eq_false_iff] at hstill
      obtain ⟨ho, rfl, rfl⟩ := hstill
      exact howed ho
    · rw [Bool.or_false, Bool.or_false]
      exact hflags

/-! ## 2. How a read begins -/

/-- **How far a read is** in `s'`: the entries made since `s`, whether it has failed, and whether it
is owed the end of a request; why it was `lost` or `unserved`; and that the page shows it. -/
structure Reading (journal : σ → List Entry) (p : PageId) (flags : Flags) (s s' : System σ)
    (news : List Entry) (failed owed : Bool) (lost unserved : Prop) : Prop where
  journal : journal s'.world = journal s.world ++ news
  failed_iff : failed = true ↔ lost ∨ news.any (Entry.spoils p) = true
  undecided : news.any (Entry.fills p) = false → failed = false → owed = false → unserved
  shows : (flags.readFate (news.any (Entry.fills p)) failed owed).Shows p false false s'

section

variable {b : Backend σ} {journal : σ → List Entry} {p : PageId} {s s' : System σ} {area : Area}
  {status : Status} {lost unserved : Prop}

/-- A read that makes no request. -/
theorem Reading.of_settled {page : Page} {made : List Entry} {failed : Bool}
    (hpages : s'.pages = s.pages.set p page) (hrequests : s'.requests = s.requests)
    (hno : ∀ r q, s.requests.get r = some q → q.page ≠ p)
    (hjournal : journal s'.world = journal s.world ++ made)
    (hfailed : failed = true ↔ lost ∨ made.any (Entry.spoils p) = true)
    (hundecided : made.any (Entry.fills p) = false → failed = false → unserved)
    (hflags : ∃ freed, page.flags =
      (s.pages.get p).flags.afterRead (made.any (Entry.fills p)) failed freed) :
    Reading journal p (s.pages.get p).flags s s' made failed false lost unserved where
  journal := hjournal
  failed_iff := hfailed
  undecided := fun hfilled hfailed _ => hundecided hfilled hfailed
  shows := by
    obtain ⟨freed, hflags⟩ := hflags
    refine .of_settled (by rw [hrequests]; exact hno) ⟨nofun, freed, ?_⟩
    rw [hpages, Table.get_set_self, hflags, Bool.or_false, Bool.or_false]

/-- A read that has no place to read from. -/
theorem Reading.of_lost (hno : ∀ r q, s.requests.get r = some q → q.page ≠ p) (hlost : lost)
    (e : Errno) : Reading journal p (s.pages.get p).flags s { s with
      pages := s.pages.set p
        ((s.pages.get p).ended .read (.error e) (s.pages.get p).bytes false) } [] true false lost
      unserved := by
  refine .of_settled rfl rfl hno (List.append_nil _).symm
    ⟨fun _ => .inl hlost, fun _ => rfl⟩ (fun _ h => absurd h nofun) ⟨false, ?_⟩
  simp [Page.ended, Flags.afterRead]

theorem DeviceRead.reading (hj : b.Journals journal) {d : DeviceId}
    (hclean : (s.pages.get p).flags.uptodate = false)
    (hno : ∀ r q, s.requests.get r = some q → q.page ≠ p) (hbacking : area.backing.device? = some d)
    (h : DeviceRead b area d p s status s') :
    ∃ made failed issued, Reading journal p (s.pages.get p).flags s s' made failed issued
      (∃ why, area.place (s.pages.get p).slot = .error (.refused why))
      (area.Unserved b s.devices (s.pages.get p) (journal · = journal s.world ++ made) status) := by
  have hplace := area.place_of_device hbacking (s.pages.get p).slot
  cases h with
  | lost hsector => exact ⟨_, _, _, .of_lost hno ⟨_, hplace.trans hsector⟩ _⟩
  | @direct sector bytes w₁ w₂ hsector htransfer _ hcounted =>
    obtain ⟨news, hnews, habout⟩ := hj.noticed area s.devices (s.pages.get p).slot w₁
    have hjournal := (hj.record .pageIn _).trans hnews
    rw [← hcounted, hj.transfer htransfer, List.append_assoc] at hjournal
    have hlate : ∀ e ∈ news, e.Late := fun e he => (habout e he).late
    have hspoils : news.any (Entry.spoils p) = false :=
      (any_congr_of_late hlate fun _ he => he.spoils p).trans
        (any_ended_of_mine (fun e he => (habout e he).mine p) p false)
    refine ⟨_, false, _, .of_settled rfl rfl hno hjournal ?_ (fun hfilled => ?_)
      ⟨(noticed b area s.devices (s.pages.get p).slot w₁).1, ?_⟩⟩
    · simp [hplace, hsector, hspoils, Entry.spoils, Entry.ended]
    · simp [Entry.fills, Except.isOk, Except.toBool] at hfilled
    · simp [Page.ended, Flags.afterRead, Entry.fills, Except.isOk, Except.toBool]
  | crowded hsector htransfer hwhy =>
    have hjournal := hj.transfer htransfer
    refine ⟨_, false, _, .of_settled rfl rfl hno hjournal ?_
      (fun _ _ => .of_why hbacking hjournal hwhy) ⟨false, ?_⟩⟩
    · simp [hplace, hsector, Entry.spoils, Entry.ended]
    · simp [Page.released, Flags.afterRead, Entry.fills, hclean, Except.isOk, Except.toBool]
  | @issued sector e bytes w₁ w₂ dev q hsector htransfer hroom htag hq _ hcounted =>
    have hjournal := (hj.record .pageIn w₁).trans (hj.transfer htransfer)
    rw [← hcounted] at hjournal
    obtain ⟨hpage, hdirection⟩ : q.page = p ∧ q.direction = .read := by
      rcases hq with rfl | ⟨i, rfl⟩ <;> exact ⟨rfl, rfl⟩
    refine ⟨_, false, true, hjournal, ?_, fun _ _ h => Bool.noConfusion h, ?_⟩
    · simp [hplace, hsector, Entry.spoils, Entry.ended]
    · refine .of_issued rfl hno hpage hdirection ⟨⟨?_, rfl⟩, ?_⟩
      · simp [Entry.fills, Except.isOk, Except.toBool]
      · rw [Table.get_set_self]

theorem FileRead.reading (hj : b.Journals journal) {f : FileId}
    (hno : ∀ r q, s.requests.get r = some q → q.page ≠ p) (hbacking : area.backing = .file f)
    (h : FileRead b area f p s status s') :
    ∃ made failed issued, Reading journal p (s.pages.get p).flags s s' made failed issued
      (∃ why, area.place (s.pages.get p).slot = .error (.refused why))
      (area.Unserved b s.devices (s.pages.get p) (journal · = journal s.world ++ made) status) := by
  have hplace := area.place_of_file hbacking (s.pages.get p).slot
  cases h with
  | lost hposition =>
    rw [hposition] at hplace
    exact ⟨_, _, _, .of_lost hno ⟨_, hplace⟩ _⟩
  | @read position result bytes w₁ w₂ hposition hread _ hcounted =>
    have hjournal := hj.countedIn (readStatus result (s.pages.get p).size) w₁
    rw [← hcounted, hj.read hread] at hjournal
    have hplace : ∀ why, area.place (s.pages.get p).slot ≠ .error (.refused why) := by
      rw [hplace, hposition]
      exact fun _ h => absurd h nofun
    have hmoved : movedAll result (s.pages.get p).bytes.size.toUInt64 =
        (readStatus result (s.pages.get p).size).isOk := movedAll_eq _ _
    refine ⟨_, !(readStatus result (s.pages.get p).size).isOk, _,
      .of_settled rfl rfl hno hjournal ?_ (fun hfilled hfailed => ?_) ⟨false, ?_⟩⟩
    · rw [List.any_cons, Entry.spoils, hmoved]
      simp [hplace]
    · rw [List.any_cons, Entry.fills, hmoved] at hfilled
      simp_all
    · rw [List.any_cons, Entry.fills, hmoved]
      cases readStatus result (s.pages.get p).size with
      | ok u => simp [Page.ended, Flags.afterRead, Except.isOk, Except.toBool]
      | error e => simp [Page.ended, Flags.afterRead, Except.isOk, Except.toBool]

theorem SlotRead.reading (hj : b.Journals journal)
    (hclean : (s.pages.get p).flags.uptodate = false)
    (hno : ∀ r q, s.requests.get r = some q → q.page ≠ p) (h : SlotRead b area p s status s') :
    ∃ made failed issued, Reading journal p (s.pages.get p).flags s s' made failed issued
      (∃ why, area.place (s.pages.get p).slot = .error (.refused why))
      (area.Unserved b s.devices (s.pages.get p) (journal · = journal s.world ++ made) status) := by
  cases h with
  | file hbacking h => exact h.reading hj hno hbacking
  | device hbacking h => exact h.reading hj hclean hno hbacking

/-- **A read begins in one of these ways**, whatever the front store answers but that it has the
page. -/
theorem PageRead.reading (hj : b.Journals journal)
    (hclean : (s.pages.get p).flags.uptodate = false)
    (hno : ∀ r q, s.requests.get r = some q → q.page ≠ p) {pace : Pace}
    (hdeclined : s.Declined b p pace) (h : PageRead b p pace s status s') :
    ∃ made failed issued, Reading journal p (s.pages.get p).flags s s' made failed issued
      (s.Misplaced p)
      (∃ area, s.areaAt p = some area ∧ area.Unserved b s.devices (s.pages.get p)
        (journal · = journal s.world ++ made) status) := by
  cases h with
  | lost harea => exact ⟨_, _, _, .of_lost hno (Or.inl harea) _⟩
  | loaded _ hfront hfill => exact absurd (hdeclined _ _ _ _ hfront hfill).1 nofun
  | @slot area w₂ s₁ _ _ harea hfront _ h hstall =>
    have hstall : Aside b s₁.world w₂ := hstall ▸ .enter _
    -- the front store leaves its entry, and the page but for the bytes
    obtain ⟨declined, hdeclines, hkept, hpage, hrequests, hdevices⟩ : ∃ declined,
        (declined = [] ∨ declined = [.filled p false]) ∧
        journal s₁.world = journal s.world ++ declined ∧
        s₁.pages.get p = { s.pages.get p with bytes := (s₁.pages.get p).bytes } ∧
        s₁.requests = s.requests ∧ s₁.devices = s.devices := by
      cases hfront with
      | absent => exact ⟨_, .inl rfl, (List.append_nil _).symm, rfl, rfl, rfl⟩
      | declined hfront hask =>
        refine ⟨_, .inr rfl, hj.fill hfront hask, ?_, rfl, rfl⟩
        rw [Table.get_set_self]
        exact (hdeclined _ _ _ _ hfront hask).2
    have hflags : (s₁.pages.get p).flags = (s.pages.get p).flags := by rw [hpage]
    have hslot : (s₁.pages.get p).slot = (s.pages.get p).slot := by rw [hpage]
    have horder : (s₁.pages.get p).nrPages = (s.pages.get p).nrPages := by rw [hpage]; rfl
    obtain ⟨made, failed, issued, hreading⟩ :=
      h.reading hj (hflags ▸ hclean) (by rw [hrequests]; exact hno)
    have hjournal : journal w₂ ++ made = journal s.world ++ (declined ++ made) := by
      rw [hj.aside hstall, hkept, List.append_assoc]
    have hnone : ∀ f : Entry → Bool, f (.filled p false) = false →
        (declined ++ made).any f = made.any f := by
      intro f hf
      rcases hdeclines with rfl | rfl <;> simp [hf]
    refine ⟨declined ++ made, failed, issued, hreading.journal.trans hjournal, ?_,
      fun hfilled hfailed hissued => ⟨area, harea, ?_⟩, ?_⟩
    · rw [hnone _ rfl, hreading.failed_iff, hslot]
      refine or_congr_left ⟨fun ⟨why, hwhy⟩ => Or.inr ⟨area, why, harea, hwhy⟩, fun h => ?_⟩
      rcases h with hnowhere | ⟨area', why, harea', hwhy⟩
      · exact absurd (hnowhere.symm.trans harea) nofun
      · exact ⟨why, Option.some.inj (harea'.symm.trans harea) ▸ hwhy⟩
    · rw [hnone _ rfl] at hfilled
      have hunserved := hreading.undecided hfilled hfailed hissued
      unfold Area.Unserved at hunserved ⊢
      simp only [hdevices, horder, hjournal] at hunserved
      exact hunserved
    · rw [hnone _ rfl, ← hflags]
      exact hreading.shows

/-! ## 3. A whole read -/

theorem Reading.imp {flags : Flags} {news : List Entry} {failed owed : Bool} {unserved' : Prop}
    (h : Reading journal p flags s s' news failed owed lost unserved)
    (hunserved : unserved → unserved') :
    Reading journal p flags s s' news failed owed lost unserved' where
  journal := h.journal
  failed_iff := h.failed_iff
  undecided := fun hfilled hfailed howed => hunserved (h.undecided hfilled hfailed howed)
  shows := h.shows

/-- **A read goes on**, with the completions that come. -/
theorem Reading.later {flags : Flags} {made : List Entry} {failed owed : Bool} {s₁ : System σ}
    (h : Reading journal p flags s s' made failed owed lost unserved)
    (htracks : (flags.readFate (made.any (Entry.fills p)) failed owed).Tracks journal p
      (journal s.world ++ made) Entry.Late s₁) :
    ∃ news failed owed, made <+: news ∧
      Reading journal p flags s s₁ news failed owed lost unserved := by
  obtain ⟨rest, hjournal, hrest, hshows⟩ := htracks
  have hfills : (made ++ rest).any (Entry.fills p) =
      (made.any (Entry.fills p) || rest.any (Entry.ended p true)) := by
    rw [List.any_append, any_congr_of_late hrest fun _ he => he.fills p]
  have hspoils : (made ++ rest).any (Entry.spoils p) =
      (made.any (Entry.spoils p) || rest.any (Entry.ended p false)) := by
    rw [List.any_append, any_congr_of_late hrest fun _ he => he.spoils p]
  refine ⟨made ++ rest, failed || rest.any (Entry.ended p false),
    owed && !(rest.any (Entry.ended p true) || rest.any (Entry.ended p false)),
    List.prefix_append _ _, ?_⟩
  constructor
  · rw [hjournal, List.append_assoc]
  · rw [hspoils, Bool.or_eq_true, Bool.or_eq_true, h.failed_iff, or_assoc]
  · intro hfilled hfailed howed
    rw [hfills, Bool.or_eq_false_iff] at hfilled
    rw [Bool.or_eq_false_iff] at hfailed
    rw [hfilled.2, hfailed.2, Bool.or_false, Bool.not_false, Bool.and_true] at howed
    exact h.undecided hfilled.1 hfailed.1 howed
  · rw [hfills]
    exact hshows.known

/-- **How far a read is when its call returns**, with all completions inside it. -/
theorem pageIn_reading (hb : Lawful b) (hj : b.Journals journal) (hs : s.Coherent)
    (hheld : (s.pages.get p).Held) (hclean : (s.pages.get p).flags.uptodate = false) {pace : Pace}
    (hdeclined : s.Declined b p pace) :
    (pageIn b p pace).wp (fun status s₁ => s₁.CoherentSince s.devices ∧
      ∃ news failed owed, Reading journal p (s.pages.get p).flags s s₁ news failed owed
        (s.Misplaced p) (∃ area, s.areaAt p = some area ∧ area.Unserved b s.devices (s.pages.get p)
          (fun w => journal s.world <+: journal w ∧ journal w <+: journal s₁.world) status))
      (¬ ·.Assertion) s := by
  -- up to its first step, and then whatever is finished
  have hwhole : (pageIn b p pace).wp (fun status s₁ => ∃ i : List Entry × Bool × Bool,
      (∃ s', Reading journal p (s.pages.get p).flags s s' i.1 i.2.1 i.2.2 (s.Misplaced p)
        (∃ area, s.areaAt p = some area ∧ area.Unserved b s.devices (s.pages.get p)
          (journal · = journal s.world ++ i.1) status)) ∧
      s₁.CoherentSince s.devices ∧
      ((s.pages.get p).flags.readFate (i.1.any (Entry.fills p)) i.2.1 i.2.2).Tracks journal p
        (journal s.world ++ i.1) Entry.Late s₁) (¬ ·.Assertion) s := by
    refine pageIn_wp (fun status => Lasting.any fun i => .guard
      (Fate.lasting _ hb hj _ _ _ fun _ h => h) _) hb.mindsReads (fun _ _ => .of_stop id)
      (fun _ => id) hheld hclean fun status s' h => ?_
    obtain ⟨made, failed, issued, hreading⟩ :=
      h.reading hj hclean (hs.no_request hheld.2) hdeclined
    refine ⟨(made, failed, issued), ⟨s', hreading⟩, h.coherent hb hs.since hheld, ?_⟩
    rw [← hreading.journal]
    exact .of_shows hreading.shows
  refine Run.wp_mono hwhole (fun status s₁ h => ?_) fun _ hf => hf
  obtain ⟨⟨made, failed, issued⟩, ⟨s', hreading⟩, hsince, htracks⟩ := h
  obtain ⟨news, failed, owed, hprefix, hnow⟩ := hreading.later htracks
  refine ⟨hsince, news, failed, owed, hnow.imp ?_⟩
  rintro ⟨area, harea, hunserved⟩
  refine ⟨area, harea, hunserved.imp fun w hw => ?_⟩
  rw [hnow.journal, hw]
  exact ⟨List.prefix_append _ _, (List.prefix_append_right_inj _).mpr hprefix⟩

/-- **Once there is no request for the page any more**, whatever others have done meanwhile, it has
no transfer and its flags say what happened. -/
theorem Reading.over {flags : Flags} {news : List Entry} {failed owed : Bool} {s₁ s₂ : System σ}
    (hb : Lawful b) (hj : b.Journals journal) (hs : s₁.Coherent)
    (h : Reading journal p flags s s₁ news failed owed lost unserved)
    (hothers : Relation.ReflTransGen (Others b journal p) s₁ s₂)
    (hnone : ∀ r q, s₂.requests.get r = some q → q.page ≠ p) :
    ∃ later freed, journal s₂.world = journal s₁.world ++ later ∧
      (s₂.pages.get p).transfer = .idle ∧
      (owed = true →
        later.any (Entry.ended p true) = true ∨ later.any (Entry.ended p false) = true) ∧
      (s₂.pages.get p).flags = flags.afterRead
        (news.any (Entry.fills p) || later.any (Entry.ended p true))
        (failed || later.any (Entry.ended p false)) freed := by
  obtain ⟨hcoherent, later, hlater, -, hshows⟩ :=
    (Fate.Tracks.of_shows h.shows).meanwhile hb hj hs hothers
  obtain ⟨howed, freed, hflags⟩ := hshows.settled hnone
  exact ⟨later, freed, hlater, hcoherent.idle hnone, howed, hflags⟩

end

/-! ## 4. A device that is polled -/

/-- A disk in memory that takes one page in a request, and whose driver is done with a request when
it is polled for it. -/
def pollingDisk : Backend RamDisk :=
  { ramDisk false with
    queues :=
      { (ramDisk false).queues with
        maxPages := fun _ _ => 1
        submit := fun _ r _ _ _ w => ((UInt64.ofNat r, []), w)
        poll := fun _ cookie _ w => ((true, [⟨cookie.toNat, none⟩]), w) }
    patience := 8 }

/-- It has a journal. -/
def polledDisk : Backend (RamDisk × Journal) := pollingDisk.journaled

theorem polledDisk_lawful : Lawful polledDisk :=
  ((ramDisk_lawful false).congr rfl rfl rfl rfl rfl : Lawful pollingDisk).heardBy _

/-- Three pages in an area of eight: an earlier attempt to read page 0 has failed, nobody has tried
page 1, and page 2 is made of two base pages. -/
def polledStart : System (RamDisk × Journal) :=
  let page : Page := { flags.locked := true, slot := some ⟨2⟩, bytes := Bytes.fill 4096 0 }
  let retried : Page := { page with flags.error := true, slot := some ⟨1⟩ }
  let large : Page := { page with order := 1, slot := some ⟨4⟩, bytes := Bytes.fill 8192 0 }
  { pages := ⟨#[retried, page, large]⟩
    devices := ⟨#[{ number := 0, sectors := 256, queue := 0, depth := 2 }]⟩
    registry := ⟨#[some ramArea]⟩
    world := ({}, {}) }

theorem polledStart_quiet : polledStart.Quiet :=
  ⟨fun _ => rfl, fun p => by rcases p with _ | _ | _ | p <;> rfl,
    fun d => by rcases d with _ | d <;> rfl⟩

/-- Nobody is in front of the device. -/
theorem declined_polledStart (p : PageId) (pace : Pace) : polledStart.Declined polledDisk p pace :=
  fun _ _ _ _ hfront => absurd hfront nofun

/-! ## 5. All of it -/

/-- **Every outcome of a read.**  In a state that a run reaches from a quiet one, a page that is
locked, has no transfer and holds no valid content is read in, and the front store does not have
it.  No assertion fails, and when the call returns

* the account of stalls was entered once and left once, with the value it had given, if the page
  has an area, and else was not used;
* there is no request for the page, if the read was to be waited for;
* once there is no request for the page any more, whatever others have done meanwhile, it has no
  transfer, and its flags say what happened: it is unlocked, its content is valid exactly if the
  driver filled it at once, its file read all of it, or its request ended without an error, and it
  is errored exactly if its content is not valid and it was errored before or the read failed --
  because its slot leads nowhere, its file fell short, or its request failed. -/
theorem every_outcome_of_a_read {b : Backend σ} {journal : σ → List Entry} {log : σ → List Stall}
    (hb : Lawful b) (hj : b.Journals journal) (hl : b.LogsStalls log) {s₀ s : System σ}
    (hquiet : s₀.Quiet) (hrun : Reaches b s₀ s) {p : PageId} (hheld : (s.pages.get p).Held)
    (hclean : (s.pages.get p).flags.uptodate = false) {pace : Pace}
    (hdeclined : s.Declined b p pace) :
    (∀ e, pageIn b p pace s = .error e → ¬ e.Assertion) ∧
    ∀ status s₁, pageIn b p pace s = .ok (status, s₁) →
      (s.areaAt p = none ∧ log s₁.world = log s.world ∨
        ∃ area cookie, s.areaAt p = some area ∧
          log s₁.world = log s.world ++ [.entered cookie, .left cookie]) ∧
      (pace = .await → ∀ r q, s₁.requests.get r = some q → q.page ≠ p) ∧
      ∃ news, journal s₁.world = journal s.world ++ news ∧
        ∀ s₂, Relation.ReflTransGen (Others b journal p) s₁ s₂ →
          (∀ r q, s₂.requests.get r = some q → q.page ≠ p) →
          ∃ later failed freed, journal s₂.world = journal s₁.world ++ later ∧
            (s₂.pages.get p).transfer = .idle ∧
            (failed = true ↔ s.Misplaced p ∨ news.any (Entry.spoils p) = true ∨
              later.any (Entry.ended p false) = true) ∧
            (s₂.pages.get p).flags = (s.pages.get p).flags.afterRead
              (news.any (Entry.fills p) || later.any (Entry.ended p true)) failed freed := by
  have hs := coherent_of_reaches hb hquiet hrun
  have hover := pageIn_over hb hs (unattended_of_reaches hb hquiet hrun) hheld hclean pace
  have hstalls := pageIn_stalls hb hl hs hheld hclean hdeclined
  have hreads := pageIn_reading hb hj hs hheld hclean hdeclined
  refine ⟨fun e he => hreads.of_error he, fun status s₁ hok => ?_⟩
  obtain ⟨hsince, news, failed, owed, hreading⟩ := hreads.of_ok hok
  refine ⟨hstalls.of_ok hok, (hover.of_ok hok).2, news, hreading.journal,
    fun s₂ hothers hnone => ?_⟩
  obtain ⟨later, freed, hlater, hidle, -, hflags⟩ :=
    hreading.over hb hj hsince.coherent hothers hnone
  refine ⟨later, _, freed, hlater, hidle, ?_, hflags⟩
  rw [Bool.or_eq_true, hreading.failed_iff, or_assoc]

/-- Page 0 has been read. -/
def polledRead : System (RamDisk × Journal) := (Call.pageIn 0 .await).after polledDisk polledStart

/-- **A page that was errored is read, and waited for**: its request ends inside a poll, which makes
its content valid and clears the error, and the stall is over. -/
theorem error_cleared_by_reading :
    pageIn polledDisk 0 .await polledStart = .ok (.ok (), polledRead) ∧
    (∃ cookie, polledRead.world.2.stalls = [.entered cookie, .left cookie]) ∧
    (polledRead.pages.get 0).transfer = .idle ∧
    (polledRead.pages.get 0).flags.locked = false ∧
    (polledRead.pages.get 0).flags.uptodate = true ∧
    (polledRead.pages.get 0).flags.error = false := by
  have hread : pageIn polledDisk 0 .await polledStart = .ok (.ok (), polledRead) :=
    @Call.run_after _ polledDisk (.pageIn 0 .await) polledStart (by decide +kernel)
  obtain ⟨-, houtcome⟩ := every_outcome_of_a_read polledDisk_lawful (journaled_journals _)
    (journaled_logsStalls _) polledStart_quiet .refl (p := 0) ⟨rfl, rfl⟩ rfl
    (declined_polledStart 0 .await)
  obtain ⟨hstalls, hnone, news, hnews, hover⟩ := houtcome _ _ hread
  refine ⟨hread, ?_, ?_⟩
  · rcases hstalls with ⟨hnowhere, -⟩ | ⟨area, cookie, -, hlog⟩
    · exact absurd hnowhere nofun
    · exact ⟨cookie, hlog⟩
  · obtain ⟨later, failed, freed, -, hidle, -, hflags⟩ := hover polledRead .refl (hnone rfl)
    obtain rfl : polledRead.world.2.entries = news := hnews
    have hfills : polledRead.world.2.entries.any (Entry.fills 0) = true := by decide +kernel
    rw [hfills, Bool.true_or] at hflags
    rw [hflags]
    exact ⟨hidle, rfl, rfl, rfl⟩

/-- **A finished read is decided.**  A page that is locked, has no transfer, holds no valid content
and is not errored is read in, and the front store does not have it.  Once the call has returned and
there is no request for the page any more, its content is valid or it is errored, and not both --
unless no request was to be had during the call: then it is neither, and the call has answered why.
-/
theorem finished_read_is_decided {b : Backend σ} {journal : σ → List Entry} (hb : Lawful b)
    (hj : b.Journals journal) {s₀ s : System σ} (hquiet : s₀.Quiet) (hrun : Reaches b s₀ s)
    {p : PageId} (hheld : (s.pages.get p).Held) (hclean : (s.pages.get p).flags.uptodate = false)
    (hsound : (s.pages.get p).flags.error = false) {pace : Pace} (hdeclined : s.Declined b p pace)
    {status : Status} {s₁ s₂ : System σ} (hok : pageIn b p pace s = .ok (status, s₁))
    (hothers : Relation.ReflTransGen (Others b journal p) s₁ s₂)
    (hnone : ∀ r q, s₂.requests.get r = some q → q.page ≠ p) :
    (s₂.pages.get p).flags.uptodate = !(s₂.pages.get p).flags.error ∨
      (s₂.pages.get p).flags.uptodate = false ∧ (s₂.pages.get p).flags.error = false ∧
        ∃ area, s.areaAt p = some area ∧ area.Unserved b s.devices (s.pages.get p)
          (fun w => journal s.world <+: journal w ∧ journal w <+: journal s₁.world) status := by
  have hs := coherent_of_reaches hb hquiet hrun
  obtain ⟨hsince, news, failed, owed, hreading⟩ :=
    (pageIn_reading hb hj hs hheld hclean hdeclined).of_ok hok
  obtain ⟨later, freed, -, -, howed, hflags⟩ := hreading.over hb hj hsince.coherent hothers hnone
  rw [hflags]
  by_cases hfilled : (news.any (Entry.fills p) || later.any (Entry.ended p true)) = true
  · left
    simp [Flags.afterRead, hfilled]
  · by_cases hfailed : (failed || later.any (Entry.ended p false)) = true
    · left
      simp only [Bool.not_eq_true] at hfilled
      simp [Flags.afterRead, hfilled, hfailed]
    · -- it has neither come nor failed, so no request is owed its end
      right
      simp only [Bool.not_eq_true] at hfilled hfailed
      refine ⟨hfilled, by simp [Flags.afterRead, hfailed, hsound], ?_⟩
      rw [Bool.or_eq_false_iff] at hfilled hfailed
      refine hreading.undecided hfilled.1 hfailed.1 (Bool.eq_false_iff.mpr fun ho => ?_)
      rcases howed ho with hend | hend
      · exact absurd (hfilled.2.symm.trans hend) nofun
      · exact absurd (hfailed.2.symm.trans hend) nofun

/-- Page 1 has been handed over to the device. -/
def polledHanded : System (RamDisk × Journal) := (Call.pageIn 1 .start).after polledDisk polledStart

/-- The request for page 1 has failed. -/
def polledFailed : System (RamDisk × Journal) :=
  (Call.finish ⟨0, some (.error Errno.io)⟩).after polledDisk polledHanded

/-- **A read whose request fails later** leaves its page errored, and not valid. -/
theorem errored_when_handed_over :
    pageIn polledDisk 1 .start polledStart = .ok (.ok (), polledHanded) ∧
    (polledFailed.pages.get 1).flags.uptodate = !(polledFailed.pages.get 1).flags.error := by
  have hread : pageIn polledDisk 1 .start polledStart = .ok (.ok (), polledHanded) :=
    @Call.run_after _ polledDisk (.pageIn 1 .start) polledStart (by decide +kernel)
  have hend := @Call.run_after _ polledDisk (.finish ⟨0, some (.error Errno.io)⟩) polledHanded
    (by decide +kernel)
  have hnone : ∀ r, polledFailed.requests.get r = none :=
    Table.forall_get (P := (· = none)) _ rfl (by decide +kernel)
  have hdecided := finished_read_is_decided polledDisk_lawful (journaled_journals _)
    polledStart_quiet .refl (p := 1) ⟨rfl, rfl⟩ rfl rfl (declined_polledStart 1 .start) hread
    (.single (.call (c := .finish _) trivial nofun hend))
    fun r q hq => absurd ((hnone r).symm.trans hq) nofun
  refine ⟨hread, hdecided.resolve_right fun ⟨_, _, area, harea, d, hbacking, hwhy⟩ => ?_⟩
  -- a request was had: the call did not answer an error
  rcases hwhy with ⟨-, hstatus⟩ | ⟨-, hstatus⟩
  · exact absurd hstatus nofun
  · exact absurd hstatus nofun

/-- **A page that is too large for its device is left undecided**: the call answers that the request
makes no sense, no request is made, and the page is neither valid nor errored. -/
theorem undecided_when_too_large :
    polledDisk.front = none ∧ polledStart.Quiet ∧ (polledStart.pages.get 2).Held ∧
      (polledStart.pages.get 2).flags.uptodate = false ∧
      (polledStart.pages.get 2).flags.error = false ∧
      ∃ s₁, pageIn polledDisk 2 .await polledStart = .ok (.error Errno.invalid, s₁) ∧
        (∀ r, s₁.requests.get r = none) ∧
        (s₁.pages.get 2).flags.uptodate = false ∧ (s₁.pages.get 2).flags.error = false :=
  ⟨rfl, polledStart_quiet, ⟨rfl, rfl⟩, rfl, rfl,
    (Call.pageIn 2 .await).after polledDisk polledStart,
    @Call.run_refused _ polledDisk (.pageIn 2 .await) polledStart _ (by decide +kernel),
    Table.forall_get (P := (· = none)) _ rfl (by decide +kernel), by decide +kernel,
    by decide +kernel⟩

end PageSwap
