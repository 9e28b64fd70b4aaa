/-
# A refused call leaves no trace

A call is refused when its page has no area, when its slot has no place there, or when no request is
to be had for it: the page is too large for one, or the device has no tag left.  By then slot map,
front store and driver may have been asked, and the transfer of the page begun and ended.  As long
as the area reaches a device, nothing remains of that but the page, given back to its caller.

* `Backend.Overlooks` -- what is seen of the collaborators does not change when they decline.
* `NoTrace` -- nothing has changed but the page.
* `refused_call_leaves_no_trace` -- writes and reads that answer an error.
-/
import PageSwap.Proofs.Bounds
import PageSwap.Proofs.Outcome

namespace PageSwap

variable {σ ν : Type}

/-! ## 1. What is seen -/

/-- **Declining is not seen**: `view` is what is seen of the collaborators.  A slot map or a front
store that declines leaves the page alone, and a driver that does not transfer a page leaves its
bytes alone; none of that is seen, nor that a clock is read or a stall accounted for.  Requests that
are handed over, transfers, slots given up and counters may all be seen. -/
structure Backend.Overlooks (b : Backend σ) (view : σ → ν) : Prop where
  tryFree : ∀ {m p page w page' w'}, b.slotMaps.tryFree m p page w = ((false, page'), w') →
    page' = page ∧ view w' = view w
  store : ∀ {front p page w page' w'}, b.front = some front →
    front.store p page w = .ok ((false, page'), w') → page' = page ∧ view w' = view w
  fill : ∀ {front p pace page w page' w'}, b.front = some front →
    front.fill p pace page w = .ok ((false, page'), w') → page' = page ∧ view w' = view w
  transfer : ∀ {queue sector direction p page w e bytes w'},
    b.queues.transfer queue sector direction p page w = .ok ((.error e, bytes), w') →
      bytes = page.bytes ∧ view w' = view w
  cycles : ∀ w, view (b.statistics.cycles w).2 = view w
  enter : ∀ w, view (b.stalls.enter w).2 = view w
  leave : ∀ cookie w, view (b.stalls.leave cookie w) = view w

/-- **Nothing has changed** from `s` to `s'` but page `p`, which is `page` now, and what is not seen
of the collaborators. -/
structure NoTrace (view : σ → ν) (p : PageId) (page : Page) (s s' : System σ) : Prop where
  view : view s'.world = view s.world
  rest : s' = { s with pages := s.pages.set p page, world := s'.world }

/-- So far nothing has changed but page `p`, which is `page`. -/
structure Overlooked (view : σ → ν) (p : PageId) (page : Page) (s s₁ : System σ) : Prop where
  view : view s₁.world = view s.world
  page : s₁.pages.get p = page
  rest : ∀ page' (w : σ), { s₁ with pages := s₁.pages.set p page', world := w } =
    { s with pages := s.pages.set p page', world := w }

section

variable {b : Backend σ} {view : σ → ν} {p : PageId} {page page' : Page} {s s₁ s' : System σ}
  {area : Area} {d : DeviceId} {e : Errno}

theorem Overlooked.refl (view : σ → ν) (p : PageId) (s : System σ) :
    Overlooked view p (s.pages.get p) s s :=
  ⟨rfl, rfl, fun _ _ => rfl⟩

/-- Collaborators go on unseen. -/
theorem Overlooked.unseen (h : Overlooked view p page s s₁) {w : σ} (hw : view w = view s₁.world) :
    Overlooked view p page s { s₁ with world := w } :=
  ⟨hw.trans h.view, h.page, h.rest⟩

/-- The page is changed. -/
theorem Overlooked.set (h : Overlooked view p page s s₁) (page' : Page) {w : σ}
    (hw : view w = view s₁.world) :
    Overlooked view p page' s { s₁ with pages := s₁.pages.set p page', world := w } where
  view := hw.trans h.view
  page := Table.get_set_self _ _ _
  rest := fun page'' w' => by
    rw [← h.rest page'' w']
    simp only [Table.set_set]

/-- The page is given back. -/
theorem Overlooked.noTrace (h : Overlooked view p page s s₁) (h' : NoTrace view p page' s₁ s') :
    NoTrace view p page' s s' :=
  ⟨h'.view.trans h.view, h'.rest.trans (h.rest _ _)⟩

/-- A front store that declines is overlooked. -/
theorem FrontDeclines.overlooked
    {ask : FrontStore σ → Page → σ → Except Fault ((Bool × Page) × σ)}
    (hask : ∀ {front page w page' w'}, b.front = some front →
      ask front page w = .ok ((false, page'), w') → page' = page ∧ view w' = view w)
    (h : FrontDeclines b ask p s₁ s') (hs : Overlooked view p page s s₁) :
    Overlooked view p page s s' := by
  cases h with
  | absent => exact hs
  | declined hfront hanswer =>
    obtain ⟨hpage, hview⟩ := hask hfront hanswer
    rw [hs.page] at hpage
    subst hpage
    exact hs.set _ hview

/-! ## 2. Devices -/

/-- **A write that its device refuses**: the page is dirty and unlocked. -/
theorem DeviceWrite.refused (hover : b.Overlooks view) {w : Writeback} {ending : Ending}
    (hheld : (s.pages.get p).Held) (h : DeviceWrite b area d p w ending s (.error e) s') :
    NoTrace view p (s.pages.get p).spilled s s' := by
  cases h with
  | lost => exact ⟨rfl, rfl⟩
  | crowded _ htransfer =>
    obtain ⟨rfl, hview⟩ := hover.transfer htransfer
    refine ⟨hview, ?_⟩
    rw [← hheld.2]
    rfl

/-- **A read that its device refuses**: the page is unlocked, and errored if it has no sector. -/
theorem DeviceRead.refused (hover : b.Overlooks view) (hheld : (s.pages.get p).Held)
    (h : DeviceRead b area d p s (.error e) s') :
    (∃ why, area.sector (s.pages.get p).slot = .error (.refused why)) ∧
        NoTrace view p (s.pages.get p).unread s s' ∨
      (∃ sector, area.sector (s.pages.get p).slot = .ok sector) ∧
        NoTrace view p (s.pages.get p).released s s' := by
  cases h with
  | lost hsector =>
    refine Or.inl ⟨⟨_, hsector⟩, rfl, ?_⟩
    rw [Page.ended_of_idle hheld.2]
    rfl
  | crowded hsector htransfer =>
    obtain ⟨rfl, hview⟩ := hover.transfer htransfer
    refine Or.inr ⟨⟨_, hsector⟩, hview, ?_⟩
    rw [← hheld.2]
    rfl

/-! ## 3. Calls -/

/-- **Writing to a slot on a device**, if it is refused, leaves no trace. -/
theorem writeSlot_refused (hover : b.Overlooks view) (hheld : (s.pages.get p).Held)
    (hdevice : area.backing.device?.isSome) (w : Writeback) (ending : Ending) :
    (writeSlot b area p w ending).wp (fun status s' => ∀ e, status = .error e →
      NoTrace view p (s.pages.get p).spilled s s') (fun _ => True) s := by
  obtain ⟨d, hd⟩ := Option.isSome_iff_exists.mp hdevice
  rw [writeSlot_eq_writeDevice hd]
  refine writeDevice_steps tolerant_any (.of_stop trivial) hheld (fun status s' h e he => ?_)
    fun r q s' _ => ?_
  · subst he
    exact h.refused hover hheld
  · exact Run.wp_of_forall fun _ _ _ h => absurd h nofun

/-- **Reading from a slot on a device**, if it is refused, leaves no trace. -/
theorem readSlot_refused (hover : b.Overlooks view) (hheld : (s.pages.get p).Held)
    (hdevice : area.backing.device?.isSome) (pace : Pace) :
    (readSlot b area p pace).wp (fun status s' => ∀ e, status = .error e →
      (∃ why, area.place (s.pages.get p).slot = .error (.refused why)) ∧
          NoTrace view p (s.pages.get p).unread s s' ∨
        (∃ place, area.place (s.pages.get p).slot = .ok place) ∧
          NoTrace view p (s.pages.get p).released s s') (fun _ => True) s := by
  obtain ⟨d, hd⟩ := Option.isSome_iff_exists.mp hdevice
  rw [readSlot_eq_readDevice hd, area.place_of_device hd]
  refine readDevice_steps tolerant_any (.of_stop trivial) hheld (fun status s' h _ e he => ?_)
    (fun q s' _ _ _ _ _ => ?_) fun q s' _ _ _ _ _ _ => ?_
  · subst he
    exact h.refused hover hheld
  · exact Run.wp_of_forall fun _ _ _ h => absurd h nofun
  · exact Run.wp_of_forall fun _ _ => Run.wp_of_forall fun _ _ _ h => absurd h nofun

theorem pageOut_refused (hb : Lawful b) (hover : b.Overlooks view) (hheld : (s.pages.get p).Held)
    (hdevice : ∀ area, s.areaAt p = some area → area.backing.device?.isSome) (w : Writeback) :
    (pageOut b p w).wp (fun status s' => ∀ e, status = .error e →
      NoTrace view p (s.pages.get p).spilled s s') (fun _ => True) s := by
  refine pageOut_steps tolerant_any.toFrontFaults hb.minds hheld (fun _ _ _ => ⟨rfl, rfl⟩)
    (fun _ _ _ h => absurd h nofun) fun area page w₁ s₁ harea hfree hfront hheld' => ?_
  -- the page has been cleaned, slot map and front store have declined
  obtain ⟨rfl, hview⟩ := hover.tryFree hfree
  have hkept := hfront.overlooked (fun hfront h => hover.store hfront h)
    ((Overlooked.refl view p s).set _ ((hover.cycles w₁).trans hview))
  refine Run.wp_mono (writeSlot_refused hover hheld' (hdevice area harea) w .write)
    (fun status s' h e he => hkept.noTrace ?_) fun _ hf => hf
  have hback := h e he
  rw [hkept.page] at hback
  exact hback

theorem pageOutPast_refused (hover : b.Overlooks view) (hheld : (s.pages.get p).Held)
    (hdevice : ∀ area, s.areaAt p = some area → area.backing.device?.isSome) (w : Writeback)
    (ending : Ending) :
    (pageOutPast b p w ending).wp (fun status s' => ∀ e, status = .error e →
      NoTrace view p (s.pages.get p).spilled s s') (fun _ => True) s :=
  pageOutPast_steps hheld (fun _ _ _ => ⟨rfl, rfl⟩) fun area harea =>
    writeSlot_refused hover hheld (hdevice area harea) w ending

theorem pageIn_refused (hb : Lawful b) (hover : b.Overlooks view) (hheld : (s.pages.get p).Held)
    (hclean : (s.pages.get p).flags.uptodate = false)
    (hdevice : ∀ area, s.areaAt p = some area → area.backing.device?.isSome) (pace : Pace) :
    (pageIn b p pace).wp (fun status s' => ∀ e, status = .error e →
      s.Misplaced p ∧ NoTrace view p (s.pages.get p).unread s s' ∨
        ¬ s.Misplaced p ∧ NoTrace view p (s.pages.get p).released s s') (fun _ => True) s := by
  refine pageIn_steps tolerant_any.toFrontFaults hb.mindsReads hheld hclean (fun harea _ _ => ?_)
    (fun _ _ _ _ _ _ _ _ h => absurd h nofun) fun area s₁ harea hfront hheld' => ?_
  · refine Or.inl ⟨Or.inl harea, rfl, ?_⟩
    rw [Page.ended_of_idle hheld.2]
    rfl
  · -- the front store has declined, and a stall is accounted for
    have hkept := (hfront.overlooked (fun hfront h => hover.fill hfront h)
      (Overlooked.refl view p s)).unseen (hover.enter _)
    have hslot := readSlot_refused (s := { s₁ with world := (b.stalls.enter s₁.world).2 }) hover
      hheld' (hdevice area harea) pace
    refine Run.wp_mono hslot (fun status s' h e he => ?_) fun _ hf => hf
    have hback : ∀ page, NoTrace view p page { s₁ with world := (b.stalls.enter s₁.world).2 } s' →
        NoTrace view p page s
          { s' with world := b.stalls.leave (b.stalls.enter s₁.world).1 s'.world } := by
      intro page htrace
      obtain ⟨hview, hrest⟩ := hkept.noTrace htrace
      refine ⟨(hover.leave _ _).trans hview, ?_⟩
      rw [hrest]
    have hpage : s₁.pages.get p = s.pages.get p := hkept.page
    simp only [hpage] at h
    rcases h e he with ⟨⟨why, hplace⟩, htrace⟩ | ⟨⟨place, hplace⟩, htrace⟩
    · exact Or.inl ⟨Or.inr ⟨area, why, harea, hplace⟩, hback _ htrace⟩
    · refine Or.inr ⟨?_, hback _ htrace⟩
      rintro (hnowhere | ⟨area', why, harea', hlost⟩)
      · exact absurd (hnowhere.symm.trans harea) nofun
      · obtain rfl := Option.some.inj (harea'.symm.trans harea)
        exact absurd (hplace.symm.trans hlost) nofun

end

/-- **A refused call leaves no trace.**  A page that is locked and has no transfer is written out,
written to its slot with any ending, or read in, and its area, if it has one, reaches a device.  If
the call answers an error, then no request has been made, no tag is taken, and all other pages, the
areas, and what is seen of the collaborators are as before.  The page has no transfer and its data
is as before; it is unlocked, and

* dirty, if it was to be written;
* errored and not valid, if it was to be read and its slot leads nowhere;
* nothing else, if it was to be read and no request was to be had. -/
theorem refused_call_leaves_no_trace {b : Backend σ} {view : σ → ν} (hb : Lawful b)
    (hover : b.Overlooks view) {s s' : System σ} {p : PageId} (hheld : (s.pages.get p).Held)
    (hdevice : ∀ area, s.areaAt p = some area → area.backing.device?.isSome) {e : Errno} :
    (∀ w, pageOut b p w s = .ok (.error e, s') → NoTrace view p (s.pages.get p).spilled s s') ∧
    (∀ w ending, pageOutPast b p w ending s = .ok (.error e, s') →
      NoTrace view p (s.pages.get p).spilled s s') ∧
    ((s.pages.get p).flags.uptodate = false → ∀ pace, pageIn b p pace s = .ok (.error e, s') →
      s.Misplaced p ∧ NoTrace view p (s.pages.get p).unread s s' ∨
        ¬ s.Misplaced p ∧ NoTrace view p (s.pages.get p).released s s') := by
  refine ⟨fun w h => ?_, fun w ending h => ?_, fun hclean pace h => ?_⟩
  · exact (pageOut_refused hb hover hheld hdevice w).of_ok h e rfl
  · exact (pageOutPast_refused hover hheld hdevice w ending).of_ok h e rfl
  · exact (pageIn_refused hb hover hheld hclean hdevice pace).of_ok h e rfl

/-- Nothing at all is seen of disks in memory that do not transfer a page. -/
theorem ramDisk_overlooks (steady : Bool) : (ramDisk steady).Overlooks id where
  tryFree := fun h => by
    injection h with hout hw
    injection hout with _ hpage
    exact ⟨hpage.symm, hw.symm⟩
  store := fun h => absurd h nofun
  fill := fun h => absurd h nofun
  transfer := fun {queue sector direction p page w e bytes w'} h => by
    injection h with h
    by_cases hdirect : w.direct = true
    · rw [if_pos hdirect] at h
      have hstatus : (w.move queue sector direction page).1.1 = .error e := by rw [h]
      cases direction <;> exact absurd hstatus nofun
    · rw [if_neg hdirect] at h
      injection h with hout hw
      injection hout with _ hbytes
      exact ⟨hbytes.symm, hw.symm⟩
  cycles := fun _ => rfl
  enter := fun _ => rfl
  leave := fun _ _ => rfl

/-- Page 0 is made of 128 base pages, twice as many as fit a request. -/
def ramOversized : System RamDisk :=
  let page : Page :=
    { flags.locked := true, order := 7, slot := some ⟨1⟩, bytes := Bytes.fill 524288 7 }
  { ramUp false (.device 0) with pages := ⟨#[page]⟩ }

/-- **A page that is too large for its device is given back**: dirty if it was to be written, and as
it was if it was to be read. -/
theorem large_page_given_back :
    (∃ s', pageOut (ramDisk false) 0 {} ramOversized = .ok (.error Errno.invalid, s') ∧
      s'.world = ramOversized.world ∧ s'.requests = ramOversized.requests ∧
      s'.devices = ramOversized.devices ∧ s'.pages.get 0 = (ramOversized.pages.get 0).spilled) ∧
    ∃ s', pageIn (ramDisk false) 0 .start ramOversized = .ok (.error Errno.invalid, s') ∧
      s'.world = ramOversized.world ∧ s'.requests = ramOversized.requests ∧
      s'.devices = ramOversized.devices ∧ s'.pages.get 0 = (ramOversized.pages.get 0).released := by
  have hdevice : ∀ area, ramOversized.areaAt 0 = some area → area.backing.device?.isSome := by
    intro area harea
    obtain rfl : ramArea = area := Option.some.inj harea
    rfl
  have hout := @Call.run_refused _ (ramDisk false) (.pageOut 0 {}) ramOversized Errno.invalid
    (by decide +kernel)
  have hin := @Call.run_refused _ (ramDisk false) (.pageIn 0 .start) ramOversized Errno.invalid
    (by decide +kernel)
  have hwritten := (refused_call_leaves_no_trace (ramDisk_lawful false) (ramDisk_overlooks false)
    (p := 0) ⟨rfl, rfl⟩ hdevice).1 {} hout
  have hread := (refused_call_leaves_no_trace (ramDisk_lawful false) (ramDisk_overlooks false)
    (p := 0) ⟨rfl, rfl⟩ hdevice).2.2 rfl .start hin
  constructor
  · obtain ⟨hworld, hrest⟩ := hwritten
    refine ⟨_, hout, hworld, ?_, ?_, ?_⟩ <;> rw [hrest]
    exact Table.get_set_self _ _ _
  · rcases hread with ⟨-, hworld, hrest⟩ | ⟨-, hworld, hrest⟩
    · -- its slot does lead somewhere
      have hsound : (((Call.pageIn 0 .start).after (ramDisk false) ramOversized).pages.get
          0).flags.error = false := by decide +kernel
      rw [hrest, Table.get_set_self] at hsound
      exact absurd hsound nofun
    · refine ⟨_, hin, hworld, ?_, ?_, ?_⟩ <;> rw [hrest]
      exact Table.get_set_self _ _ _

end PageSwap
